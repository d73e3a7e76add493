import DacRack.Number.Quotient
import Mathlib.Algebra.Order.Field.Rat
import Mathlib.Data.Int.Log
import Mathlib.Data.Rat.Floor
import Mathlib.Data.Rat.Lemmas
import Mathlib.Tactic.FieldSimp
import Mathlib.Tactic.Linarith
import Mathlib.Tactic.NormNum
import Mathlib.Tactic.Positivity
import Mathlib.Tactic.Ring

/-!
# Rounding to doubles

Every operation on doubles gives the double nearest to its exact result, the even one
of two that are equally near. Here that is a function on the rational numbers,
`rounded`, and all that is said about computed voltages and codes rests on three
properties of it: no double is nearer than the one it gives, so that it keeps the order
and leaves doubles alone; its error is at most one part in `2 ^ 53`; and close to zero,
where doubles are evenly spaced, it is at most half of their spacing.

Doubles are taken without a largest one here. Whether a result is too large to be one is
asked after it was rounded.
-/

namespace DacRack.Number

/-- The whole number nearest to a fraction that is not negative. -/
def nearest (tie : Tie) (x : ℚ) : ℕ :=
  divRound tie x.num.toNat x.den

theorem divRound_mul (tie : Tie) (n d : ℕ) {k : ℕ} (hk : 0 < k) :
    divRound tie (k * n) (k * d) = divRound tie n d := by
  have hlt : 2 * (k * (n % d)) < k * d ↔ 2 * (n % d) < d := by
    rw [Nat.mul_left_comm]
    exact Nat.mul_lt_mul_left hk
  have hgt : k * d < 2 * (k * (n % d)) ↔ d < 2 * (n % d) := by
    rw [Nat.mul_left_comm]
    exact Nat.mul_lt_mul_left hk
  simp only [divRound, Nat.mul_div_mul_left _ _ hk, Nat.mul_mod_mul_left, hlt, hgt]

theorem divRound_eq_nearest (tie : Tie) (n : ℕ) {d : ℕ} (hd : 0 < d) :
    divRound tie n d = nearest tie ((n : ℚ) / d) := by
  obtain ⟨k, hnum, hden⟩ := Rat.num_den_mk (Int.natCast_ne_zero.mpr (Nat.ne_of_gt hd))
    (Rat.natCast_div_eq_divInt n d)
  have hkpos : 0 < k := by
    have hpos : (0 : ℤ) < k * ((n : ℚ) / d).den := by
      rw [← hden]
      exact Int.natCast_pos.mpr hd
    exact (pos_iff_pos_of_mul_pos hpos).mpr (Int.natCast_pos.mpr (Rat.den_pos _))
  obtain ⟨k, rfl⟩ := Int.eq_ofNat_of_zero_le (Int.le_of_lt hkpos)
  have hn : n = k * ((n : ℚ) / d).num.toNat := by
    have hnonneg : 0 ≤ ((n : ℚ) / d).num := Rat.num_nonneg.mpr (by positivity)
    have hcast : ((k * ((n : ℚ) / d).num.toNat : ℕ) : ℤ) = n := by
      rw [Nat.cast_mul, Int.toNat_of_nonneg hnonneg]
      exact hnum.symm
    exact (Int.natCast_inj.mp hcast).symm
  have hd : d = k * ((n : ℚ) / d).den := Int.natCast_inj.mp (by rw [hden, Nat.cast_mul])
  calc divRound tie n d
      = divRound tie (k * ((n : ℚ) / d).num.toNat) (k * ((n : ℚ) / d).den) := by rw [← hn, ← hd]
    _ = nearest tie ((n : ℚ) / d) := divRound_mul tie _ _ (Int.natCast_pos.mp hkpos)

theorem nearest_natCast (tie : Tie) (n : ℕ) : nearest tie n = n := by
  unfold nearest
  rw [Rat.num_natCast, Rat.den_natCast, Int.toNat_natCast]
  simp [divRound, Nat.mod_one]

theorem nearest_zero (tie : Tie) : nearest tie 0 = 0 := by
  exact_mod_cast nearest_natCast tie 0

theorem abs_nearest_sub_le (tie : Tie) {x : ℚ} (hx : 0 ≤ x) :
    |(nearest tie x : ℚ) - x| ≤ 1 / 2 := by
  have hden : (0 : ℚ) < x.den := by exact_mod_cast x.den_pos
  have hnum : ((x.num.toNat : ℕ) : ℚ) = x * x.den := by
    rw [Rat.mul_den_eq_num]
    exact_mod_cast Int.toNat_of_nonneg (Rat.num_nonneg.mpr hx)
  have habove : 2 * ((nearest tie x : ℚ) * x.den) ≤ 2 * (x * x.den) + x.den := by
    rw [← hnum]
    exact_mod_cast divRound_le tie x.num.toNat x.den
  have hbelow : 2 * (x * x.den) ≤ 2 * ((nearest tie x : ℚ) * x.den) + x.den := by
    rw [← hnum]
    exact_mod_cast le_divRound tie x.num.toNat x.den_pos
  rw [abs_le]
  constructor
  · nlinarith
  · nlinarith

theorem nearest_mono (tie : Tie) {x y : ℚ} (hx : 0 ≤ x) (hxy : x ≤ y) :
    nearest tie x ≤ nearest tie y := by
  by_contra hlt
  have hstep : (nearest tie y : ℚ) + 1 ≤ nearest tie x := by exact_mod_cast Nat.lt_of_not_le hlt
  have hx' := abs_le.mp (abs_nearest_sub_le tie hx)
  have hy' := abs_le.mp (abs_nearest_sub_le tie (hx.trans hxy))
  -- Both are half a unit off, and so the same.
  have heq : x = y := by linarith [hx'.2, hy'.1]
  exact hlt (by rw [heq])

theorem nearest_eq_of_abs_lt (tie : Tie) {x : ℚ} (hx : 0 ≤ x) {n : ℕ} (h : |x - n| < 1 / 2) :
    nearest tie x = n := by
  have hnear := abs_nearest_sub_le tie hx
  have hsplit := abs_sub_le (nearest tie x : ℚ) x n
  have hlt : |((nearest tie x : ℤ) - n : ℤ)| < 1 := by
    have hcast : |(nearest tie x : ℚ) - n| < 1 := by linarith
    exact_mod_cast hcast
  have hzero := Int.abs_lt_one_iff.mp hlt
  omega

/-- Of the two neighbours of an exact half the even one is taken. -/
theorem nearest_even_of_half (n : ℕ) : nearest .even (n + 1 / 2) = n + n % 2 := by
  have hdiv : (n + 1 / 2 : ℚ) = ((2 * n + 1 : ℕ) : ℚ) / (2 : ℕ) := by
    push_cast
    ring
  have hbelow : (2 * n + 1) / 2 = n := by omega
  have hrest : (2 * n + 1) % 2 = 1 := by omega
  rw [hdiv, ← divRound_eq_nearest .even (2 * n + 1) (by omega)]
  simp only [divRound, hbelow, hrest]
  rfl

/-- No whole number is nearer. -/
theorem abs_nearest_sub_le_abs (tie : Tie) {x : ℚ} (hx : 0 ≤ x) (n : ℤ) :
    |(nearest tie x : ℚ) - x| ≤ |(n : ℚ) - x| := by
  by_cases h : n = nearest tie x
  · rw [h, Int.cast_natCast]
  · have hapart : (1 : ℚ) ≤ |(n : ℚ) - nearest tie x| := by
      exact_mod_cast Int.one_le_abs (sub_ne_zero.mpr h)
    have hsplit := abs_sub_le (n : ℚ) x (nearest tie x)
    have hhalf := abs_nearest_sub_le tie hx
    rw [abs_sub_comm x] at hsplit
    linarith

/-! Doubles, as rational numbers. -/

/-- The exponent of the doubles around a number: they are the multiples of two to it. -/
def spacing (q : ℚ) : ℤ :=
  max (Int.log 2 q - 52) (-1074)

/-- The double nearest to a number that is not negative. -/
def roundedMagnitude (q : ℚ) : ℚ :=
  nearest .even (q / 2 ^ spacing q) * 2 ^ spacing q

/-- The double nearest to a number. -/
def rounded (q : ℚ) : ℚ :=
  if q < 0 then -roundedMagnitude (-q) else roundedMagnitude q

def IsDouble (q : ℚ) : Prop :=
  ∃ (n : ℤ) (e : ℤ), |n| ≤ 2 ^ 53 ∧ -1074 ≤ e ∧ q = n * 2 ^ e

theorem two_zpow_pos (e : ℤ) : (0 : ℚ) < 2 ^ e :=
  zpow_pos (by norm_num) e

theorem mul_two_zpow_nonneg (m : ℕ) (e : ℤ) : (0 : ℚ) ≤ m * 2 ^ e :=
  mul_nonneg (Nat.cast_nonneg m) (two_zpow_pos e).le

theorem mul_two_zpow_pos {m : ℕ} (hm : 0 < m) (e : ℤ) : (0 : ℚ) < m * 2 ^ e :=
  mul_pos (Nat.cast_pos.mpr hm) (two_zpow_pos e)

theorem two_zpow_le {d e : ℤ} (h : d ≤ e) : (2 : ℚ) ^ d ≤ 2 ^ e :=
  zpow_le_zpow_right₀ (by norm_num) h

theorem two_zpow_add (d e : ℤ) : (2 : ℚ) ^ (d + e) = 2 ^ d * 2 ^ e :=
  zpow_add₀ (by norm_num) d e

/-- Powers of two are multiples of the smaller ones. -/
theorem two_zpow_eq_mul {d e : ℤ} (h : d ≤ e) :
    ∃ n : ℤ, (2 : ℚ) ^ e = n * 2 ^ d := by
  refine ⟨2 ^ (e - d).toNat, ?_⟩
  have hsplit : e = ((e - d).toNat : ℤ) + d := by omega
  have hpow := two_zpow_add ((e - d).toNat : ℤ) d
  rw [← hsplit, zpow_natCast] at hpow
  rw [hpow]
  push_cast
  rfl

theorem IsDouble.neg {q : ℚ} (h : IsDouble q) : IsDouble (-q) := by
  obtain ⟨n, e, hn, he, rfl⟩ := h
  exact ⟨-n, e, by rwa [abs_neg], he, by push_cast; ring⟩

theorem IsDouble.of_nat {n : ℕ} (h : n ≤ 2 ^ 53) : IsDouble n :=
  ⟨n, 0, by rw [Nat.abs_cast]; exact_mod_cast h, by omega, by
    rw [zpow_zero, mul_one, Int.cast_natCast]⟩

/-- Doubles are multiples of the smallest of them. -/
theorem IsDouble.eq_mul {q : ℚ} (h : IsDouble q) : ∃ n : ℤ, q = n * 2 ^ (-1074 : ℤ) := by
  obtain ⟨n, e, -, he, rfl⟩ := h
  obtain ⟨k, hk⟩ := two_zpow_eq_mul he
  exact ⟨n * k, by rw [hk, Int.cast_mul, mul_assoc]⟩

/-- Close to zero every such multiple is a double. -/
theorem IsDouble.of_mul {q : ℚ} {n : ℤ} (hq : q = n * 2 ^ (-1074 : ℤ))
    (hsmall : |q| ≤ 2 ^ (-1021 : ℤ)) : IsDouble q := by
  refine ⟨n, -1074, ?_, le_refl _, hq⟩
  rw [hq, abs_mul, abs_of_pos (two_zpow_pos _)] at hsmall
  have hsplit : (2 : ℚ) ^ (-1021 : ℤ) = 2 ^ 53 * 2 ^ (-1074 : ℤ) := by
    rw [← zpow_natCast, ← two_zpow_add]
    rfl
  rw [hsplit] at hsmall
  exact_mod_cast le_of_mul_le_mul_right hsmall (two_zpow_pos _)

theorem roundedMagnitude_nonneg (q : ℚ) : 0 ≤ roundedMagnitude q :=
  mul_two_zpow_nonneg _ _

/-- The error is at most half the spacing. -/
theorem abs_roundedMagnitude_sub_le {q : ℚ} (hq : 0 ≤ q) :
    |roundedMagnitude q - q| ≤ 2 ^ spacing q / 2 := by
  have hpos := two_zpow_pos (spacing q)
  have hhalf := abs_nearest_sub_le .even (div_nonneg hq hpos.le)
  have hscale : roundedMagnitude q - q =
      (nearest .even (q / 2 ^ spacing q) - q / 2 ^ spacing q) * 2 ^ spacing q := by
    rw [sub_mul, div_mul_cancel₀ _ hpos.ne']
    rfl
  rw [hscale, abs_mul, abs_of_pos hpos]
  calc |(nearest .even (q / 2 ^ spacing q) : ℚ) - q / 2 ^ spacing q| * 2 ^ spacing q
      ≤ 1 / 2 * 2 ^ spacing q := mul_le_mul_of_nonneg_right hhalf hpos.le
    _ = 2 ^ spacing q / 2 := by ring

/-- No multiple of the spacing is nearer. -/
theorem abs_roundedMagnitude_sub_le_abs {q : ℚ} (hq : 0 ≤ q) (n : ℤ) :
    |roundedMagnitude q - q| ≤ |n * 2 ^ spacing q - q| := by
  have hpos := two_zpow_pos (spacing q)
  have hscale (m : ℚ) : |m * 2 ^ spacing q - q| =
      |m - q / 2 ^ spacing q| * 2 ^ spacing q := by
    rw [← abs_of_pos hpos, ← abs_mul, abs_of_pos hpos, sub_mul, div_mul_cancel₀ _ hpos.ne']
  rw [hscale, roundedMagnitude, hscale]
  exact mul_le_mul_of_nonneg_right
    (abs_nearest_sub_le_abs .even (div_nonneg hq hpos.le) n) hpos.le

/-- No double is nearer. -/
theorem abs_roundedMagnitude_sub_le_of_isDouble {q y : ℚ} (hq : 0 ≤ q) (hy : IsDouble y) :
    |roundedMagnitude q - q| ≤ |y - q| := by
  obtain ⟨n, e, hn, he, rfl⟩ := hy
  rcases hq.eq_or_lt with rfl | hpos
  · have hzero := abs_roundedMagnitude_sub_le_abs (le_refl 0) 0
    rw [Int.cast_zero, zero_mul, sub_self, abs_zero] at hzero
    exact hzero.trans (abs_nonneg _)
  by_cases hfine : spacing q ≤ e
  · obtain ⟨k, hk⟩ := two_zpow_eq_mul hfine
    rw [hk, ← mul_assoc, ← Int.cast_mul]
    exact abs_roundedMagnitude_sub_le_abs hq (n * k)
  -- A double on a finer grid is below the power of two under `q`, and that is on the grid.
  · have hspacing : spacing q = Int.log 2 q - 52 := by
      unfold spacing at hfine ⊢
      omega
    have hlog : (2 : ℚ) ^ Int.log 2 q = (2 ^ 52 : ℤ) * 2 ^ spacing q := by
      have hsplit : Int.log 2 q = (52 : ℕ) + spacing q := by
        rw [hspacing]
        push_cast
        ring
      rw [hsplit, two_zpow_add, zpow_natCast]
      norm_num
    have hbelow : (2 : ℚ) ^ Int.log 2 q ≤ q := by
      exact_mod_cast Int.zpow_log_le_self Nat.one_lt_two hpos
    have hexponent : 53 + e ≤ Int.log 2 q := by omega
    have hsmall : (n : ℚ) * 2 ^ e ≤ 2 ^ Int.log 2 q := by
      have hn' : (n : ℚ) ≤ 2 ^ (53 : ℤ) := by exact_mod_cast (le_abs_self n).trans hn
      calc (n : ℚ) * 2 ^ e ≤ 2 ^ (53 : ℤ) * 2 ^ e :=
            mul_le_mul_of_nonneg_right hn' (two_zpow_pos e).le
        _ = 2 ^ (53 + e) := (two_zpow_add _ _).symm
        _ ≤ 2 ^ Int.log 2 q := two_zpow_le hexponent
    calc |roundedMagnitude q - q| ≤ |(2 ^ 52 : ℤ) * 2 ^ spacing q - q| :=
          abs_roundedMagnitude_sub_le_abs hq _
      _ = q - 2 ^ Int.log 2 q := by rw [← hlog, abs_sub_comm, abs_of_nonneg (by linarith)]
      _ ≤ q - n * 2 ^ e := by linarith
      _ ≤ |n * 2 ^ e - q| := by
          rw [abs_sub_comm]
          exact le_abs_self _

theorem isDouble_roundedMagnitude {q : ℚ} (hq : 0 ≤ q) : IsDouble (roundedMagnitude q) := by
  have hpos := two_zpow_pos (spacing q)
  have hlt : q < 2 ^ (Int.log 2 q + 1) := by
    exact_mod_cast Int.lt_zpow_succ_log_self Nat.one_lt_two q
  have hfits : q / 2 ^ spacing q ≤ ((2 ^ 53 : ℕ) : ℚ) := by
    rw [div_le_iff₀ hpos]
    calc q ≤ 2 ^ (Int.log 2 q + 1) := hlt.le
      _ ≤ 2 ^ ((53 : ℕ) + spacing q) := two_zpow_le (by unfold spacing; omega)
      _ = ((2 ^ 53 : ℕ) : ℚ) * 2 ^ spacing q := by
          rw [two_zpow_add, zpow_natCast]
          push_cast
          rfl
  have hle := nearest_mono .even (div_nonneg hq hpos.le) hfits
  rw [nearest_natCast] at hle
  refine ⟨nearest .even (q / 2 ^ spacing q), spacing q, ?_, le_max_right _ _, ?_⟩
  · rw [abs_of_nonneg (Int.natCast_nonneg _)]
    exact_mod_cast hle
  · rw [Int.cast_natCast]
    rfl

theorem isDouble_rounded (q : ℚ) : IsDouble (rounded q) := by
  unfold rounded
  split
  · next hneg => exact (isDouble_roundedMagnitude (by linarith)).neg
  · next hnonneg => exact isDouble_roundedMagnitude (not_lt.mp hnonneg)

theorem abs_rounded_sub_le {q y : ℚ} (hy : IsDouble y) : |rounded q - q| ≤ |y - q| := by
  unfold rounded
  split
  · next hneg =>
      have h := abs_roundedMagnitude_sub_le_of_isDouble (q := -q) (by linarith) hy.neg
      have hflip (z : ℚ) : |z - -q| = |-z - q| := by
        rw [← abs_neg]
        congr 1
        ring
      rw [hflip, hflip, neg_neg] at h
      exact h
  · next hnonneg => exact abs_roundedMagnitude_sub_le_of_isDouble (not_lt.mp hnonneg) hy

/-- A double is left alone. -/
theorem rounded_of_isDouble {q : ℚ} (h : IsDouble q) : rounded q = q := by
  have hzero := abs_rounded_sub_le h (q := q)
  rw [sub_self, abs_zero] at hzero
  exact sub_eq_zero.mp (abs_nonpos_iff.mp hzero)

/-- Rounding does not go past a double. -/
theorem le_rounded {q y : ℚ} (hy : IsDouble y) (h : y ≤ q) : y ≤ rounded q := by
  by_contra hlt
  have hnear := abs_rounded_sub_le hy (q := q)
  rw [abs_sub_comm, abs_of_pos (by linarith), abs_sub_comm, abs_of_nonneg (by linarith)] at hnear
  linarith

theorem rounded_le {q y : ℚ} (hy : IsDouble y) (h : q ≤ y) : rounded q ≤ y := by
  by_contra hlt
  have hnear := abs_rounded_sub_le hy (q := q)
  rw [abs_of_pos (by linarith), abs_of_nonneg (by linarith)] at hnear
  linarith

theorem rounded_mono {p q : ℚ} (h : p ≤ q) : rounded p ≤ rounded q := by
  by_contra hlt
  have hp := abs_rounded_sub_le (isDouble_rounded q) (q := p)
  have hq := abs_rounded_sub_le (isDouble_rounded p) (q := q)
  -- Both lie strictly between the two results.
  have hpq : p < rounded p := by
    by_contra hle
    have hle' := le_rounded (isDouble_rounded p) (show rounded p ≤ q by linarith)
    linarith
  have hqp : rounded q < q := by
    by_contra hle
    have hle' := rounded_le (isDouble_rounded q) (show p ≤ rounded q by linarith)
    linarith
  have hlow : rounded q ≤ p := by
    by_contra hle
    have hle' := rounded_le (isDouble_rounded q) (show p ≤ rounded q by linarith)
    linarith
  have hhigh : q ≤ rounded p := by
    by_contra hle
    have hle' := le_rounded (isDouble_rounded p) (show rounded p ≤ q by linarith)
    linarith
  rw [abs_of_pos (by linarith), abs_sub_comm, abs_of_nonneg (by linarith)] at hp
  rw [abs_sub_comm, abs_of_pos (by linarith), abs_of_nonneg (by linarith)] at hq
  have heq : p = q := by linarith
  exact hlt (by rw [heq])

theorem rounded_of_nonneg {q : ℚ} (h : 0 ≤ q) : rounded q = roundedMagnitude q :=
  if_neg (not_lt.mpr h)

theorem rounded_zero : rounded 0 = 0 := by
  exact_mod_cast rounded_of_isDouble (IsDouble.of_nat (Nat.zero_le _) (n := 0))

theorem rounded_neg (q : ℚ) : rounded (-q) = -rounded q := by
  rcases lt_trichotomy q 0 with hneg | rfl | hpos
  · rw [rounded_of_nonneg (by linarith), rounded, if_pos hneg, neg_neg]
  · rw [neg_zero, rounded_zero, neg_zero]
  · rw [rounded_of_nonneg hpos.le, rounded, if_pos (by linarith), neg_neg]

/-- Away from zero the error is relative. -/
theorem abs_rounded_sub_le_mul {q : ℚ} (h : 2 ^ (-1022 : ℤ) ≤ q) :
    |rounded q - q| ≤ q * 2 ^ (-53 : ℤ) := by
  have hpos : 0 < q := (two_zpow_pos _).trans_le h
  have hlog : -1022 ≤ Int.log 2 q := by
    have hle : ((2 : ℕ) : ℚ) ^ (-1022 : ℤ) ≤ q := by exact_mod_cast h
    exact (Int.zpow_le_iff_le_log Nat.one_lt_two hpos).mp hle
  have hbelow : (2 : ℚ) ^ Int.log 2 q ≤ q := by
    exact_mod_cast Int.zpow_log_le_self Nat.one_lt_two hpos
  have hspacing : spacing q = Int.log 2 q + (-53) + 1 := by
    unfold spacing
    omega
  have hhalf : (2 : ℚ) ^ spacing q / 2 = 2 ^ Int.log 2 q * 2 ^ (-53 : ℤ) := by
    rw [hspacing, two_zpow_add, two_zpow_add]
    ring
  rw [rounded_of_nonneg hpos.le]
  calc |roundedMagnitude q - q| ≤ 2 ^ spacing q / 2 := abs_roundedMagnitude_sub_le hpos.le
    _ = 2 ^ Int.log 2 q * 2 ^ (-53 : ℤ) := hhalf
    _ ≤ q * 2 ^ (-53 : ℤ) := mul_le_mul_of_nonneg_right hbelow (two_zpow_pos _).le

/-- Close to zero it is absolute. -/
theorem abs_rounded_sub_le_half {q : ℚ} (hq : 0 ≤ q) (h : q < 2 ^ (-1021 : ℤ)) :
    |rounded q - q| ≤ 2 ^ (-1074 : ℤ) / 2 := by
  rcases hq.eq_or_lt with rfl | hpos
  · rw [rounded_zero, sub_self, abs_zero]
    exact div_nonneg (two_zpow_pos _).le (by norm_num)
  have hlog : Int.log 2 q < -1021 := by
    have hlt : q < ((2 : ℕ) : ℚ) ^ (-1021 : ℤ) := by exact_mod_cast h
    exact (Int.lt_zpow_iff_log_lt Nat.one_lt_two hpos).mp hlt
  have hspacing : spacing q = -1074 := by
    unfold spacing
    omega
  rw [rounded_of_nonneg hq, ← hspacing]
  exact abs_roundedMagnitude_sub_le hq

end DacRack.Number
