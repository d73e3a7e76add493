import DacRack.Proofs.Rounding
import Mathlib

/-!
# What operations on doubles compute

Lean defines its doubles by bits, which an operation takes apart into a sign, a whole
number and an exponent and puts together again. This file says what comes out in terms
of rational numbers: `value? x` is the number that a double stands for, infinities and
NaN standing for none, and an operation on doubles gives the exact result of the numbers,
rounded, as long as that is not too large (`fit`).

The whole number inside a double has its leading bit in a fixed place, but for the ones
close to zero (`Canonical`). Rounding keeps what it shifts out in two bits, which say
whether the rest is below, at or above a half. That is enough to know the nearest whole
number (`Stands`), and the only thing about those bits that the rest depends on.
-/

namespace DacRack.Number

open Float.Model Float.Model.UnpackedFloat

/-- The bits behind a whole number say where a number above it lies: the first counts a
half, and the second says whether there is more. -/
def Stands (em : ExtendedMantissa) (x : ℚ) : Prop :=
  ∃ rest : ℚ, 0 ≤ rest ∧ rest < 1 / 2 ∧ (em.stickyBit = true ↔ 0 < rest) ∧
    x = em.mantissa + em.roundBit.toNat / 2 + rest

namespace Stands

variable {em : ExtendedMantissa} {x : ℚ}

theorem le (h : Stands em x) : (em.mantissa : ℚ) ≤ x := by
  obtain ⟨rest, hrest, -, -, rfl⟩ := h
  have hround : (0 : ℚ) ≤ em.roundBit.toNat := Nat.cast_nonneg _
  linarith

theorem nonneg (h : Stands em x) : 0 ≤ x :=
  (Nat.cast_nonneg _).trans h.le

theorem lt (h : Stands em x) : x < em.mantissa + 1 := by
  obtain ⟨rest, -, hrest, -, rfl⟩ := h
  have hround : (em.roundBit.toNat : ℚ) ≤ 1 := by exact_mod_cast em.roundBit.toNat_le
  linarith

/-- Half the number is where the bits say once they took in another. -/
theorem shiftRightOne (h : Stands em x) : Stands em.shiftRightOne (x / 2) := by
  obtain ⟨rest, hrest, hlt, hsticky, rfl⟩ := h
  have hround : (em.roundBit.toNat : ℚ) ≤ 1 := by exact_mod_cast em.roundBit.toNat_le
  have hround' : (0 : ℚ) ≤ em.roundBit.toNat := Nat.cast_nonneg _
  refine ⟨em.roundBit.toNat / 4 + rest / 2, by linarith, by linarith, ?_, ?_⟩
  · show (em.roundBit || em.stickyBit) = true ↔ _
    rw [Bool.or_eq_true, hsticky]
    cases em.roundBit with
    | false => simp
    | true =>
        have hpos : (0 : ℚ) < true.toNat / 4 + rest / 2 := by
          rw [Bool.toNat_true, Nat.cast_one]
          linarith
        exact iff_of_true (.inl rfl) hpos
  · have hm : (em.mantissa : ℚ) = 2 * (em.mantissa / 2 : ℕ) + (em.mantissa % 2 : ℕ) := by
      exact_mod_cast (Nat.div_add_mod em.mantissa 2).symm
    have hbit : (em.mantissa % 2 != 0).toNat = em.mantissa % 2 := by
      rcases Nat.mod_two_eq_zero_or_one em.mantissa with h | h
      · rw [h]; rfl
      · rw [h]; rfl
    show _ = ((em.mantissa / 2 : ℕ) : ℚ) + (em.mantissa % 2 != 0).toNat / 2 + _
    rw [hbit, hm]
    ring

theorem shiftRight (h : Stands em x) (n : ℕ) : Stands (em >>> n) (x / 2 ^ n) := by
  show Stands (n.repeat ExtendedMantissa.shiftRightOne em) (x / 2 ^ n)
  induction n with
  | zero =>
      rw [pow_zero, div_one]
      exact h
  | succ n ih =>
      rw [pow_succ, ← div_div]
      exact ih.shiftRightOne

/-- The bits tell the nearest whole number. -/
theorem roundedMantissa_eq (h : Stands em x) : em.roundedMantissa = nearest .even x := by
  have hx := h.nonneg
  obtain ⟨rest, hrest, hlt, hsticky, rfl⟩ := h
  obtain ⟨m, round, sticky⟩ := em
  simp only at hsticky hx ⊢
  cases round with
  | false =>
      have hdown : nearest .even ((m : ℚ) + false.toNat / 2 + rest) = m := by
        refine nearest_eq_of_abs_lt .even hx ?_
        rw [Bool.toNat_false, Nat.cast_zero, zero_div, add_zero, add_sub_cancel_left,
          abs_of_nonneg hrest]
        exact hlt
      rw [hdown]
      cases sticky <;> rfl
  | true =>
      rw [Bool.toNat_true, Nat.cast_one] at hx ⊢
      cases sticky with
      | false =>
          have hzero : rest = 0 := by
            by_contra hne
            exact Bool.false_ne_true (hsticky.mpr (lt_of_le_of_ne hrest (Ne.symm hne)))
          rw [hzero, add_zero, nearest_even_of_half]
          rfl
      | true =>
          have hpos := hsticky.mp rfl
          refine (nearest_eq_of_abs_lt .even hx (n := m + 1) ?_).symm
          push_cast
          rw [abs_of_neg (by linarith)]
          linarith

end Stands

theorem stands_exact (m : ℕ) :
    Stands (ExtendedMantissa.ofMantissaAndAccuracy m .exact) m := by
  refine ⟨0, le_refl 0, by norm_num, ?_, ?_⟩
  · exact iff_of_false Bool.false_ne_true (lt_irrefl 0)
  · show (m : ℚ) = m + (0 : ℕ) / 2 + 0
    rw [Nat.cast_zero, zero_div, add_zero, add_zero]

/-- The leading bit is in its place, or the exponent is the smallest. -/
def Canonical : UnpackedFloat → Prop
  | .finite _ m e _ => m < 2 ^ 53 ∧ -1074 ≤ e ∧ (2 ^ 52 ≤ m ∨ e = -1074)
  | _ => True

/-- A sign as a factor. -/
def unit : Sign → ℚ
  | .positive => 1
  | .negative => -1

/-- The number an unpacked double stands for. -/
def rational? : UnpackedFloat → Option ℚ
  | .zero _ => some 0
  | .finite s m e _ => some (unit s * (m * 2 ^ e))
  | _ => none

theorem targetExponent_eq (m : ℕ) (e : ℤ) :
    Format.binary64.targetExponent (totalExponent m e) = max (m.log2 + e - 52) (-1074) := by
  show max ((m.log2 : ℤ) + 1 + e - (53 : ℕ)) (3 - 2 ^ 10 - (53 : ℕ)) = _
  omega

theorem shiftToTargetExponent_eq {m : ℕ} {e : ℤ} (accuracy : Accuracy)
    (h : e ≤ max (m.log2 + e - 52) (-1074)) :
    shiftToTargetExponent Format.binary64 m e accuracy =
      (ExtendedMantissa.ofMantissaAndAccuracy m accuracy >>>
        (max (m.log2 + e - 52) (-1074) - e).toNat, max (m.log2 + e - 52) (-1074)) := by
  rw [shiftToTargetExponent, targetExponent_eq, shiftToExponent, Int.toNat_of_nonneg (by omega)]
  simp only [Prod.mk.injEq, true_and]
  omega

theorem spacing_eq {m : ℕ} {x : ℚ} {e : ℤ} (hm : 0 < m) (hle : m ≤ x) (hlt : x < m + 1) :
    spacing (x * 2 ^ e) = max (m.log2 + e - 52) (-1074) := by
  have hpos : 0 < x * 2 ^ e :=
    mul_pos ((Nat.cast_pos.mpr hm).trans_le hle) (two_zpow_pos e)
  have hlow : (2 : ℚ) ^ ((m.log2 : ℤ) + e) ≤ x * 2 ^ e := by
    have hpow : ((2 ^ m.log2 : ℕ) : ℚ) ≤ m := by exact_mod_cast Nat.log2_self_le hm.ne'
    rw [two_zpow_add, zpow_natCast]
    exact mul_le_mul_of_nonneg_right (by push_cast at hpow; linarith) (two_zpow_pos e).le
  have hhigh : x * 2 ^ e < (2 : ℚ) ^ ((m.log2 + 1 : ℕ) + e) := by
    have hpow : (m : ℚ) + 1 ≤ ((2 ^ (m.log2 + 1) : ℕ) : ℚ) := by
      exact_mod_cast Nat.lt_log2_self
    rw [two_zpow_add, zpow_natCast]
    exact mul_lt_mul_of_pos_right (by push_cast at hpow; linarith) (two_zpow_pos e)
  have hlog : Int.log 2 (x * 2 ^ e) = m.log2 + e := by
    have h₁ := (Int.zpow_le_iff_le_log Nat.one_lt_two hpos).mp (by exact_mod_cast hlow)
    have h₂ := (Int.lt_zpow_iff_log_lt Nat.one_lt_two hpos).mp (by exact_mod_cast hhigh)
    push_cast at h₂
    omega
  rw [spacing, hlog]

/-- A result is as it should be, and stands for the number. -/
def Gives (u : UnpackedFloat) (q : ℚ) : Prop :=
  Canonical u ∧ rational? u = some q

/-- The end of rounding: a whole number that takes one bit too many loses it again. -/
theorem gives_of_rounded (s : Sign) {n : ℕ} {e : ℤ} (hn : n ≤ 2 ^ 53) (he : -1074 ≤ e)
    (hlead : 2 ^ 52 ≤ n ∨ e = -1074) :
    let (em, e') := shiftToTargetExponent Format.binary64 n e .exact
    Gives (if h : em.mantissa = 0 then .zero s
      else .finite s em.mantissa e' (Nat.pos_of_ne_zero h)) (unit s * (n * 2 ^ e)) := by
  rcases hn.lt_or_eq with hlt | rfl
  · have hlog : n.log2 ≤ 52 := by
      rcases Nat.eq_zero_or_pos n with rfl | hpos
      · decide
      · exact Nat.le_of_lt_succ ((Nat.log2_lt hpos.ne').mpr hlt)
    have hsame : shiftToTargetExponent Format.binary64 n e .exact =
        (⟨n, false, false⟩, e) := by
      have hshift : (Format.binary64.targetExponent (totalExponent n e) - e).toNat = 0 := by
        rw [targetExponent_eq]
        omega
      rw [shiftToTargetExponent, shiftToExponent, hshift]
      simp only [Nat.cast_zero, add_zero]
      rfl
    rw [hsame]
    show Gives (if h : n = 0 then _ else .finite s n e (Nat.pos_of_ne_zero h)) _
    split
    · next hzero =>
        refine ⟨trivial, ?_⟩
        rw [hzero, Nat.cast_zero, zero_mul, mul_zero]
        rfl
    · next hzero => exact ⟨⟨hlt, he, hlead⟩, rfl⟩
  · have hshift : shiftToTargetExponent Format.binary64 (2 ^ 53) e .exact =
        (⟨2 ^ 52, false, false⟩, e + 1) := by
      have hlog : (2 ^ 53 : ℕ).log2 = 53 := Nat.log2_two_pow
      have htarget : max (((2 ^ 53 : ℕ).log2 : ℤ) + e - 52) (-1074) = e + 1 := by
        rw [hlog]
        omega
      have hone : (e + 1 - e).toNat = 1 := by omega
      rw [shiftToTargetExponent_eq .exact (by rw [htarget]; omega), htarget, hone]
      rfl
    rw [hshift]
    refine ⟨⟨by decide, by omega, .inl (le_refl _)⟩, ?_⟩
    show some (unit s * (((2 ^ 52 : ℕ) : ℚ) * 2 ^ (e + 1))) = _
    rw [two_zpow_add]
    congr 2
    push_cast
    ring

theorem mantissa_ofMantissaAndAccuracy (m : ℕ) (accuracy : Accuracy) :
    (ExtendedMantissa.ofMantissaAndAccuracy m accuracy).mantissa = m := by
  cases accuracy with
  | exact => rfl
  | inexact side => cases side <;> rfl

/-- The exponent that rounding aims for is that of the doubles around the number. -/
theorem spacing_eq_of_lt {m : ℕ} {x : ℚ} {e : ℤ} (hpos : 0 < x) (hle : m ≤ x)
    (hlt : x < m + 1) (he : e ≤ max (m.log2 + e - 52) (-1074)) :
    spacing (x * 2 ^ e) = max (m.log2 + e - 52) (-1074) := by
  rcases Nat.eq_zero_or_pos m with rfl | hm
  · have hlog0 : (0 : ℕ).log2 = 0 := by decide
    rw [hlog0] at he ⊢
    rw [Nat.cast_zero, zero_add] at hlt
    have hsmall : x * 2 ^ e < ((2 : ℕ) : ℚ) ^ (-1074 : ℤ) := by
      calc x * 2 ^ e < 1 * 2 ^ e := mul_lt_mul_of_pos_right hlt (two_zpow_pos e)
        _ = 2 ^ e := one_mul _
        _ ≤ 2 ^ (-1074 : ℤ) := two_zpow_le (by omega)
    have hlog := (Int.lt_zpow_iff_log_lt Nat.one_lt_two
      (mul_pos hpos (two_zpow_pos e))).mp hsmall
    unfold spacing
    omega
  · exact spacing_eq hm hle hlt

/-- What rounding gives. The number is `x` units of `2 ^ e`, and the accuracy says where
it lies above `m` units. -/
theorem gives_roundWithAccuracy (s : Sign) {m : ℕ} {e : ℤ} {accuracy : Accuracy} {x : ℚ}
    (hx : Stands (ExtendedMantissa.ofMantissaAndAccuracy m accuracy) x)
    (he : e ≤ max (m.log2 + e - 52) (-1074)) :
    Gives (roundWithAccuracy Format.binary64 s m e accuracy)
      (unit s * roundedMagnitude (x * 2 ^ e)) := by
  have hle := hx.le
  have hlt := hx.lt
  rw [mantissa_ofMantissaAndAccuracy] at hle hlt
  have hspacing (hpos : 0 < x) := spacing_eq_of_lt hpos hle hlt he
  have hshift := shiftToTargetExponent_eq accuracy he
  generalize ht : max ((m.log2 : ℤ) + e - 52) (-1074) = t at he hspacing hshift
  have hem := hx.shiftRight (t - e).toNat
  generalize ExtendedMantissa.ofMantissaAndAccuracy m accuracy >>> (t - e).toNat = em
    at hem hshift
  have hpow : (0 : ℚ) < 2 ^ (t - e).toNat := by positivity
  -- In units of the spacing the number is `x` shifted like the bits.
  have hscale : x * 2 ^ e = x / 2 ^ (t - e).toNat * 2 ^ t := by
    have hsplit := two_zpow_add ((t - e).toNat : ℤ) e
    rw [show ((t - e).toNat : ℤ) + e = t by omega, zpow_natCast] at hsplit
    rw [hsplit, ← mul_assoc, div_mul_cancel₀ _ hpow.ne']
  have hmagnitude : roundedMagnitude (x * 2 ^ e) = em.roundedMantissa * 2 ^ t := by
    rw [hem.roundedMantissa_eq]
    rcases hx.nonneg.eq_or_lt with rfl | hpos
    · rw [roundedMagnitude, zero_mul, zero_div, zero_div, nearest_zero, Nat.cast_zero, zero_mul,
        zero_mul]
    · rw [roundedMagnitude, hspacing hpos, hscale, mul_div_cancel_right₀ _ (two_zpow_pos t).ne']
  have hbound : em.roundedMantissa ≤ 2 ^ 53 := by
    have hfits : x / 2 ^ (t - e).toNat ≤ ((2 ^ 53 : ℕ) : ℚ) := by
      have hpow' : (m + 1 : ℚ) ≤ ((2 ^ 53 * 2 ^ (t - e).toNat : ℕ) : ℚ) := by
        have hlog : 2 ^ (m.log2 + 1) ≤ 2 ^ (53 + (t - e).toNat) :=
          Nat.pow_le_pow_right (by omega) (by omega)
        rw [Nat.pow_add 2 53] at hlog
        exact_mod_cast Nat.lt_log2_self.trans_le hlog
      rw [div_le_iff₀ hpow]
      push_cast at hpow' ⊢
      linarith
    have hmono := nearest_mono .even hem.nonneg hfits
    rwa [nearest_natCast, ← hem.roundedMantissa_eq] at hmono
  have hlead : 2 ^ 52 ≤ em.roundedMantissa ∨ t = -1074 := by
    by_cases hmin : t = -1074
    · exact .inr hmin
    · have hlog : m.log2 = 52 + (t - e).toNat := by omega
      have hm : m ≠ 0 := by
        rintro rfl
        rw [show (0 : ℕ).log2 = 0 by decide] at hlog
        omega
      have hfits : ((2 ^ 52 : ℕ) : ℚ) ≤ x / 2 ^ (t - e).toNat := by
        have hpow' : ((2 ^ 52 * 2 ^ (t - e).toNat : ℕ) : ℚ) ≤ m := by
          rw [← Nat.pow_add, ← hlog]
          exact_mod_cast Nat.log2_self_le hm
        rw [le_div_iff₀ hpow]
        push_cast at hpow' ⊢
        linarith
      have hmono := nearest_mono .even (by positivity) hfits
      rw [nearest_natCast, ← hem.roundedMantissa_eq] at hmono
      exact .inl hmono
  rw [hmagnitude]
  unfold roundWithAccuracy
  rw [hshift]
  exact gives_of_rounded s hbound (by omega) hlead

theorem unit_mul_roundedMagnitude (s : Sign) {q : ℚ} (hq : 0 ≤ q) :
    unit s * roundedMagnitude q = rounded (unit s * q) := by
  cases s with
  | positive => rw [unit, one_mul, one_mul, rounded_of_nonneg hq]
  | negative => rw [unit, neg_one_mul, neg_one_mul, rounded_neg, rounded_of_nonneg hq]

/-- A whole number of units that has to be shifted up before it is rounded. -/
theorem gives_round (s : Sign) {m : ℕ} (e : ℤ) (hm : 0 < m) :
    Gives (UnpackedFloat.round Format.binary64 s m e) (unit s * roundedMagnitude (m * 2 ^ e)) := by
  let t : ℤ := max (m.log2 + e - 52) (-1074)
  let k : ℕ := (e - t).toNat
  have hlog : (m * 2 ^ k).log2 = m.log2 + k := by
    rw [Nat.log2_eq_iff (Nat.mul_ne_zero hm.ne' (by positivity))]
    refine ⟨?_, ?_⟩
    · rw [Nat.pow_add]
      exact Nat.mul_le_mul_right _ (Nat.log2_self_le hm.ne')
    · rw [Nat.add_right_comm, Nat.pow_add]
      exact Nat.mul_lt_mul_of_pos_right Nat.lt_log2_self (by positivity)
  have hscale : (m : ℚ) * 2 ^ e = ((m * 2 ^ k : ℕ) : ℚ) * 2 ^ (e - k) := by
    have hsplit := two_zpow_add (k : ℤ) (e - k)
    rw [show (k : ℤ) + (e - k) = e by omega, zpow_natCast] at hsplit
    rw [hsplit]
    push_cast
    ring
  have hround : UnpackedFloat.round Format.binary64 s m e =
      roundWithAccuracy Format.binary64 s (m * 2 ^ k) (e - k) .exact := by
    rw [UnpackedFloat.round, targetExponent_eq, decreaseExponent, Nat.shiftLeft_eq]
  rw [hround, hscale]
  refine gives_roundWithAccuracy s (stands_exact _) ?_
  rw [hlog]
  push_cast
  omega

theorem gives_normalize (n : ℤ) (e : ℤ) (zeroSign : Sign) :
    Gives (UnpackedFloat.normalize Format.binary64 n e zeroSign) (rounded (n * 2 ^ e)) := by
  have hpow := two_zpow_pos e
  rcases lt_trichotomy n 0 with hneg | rfl | hpos
  · have hn : (((-n).toNat : ℕ) : ℚ) = -n := by exact_mod_cast Int.toNat_of_nonneg (by omega)
    have h := gives_round .negative e (m := (-n).toNat) (by omega)
    rw [unit_mul_roundedMagnitude _ (by positivity), hn, unit, neg_one_mul, neg_mul, neg_neg] at h
    have hcompare : compare n 0 = .lt := compare_lt_iff_lt.mpr hneg
    rw [UnpackedFloat.normalize, hcompare]
    exact h
  · rw [Int.cast_zero, zero_mul, rounded_zero]
    exact ⟨trivial, rfl⟩
  · have hn : ((n.toNat : ℕ) : ℚ) = n := by exact_mod_cast Int.toNat_of_nonneg (by omega)
    have h := gives_round .positive e (m := n.toNat) (by omega)
    rw [unit_mul_roundedMagnitude _ (by positivity), hn, unit, one_mul] at h
    have hcompare : compare n 0 = .gt := compare_gt_iff_gt.mpr hpos
    rw [UnpackedFloat.normalize, hcompare]
    exact h

theorem Gives.isDouble {u : UnpackedFloat} {q : ℚ} (h : Gives u q) : IsDouble q := by
  obtain ⟨hcanonical, hq⟩ := h
  cases u with
  | notANumber => cases hq
  | infinity s => cases hq
  | zero s =>
      cases hq
      exact ⟨0, 0, by norm_num, by omega, by norm_num⟩
  | finite s m e hm =>
      cases hq
      have hdouble : IsDouble ((m : ℚ) * 2 ^ e) := by
        refine ⟨m, e, ?_, hcanonical.2.1, by rw [Int.cast_natCast]⟩
        rw [Nat.abs_cast]
        exact_mod_cast hcanonical.1.le
      cases s with
      | positive =>
          rw [unit, one_mul]
          exact hdouble
      | negative =>
          rw [unit, neg_one_mul]
          exact hdouble.neg

theorem unit_apply (s : Sign) (m : ℕ) : ((s.apply m : ℤ) : ℚ) = unit s * m := by
  cases s with
  | positive => rw [unit, one_mul]; rfl
  | negative => rw [unit, neg_one_mul, Sign.apply]; push_cast; rfl

theorem unit_mul (s s' : Sign) : unit (s * s') = unit s * unit s' := by
  cases s with
  | positive => rw [unit, one_mul]; cases s' <;> rfl
  | negative =>
      rw [unit, neg_one_mul]
      cases s' with
      | positive => rfl
      | negative => exact (neg_neg 1).symm

theorem unit_neg (s : Sign) : unit (-s) = -unit s := by
  cases s with
  | positive => rfl
  | negative => exact (neg_neg 1).symm

/-- To a common, smaller exponent. -/
theorem decreaseExponent_eq (m : ℕ) {e t : ℤ} (h : t ≤ e) :
    ((decreaseExponent m e t).1 : ℚ) * 2 ^ t = m * 2 ^ e := by
  have hsplit := two_zpow_add ((e - t).toNat : ℤ) t
  rw [show ((e - t).toNat : ℤ) + t = e by omega, zpow_natCast] at hsplit
  rw [decreaseExponent, Nat.shiftLeft_eq, hsplit]
  push_cast
  ring

variable {u v : UnpackedFloat} {a b : ℚ}

theorem Gives.neg (h : Gives u a) : Gives u.neg (-a) := by
  obtain ⟨hcanonical, ha⟩ := h
  cases u with
  | notANumber => cases ha
  | infinity s => cases ha
  | zero s =>
      cases ha
      exact ⟨trivial, by rw [neg_zero]; rfl⟩
  | finite s m e hm =>
      cases ha
      refine ⟨hcanonical, ?_⟩
      show some (unit (-s) * (m * 2 ^ e)) = _
      rw [unit_neg, neg_mul]

theorem Gives.abs (h : Gives u a) : Gives u.abs |a| := by
  obtain ⟨hcanonical, ha⟩ := h
  cases u with
  | notANumber => cases ha
  | infinity s => cases ha
  | zero s =>
      cases ha
      exact ⟨trivial, by rw [abs_zero]; rfl⟩
  | finite s m e hm =>
      cases ha
      refine ⟨hcanonical, ?_⟩
      have hnonneg := mul_two_zpow_nonneg m e
      show some (1 * ((m : ℚ) * 2 ^ e)) = _
      cases s with
      | positive => rw [unit, one_mul, abs_of_nonneg hnonneg]
      | negative => rw [unit, neg_one_mul, abs_neg, abs_of_nonneg hnonneg, one_mul]

theorem Gives.add (hu : Gives u a) (hv : Gives v b) :
    Gives (UnpackedFloat.add Format.binary64 u v) (rounded (a + b)) := by
  have hdouble := hu.isDouble
  have hdouble' := hv.isDouble
  obtain ⟨hcu, ha⟩ := hu
  obtain ⟨hcv, hb⟩ := hv
  cases u with
  | notANumber => cases ha
  | infinity s => cases ha
  | zero s =>
      cases ha
      rw [zero_add, rounded_of_isDouble hdouble']
      cases v with
      | notANumber => cases hb
      | infinity s' => cases hb
      | zero s' =>
          cases hb
          show Gives (if (s == s') = true then .zero s else .zero .positive) 0
          split
          · exact ⟨trivial, rfl⟩
          · exact ⟨trivial, rfl⟩
      | finite s' m' e' hm' => exact ⟨hcv, hb⟩
  | finite s m e hm =>
      cases v with
      | notANumber => cases hb
      | infinity s' => cases hb
      | zero s' =>
          cases hb
          rw [add_zero, rounded_of_isDouble hdouble]
          exact ⟨hcu, ha⟩
      | finite s' m' e' hm' =>
          cases ha
          cases hb
          have h := gives_normalize
            (s.apply (decreaseExponent m e (min e e')).1 +
              s'.apply (decreaseExponent m' e' (min e e')).1) (min e e') .positive
          rw [Int.cast_add, unit_apply, unit_apply, add_mul, mul_assoc, mul_assoc,
            decreaseExponent_eq m (min_le_left e e'),
            decreaseExponent_eq m' (min_le_right e e')] at h
          exact h

theorem sub_eq_add (u v : UnpackedFloat) :
    UnpackedFloat.sub Format.binary64 u v = UnpackedFloat.add Format.binary64 u v.neg := by
  cases u with
  | notANumber => rfl
  | infinity s => cases v <;> rfl
  | zero s => cases v <;> rfl
  | finite s m e hm =>
      cases v with
      | finite s' m' e' hm' =>
          have happly (n n' : ℤ) : s.apply n - s'.apply n' = s.apply n + (-s').apply n' := by
            cases s' with
            | positive => exact Int.sub_eq_add_neg
            | negative => exact Int.sub_neg _ _
          show UnpackedFloat.normalize _ (s.apply _ - s'.apply _) _ _ =
            UnpackedFloat.normalize _ (s.apply _ + (-s').apply _) _ _
          rw [happly]
      | _ => rfl

theorem Gives.sub (hu : Gives u a) (hv : Gives v b) :
    Gives (UnpackedFloat.sub Format.binary64 u v) (rounded (a - b)) := by
  rw [sub_eq_add, sub_eq_add_neg]
  exact hu.add hv.neg

theorem unit_div (s s' : Sign) : unit (s / s') = unit s / unit s' := by
  have hmul : s / s' = s * s' := by cases s <;> cases s' <;> rfl
  rw [hmul, unit_mul]
  cases s' with
  | positive => rw [unit, mul_one, div_one]
  | negative => rw [unit, mul_neg_one, div_neg, div_one]

theorem Gives.mul (hu : Gives u a) (hv : Gives v b) :
    Gives (UnpackedFloat.mul Format.binary64 u v) (rounded (a * b)) := by
  obtain ⟨hcu, ha⟩ := hu
  obtain ⟨hcv, hb⟩ := hv
  cases u with
  | notANumber => cases ha
  | infinity s => cases ha
  | zero s =>
      cases ha
      rw [zero_mul, rounded_zero]
      cases v with
      | notANumber => cases hb
      | infinity s' => cases hb
      | zero s' => exact ⟨trivial, rfl⟩
      | finite s' m' e' hm' => exact ⟨trivial, rfl⟩
  | finite s m e hm =>
      cases v with
      | notANumber => cases hb
      | infinity s' => cases hb
      | zero s' =>
          cases hb
          rw [mul_zero, rounded_zero]
          exact ⟨trivial, rfl⟩
      | finite s' m' e' hm' =>
          cases ha
          cases hb
          obtain ⟨-, -, hlead⟩ := hcu
          obtain ⟨-, -, hlead'⟩ := hcv
          have hexponent : e + e' ≤ max ((m * m').log2 + (e + e') - 52) (-1074) := by
            by_cases hlarge : 2 ^ 52 ≤ m * m'
            · have hlog := (Nat.le_log2 (Nat.mul_pos hm hm').ne').mpr hlarge
              omega
            · have hle : m ≤ m * m' := Nat.le_mul_of_pos_right m hm'
              have hle' : m' ≤ m * m' := Nat.le_mul_of_pos_left m' hm
              omega
          have h := gives_roundWithAccuracy (s * s') (stands_exact (m * m')) hexponent
          have hvalue : unit (s * s') * (((m * m' : ℕ) : ℚ) * 2 ^ (e + e')) =
              unit s * (m * 2 ^ e) * (unit s' * (m' * 2 ^ e')) := by
            rw [unit_mul, two_zpow_add]
            push_cast
            ring
          rw [unit_mul_roundedMagnitude _
            (mul_two_zpow_nonneg _ _), hvalue] at h
          exact h

/-- What is left of a division says where the quotient lies. -/
theorem stands_accuracyOfFraction (n : ℕ) {d : ℕ} (hd : 0 < d) :
    Stands (ExtendedMantissa.ofMantissaAndAccuracy (n / d) (accuracyOfFraction (n % d) d))
      ((n : ℚ) / d) := by
  have hd' : (0 : ℚ) < d := Nat.cast_pos.mpr hd
  have hsplit : (n : ℚ) / d = (n / d : ℕ) + (n % d : ℕ) / d := by
    have hn : (n : ℚ) = d * (n / d : ℕ) + (n % d : ℕ) := by
      exact_mod_cast (Nat.div_add_mod n d).symm
    rw [hn, add_div, mul_div_cancel_left₀ _ hd'.ne']
  have hrest : ((n % d : ℕ) : ℚ) < d := by exact_mod_cast Nat.mod_lt n hd
  rw [hsplit]
  generalize n / d = q
  generalize n % d = r at hrest
  rcases Nat.eq_zero_or_pos r with rfl | hpos
  · rw [Nat.cast_zero, zero_div, add_zero]
    exact stands_exact q
  · have hr : (0 : ℚ) < r / d := div_pos (Nat.cast_pos.mpr hpos) hd'
    rw [accuracyOfFraction, if_neg hpos.ne']
    rcases lt_trichotomy (2 * r) d with hlt | heq | hgt
    · have hhalf : (r : ℚ) / d < 1 / 2 := by
        rw [div_lt_iff₀ hd']
        have hcast : (2 * r : ℚ) < d := by exact_mod_cast hlt
        linarith
      rw [compare_lt_iff_lt.mpr hlt]
      refine ⟨r / d, hr.le, hhalf, iff_of_true rfl hr, ?_⟩
      show (q : ℚ) + r / d = q + (0 : ℕ) / 2 + r / d
      rw [Nat.cast_zero, zero_div, add_zero]
    · have hhalf : (r : ℚ) / d = 1 / 2 := by
        rw [div_eq_iff hd'.ne']
        have hcast : (2 * r : ℚ) = d := by exact_mod_cast heq
        linarith
      rw [compare_eq_iff_eq.mpr heq]
      refine ⟨0, le_refl 0, by norm_num, iff_of_false Bool.false_ne_true (lt_irrefl 0), ?_⟩
      show (q : ℚ) + r / d = q + (1 : ℕ) / 2 + 0
      rw [hhalf, Nat.cast_one, add_zero]
    · have hhalf : 1 / 2 < (r : ℚ) / d := by
        rw [lt_div_iff₀ hd']
        have hcast : (d : ℚ) < 2 * r := by exact_mod_cast hgt
        linarith
      have hone : (r : ℚ) / d < 1 := (div_lt_one hd').mpr hrest
      rw [compare_gt_iff_gt.mpr hgt]
      refine ⟨r / d - 1 / 2, by linarith, by linarith, iff_of_true rfl (by linarith), ?_⟩
      show (q : ℚ) + r / d = q + (1 : ℕ) / 2 + (r / d - 1 / 2)
      rw [Nat.cast_one]
      ring

/-- The quotient of two whole numbers with units, rounded. -/
theorem gives_divCore (s : Sign) {m m' : ℕ} (e e' : ℤ) (hm : 0 < m) (hm' : 0 < m') :
    let (q, e₀, accuracy) := divCore Format.binary64 m e m' e'
    Gives (roundWithAccuracy Format.binary64 s q e₀ accuracy)
      (unit s * roundedMagnitude (m * 2 ^ e / (m' * 2 ^ e'))) := by
  let top : ℤ := max (m.log2 - m'.log2 + e - e' - 53) (-1074)
  let e₀ : ℤ := min (e - e') top
  let k : ℕ := (e - e' - e₀).toNat
  have hcore : divCore Format.binary64 m e m' e' =
      (m * 2 ^ k / m', e₀, accuracyOfFraction (m * 2 ^ k % m') m') := by
    have htarget : Format.binary64.targetExponent (totalExponent m e - totalExponent m' e') =
        top := by
      show max ((m.log2 : ℤ) + 1 + e - (m'.log2 + 1 + e') - (53 : ℕ)) (3 - 2 ^ 10 - (53 : ℕ)) =
        max _ _
      omega
    rw [divCore, htarget, Nat.shiftLeft_eq]
  have hexponent : e₀ ≤ max ((m * 2 ^ k / m').log2 + e₀ - 52) (-1074) := by
    by_cases hsmall : e₀ ≤ -1074
    · omega
    -- Far from zero the quotient has 53 bits.
    · have hbits : 53 + m'.log2 ≤ m.log2 + k := by omega
      have hquotient : 2 ^ 52 ≤ m * 2 ^ k / m' := by
        rw [Nat.le_div_iff_mul_le hm']
        calc 2 ^ 52 * m' ≤ 2 ^ 52 * 2 ^ (m'.log2 + 1) :=
              Nat.mul_le_mul_left _ Nat.lt_log2_self.le
          _ = 2 ^ (53 + m'.log2) := by rw [← Nat.pow_add]; congr 1; omega
          _ ≤ 2 ^ (m.log2 + k) := Nat.pow_le_pow_right (by omega) hbits
          _ = 2 ^ m.log2 * 2 ^ k := Nat.pow_add _ _ _
          _ ≤ m * 2 ^ k := Nat.mul_le_mul_right _ (Nat.log2_self_le hm.ne')
      have hlog := (Nat.le_log2 (by omega)).mpr hquotient
      omega
  have hvalue : ((m * 2 ^ k : ℕ) : ℚ) / m' * 2 ^ e₀ = m * 2 ^ e / (m' * 2 ^ e') := by
    have hsplit : (2 : ℚ) ^ e = 2 ^ k * 2 ^ e₀ * 2 ^ e' := by
      rw [← zpow_natCast, ← two_zpow_add, ← two_zpow_add]
      congr 1
      omega
    have hne := (two_zpow_pos e').ne'
    have hne' : (m' : ℚ) ≠ 0 := Nat.cast_ne_zero.mpr hm'.ne'
    rw [hsplit]
    push_cast
    field_simp
  rw [hcore, ← hvalue]
  exact gives_roundWithAccuracy s (stands_accuracyOfFraction _ hm') hexponent

theorem Gives.div (hu : Gives u a) (hv : Gives v b) (hb0 : b ≠ 0) :
    Gives (UnpackedFloat.div Format.binary64 u v) (rounded (a / b)) := by
  obtain ⟨-, ha⟩ := hu
  obtain ⟨-, hb⟩ := hv
  cases v with
  | notANumber => cases hb
  | infinity s' => cases hb
  | zero s' => exact absurd (Option.some.inj hb).symm hb0
  | finite s' m' e' hm' =>
      cases hb
      cases u with
      | notANumber => cases ha
      | infinity s => cases ha
      | zero s =>
          cases ha
          rw [zero_div, rounded_zero]
          exact ⟨trivial, rfl⟩
      | finite s m e hm =>
          cases ha
          have h := gives_divCore (s / s') e e' hm hm'
          have hvalue : unit (s / s') * (m * 2 ^ e / (m' * 2 ^ e')) =
              unit s * (m * 2 ^ e) / (unit s' * (m' * 2 ^ e')) := by
            rw [unit_div, div_mul_div_comm]
          have hnonneg : (0 : ℚ) ≤ m * 2 ^ e / (m' * 2 ^ e') :=
            div_nonneg (mul_two_zpow_nonneg m e) (mul_two_zpow_nonneg m' e')
          rw [unit_mul_roundedMagnitude _ hnonneg, hvalue] at h
          exact h

end DacRack.Number
