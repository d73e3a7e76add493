import DacRack.Proofs.Codes
import Mathlib.Algebra.Group.Subgroup.ZPowers.Basic

/-!
# From a voltage to a code and back

The voltage of a voltage's code is another voltage, as a rule, but has the same code
(`encode_place`). On the way there and back all errors add up to a few parts in `2 ^ 24` of a
step between two codes, where half a step would be needed to get to another one. The sum of
the lower end and the code's share of the span is the exception: where doubles are as far
apart as codes it may be off by half a step, or a little more.

But the voltage that had the code is a double itself, and the sum is rounded to the nearest
one. So if it is rounded to where another code begins, then the doubles next to it are about a
step apart, no more and no less (`Sparse`). Doubles are powers of two apart, and the span is
close to 65535 of these, so it is 65535 of them exactly, and a step is the distance of two
doubles (`Sparse.exists_zsmul`). Every double is then the voltage of some code, and nothing
was rounded by half a step.

Two things are in the way of getting a voltage's code again. The voltage of the highest code
may be past the end of the range, and then has no code (`exists_code_volt_iff`). And in a range
that is narrower than the smallest double with all its digits the errors are no small part of a
step, so `code_volt_code` asks for one that is not.
-/

namespace DacRack

open Number AddSubgroup

namespace Number

theorem two_zpow_eq_two_mul (e : ℤ) : (2 : ℚ) ^ e = 2 * 2 ^ (e - 1) := by
  rw [mul_comm, ← zpow_add_one₀ (by norm_num)]
  congr 1
  omega

theorem two_zpow_mul_four_le {d e : ℤ} (h : d + 2 ≤ e) : (2 : ℚ) ^ d * 4 ≤ 2 ^ e := by
  have hfour : (4 : ℚ) = 2 ^ (2 : ℤ) := by norm_num
  rw [hfour, ← two_zpow_add]
  exact two_zpow_le h

theorem two_zpow_mem_zmultiples {d e : ℤ} (h : d ≤ e) :
    (2 : ℚ) ^ e ∈ zmultiples ((2 : ℚ) ^ d) := by
  obtain ⟨n, hn⟩ := two_zpow_eq_mul h
  exact mem_zmultiples_iff.mpr ⟨n, by rw [hn, zsmul_eq_mul]⟩

/-- Multiples that are less than the unit apart are the same. -/
theorem eq_of_abs_sub_lt {unit p q : ℚ} (hp : p ∈ zmultiples unit) (hq : q ∈ zmultiples unit)
    (h : |p - q| < unit) : p = q := by
  obtain ⟨n, hn⟩ := mem_zmultiples_iff.mp (sub_mem hp hq)
  have hpos : 0 < unit := (abs_nonneg _).trans_lt h
  rw [← hn, zsmul_eq_mul, abs_mul, abs_of_pos hpos] at h
  have hlt : |n| < 1 := by exact_mod_cast (mul_lt_iff_lt_one_left hpos).mp h
  rw [Int.abs_lt_one_iff.mp hlt, zero_smul] at hn
  linarith

theorem IsDouble.of_mem_zmultiples {q : ℚ} {e : ℤ} (he : -1074 ≤ e)
    (hq : q ∈ zmultiples ((2 : ℚ) ^ e)) (hle : |q| ≤ 2 ^ (53 + e)) : IsDouble q := by
  obtain ⟨n, rfl⟩ := mem_zmultiples_iff.mp hq
  refine ⟨n, e, ?_, he, zsmul_eq_mul _ _⟩
  rw [zsmul_eq_mul, abs_mul, abs_of_pos (two_zpow_pos _), two_zpow_add] at hle
  exact_mod_cast le_of_mul_le_mul_right hle (two_zpow_pos e)

/-- The larger doubles are multiples of larger powers of two. -/
theorem IsDouble.mem_zmultiples {q : ℚ} (hq : IsDouble q) {e : ℤ} (h : 2 ^ (52 + e) ≤ |q|) :
    q ∈ zmultiples ((2 : ℚ) ^ e) := by
  obtain ⟨n, d, hn, -, rfl⟩ := hq
  rcases lt_or_ge d e with hlt | hle
  -- A finer double that is as large is a power of two itself.
  · have hcast : |(n : ℚ)| ≤ 2 ^ (53 : ℤ) := by exact_mod_cast hn
    have hpow : (2 : ℚ) ^ (53 : ℤ) * 2 ^ d ≤ 2 ^ (52 + e) := by
      rw [← two_zpow_add]
      exact two_zpow_le (by omega)
    have habs : |(n : ℚ) * 2 ^ d| = 2 ^ (52 + e) := by
      refine le_antisymm ?_ h
      rw [abs_mul, abs_of_pos (two_zpow_pos d)]
      exact (mul_le_mul_of_nonneg_right hcast (two_zpow_pos d).le).trans hpow
    have hmem := two_zpow_mem_zmultiples (show e ≤ 52 + e by omega)
    rcases eq_or_eq_neg_of_abs_eq habs with heq | heq
    · rwa [heq]
    · rw [heq]
      exact neg_mem hmem
  · rw [← zsmul_eq_mul]
    exact zsmul_mem (two_zpow_mem_zmultiples hle) n

/-- Rounding makes a relative error of one part in `2 ^ 53`, or one of half the smallest
double. -/
theorem abs_rounded_sub_le_add {q : ℚ} (hq : 0 ≤ q) :
    |rounded q - q| ≤ q * ulp + 2 ^ (-1075 : ℤ) := by
  have htiny := two_zpow_pos (-1075)
  have hrelative : 0 ≤ q * ulp := mul_nonneg hq ulp_pos.le
  rcases lt_or_ge q (2 ^ (-1021 : ℤ)) with hsmall | hlarge
  · have hhalf : (2 : ℚ) ^ (-1074 : ℤ) / 2 = 2 ^ (-1075 : ℤ) := by
      rw [div_eq_iff (by norm_num), ← zpow_add_one₀ (by norm_num)]
      rfl
    have herror := abs_rounded_sub_le_half hq hsmall
    rw [hhalf] at herror
    linarith
  · have hnormal : (2 : ℚ) ^ (-1022 : ℤ) ≤ 2 ^ (-1021 : ℤ) := two_zpow_le (by omega)
    have herror : |rounded q - q| ≤ q * ulp := abs_rounded_sub_le_mul (hnormal.trans hlarge)
    linarith

/-- Half the smallest double does not matter to a step that is large enough. -/
theorem tiny_le {step : ℚ} (h : 2 ^ (-1040 : ℤ) ≤ step) :
    2 ^ (-1075 : ℤ) ≤ step / 34359738368 := by
  have hsplit : (2 : ℚ) ^ (-1075 : ℤ) = 2 ^ (-1040 : ℤ) * 2 ^ (-35 : ℤ) := by
    rw [← two_zpow_add]
    rfl
  have hpow : (2 : ℚ) ^ (-35 : ℤ) = 1 / 34359738368 := by norm_num
  rw [hsplit, hpow]
  linarith

theorem tiny_le_part : (2 : ℚ) ^ (-1075 : ℤ) ≤ 1 / 1152921504606846976 := by
  have hpow : (2 : ℚ) ^ (-60 : ℤ) = 1 / 1152921504606846976 := by norm_num
  rw [← hpow]
  exact two_zpow_le (by omega)

end Number

/-! ## Where doubles are as far apart as codes -/

/-- A range of 65535 steps, but for their rounding. -/
structure Stepped (low high step : ℚ) : Prop where
  isDouble_low : IsDouble low
  isDouble_high : IsDouble high
  le : low ≤ high
  step_large : 2 ^ (-1040 : ℤ) ≤ step
  span_eq : rounded (high - low) = 65535 * step

namespace Stepped

variable {low high step : ℚ}

theorem step_pos (h : Stepped low high step) : 0 < step :=
  (two_zpow_pos _).trans_le h.step_large

theorem abs_span_sub_le (h : Stepped low high step) :
    |high - low - 65535 * step| ≤ step / 16777216 := by
  have herror := abs_rounded_sub_le_add (q := high - low) (by linarith [h.le])
  have htiny := tiny_le h.step_large
  have hpos := h.step_pos
  rw [h.span_eq, ulp_eq, abs_le] at herror
  rw [abs_le]
  constructor
  · linarith [herror.1, herror.2]
  · linarith [herror.1, herror.2]

theorem span_le (h : Stepped low high step) : high - low ≤ 65536 * step := by
  linarith [(abs_le.mp h.abs_span_sub_le).2, h.step_pos]

/-- The range the other way round. -/
theorem neg (h : Stepped low high step) : Stepped (-high) (-low) step := by
  refine ⟨h.isDouble_high.neg, h.isDouble_low.neg, neg_le_neg h.le, h.step_large, ?_⟩
  rw [neg_sub_neg]
  exact h.span_eq

end Stepped

/-- The doubles below `v` are about a step away from it, as is one of them in the range. -/
structure Sparse (low high step x v : ℚ) : Prop extends Stepped low high step where
  isDouble_below : IsDouble x
  isDouble : IsDouble v
  low_le : low ≤ x
  lt : x < v
  le_high : v ≤ high
  gap : ∀ z, IsDouble z → z < v → step * (1 - 1 / 1048576) ≤ v - z
  near : v - x ≤ step * (1 + 1 / 1048576)

namespace Sparse

variable {low high step x v : ℚ}

/-- There is a double right below, unless there are only larger ones. -/
theorem normal (h : Sparse low high step x v) : 2 ^ (-1022 : ℤ) ≤ |v| := by
  by_contra hsmall
  rw [not_le] at hsmall
  have hpos := two_zpow_pos (-1074)
  obtain ⟨n, hn⟩ := h.isDouble.eq_mul
  have hfits : |v - 2 ^ (-1074 : ℤ)| ≤ 2 ^ (-1021 : ℤ) := by
    have hsum : (2 : ℚ) ^ (-1022 : ℤ) + 2 ^ (-1022 : ℤ) = 2 ^ (-1021 : ℤ) := by
      rw [← mul_two, ← zpow_add_one₀ (by norm_num)]
      rfl
    have htiny : (2 : ℚ) ^ (-1074 : ℤ) ≤ 2 ^ (-1022 : ℤ) := two_zpow_le (by omega)
    have hsplit := abs_sub v (2 ^ (-1074 : ℤ))
    rw [abs_of_pos hpos] at hsplit
    linarith
  have hbelow : IsDouble (v - 2 ^ (-1074 : ℤ)) := by
    refine .of_mul (n := n - 1) ?_ hfits
    rw [hn, Int.cast_sub, Int.cast_one]
    ring
  have hgap := h.gap _ hbelow (by linarith)
  have hlarge := h.step_large
  have hmore := two_zpow_mul_four_le (show (-1074 : ℤ) + 2 ≤ -1040 by omega)
  linarith

end Sparse

/-- The doubles around `v` are the multiples of `2 ^ e`, which is about a step or more. -/
structure Gridded (low high step x v : ℚ) (e : ℤ) : Prop extends Sparse low high step x v where
  large : 2 ^ (52 + e) ≤ |v|
  step_le : step * (1 - 1 / 1048576) ≤ 2 ^ e

theorem Sparse.exists_gridded {low high step x v : ℚ} (h : Sparse low high step x v) :
    ∃ e, Gridded low high step x v e := by
  have hnormal := h.normal
  have hpos : 0 < |v| := (two_zpow_pos _).trans_le hnormal
  obtain ⟨e, he⟩ : ∃ e, 52 + e = Int.log 2 |v| := ⟨Int.log 2 |v| - 52, by omega⟩
  have hlog : -1022 ≤ Int.log 2 |v| := by
    have hle : ((2 : ℕ) : ℚ) ^ (-1022 : ℤ) ≤ |v| := by exact_mod_cast hnormal
    exact (Int.zpow_le_iff_le_log Nat.one_lt_two hpos).mp hle
  have hlarge : 2 ^ (52 + e) ≤ |v| := by
    rw [he]
    exact_mod_cast Int.zpow_log_le_self Nat.one_lt_two hpos
  have hsmall : |v| < 2 ^ (53 + e) := by
    have hnext : 53 + e = Int.log 2 |v| + 1 := by omega
    rw [hnext]
    exact_mod_cast Int.lt_zpow_succ_log_self Nat.one_lt_two |v|
  refine ⟨e, h, hlarge, ?_⟩
  obtain ⟨n, hn⟩ := mem_zmultiples_iff.mp (h.isDouble.mem_zmultiples hlarge)
  rw [zsmul_eq_mul] at hn
  have hn' : |n| < 2 ^ 53 := by
    rw [← hn, abs_mul, abs_of_pos (two_zpow_pos e), two_zpow_add] at hsmall
    exact_mod_cast lt_of_mul_lt_mul_right hsmall (two_zpow_pos e).le
  have hbelow : IsDouble (v - 2 ^ e) := by
    refine ⟨n - 1, e, ?_, by omega, ?_⟩
    · rw [abs_lt] at hn'
      rw [abs_le]
      omega
    · rw [← hn, Int.cast_sub, Int.cast_one, sub_mul, one_mul]
  have hgap := h.gap _ hbelow (by linarith [two_zpow_pos e])
  linarith

namespace Gridded

variable {low high step x v : ℚ} {e : ℤ}

/-- All doubles in the range are multiples of half that. -/
theorem mem_half (h : Gridded low high step x v e) {y : ℚ} (hy : IsDouble y) (hlow : low ≤ y)
    (hhigh : y ≤ high) : y ∈ zmultiples ((2 : ℚ) ^ (e - 1)) := by
  have hspan := (abs_le.mp h.abs_span_sub_le).2
  have hpos := h.step_pos
  have hapart : |v - y| ≤ 65537 * step := by
    rw [abs_le]
    constructor
    · linarith [h.low_le, h.lt]
    · linarith [h.le_high]
  refine hy.mem_zmultiples ?_
  have hhalf : (2 : ℚ) ^ (52 + (e - 1)) = 2251799813685248 * 2 ^ e := by
    have hexponent : 52 + (e - 1) = 51 + e := by omega
    rw [hexponent, two_zpow_add]
    norm_num
  have hlarge := h.large
  rw [two_zpow_add] at hlarge
  norm_num at hlarge
  have hsplit := abs_sub_abs_le_abs_sub v y
  rw [hhalf]
  linarith [h.step_le]

theorem mem_low (h : Gridded low high step x v e) : low ∈ zmultiples ((2 : ℚ) ^ (e - 1)) :=
  h.mem_half h.isDouble_low le_rfl h.le

theorem mem_high (h : Gridded low high step x v e) : high ∈ zmultiples ((2 : ℚ) ^ (e - 1)) :=
  h.mem_half h.isDouble_high h.le le_rfl

theorem mem_below (h : Gridded low high step x v e) : x ∈ zmultiples ((2 : ℚ) ^ (e - 1)) :=
  h.mem_half h.isDouble_below h.low_le (h.lt.le.trans h.le_high)

theorem mem (h : Gridded low high step x v e) : v ∈ zmultiples ((2 : ℚ) ^ (e - 1)) :=
  h.mem_half h.isDouble (h.low_le.trans h.lt.le) h.le_high

/-- The span is 65535 times the distance of the two doubles, as it is close to that. -/
theorem span_eq_mul (h : Gridded low high step x v e) : high - low = 65535 * (v - x) := by
  have hmul := nsmul_mem (sub_mem h.mem h.mem_below) 65535
  rw [nsmul_eq_mul] at hmul
  refine eq_of_abs_sub_lt (sub_mem h.mem_high h.mem_low) hmul ?_
  have hgap := h.gap x h.isDouble_below h.lt
  have hspan := abs_le.mp h.abs_span_sub_le
  have hunit := h.step_le
  rw [two_zpow_eq_two_mul] at hunit
  rw [abs_lt]
  constructor
  · linarith [h.near, h.step_pos]
  · linarith [h.near, h.step_pos]

theorem isDouble_span (h : Gridded low high step x v e) : IsDouble (high - low) := by
  have hpos := h.step_pos
  have hfine : -1074 ≤ e - 1 := by
    by_contra hcoarse
    have hless := two_zpow_mul_four_le (show e + 2 ≤ -1040 by omega)
    linarith [h.step_large, h.step_le]
  refine .of_mem_zmultiples hfine (sub_mem h.mem_high h.mem_low) ?_
  have hpow : (2 : ℚ) ^ (53 + (e - 1)) = 9007199254740992 * 2 ^ (e - 1) := by
    rw [two_zpow_add]
    norm_num
  have hspan := (abs_le.mp h.abs_span_sub_le).2
  have hunit := h.step_le
  rw [two_zpow_eq_two_mul] at hunit
  rw [hpow, abs_of_nonneg (by linarith [h.le])]
  linarith

/-- So that distance is a step, and not only close to one. -/
theorem sub_eq_step (h : Gridded low high step x v e) : v - x = step := by
  have hspan := h.span_eq
  rw [rounded_of_isDouble h.isDouble_span, h.span_eq_mul] at hspan
  linarith

theorem step_eq_or (h : Gridded low high step x v e) : step = 2 ^ (e - 1) ∨ step = 2 ^ e := by
  obtain ⟨k, hk⟩ := mem_zmultiples_iff.mp (sub_mem h.mem h.mem_below)
  rw [h.sub_eq_step, zsmul_eq_mul] at hk
  have hpos := two_zpow_pos (e - 1)
  have hstep := h.step_pos
  have hunit := h.step_le
  rw [two_zpow_eq_two_mul] at hunit
  have hkpos : 0 < k := by
    have hcast : (0 : ℚ) < k := pos_of_mul_pos_left (by linarith) hpos.le
    exact_mod_cast hcast
  have hkle : k < 3 := by
    have hcast : (k : ℚ) * 2 ^ (e - 1) < 3 * 2 ^ (e - 1) := by linarith
    exact_mod_cast lt_of_mul_lt_mul_right hcast hpos.le
  obtain rfl | rfl : k = 1 ∨ k = 2 := by omega
  · rw [Int.cast_one, one_mul] at hk
    exact .inl hk.symm
  · rw [two_zpow_eq_two_mul e, ← hk]
    exact .inr (by norm_num)

end Gridded

/-- Where doubles are about as far apart as codes they are exactly as far apart, and then each
of them is the voltage of one. -/
theorem Sparse.exists_zsmul {low high step x v : ℚ} (h : Sparse low high step x v) :
    high - low = 65535 * step ∧ v - low ∈ zmultiples step := by
  obtain ⟨e, hgrid⟩ := h.exists_gridded
  have hspan := hgrid.span_eq_mul
  rw [hgrid.sub_eq_step] at hspan
  refine ⟨hspan, ?_⟩
  rcases hgrid.step_eq_or with hhalf | hwhole
  · rw [hhalf]
    exact sub_mem hgrid.mem hgrid.mem_low
  -- One end of the range is at least as large as `v`, and then both are whole multiples.
  · have hsteps := nsmul_mem (mem_zmultiples step) 65535
    rw [nsmul_eq_mul] at hsteps
    have hv := h.isDouble.mem_zmultiples hgrid.large
    rw [← hwhole] at hv
    refine sub_mem hv ?_
    rcases abs_cases v with ⟨habs, hsign⟩ | ⟨habs, hsign⟩
    · have hhigh : high ∈ zmultiples step := by
        rw [hwhole]
        refine h.isDouble_high.mem_zmultiples (hgrid.large.trans ?_)
        rw [habs, abs_of_nonneg (hsign.trans h.le_high)]
        exact h.le_high
      have hlow : low = high - (65535 : ℕ) * step := by
        push_cast
        linarith
      rw [hlow]
      exact sub_mem hhigh hsteps
    · have hle := h.low_le.trans h.lt.le
      rw [hwhole]
      refine h.isDouble_low.mem_zmultiples (hgrid.large.trans ?_)
      rw [habs, abs_of_neg (hle.trans_lt hsign)]
      linarith

/-! ## What rounding adds up to -/

section Encode

variable {step : ℚ} {code : ℕ}

/-- A code is close to a distance in steps before it is rounded to a whole number. -/
theorem abs_scaled_sub_le (hstep : 2 ^ (-1040 : ℤ) ≤ step) {a : ℚ} (ha : 0 ≤ a)
    (hle : a ≤ 65536 * step) :
    |rounded (rounded (rounded a / (65535 * step)) * 65535) - a / step| ≤ 1 / 16777216 := by
  have hpos : 0 < step := (two_zpow_pos _).trans_le hstep
  have htiny := tiny_le hstep
  have htiny' := tiny_le_part
  have hdistance := abs_rounded_sub_le_add ha
  have hsteps : |rounded a / step - a / step| ≤ 1 / 1073741824 := by
    rw [← sub_div, abs_div, abs_of_pos hpos, div_le_iff₀ hpos]
    rw [ulp_eq] at hdistance
    linarith
  have hcount : a / step ≤ 65536 := (div_le_iff₀ hpos).mpr hle
  have hcount' : 0 ≤ rounded a / step := div_nonneg (rounded_nonneg ha) hpos.le
  have hsplit : rounded a / (65535 * step) = rounded a / step / 65535 := by
    rw [div_div, mul_comm]
  rw [hsplit]
  generalize rounded a / step = count at hsteps hcount'
  have hpart := abs_rounded_sub_le_add (q := count / 65535) (by linarith)
  have hnonneg : 0 ≤ rounded (count / 65535) := rounded_nonneg (by linarith)
  have hscaled := abs_rounded_sub_le_add (q := rounded (count / 65535) * 65535) (by linarith)
  rw [ulp_eq] at hpart hscaled
  rw [abs_le] at hsteps hpart hscaled ⊢
  constructor
  · linarith
  · linarith

/-- A code stands for a voltage that is close to its number of steps above the lower end. -/
theorem abs_offset_sub_le (hstep : 2 ^ (-1040 : ℤ) ≤ step) (hcode : code ≤ 65535) :
    |rounded (share code * (65535 * step)) - code * step| ≤ step / 16777216 := by
  have hpos : 0 < step := (two_zpow_pos _).trans_le hstep
  have htiny := tiny_le hstep
  have htiny' := tiny_le_part
  have hcast : (code : ℚ) ≤ 65535 := by exact_mod_cast hcode
  have hzero : (0 : ℚ) ≤ code := Nat.cast_nonneg code
  have hshare : |share code - code / 65535| ≤ 1 / 4503599627370496 := by
    have herror := abs_rounded_sub_le_add (q := (code : ℚ) / 65535) (by linarith)
    rw [ulp_eq] at herror
    exact herror.trans (by linarith)
  have hproduct : |share code * (65535 * step) - code * step| ≤ step / 268435456 := by
    have hscale : share code * (65535 * step) - code * step =
        (share code - code / 65535) * (65535 * step) := by ring
    rw [hscale, abs_mul, abs_of_pos (by linarith : 0 < 65535 * step)]
    calc |share code - code / 65535| * (65535 * step)
        ≤ 1 / 4503599627370496 * (65535 * step) := by gcongr
      _ ≤ step / 268435456 := by linarith
  have herror := abs_rounded_sub_le_add (q := share code * (65535 * step))
    (mul_nonneg share_nonneg (by linarith))
  have hlarge : code * step ≤ 65535 * step := mul_le_mul_of_nonneg_right hcast hpos.le
  rw [ulp_eq] at herror
  rw [abs_le] at hproduct herror ⊢
  constructor
  · linarith
  · linarith

/-- A distance in steps, from its code. -/
theorem steps_of_encode (hstep : 2 ^ (-1040 : ℤ) ≤ step) {a : ℚ} (ha : 0 ≤ a)
    (hle : a ≤ 65536 * step) :
    (encode (65535 * step) (rounded a) : ℚ) * step - step * (1 / 2 + 1 / 16777216) ≤ a ∧
      a ≤ encode (65535 * step) (rounded a) * step + step * (1 / 2 + 1 / 16777216) := by
  have hpos : 0 < step := (two_zpow_pos _).trans_le hstep
  have hclose := abs_le.mp (abs_scaled_sub_le hstep ha hle)
  have hpart : 0 ≤ rounded (rounded a / (65535 * step)) :=
    rounded_nonneg (div_nonneg (rounded_nonneg ha) (by linarith))
  have hnear := abs_le.mp (abs_nearest_sub_le .away (rounded_nonneg (by linarith :
    0 ≤ rounded (rounded a / (65535 * step)) * 65535)))
  have hsplit : a = a / step * step := (div_mul_cancel₀ a hpos.ne').symm
  have hbelow : (encode (65535 * step) (rounded a) : ℚ) - (1 / 2 + 1 / 16777216) ≤ a / step := by
    unfold encode
    linarith
  have habove : a / step ≤ encode (65535 * step) (rounded a) + (1 / 2 + 1 / 16777216) := by
    unfold encode
    linarith
  constructor
  · have hscaled := mul_le_mul_of_nonneg_right hbelow hpos.le
    linarith
  · have hscaled := mul_le_mul_of_nonneg_right habove hpos.le
    linarith

end Encode

/-! ## There and back -/

section RoundTrip

variable {low high step x t : ℚ} {code : ℕ}

/-- No double is nearer: one below lies at least as far away, and so on the other side. -/
theorem rounded_sub_le_sub {z : ℚ} (hz : IsDouble z) (hlt : z < rounded t) :
    rounded t - t ≤ t - z := by
  have hnearest := (le_abs_self _).trans (abs_rounded_sub_le hz (q := t))
  rcases le_abs.mp hnearest with habove | hbelow
  · linarith
  · linarith

theorem Sparse.of_rounded (h : Stepped low high step) (hx : IsDouble x) (hle : low ≤ x)
    (hlt : x < rounded t) (hle' : rounded t ≤ high)
    (hfar : step * (1 / 2 - 1 / 2097152) ≤ rounded t - t)
    (hclose : t - x ≤ step * (1 / 2 + 1 / 2097152)) : Sparse low high step x (rounded t) := by
  refine ⟨h, hx, isDouble_rounded t, hle, hlt, hle', ?_, ?_⟩
  · intro z hz hzlt
    linarith [rounded_sub_le_sub hz hzlt]
  · linarith [rounded_sub_le_sub hx hlt]

theorem not_mem_zmultiples {d : ℚ} {n : ℤ} (hpos : 0 < step) (hlow : n * step < d)
    (hhigh : d < (n + 1) * step) : d ∉ zmultiples step := by
  intro hmem
  obtain ⟨k, rfl⟩ := mem_zmultiples_iff.mp hmem
  rw [zsmul_eq_mul] at hlow hhigh
  have hlow' : n < k := by exact_mod_cast lt_of_mul_lt_mul_right hlow hpos.le
  have hhigh' : k < n + 1 := by exact_mod_cast lt_of_mul_lt_mul_right hhigh hpos.le
  omega

/-- Close to the voltage of a code nothing is rounded up to where the next code begins, if a
double that has the code is below. -/
theorem rounded_sub_lt (h : Stepped low high step) (hx : IsDouble x) (hle : low ≤ x)
    (hlt : x < rounded t) (hle' : rounded t ≤ high)
    (ht : |t - low - code * step| ≤ step / 4194304)
    (hcode : code * step - step * (1 / 2 + 1 / 4194304) ≤ x - low) :
    rounded t - low < code * step + step * (1 / 2 - 1 / 4194304) := by
  have hpos := h.step_pos
  obtain ⟨hbelow, habove⟩ := abs_le.mp ht
  by_contra hfar
  have hother := rounded_sub_le_sub hx hlt
  have hsparse : Sparse low high step x (rounded t) :=
    .of_rounded h hx hle hlt hle' (by linarith) (by linarith)
  obtain ⟨-, hmem⟩ := hsparse.exists_zsmul
  refine not_mem_zmultiples (n := code) hpos ?_ ?_ hmem
  · rw [Int.cast_natCast]
    linarith
  · rw [Int.cast_natCast]
    linarith

/-- Nor is anything rounded down to where the code before ends, if such a double is above. -/
theorem lt_rounded_sub (h : Stepped low high step) (hx : IsDouble x) (hle : x ≤ high)
    (hlt : rounded t < x) (hle' : low ≤ rounded t) (hmax : code ≤ 65535)
    (ht : |t - low - code * step| ≤ step / 16777216)
    (hcode : x - low ≤ code * step + step * (1 / 2 + 1 / 16777216)) :
    code * step - step * (1 / 2 - 1 / 8388608) < rounded t - low := by
  have hspan := abs_le.mp h.abs_span_sub_le
  have hcast : ((65535 - code : ℕ) : ℚ) = 65535 - code := by
    rw [Nat.cast_sub hmax]
    norm_num
  obtain ⟨hbelow, habove⟩ := abs_le.mp ht
  have hflip := rounded_neg t
  have hpos := h.step_pos
  have hmirror : rounded (-t) - -high <
      (65535 - code : ℕ) * step + step * (1 / 2 - 1 / 4194304) := by
    refine rounded_sub_lt h.neg hx.neg (neg_le_neg hle) ?_ ?_ ?_ ?_
    · linarith
    · linarith
    · rw [hcast, abs_le]
      constructor
      · linarith
      · linarith
    · rw [hcast]
      linarith
  rw [hcast] at hmirror
  linarith

theorem low_le_place {low span : ℚ} (hlow : IsDouble low) (hspan : 0 ≤ span) (code : ℕ) :
    low ≤ place low span code := by
  refine le_rounded hlow ?_
  have hoffset := rounded_nonneg (mul_nonneg share_nonneg hspan : 0 ≤ share code * span)
  linarith

/-- The voltage of a voltage's code has that code. -/
theorem encode_place (h : Stepped low high step) (hx : IsDouble x) (hle : low ≤ x)
    (hle' : x ≤ high) (hmax : code ≤ 65535)
    (hcode : encode (65535 * step) (rounded (x - low)) = code)
    (hplace : place low (65535 * step) code ≤ high) :
    encode (65535 * step) (rounded (place low (65535 * step) code - low)) = code := by
  have hpos := h.step_pos
  have hspan := h.span_le
  have hlow := low_le_place h.isDouble_low (by linarith : 0 ≤ 65535 * step) code
  have hsteps := steps_of_encode h.step_large (a := x - low) (by linarith) (by linarith)
  have hsteps' := steps_of_encode h.step_large (a := place low (65535 * step) code - low)
    (by linarith) (by linarith)
  have hmono {y z : ℚ} (hy : low ≤ y) (hyz : y ≤ z) :
      encode (65535 * step) (rounded (y - low)) ≤ encode (65535 * step) (rounded (z - low)) :=
    encode_mono (by linarith) (rounded_nonneg (by linarith)) (rounded_mono (by linarith))
  rw [hcode] at hsteps
  -- From here on it does not matter what the voltage is rounded from.
  obtain ⟨t, ht, hv⟩ : ∃ t, |t - low - code * step| ≤ step / 16777216 ∧
      place low (65535 * step) code = rounded t := by
    refine ⟨rounded (share code * (65535 * step)) + low, ?_, rfl⟩
    rw [add_sub_cancel_right]
    exact abs_offset_sub_le h.step_large hmax
  rw [hv] at hplace hlow hsteps' ⊢
  generalize hback : encode (65535 * step) (rounded (rounded t - low)) = back at hsteps'
  rcases lt_trichotomy x (rounded t) with hlt | heq | hgt
  · have hle'' := hmono hle hlt.le
    rw [hcode, hback] at hle''
    refine le_antisymm ?_ hle''
    by_contra hnext
    have hnext' : (code : ℚ) + 1 ≤ back := by exact_mod_cast Nat.lt_of_not_le hnext
    have hmul := mul_le_mul_of_nonneg_right hnext' hpos.le
    have ht' : |t - low - code * step| ≤ step / 4194304 := by linarith
    have hshort := rounded_sub_lt h hx hle hlt hplace ht' (by linarith [hsteps.1])
    linarith [hsteps'.1]
  · rw [← hback, ← heq, hcode]
  · have hle'' := hmono hlow hgt.le
    rw [hcode, hback] at hle''
    refine le_antisymm hle'' ?_
    by_contra hnext
    have hnext' : (back : ℚ) + 1 ≤ code := by exact_mod_cast Nat.lt_of_not_le hnext
    have hmul := mul_le_mul_of_nonneg_right hnext' hpos.le
    have hshort := lt_rounded_sub h hx hle' hgt hlow hmax ht hsteps.2
    linarith [hsteps'.2]

end RoundTrip

/-! ## Ranges of doubles -/

namespace Number

theorem isFinite_iff {x : Float} : x.isFinite = true ↔ ∃ a, value? x = some a := by
  show x.toModel.unpack.isFinite = true ↔ ∃ a, rational? x.toModel.unpack = some a
  cases x.toModel.unpack with
  | notANumber => exact ⟨nofun, nofun⟩
  | infinity s => exact ⟨nofun, nofun⟩
  | zero s => exact ⟨fun _ => ⟨_, rfl⟩, fun _ => rfl⟩
  | finite s m e hm => exact ⟨fun _ => ⟨_, rfl⟩, fun _ => rfl⟩

/-- What lies between two numbers is one. -/
theorem isFinite_of_le {x y z : Float} (hx : x.isFinite = true) (hz : z.isFinite = true)
    (hxy : x ≤ y) (hyz : y ≤ z) : y.isFinite = true := by
  have hxy' : (x.toModel.unpack.compare y.toModel.unpack).any (·.isLE) = true :=
    of_decide_eq_true hxy
  have hyz' : (y.toModel.unpack.compare z.toModel.unpack).any (·.isLE) = true :=
    of_decide_eq_true hyz
  change x.toModel.unpack.isFinite = true at hx
  change z.toModel.unpack.isFinite = true at hz
  show y.toModel.unpack.isFinite = true
  generalize x.toModel.unpack = u at hx hxy'
  generalize z.toModel.unpack = w at hz hyz'
  generalize y.toModel.unpack = v at hxy' hyz'
  cases v with
  | notANumber => cases u <;> cases hxy'
  | infinity s =>
      cases s with
      | positive => cases w <;> first | cases hyz' | cases hz
      | negative => cases u <;> first | cases hxy' | cases hx
  | zero s => rfl
  | finite s m e hm => rfl

/-- What equals a number is one. -/
theorem isFinite_of_beq {x y : Float} (hy : y.isFinite = true) (h : (x == y) = true) :
    x.isFinite = true := by
  change (x.toModel.unpack.compare y.toModel.unpack == some .eq) = true at h
  change y.toModel.unpack.isFinite = true at hy
  show x.toModel.unpack.isFinite = true
  generalize x.toModel.unpack = u at h
  generalize y.toModel.unpack = v at hy h
  cases u with
  | notANumber => cases v <;> cases h
  | infinity s => cases s <;> cases v <;> first | cases h | cases hy
  | zero s => rfl
  | finite s m e hm => rfl

/-- The smallest double that has all its digits. -/
theorem value?_smallestNormal : value? 2.2250738585072014e-308 = some (2 ^ (-1022 : ℤ)) := by
  decide +kernel

end Number

section Place

variable {low high : ℚ} {code : ℕ}

theorem share_le_one (hcode : code ≤ 65535) : share code ≤ 1 := by
  have hone : IsDouble 1 := by exact_mod_cast IsDouble.of_nat (n := 1) (by omega)
  have hcast : (code : ℚ) ≤ 65535 := by exact_mod_cast hcode
  exact rounded_le hone (by linarith)

/-- All codes but the highest stand for voltages below the higher end. -/
theorem place_le_high (hlow : IsDouble low) (hhigh : IsDouble high) (hlt : low < high)
    (hcode : code < 65535) : place low (rounded (high - low)) code ≤ high := by
  refine rounded_le hhigh ?_
  have hcode' : (code : ℚ) ≤ 65534 := by exact_mod_cast Nat.le_of_lt_succ hcode
  have hzero : (0 : ℚ) ≤ code := Nat.cast_nonneg code
  have hspan : 0 ≤ rounded (high - low) := rounded_nonneg (by linarith)
  have hshare : share code ≤ 1 - 1 / 131072 := by
    have herror := (abs_le.mp (abs_rounded_sub_le_add (q := (code : ℚ) / 65535)
      (by linarith))).2
    have htiny := tiny_le_part
    rw [ulp_eq] at herror
    unfold share
    linarith
  have hproduct := mul_le_mul_of_nonneg_right hshare hspan
  rcases lt_or_ge (high - low) (2 ^ (-1021 : ℤ)) with hsmall | hlarge
  · have hexact : IsDouble (high - low) := by
      obtain ⟨n, hn⟩ := sub_eq_mul hhigh hlow
      refine .of_mul hn ?_
      rw [abs_of_nonneg (by linarith)]
      exact hsmall.le
    rw [rounded_of_isDouble hexact] at hproduct hspan ⊢
    have hle := rounded_le hexact (q := share code * (high - low)) (by linarith)
    linarith
  · have hstep : (2 : ℚ) ^ (-1040 : ℤ) ≤ 2 ^ (-1021 : ℤ) := two_zpow_le (by omega)
    have htiny := tiny_le (hstep.trans hlarge)
    have hspan' := (abs_le.mp (abs_rounded_sub_le_add (q := high - low) (by linarith))).2
    have herror := (abs_le.mp (abs_rounded_sub_le_add
      (q := share code * rounded (high - low)) (mul_nonneg share_nonneg hspan))).2
    rw [ulp_eq] at hspan' herror
    linarith

end Place

namespace VoltageRange

variable {range : VoltageRange} {low high : ℚ} {volt : Float} {code back : UInt16}
  {word : UInt32}

theorem exists_measured (h : (range.max - range.min).isFinite = true) :
    ∃ low high, range.Measured low high := by
  obtain ⟨span, hspan⟩ := isFinite_iff.mp h
  obtain ⟨low, high, hmeasured, -⟩ := measured_of_sub hspan
  exact ⟨low, high, hmeasured⟩

namespace Measured

/-- The voltage of a code, as a number. -/
theorem value?_volt (h : range.Measured low high) (hword : word.toNat ≤ 65535)
    (hplace : |place low (rounded (high - low)) word.toNat| < 2 ^ (1024 : ℤ)) :
    value? (range.volt word) = some (place low (rounded (high - low)) word.toNat) := by
  have hone := share_le_one hword
  have hlarge : (1 : ℚ) < 2 ^ (1024 : ℤ) := one_lt_zpow₀ (by norm_num) (by omega)
  have hshare : value? (word.toFloat / codeScale) = some (share word.toNat) := by
    rw [value?_div (value?_toFloat_uint32 word) value?_codeScale (by norm_num)]
    refine fit_of_abs_lt ?_
    show |share word.toNat| < _
    rw [abs_of_nonneg share_nonneg]
    exact hone.trans_lt hlarge
  have hspan := h.span_pos
  have hpart : 0 ≤ share word.toNat * rounded (high - low) := mul_nonneg share_nonneg hspan.le
  have hpart' : share word.toNat * rounded (high - low) ≤ rounded (high - low) :=
    mul_le_of_le_one_left hspan.le hone
  have hoffset : value? (word.toFloat / codeScale * (range.max - range.min)) =
      some (rounded (share word.toNat * rounded (high - low))) := by
    rw [value?_mul hshare h.value?_span]
    refine fit_of_abs_lt ?_
    rw [abs_of_nonneg (rounded_nonneg hpart)]
    exact (rounded_le (isDouble_rounded _) hpart').trans_lt h.span_lt
  unfold volt
  rw [value?_add hoffset h.value?_min]
  exact fit_of_abs_lt hplace

theorem abs_lt_of_le (h : range.Measured low high) {p : ℚ} (hle : low ≤ p) (hle' : p ≤ high) :
    |p| < 2 ^ (1024 : ℤ) := by
  have hlow := abs_lt.mp (abs_lt_of_value? h.value?_min)
  have hhigh := abs_lt.mp (abs_lt_of_value? h.value?_max)
  exact abs_lt.mpr ⟨hlow.1.trans_le hle, hle'.trans_lt hhigh.2⟩

theorem isFinite_min (h : range.Measured low high) : range.min.isFinite = true :=
  isFinite_iff.mpr ⟨low, h.value?_min⟩

theorem isFinite_max (h : range.Measured low high) : range.max.isFinite = true :=
  isFinite_iff.mpr ⟨high, h.value?_max⟩

theorem contains_iff (h : range.Measured low high) :
    range.contains volt = true ↔ ∃ y, value? volt = some y ∧ low ≤ y ∧ y ≤ high := by
  rw [contains, Bool.and_eq_true, decide_eq_true_eq, decide_eq_true_eq]
  constructor
  · rintro ⟨hle, hle'⟩
    obtain ⟨y, hy⟩ := isFinite_iff.mp (isFinite_of_le h.isFinite_min h.isFinite_max hle hle')
    rw [le_iff h.value?_min hy] at hle
    rw [le_iff hy h.value?_max] at hle'
    exact ⟨y, hy, hle, hle'⟩
  · rintro ⟨y, hy, hle, hle'⟩
    exact ⟨(le_iff h.value?_min hy).mpr hle, (le_iff hy h.value?_max).mpr hle'⟩

theorem contains_of_beq (h : range.Measured low high) {volt' : Float}
    (hvolt : range.contains volt = true) (heq : (volt' == volt) = true) :
    range.contains volt' = true := by
  obtain ⟨y, hy, hle, hle'⟩ := h.contains_iff.mp hvolt
  obtain ⟨y', hy'⟩ := isFinite_iff.mp (isFinite_of_beq (isFinite_iff.mpr ⟨y, hy⟩) heq)
  obtain rfl : y' = y := (beq_iff hy' hy).mp heq
  exact h.contains_iff.mpr ⟨y', hy', hle, hle'⟩

/-- Where the ends are numbers, just the voltages in the range have codes. -/
theorem exists_code_iff (h : range.Measured low high) :
    (∃ n, range.code volt = .ok n) ↔ range.contains volt = true := by
  constructor
  · rintro ⟨n, hn⟩
    exact (VoltageRange.of_code_ok hn).1
  · intro hcontains
    obtain ⟨y, hy, hle, hle'⟩ := h.contains_iff.mp hcontains
    exact ⟨_, (h.code_eq hy hle hle').2⟩

/-- The voltages of all codes but the highest are in the range. -/
theorem contains_volt (h : range.Measured low high) (hword : word.toNat < 65535) :
    range.contains (range.volt word) = true := by
  have hle := low_le_place h.isDouble_low h.span_pos.le word.toNat
  have hle' := place_le_high h.isDouble_low h.isDouble_high h.lt hword
  exact h.contains_iff.mpr ⟨_, h.value?_volt hword.le (h.abs_lt_of_le hle hle'), hle, hle'⟩

theorem stepped (h : range.Measured low high)
    (hwide : 2.2250738585072014e-308 ≤ range.max - range.min) :
    Stepped low high (rounded (high - low) / 65535) := by
  rw [le_iff value?_smallestNormal h.value?_span] at hwide
  refine ⟨h.isDouble_low, h.isDouble_high, h.lt.le, ?_, (mul_div_cancel₀ _ (by norm_num)).symm⟩
  rw [le_div_iff₀ (by norm_num)]
  have hpow : (2 : ℚ) ^ (16 : ℤ) = 65536 := by norm_num
  have hsplit : (2 : ℚ) ^ (-1040 : ℤ) * 2 ^ (16 : ℤ) = 2 ^ (-1024 : ℤ) := by
    rw [← two_zpow_add]
    rfl
  have hle : (2 : ℚ) ^ (-1024 : ℤ) ≤ 2 ^ (-1022 : ℤ) := two_zpow_le (by omega)
  have hpos := two_zpow_pos (-1040)
  rw [hpow] at hsplit
  linarith

end Measured

/-- There and back, up to the end of the range: the words of codes have codes, but for the
highest where its voltage is not in the range. -/
theorem exists_code_volt_iff (hword : word.toNat ≤ 65535) :
    (∃ n, range.code (range.volt word) = .ok n) ↔ (range.max - range.min).isFinite = true ∧
      (word = 65535 → range.contains (range.volt 65535) = true) := by
  constructor
  · rintro ⟨n, hn⟩
    obtain ⟨p, hp⟩ := exists_value?_of_code hn
    obtain ⟨low, high, h, -⟩ := measured_of_volt hp
    refine ⟨isFinite_iff.mpr ⟨_, h.value?_span⟩, ?_⟩
    rintro rfl
    exact (of_code_ok hn).1
  · rintro ⟨hfinite, htop⟩
    obtain ⟨low, high, h⟩ := exists_measured hfinite
    rw [h.exists_code_iff]
    by_cases hlast : word = 65535
    · rw [hlast]
      exact htop hlast
    · refine h.contains_volt (lt_of_le_of_ne hword fun heq => hlast ?_)
      exact UInt32.toNat_inj.mp heq

theorem exists_code_volt_code_iff :
    (∃ n, range.code (range.volt code.toUInt32) = .ok n) ↔
      (range.max - range.min).isFinite = true ∧
        (code = 65535 → range.contains (range.volt 65535) = true) := by
  have hnat := UInt16.toNat_toUInt32 code
  have hlast : code.toUInt32 = 65535 ↔ code = 65535 := by
    rw [← UInt32.toNat_inj, ← UInt16.toNat_inj, hnat]
    rfl
  have hlt := code.toNat_lt
  rw [exists_code_volt_iff (by omega), hlast]

/-- A value that was read is a word as well. -/
theorem exists_code_volt_value_iff {value : UInt64} (hvalue : value ≤ 65535) :
    (∃ n, range.code (range.volt value.toUInt32) = .ok n) ↔
      (range.max - range.min).isFinite = true ∧
        (value = 65535 → range.contains (range.volt 65535) = true) := by
  have hle : value.toNat ≤ 65535 := UInt64.le_iff_toNat_le.mp hvalue
  have hnat : value.toUInt32.toNat = value.toNat := by
    rw [UInt64.toNat_toUInt32]
    omega
  have hlast : value.toUInt32 = 65535 ↔ value = 65535 := by
    rw [← UInt32.toNat_inj, ← UInt64.toNat_inj, hnat]
    rfl
  rw [exists_code_volt_iff (by omega), hlast]

/-- The voltage of a voltage's code has that code, if it has any and the range is not narrower
than doubles are precise. -/
theorem code_volt_code (hwide : 2.2250738585072014e-308 ≤ range.max - range.min)
    (hcode : range.code volt = .ok code)
    (hback : range.code (range.volt code.toUInt32) = .ok back) : back = code := by
  obtain ⟨p, hp⟩ := exists_value?_of_code hback
  obtain ⟨low, high, h, hplace⟩ := measured_of_volt hp
  obtain ⟨q, hq, -, hle, hback'⟩ := h.of_code_ok hback
  obtain rfl : p = q := Option.some.inj (hp.symm.trans hq)
  obtain ⟨x, hx, hlow, hhigh, hcode'⟩ := h.of_code_ok hcode
  have hspan : 65535 * (rounded (high - low) / 65535) = rounded (high - low) :=
    mul_div_cancel₀ _ (by norm_num)
  have hround := encode_place (h.stepped hwide) (isDouble_of_value? hx) hlow
    hhigh (Nat.le_of_lt_succ code.toNat_lt)
  rw [hspan] at hround
  rw [UInt16.toNat_toUInt32] at hplace
  rw [hplace] at hle hback'
  exact UInt16.toNat_inj.mp (hback'.trans (hround hcode'.symm hle))

end VoltageRange

end DacRack
