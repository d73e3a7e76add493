import DacRack.Proofs.Floats
import DacRack.Voltage

/-!
# Codes and voltages in order

Voltages are turned into codes and codes into voltages by a handful of operations on
doubles, each of them rounded, on a range that may be as narrow or as wide as doubles
are. For all the rounding, nothing ever gets out of order: a voltage below that of some
code has that code or a lower one, and a voltage above it that code or a higher one
(`code_le_of_lt_volt`, `le_code_of_volt_lt`).

The voltage of a code is the code's share of the span, added to the lower end. Where the
share is far from zero, its error and those on the way back to a code add up to a few
parts in `2 ^ 53`, of at most 65535, which is less than the half that would be needed to
get to another code. Where the share is so close to zero that its error is not relative
to it, the voltage's distance from the lower end is exact, and that decides.
-/

namespace DacRack

open Number

/-- The relative error of a rounded result. -/
def ulp : ℚ := 2 ^ (-53 : ℤ)

theorem ulp_eq : ulp = 1 / 9007199254740992 := by
  unfold ulp
  norm_num

theorem ulp_pos : 0 < ulp :=
  two_zpow_pos _

theorem rounded_le_mul {q : ℚ} (h : 2 ^ (-1022 : ℤ) ≤ q) : rounded q ≤ q * (1 + ulp) := by
  have herror := (abs_le.mp (abs_rounded_sub_le_mul h)).2
  rw [mul_add, mul_one]
  unfold ulp
  linarith

theorem mul_le_rounded {q : ℚ} (h : 2 ^ (-1022 : ℤ) ≤ q) : q * (1 - ulp) ≤ rounded q := by
  have herror := (abs_le.mp (abs_rounded_sub_le_mul h)).1
  rw [mul_sub, mul_one]
  unfold ulp
  linarith

/-- Half a code's share is far from zero. -/
theorem normal_of_le {q : ℚ} (h : 1 / 131072 ≤ q) : (2 : ℚ) ^ (-1022 : ℤ) ≤ q := by
  have hpow : (2 : ℚ) ^ (-1022 : ℤ) ≤ 2 ^ (-17 : ℤ) := two_zpow_le (by omega)
  have heq : (2 : ℚ) ^ (-17 : ℤ) = 1 / 131072 := by norm_num
  rw [heq] at hpow
  exact hpow.trans h

/-- The code at some distance from the lower end of a span. -/
def encode (span distance : ℚ) : ℕ :=
  nearest .away (rounded (rounded (distance / span) * 65535))

/-- A code's share of the whole. -/
def share (code : ℕ) : ℚ :=
  rounded (code / 65535)

section Encode

variable {span : ℚ}

theorem rounded_nonneg {q : ℚ} (h : 0 ≤ q) : 0 ≤ rounded q := by
  rw [rounded_of_nonneg h]
  exact roundedMagnitude_nonneg q

theorem encode_mono (hspan : 0 < span) {a b : ℚ} (ha : 0 ≤ a) (h : a ≤ b) :
    encode span a ≤ encode span b := by
  have hpart : 0 ≤ rounded (a / span) := rounded_nonneg (div_nonneg ha hspan.le)
  refine nearest_mono .away (rounded_nonneg (by linarith)) (rounded_mono ?_)
  have hle := rounded_mono (div_le_div_of_nonneg_right h hspan.le)
  linarith

theorem share_zero : share 0 = 0 := by
  rw [share, Nat.cast_zero, zero_div, rounded_zero]

theorem encode_zero : encode span 0 = 0 := by
  rw [encode, zero_div, rounded_zero, zero_mul, rounded_zero, nearest_zero]

/-- A distance that is hardly above a code's share does not have a higher code. -/
theorem encode_le (hspan : 0 < span) {code : ℕ} (hcode : code ≤ 65535) {a : ℚ} (ha : 0 ≤ a)
    (h : a ≤ share code * span * (1 + ulp)) : encode span a ≤ code := by
  rcases Nat.eq_zero_or_pos code with rfl | hpos
  · rw [share_zero, zero_mul, zero_mul] at h
    rw [le_antisymm h ha, encode_zero]
  have hone : (1 : ℚ) ≤ code := by exact_mod_cast hpos
  have hmax : (code : ℚ) ≤ 65535 := by exact_mod_cast hcode
  -- The share, the distance, the quotient and the product are each off by a factor of at most
  -- `1 + ulp`, and all four together by less than half a code.
  have hgrow := one_le_pow₀ (n := 3) (show 1 ≤ 1 + ulp by linarith [ulp_pos])
  have hgrow' := one_le_pow₀ (n := 2) (show 1 ≤ 1 + ulp by linarith [ulp_pos])
  have hshare : share code ≤ code / 65535 * (1 + ulp) :=
    rounded_le_mul (normal_of_le (by linarith))
  have hpart : a / span ≤ code / 65535 * (1 + ulp) ^ 2 := by
    rw [div_le_iff₀ hspan]
    calc a ≤ share code * span * (1 + ulp) := h
      _ ≤ code / 65535 * (1 + ulp) * span * (1 + ulp) := by
          have hpos' := ulp_pos
          gcongr
      _ = code / 65535 * (1 + ulp) ^ 2 * span := by ring
  have hrounded : rounded (a / span) ≤ code / 65535 * (1 + ulp) ^ 3 :=
    calc rounded (a / span) ≤ rounded (code / 65535 * (1 + ulp) ^ 2) := rounded_mono hpart
      _ ≤ code / 65535 * (1 + ulp) ^ 2 * (1 + ulp) :=
          rounded_le_mul (normal_of_le (by nlinarith))
      _ = code / 65535 * (1 + ulp) ^ 3 := by ring
  have hscaled : rounded (rounded (a / span) * 65535) ≤ code * (1 + ulp) ^ 4 :=
    calc rounded (rounded (a / span) * 65535) ≤ rounded (code * (1 + ulp) ^ 3) :=
          rounded_mono (by linarith)
      _ ≤ code * (1 + ulp) ^ 3 * (1 + ulp) := rounded_le_mul (normal_of_le (by nlinarith))
      _ = code * (1 + ulp) ^ 4 := by ring
  have hsmall : (code : ℚ) * (1 + ulp) ^ 4 < code + 1 / 2 := by
    have hpow : (1 + ulp) ^ 4 < 1 + 1 / 131072 := by
      rw [ulp_eq]
      norm_num
    nlinarith
  have hnonneg : 0 ≤ rounded (rounded (a / span) * 65535) :=
    rounded_nonneg (mul_nonneg (rounded_nonneg (div_nonneg ha hspan.le)) (by norm_num))
  have hnear := (abs_le.mp (abs_nearest_sub_le .away hnonneg)).2
  have hlt : (encode span a : ℚ) < code + 1 := by
    unfold encode
    linarith
  exact Nat.lt_succ_iff.mp (by exact_mod_cast hlt)

/-- A distance that is hardly below a code's share does not have a lower code. -/
theorem le_encode (hspan : 0 < span) {code : ℕ} (hcode : code ≤ 65535) {a : ℚ}
    (h : share code * span * (1 - ulp) ≤ a) : code ≤ encode span a := by
  rcases Nat.eq_zero_or_pos code with rfl | hpos
  · exact Nat.zero_le _
  have hone : (1 : ℚ) ≤ code := by exact_mod_cast hpos
  have hmax : (code : ℚ) ≤ 65535 := by exact_mod_cast hcode
  have hless : 0 < 1 - ulp := by
    rw [ulp_eq]
    norm_num
  have hshrink : (1 / 2 : ℚ) ≤ (1 - ulp) ^ 3 := by
    rw [ulp_eq]
    norm_num
  have hshrink' : (1 - ulp) ^ 3 ≤ (1 - ulp) ^ 2 :=
    pow_le_pow_of_le_one hless.le (by linarith [ulp_pos]) (by omega)
  have hshare : code / 65535 * (1 - ulp) ≤ share code :=
    mul_le_rounded (normal_of_le (by linarith))
  have hpart : code / 65535 * (1 - ulp) ^ 2 ≤ a / span := by
    rw [le_div_iff₀ hspan]
    calc code / 65535 * (1 - ulp) ^ 2 * span
        = code / 65535 * (1 - ulp) * span * (1 - ulp) := by ring
      _ ≤ share code * span * (1 - ulp) := by gcongr
      _ ≤ a := h
  have hrounded : code / 65535 * (1 - ulp) ^ 3 ≤ rounded (a / span) :=
    calc (code : ℚ) / 65535 * (1 - ulp) ^ 3
        = code / 65535 * (1 - ulp) ^ 2 * (1 - ulp) := by ring
      _ ≤ rounded (code / 65535 * (1 - ulp) ^ 2) :=
          mul_le_rounded (normal_of_le (by nlinarith))
      _ ≤ rounded (a / span) := rounded_mono hpart
  have hscaled : code * (1 - ulp) ^ 4 ≤ rounded (rounded (a / span) * 65535) :=
    calc (code : ℚ) * (1 - ulp) ^ 4 = code * (1 - ulp) ^ 3 * (1 - ulp) := by ring
      _ ≤ rounded (code * (1 - ulp) ^ 3) := mul_le_rounded (normal_of_le (by nlinarith))
      _ ≤ rounded (rounded (a / span) * 65535) := rounded_mono (by linarith)
  have hlarge : (code : ℚ) - 1 / 2 < code * (1 - ulp) ^ 4 := by
    have hpow : 1 - 1 / 131072 < (1 - ulp) ^ 4 := by
      rw [ulp_eq]
      norm_num
    nlinarith
  have hnonneg : 0 ≤ rounded (rounded (a / span) * 65535) := by
    have hpos' : (0 : ℚ) ≤ code * (1 - ulp) ^ 4 := by positivity
    linarith
  have hnear := (abs_le.mp (abs_nearest_sub_le .away hnonneg)).1
  have hlt : (code : ℚ) < encode span a + 1 := by
    unfold encode
    linarith
  exact Nat.lt_succ_iff.mp (by exact_mod_cast hlt)

end Encode

/-! A code's voltage is its share of the span, added to the lower end. -/

section Place

variable {low span y : ℚ} {code : ℕ}

/-- The voltage of a code, as a number. -/
def place (low span : ℚ) (code : ℕ) : ℚ :=
  rounded (rounded (share code * span) + low)

theorem sub_eq_mul (hy : IsDouble y) (hlow : IsDouble low) :
    ∃ n : ℤ, y - low = n * 2 ^ (-1074 : ℤ) := by
  obtain ⟨m, hm⟩ := hy.eq_mul
  obtain ⟨n, hn⟩ := hlow.eq_mul
  refine ⟨m - n, ?_⟩
  rw [hm, hn, Int.cast_sub]
  ring

theorem step_le_of_lt {p q : ℚ} (hp : ∃ n : ℤ, p = n * 2 ^ (-1074 : ℤ))
    (hq : ∃ n : ℤ, q = n * 2 ^ (-1074 : ℤ)) (h : p < q) : p + 2 ^ (-1074 : ℤ) ≤ q := by
  obtain ⟨m, rfl⟩ := hp
  obtain ⟨n, rfl⟩ := hq
  have hpos := two_zpow_pos (-1074)
  have hlt : m + 1 ≤ n := by exact_mod_cast lt_of_mul_lt_mul_right h hpos.le
  have hcast : (m : ℚ) + 1 ≤ n := by exact_mod_cast hlt
  nlinarith

theorem share_nonneg : 0 ≤ share code :=
  rounded_nonneg (by positivity)

/-- Below the voltage of a code the distance from the lower end is at most its share. -/
theorem distance_le_of_lt (hspan : 0 < span) (hlow : IsDouble low) (hy : IsDouble y)
    (h : low ≤ y) (hlt : y < place low span code) :
    rounded (y - low) ≤ share code * span * (1 + ulp) := by
  have hpart : 0 ≤ share code * span := mul_nonneg share_nonneg hspan.le
  have hdouble := isDouble_rounded (share code * span)
  have hgap : y - low < rounded (share code * span) := by
    by_contra hge
    have hle := rounded_le hy (q := rounded (share code * span) + low) (by linarith)
    exact absurd hlt (not_lt.mpr hle)
  rcases lt_or_ge (share code * span) (2 ^ (-1022 : ℤ)) with hsmall | hlarge
  -- Both are multiples of the smallest double, so that the distance is at least a step less.
  · have hstep := step_le_of_lt (sub_eq_mul hy hlow) hdouble.eq_mul hgap
    have hnormal : (2 : ℚ) ^ (-1022 : ℤ) ≤ 2 ^ (-1021 : ℤ) := two_zpow_le (by omega)
    have herror := (abs_le.mp (abs_rounded_sub_le_half hpart (hsmall.trans_le hnormal))).2
    have hpos := two_zpow_pos (-1074)
    have hle : y - low ≤ share code * span := by linarith
    have hexact : IsDouble (y - low) := by
      obtain ⟨n, hn⟩ := sub_eq_mul hy hlow
      refine .of_mul hn ?_
      rw [abs_of_nonneg (by linarith)]
      linarith
    rw [rounded_of_isDouble hexact]
    nlinarith [ulp_pos]
  · calc rounded (y - low) ≤ rounded (rounded (share code * span)) := rounded_mono hgap.le
      _ = rounded (share code * span) := rounded_of_isDouble hdouble
      _ ≤ share code * span * (1 + ulp) := rounded_le_mul hlarge

/-- Above it the distance is at least its share. -/
theorem le_distance_of_lt (hspan : 0 < span) (hlow : IsDouble low) (hy : IsDouble y)
    (hlt : place low span code < y) :
    share code * span * (1 - ulp) ≤ rounded (y - low) := by
  have hpart : 0 ≤ share code * span := mul_nonneg share_nonneg hspan.le
  have hdouble := isDouble_rounded (share code * span)
  have hgap : rounded (share code * span) < y - low := by
    by_contra hge
    have hle := le_rounded hy (q := rounded (share code * span) + low) (by linarith)
    exact absurd hlt (not_lt.mpr hle)
  rcases lt_or_ge (share code * span) (2 ^ (-1022 : ℤ)) with hsmall | hlarge
  · have hstep := step_le_of_lt hdouble.eq_mul (sub_eq_mul hy hlow) hgap
    have hnormal : (2 : ℚ) ^ (-1021 : ℤ) = 2 ^ (-1022 : ℤ) + 2 ^ (-1022 : ℤ) := by
      rw [← mul_two, ← zpow_add_one₀ (by norm_num)]
      rfl
    have htiny : (2 : ℚ) ^ (-1074 : ℤ) + 2 ^ (-1074 : ℤ) ≤ 2 ^ (-1022 : ℤ) := by
      rw [← mul_two, ← zpow_add_one₀ (by norm_num)]
      exact two_zpow_le (by omega)
    have hpos := two_zpow_pos (-1074)
    have herror := abs_le.mp (abs_rounded_sub_le_half hpart (by linarith))
    have hnext : IsDouble (rounded (share code * span) + 2 ^ (-1074 : ℤ)) := by
      obtain ⟨n, hn⟩ := hdouble.eq_mul
      refine .of_mul (n := n + 1) ?_ ?_
      · rw [hn, Int.cast_add, Int.cast_one, add_mul, one_mul]
      · rw [abs_of_nonneg (by linarith [rounded_nonneg hpart])]
        linarith
    have hle := le_rounded hnext hstep
    nlinarith [ulp_pos]
  · calc share code * span * (1 - ulp) ≤ rounded (share code * span) := mul_le_rounded hlarge
      _ = rounded (rounded (share code * span)) := (rounded_of_isDouble hdouble).symm
      _ ≤ rounded (y - low) := rounded_mono hgap.le

/-- A word that is no code stands for a voltage past the higher end. -/
theorem high_le_place {high : ℚ} (hlow : IsDouble low) (hhigh : IsDouble high)
    (hlt : low < high) (hcode : 65535 < code) :
    high ≤ place low (rounded (high - low)) code := by
  refine le_rounded hhigh ?_
  have hcode' : (65536 : ℚ) ≤ code := by exact_mod_cast hcode
  have hone : (65536 : ℚ) / 65535 ≤ code / 65535 := by gcongr
  have hless : (0 : ℚ) < 1 - ulp := by
    rw [ulp_eq]
    norm_num
  have hshare : 1 + 1 / 131072 ≤ share code := by
    have hle : 1 + 1 / 131072 ≤ 65536 / 65535 * (1 - ulp) := by
      rw [ulp_eq]
      norm_num
    have hrounded : (code : ℚ) / 65535 * (1 - ulp) ≤ share code :=
      mul_le_rounded (normal_of_le (by linarith))
    have hmul := mul_le_mul_of_nonneg_right hone hless.le
    linarith
  -- A tiny span is exact. For another one, what the share has above one makes up for the two
  -- roundings.
  rcases lt_or_ge (high - low) (2 ^ (-1021 : ℤ)) with hsmall | hlarge
  · have hexact : IsDouble (high - low) := by
      obtain ⟨n, hn⟩ := sub_eq_mul hhigh hlow
      refine .of_mul hn ?_
      rw [abs_of_nonneg (by linarith)]
      exact hsmall.le
    have hle : high - low ≤ rounded (share code * rounded (high - low)) := by
      rw [rounded_of_isDouble hexact]
      exact le_rounded hexact (by nlinarith)
    linarith
  · have hnormal : (2 : ℚ) ^ (-1022 : ℤ) ≤ 2 ^ (-1021 : ℤ) := two_zpow_le (by omega)
    have hspan : (high - low) * (1 - ulp) ≤ rounded (high - low) :=
      mul_le_rounded (hnormal.trans hlarge)
    have hproduct : (1 + 1 / 131072) * ((high - low) * (1 - ulp)) ≤
        share code * rounded (high - low) :=
      mul_le_mul hshare hspan (by nlinarith) (by linarith)
    have hgrow : 1 ≤ (1 + 1 / 131072) * (1 - ulp) * (1 - ulp) := by
      rw [ulp_eq]
      norm_num
    have hgrow' : 1 ≤ (1 + 1 / 131072) * (1 - ulp) := by
      rw [ulp_eq]
      norm_num
    have hpos : 0 < high - low := by linarith
    have hrounded : share code * rounded (high - low) * (1 - ulp) ≤
        rounded (share code * rounded (high - low)) :=
      mul_le_rounded (by nlinarith)
    have hle : high - low ≤ share code * rounded (high - low) * (1 - ulp) := by
      calc high - low ≤ (1 + 1 / 131072) * (1 - ulp) * (1 - ulp) * (high - low) := by nlinarith
        _ = (1 + 1 / 131072) * ((high - low) * (1 - ulp)) * (1 - ulp) := by ring
        _ ≤ share code * rounded (high - low) * (1 - ulp) :=
            mul_le_mul_of_nonneg_right hproduct hless.le
    linarith

end Place

namespace VoltageRange

variable {range : VoltageRange} {low high : ℚ}

theorem value?_codeScale : value? codeScale = some 65535 := by
  have hscale : codeScale = (65535 : UInt16).toFloat := by decide +kernel
  rw [hscale, value?_toFloat_uint16]
  rfl

/-- The ends of a range, if they and the distance between them are numbers. -/
structure Measured (range : VoltageRange) (low high : ℚ) : Prop where
  value?_min : value? range.min = some low
  value?_max : value? range.max = some high
  value?_span : value? (range.max - range.min) = some (rounded (high - low))

theorem measured_of_sub {span : ℚ} (h : value? (range.max - range.min) = some span) :
    ∃ low high, range.Measured low high ∧ span = rounded (high - low) := by
  obtain ⟨high, low, hhigh, hlow, rfl⟩ := exists_value?_of_sub h
  exact ⟨low, high, ⟨hlow, hhigh, h⟩, rfl⟩

namespace Measured

theorem lt (h : range.Measured low high) : low < high :=
  (lt_iff h.value?_min h.value?_max).mp range.min_lt_max

theorem isDouble_low (h : range.Measured low high) : IsDouble low :=
  isDouble_of_value? h.value?_min

theorem isDouble_high (h : range.Measured low high) : IsDouble high :=
  isDouble_of_value? h.value?_max

theorem span_pos (h : range.Measured low high) : 0 < rounded (high - low) := by
  have hpos := two_zpow_pos (-1074)
  have hstep := step_le_of_lt h.isDouble_low.eq_mul h.isDouble_high.eq_mul h.lt
  have hdouble : IsDouble (2 ^ (-1074 : ℤ)) :=
    ⟨1, -1074, by norm_num, le_refl _, by rw [Int.cast_one, one_mul]⟩
  exact hpos.trans_le (le_rounded hdouble (by linarith))

theorem span_lt (h : range.Measured low high) : rounded (high - low) < 2 ^ (1024 : ℤ) := by
  have hfit := abs_lt_of_fit ((value?_sub h.value?_max h.value?_min).symm.trans h.value?_span)
  exact (le_abs_self _).trans_lt hfit

theorem code_eq (h : range.Measured low high) {x : Float} {y : ℚ} (hx : value? x = some y)
    (hlow : low ≤ y) (hhigh : y ≤ high) :
    encode (rounded (high - low)) (rounded (y - low)) ≤ 65535 ∧
      range.code x =
        .ok (UInt16.ofNat (encode (rounded (high - low)) (rounded (y - low)))) := by
  have hspan := h.span_pos
  have hlarge := h.span_lt
  have hbig : (65535 : ℚ) < 2 ^ (1024 : ℤ) := by
    have hpow : (2 : ℚ) ^ (16 : ℤ) ≤ 2 ^ (1024 : ℤ) := two_zpow_le (by omega)
    have heq : (2 : ℚ) ^ (16 : ℤ) = 65536 := by norm_num
    rw [heq] at hpow
    exact lt_of_lt_of_le (by norm_num) hpow
  have hdistance : 0 ≤ rounded (y - low) := rounded_nonneg (by linarith)
  have hdistance' : rounded (y - low) ≤ rounded (high - low) := rounded_mono (by linarith)
  have hsub : value? (x - range.min) = some (rounded (y - low)) := by
    rw [value?_sub hx h.value?_min, fit_of_abs_lt]
    rw [abs_of_nonneg hdistance]
    linarith
  have hpart : 0 ≤ rounded (rounded (y - low) / rounded (high - low)) :=
    rounded_nonneg (div_nonneg hdistance hspan.le)
  have hpart' : rounded (rounded (y - low) / rounded (high - low)) ≤ 1 := by
    have hdouble : IsDouble 1 := by exact_mod_cast IsDouble.of_nat (n := 1) (by omega)
    exact rounded_le hdouble ((div_le_one hspan).mpr hdistance')
  have hdiv : value? ((x - range.min) / (range.max - range.min)) =
      some (rounded (rounded (y - low) / rounded (high - low))) := by
    rw [value?_div hsub h.value?_span hspan.ne', fit_of_abs_lt]
    rw [abs_of_nonneg hpart]
    exact hpart'.trans_lt (lt_trans (by norm_num) hbig)
  have hscaled : 0 ≤ rounded (rounded (rounded (y - low) / rounded (high - low)) * 65535) :=
    rounded_nonneg (by linarith)
  have hscaled' : rounded (rounded (rounded (y - low) / rounded (high - low)) * 65535) ≤
      (65535 : ℕ) :=
    rounded_le (IsDouble.of_nat (by omega)) (by push_cast; linarith)
  have hmul : value? ((x - range.min) / (range.max - range.min) * codeScale) =
      some (rounded (rounded (rounded (y - low) / rounded (high - low)) * 65535)) := by
    rw [value?_mul hdiv value?_codeScale, fit_of_abs_lt]
    rw [abs_of_nonneg hscaled]
    exact hscaled'.trans_lt (by exact_mod_cast hbig)
  have hmax : encode (rounded (high - low)) (rounded (y - low)) ≤ 65535 := by
    have hmono := nearest_mono .away hscaled hscaled'
    rwa [nearest_natCast] at hmono
  have hcontains : range.contains x = true := by
    rw [contains, Bool.and_eq_true, decide_eq_true_eq, decide_eq_true_eq,
      le_iff h.value?_min hx, le_iff hx h.value?_max]
    exact ⟨hlow, hhigh⟩
  refine ⟨hmax, ?_⟩
  unfold code
  simp only [hcontains, if_true, nearestInt_ofFloat hmul hscaled]
  rw [if_pos ⟨Int.natCast_nonneg _, by exact_mod_cast hmax⟩]
  rfl

end Measured

section Infinite

open Float.Model Float.Model.UnpackedFloat

theorem unpack_sub (x y : Float) {u : UnpackedFloat} (h : Canonical u) (hnone : rational? u = none)
    (hsub : UnpackedFloat.sub Format.binary64 x.toModel.unpack y.toModel.unpack = u) :
    (x - y).toModel.unpack = u := by
  have hpack : (x - y).toModel.unpack = unpack Format.binary64 (pack Format.binary64
    (UnpackedFloat.sub Format.binary64 x.toModel.unpack y.toModel.unpack)) := rfl
  rw [hpack, hsub, unpack_pack h]
  cases u with
  | finite s m e hm => cases hnone
  | _ => rfl

/-- An infinite voltage has no place in the span, even where the range goes that far. -/
theorem value?_part_of_none {x : Float} (hcontains : range.contains x = true)
    (hx : value? x = none) : value? ((x - range.min) / (range.max - range.min)) = none := by
  rw [contains, Bool.and_eq_true, decide_eq_true_eq, decide_eq_true_eq] at hcontains
  have hmin : (range.min.toModel.unpack.compare x.toModel.unpack).any (·.isLE) = true :=
    of_decide_eq_true hcontains.1
  have hmax : (x.toModel.unpack.compare range.max.toModel.unpack).any (·.isLE) = true :=
    of_decide_eq_true hcontains.2
  have hlt : (range.min.toModel.unpack.compare range.max.toModel.unpack == some .lt) = true :=
    of_decide_eq_true range.min_lt_max
  have hsub {u : UnpackedFloat} := unpack_sub (u := u) x range.min
  have hspan {u : UnpackedFloat} := unpack_sub (u := u) range.max range.min
  refine value?_pack_of_none (u := UnpackedFloat.div Format.binary64
    (x - range.min).toModel.unpack (range.max - range.min).toModel.unpack) ?_
  unfold value? at hx
  generalize x.toModel.unpack = u at hx hmin hmax hsub
  generalize range.min.toModel.unpack = low at hmin hlt hsub hspan
  generalize range.max.toModel.unpack = high at hmax hlt hspan
  -- A voltage in the range that is no number is the end of the range on its side.
  cases u with
  | zero s => cases hx
  | finite s m e hm => cases hx
  | notANumber => cases low <;> cases hmin
  | infinity s =>
      cases s with
      | positive =>
          obtain rfl : high = .infinity .positive := by
            cases high with
            | infinity s => cases s <;> first | rfl | cases hmax
            | _ => cases hmax
          have hlow (v : UnpackedFloat) (hv : v = .infinity .positive) :
              UnpackedFloat.sub Format.binary64 v low = .infinity .positive := by
            rw [hv]
            cases low with
            | notANumber => cases hlt
            | infinity s => cases s <;> first | rfl | cases hlt
            | _ => rfl
          rw [hsub (u := .infinity .positive) trivial rfl (hlow _ rfl),
            hspan (u := .infinity .positive) trivial rfl (hlow _ rfl)]
          rfl
      | negative =>
          obtain rfl : low = .infinity .negative := by
            cases low with
            | infinity s => cases s <;> first | rfl | cases hmin
            | notANumber => cases hmin
            | _ => cases hmin
          rw [hsub (u := .notANumber) trivial rfl rfl]
          rfl

end Infinite

theorem of_code_ok {x : Float} {n : UInt16} (h : range.code x = .ok n) :
    range.contains x = true ∧
      ∃ p, value? ((x - range.min) / (range.max - range.min) * codeScale) = some p := by
  unfold code at h
  simp only at h
  split at h
  · next hcontains =>
      refine ⟨hcontains, ?_⟩
      split at h
      · next k hk => exact exists_value?_of_nearestInt hk
      · cases h
  · cases h

theorem exists_value?_of_code {x : Float} {n : UInt16} (h : range.code x = .ok n) :
    ∃ y, value? x = some y := by
  obtain ⟨hcontains, p, hp⟩ := of_code_ok h
  obtain ⟨a, b, hpart, -, -⟩ := exists_value?_of_mul hp
  cases hx : value? x with
  | some y => exact ⟨y, rfl⟩
  | none =>
      rw [value?_part_of_none hcontains hx] at hpart
      cases hpart

/-- The code of a voltage, as a number. -/
theorem Measured.of_code_ok (h : range.Measured low high) {x : Float} {n : UInt16}
    (hcode : range.code x = .ok n) :
    ∃ y, value? x = some y ∧ low ≤ y ∧ y ≤ high ∧
      n.toNat = encode (rounded (high - low)) (rounded (y - low)) := by
  obtain ⟨hcontains, -⟩ := VoltageRange.of_code_ok hcode
  obtain ⟨y, hx⟩ := exists_value?_of_code hcode
  rw [contains, Bool.and_eq_true, decide_eq_true_eq, decide_eq_true_eq,
    le_iff h.value?_min hx, le_iff hx h.value?_max] at hcontains
  obtain ⟨hmax, heq⟩ := h.code_eq hx hcontains.1 hcontains.2
  rw [heq] at hcode
  cases hcode
  exact ⟨y, hx, hcontains.1, hcontains.2, UInt16.toNat_ofNat_of_lt' (Nat.lt_succ_of_le hmax)⟩

/-- The voltage of a word, if it is a number. -/
theorem measured_of_volt {word : UInt32} {p : ℚ} (h : value? (range.volt word) = some p) :
    ∃ low high, range.Measured low high ∧ p = place low (rounded (high - low)) word.toNat := by
  obtain ⟨d, low', hd, hlow, rfl⟩ := exists_value?_of_add h
  obtain ⟨f, span, hf, hspan, rfl⟩ := exists_value?_of_mul hd
  obtain ⟨low, high, hmeasured, rfl⟩ := measured_of_sub hspan
  obtain rfl : low = low' := Option.some.inj (hmeasured.value?_min.symm.trans hlow)
  rw [value?_div (value?_toFloat_uint32 word) value?_codeScale (by norm_num)] at hf
  exact ⟨low, high, hmeasured, by rw [place, share, ← eq_of_fit hf]⟩

/-- A voltage below that of a word has no higher code than the word or its voltage. -/
theorem code_le_of_lt_volt {word : UInt32} {x : Float} {n wordCode : UInt16}
    (hword : range.code (range.volt word) = .ok wordCode) (hx : range.code x = .ok n)
    (hlt : x < range.volt word) : n.toNat ≤ word.toNat ∧ n.toNat ≤ wordCode.toNat := by
  obtain ⟨p, hp⟩ := exists_value?_of_code hword
  obtain ⟨low, high, h, hplace⟩ := measured_of_volt hp
  obtain ⟨q, hq, -, -, hcode⟩ := h.of_code_ok hword
  obtain rfl : p = q := Option.some.inj (hp.symm.trans hq)
  obtain ⟨y, hy, hlow, -, hcode'⟩ := h.of_code_ok hx
  rw [lt_iff hy hp] at hlt
  have hdistance : 0 ≤ rounded (y - low) := rounded_nonneg (by linarith)
  refine ⟨?_, ?_⟩
  · by_cases hfits : word.toNat ≤ 65535
    · rw [hcode']
      refine encode_le h.span_pos hfits hdistance ?_
      rw [hplace] at hlt
      exact distance_le_of_lt h.span_pos h.isDouble_low (isDouble_of_value? hy) hlow hlt
    · have hn := n.toNat_lt
      omega
  · rw [hcode, hcode']
    exact encode_mono h.span_pos hdistance (rounded_mono (by linarith))

/-- A voltage above it has no lower one. -/
theorem le_code_of_volt_lt {word : UInt32} {x : Float} {n wordCode : UInt16}
    (hword : range.code (range.volt word) = .ok wordCode) (hx : range.code x = .ok n)
    (hlt : range.volt word < x) : word.toNat ≤ n.toNat ∧ wordCode.toNat ≤ n.toNat := by
  obtain ⟨p, hp⟩ := exists_value?_of_code hword
  obtain ⟨low, high, h, hplace⟩ := measured_of_volt hp
  obtain ⟨q, hq, hlow, -, hcode⟩ := h.of_code_ok hword
  obtain rfl : p = q := Option.some.inj (hp.symm.trans hq)
  obtain ⟨y, hy, -, hhigh, hcode'⟩ := h.of_code_ok hx
  rw [lt_iff hp hy] at hlt
  have hfits : word.toNat ≤ 65535 := by
    by_contra hlarge
    have hge := high_le_place h.isDouble_low h.isDouble_high h.lt (Nat.lt_of_not_le hlarge)
    linarith
  refine ⟨?_, ?_⟩
  · rw [hcode']
    refine le_encode h.span_pos hfits ?_
    rw [hplace] at hlt
    exact le_distance_of_lt h.span_pos h.isDouble_low (isDouble_of_value? hy) hlt
  · rw [hcode, hcode']
    exact encode_mono h.span_pos (rounded_nonneg (by linarith)) (rounded_mono (by linarith))

theorem lt_or_lt_of_beq {x y : Float} {m n : UInt16} (hx : range.code x = .ok m)
    (hy : range.code y = .ok n) (hne : (x == y) = false) : x < y ∨ y < x := by
  obtain ⟨a, ha⟩ := exists_value?_of_code hx
  obtain ⟨b, hb⟩ := exists_value?_of_code hy
  rw [lt_iff ha hb, lt_iff hb ha]
  refine lt_or_gt_of_ne fun heq => ?_
  rw [(beq_iff ha hb).mpr heq] at hne
  cases hne

end VoltageRange

end DacRack
