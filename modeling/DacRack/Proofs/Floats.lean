import DacRack.Number.Binary64
import DacRack.Proofs.Doubles

/-!
# Doubles in bits

A result is packed into 64 bits and unpacked again by the next operation. Both are the
same to the number it stands for, unless the number is too large, which makes it infinite
(`fit`). Taking a double apart into its sign, its significand and its exponent, as it is
done where doubles are rounded to whole numbers, finds that number too.
-/

namespace DacRack.Number

open Float.Model Float.Model.UnpackedFloat

/-- Whether a sign is a minus. -/
def negative : Sign → Bool
  | .positive => false
  | .negative => true

/-- An unpacked double taken apart. -/
def parts : UnpackedFloat → Binary64
  | .notANumber => .nan
  | .infinity s => .infinite (negative s)
  | .zero s => .finite (negative s) 0 (-1074)
  | .finite s m e _ => .finite (negative s) m e

section Bits

variable (bits : BitVec Format.binary64.numBits)

theorem toNat_unpackMantissa : (unpackMantissa bits).toNat = bits.toNat % 2 ^ 52 := by
  unfold unpackMantissa
  simp

theorem toNat_unpackExponent : (unpackExponent bits).toNat = bits.toNat / 2 ^ 52 % 2 ^ 11 := by
  unfold unpackExponent
  simp [Nat.shiftRight_eq_div_pow]

theorem toNat_unpackSign : (unpackSign bits).toNat = bits.toNat / 2 ^ 63 % 2 := by
  unfold unpackSign
  simp [Nat.shiftRight_eq_div_pow]

theorem toNat_append_one (fraction : BitVec 52) :
    (1#1 ++ fraction).toNat = 2 ^ 52 + fraction.toNat := by
  rw [BitVec.toNat_append, ← Nat.shiftLeft_add_eq_or_of_lt fraction.isLt]
  rfl

theorem ofBits_eq :
    Binary64.ofBits bits.toNat =
      if (unpackExponent bits).toNat = 2047 then
        if (unpackMantissa bits).toNat = 0 then
          .infinite (negative (Sign.ofBitVec (unpackSign bits)))
        else .nan
      else if (unpackExponent bits).toNat = 0 then
        .finite (negative (Sign.ofBitVec (unpackSign bits))) (unpackMantissa bits).toNat (-1074)
      else
        .finite (negative (Sign.ofBitVec (unpackSign bits)))
          ((unpackMantissa bits).toNat + 2 ^ 52) ((unpackExponent bits).toNat - 1075) := by
  have hsign (b : BitVec 1) : (b.toNat == 1) = negative (Sign.ofBitVec b) := by
    revert b
    decide
  rw [← hsign, toNat_unpackMantissa, toNat_unpackExponent, toNat_unpackSign]
  simp only [Binary64.ofBits, Nat.shiftRight_eq_div_pow]
  rfl

theorem unpack_eq :
    unpack Format.binary64 bits =
      if (unpackExponent bits).toNat = 2047 then
        if (unpackMantissa bits).toNat = 0 then .infinity (Sign.ofBitVec (unpackSign bits))
        else .notANumber
      else if (unpackExponent bits).toNat = 0 then
        if h : (unpackMantissa bits).toNat = 0 then .zero (Sign.ofBitVec (unpackSign bits))
        else .finite (Sign.ofBitVec (unpackSign bits)) (unpackMantissa bits).toNat (-1074)
          (Nat.pos_of_ne_zero h)
      else
        .finite (Sign.ofBitVec (unpackSign bits)) ((unpackMantissa bits).toNat + 2 ^ 52)
          ((unpackExponent bits).toNat - 1075) (by omega) := by
  have hones : unpackExponent bits = -1#_ ↔ (unpackExponent bits).toNat = 2047 := by
    rw [← BitVec.toNat_inj]
    rfl
  have hzeros : unpackExponent bits = 0#_ ↔ (unpackExponent bits).toNat = 0 := by
    rw [← BitVec.toNat_inj]
    rfl
  have hfraction : unpackMantissa bits = 0#_ ↔ (unpackMantissa bits).toNat = 0 := by
    rw [← BitVec.toNat_inj]
    rfl
  unfold UnpackedFloat.unpack
  simp only [hones, hzeros, hfraction]
  split
  · rfl
  · split
    · next hzero =>
        rw [hzero]
        rfl
    · congr 1
      rw [toNat_append_one, Nat.add_comm]

/-- Taking a double apart is what unpacking it is. -/
theorem ofBits_eq_parts : Binary64.ofBits bits.toNat = parts (unpack Format.binary64 bits) := by
  rw [ofBits_eq, unpack_eq]
  split
  · split <;> rfl
  · split
    · split
      · next hzero => rw [hzero]; rfl
      · rfl
    · rfl

theorem canonical_unpack : Canonical (unpack Format.binary64 bits) := by
  have hfraction : (unpackMantissa bits).toNat < 2 ^ 52 := (unpackMantissa bits).isLt
  rw [unpack_eq]
  split
  · split <;> trivial
  · split
    · split
      · trivial
      · exact ⟨Nat.lt_trans hfraction (by decide), le_refl _, .inr rfl⟩
    · exact ⟨by omega, by omega, .inl (by omega)⟩

theorem exponent_le_of_unpack {s : Sign} {m : ℕ} {e : ℤ} {h : 0 < m}
    (hunpack : unpack Format.binary64 bits = .finite s m e h) : e ≤ 971 := by
  have hbiased : (unpackExponent bits).toNat < 2 ^ 11 := (unpackExponent bits).isLt
  rw [unpack_eq] at hunpack
  split at hunpack
  · split at hunpack <;> cases hunpack
  · split at hunpack
    · split at hunpack
      · cases hunpack
      · cases hunpack
        omega
    · cases hunpack
      omega

end Bits

/-- Components that are packed are unpacked again. -/
theorem unpack_packComponents (s : Sign) (exponent : BitVec Format.binary64.exponentBits)
    (fraction : BitVec Format.binary64.mantissaBitsWithoutImplicit) :
    unpack Format.binary64 (packComponents Format.binary64 s exponent fraction) =
      if exponent.toNat = 2047 then
        if fraction.toNat = 0 then .infinity s else .notANumber
      else if exponent.toNat = 0 then
        if h : fraction.toNat = 0 then .zero s
        else .finite s fraction.toNat (-1074) (Nat.pos_of_ne_zero h)
      else .finite s (fraction.toNat + 2 ^ 52) (exponent.toNat - 1075) (by omega) := by
  rw [unpack_eq]
  simp only [unpackExponent_packComponents, unpackMantissa_packComponents,
    unpackSign_packComponents, Sign.ofBitVec_toBitVec]

theorem pack_finite (s : Sign) {m : ℕ} {e : ℤ} (hm : 0 < m) (hlt : m < 2 ^ 53) (he : -1074 ≤ e) :
    pack Format.binary64 (.finite s m e hm) =
          if 971 < e then packComponents _ s (-1#_) 0
          else if 2 ^ 52 ≤ m then packComponents _ s (BitVec.ofNat _ (e + 1075).toNat)
            (BitVec.ofNat _ m)
          else packComponents _ s 0#_ (BitVec.ofNat _ m) := by
  have hexponent : (e + Format.binary64.exponentBias +
      Format.binary64.mantissaBitsWithoutImplicit).toNat = (e + 1075).toNat := by
    congr 1
    rw [Int.add_assoc]
    rfl
  have hlarge : 2 ^ Format.binary64.exponentBits ≤ (e + 1075).toNat + 1 ↔ 971 < e := by
    show 2 ^ 11 ≤ (e + 1075).toNat + 1 ↔ 971 < e
    omega
  have hnormal : m.log2 + 1 = Format.binary64.mantissaBits ↔ 2 ^ 52 ≤ m := by
    have hlow := Nat.le_log2 (k := 52) hm.ne'
    have hhigh := Nat.log2_lt (k := 53) hm.ne'
    show m.log2 + 1 = 53 ↔ _
    omega
  unfold UnpackedFloat.pack
  simp only [hexponent, hlarge, hnormal]
  rfl

/-- Packing and unpacking a double makes a difference only to one that is too large. -/
theorem unpack_pack {u : UnpackedFloat} (h : Canonical u) :
    unpack Format.binary64 (pack Format.binary64 u) =
      match u with
      | .finite s m e hm => if e ≤ 971 then .finite s m e hm else .infinity s
      | u => u := by
  cases u with
  | notANumber => exact unpack_packComponents _ _ _
  | infinity s => exact unpack_packComponents _ _ _
  | zero s => exact unpack_packComponents _ _ _
  | finite s m e hm =>
      obtain ⟨hlt, hmin, hlead⟩ := h
      rw [pack_finite s hm hlt hmin]
      by_cases hlarge : 971 < e
      · rw [if_pos hlarge]
        simp only [if_neg (not_le.mpr hlarge)]
        exact unpack_packComponents _ _ _
      rw [if_neg hlarge]
      simp only [if_pos (not_lt.mp hlarge)]
      split
      · next hnormal =>
          have hexponent : (BitVec.ofNat 11 (e + 1075).toNat).toNat = (e + 1075).toNat :=
            Nat.mod_eq_of_lt (by omega)
          have hfraction : (BitVec.ofNat 52 m).toNat = m - 2 ^ 52 := by
            rw [BitVec.toNat_ofNat]
            omega
          rw [unpack_packComponents]
          simp only [hexponent, hfraction]
          rw [if_neg (by omega), if_neg (by omega)]
          congr 1
          · omega
          · omega
      · next hnormal =>
          obtain rfl : e = -1074 := hlead.resolve_left hnormal
          have hfraction : (BitVec.ofNat 52 m).toNat = m := Nat.mod_eq_of_lt (by omega)
          rw [unpack_packComponents]
          simp only [hfraction, BitVec.toNat_zero]
          rw [if_neg (by omega), if_pos trivial, dif_neg hm.ne']

/-- The number a double stands for. -/
def value? (x : Float) : Option ℚ :=
  rational? x.toModel.unpack

/-- A rounded result, if it is not too large. -/
def fit (q : ℚ) : Option ℚ :=
  if |q| < 2 ^ (1024 : ℤ) then some q else none

theorem fit_of_abs_lt {q : ℚ} (h : |q| < 2 ^ (1024 : ℤ)) : fit q = some q :=
  if_pos h

theorem fit_zero : fit 0 = some 0 :=
  fit_of_abs_lt (by rw [abs_zero]; exact two_zpow_pos _)

theorem abs_lt_of_fit {q r : ℚ} (h : fit q = some r) : |q| < 2 ^ (1024 : ℤ) := by
  unfold fit at h
  split at h
  · assumption
  · cases h

theorem eq_of_fit {q r : ℚ} (h : fit q = some r) : r = q := by
  unfold fit at h
  split at h
  · exact (Option.some.inj h).symm
  · cases h

theorem abs_unit_mul (s : Sign) (q : ℚ) : |unit s * q| = |q| := by
  cases s with
  | positive => rw [unit, one_mul]
  | negative => rw [unit, neg_one_mul, abs_neg]

theorem abs_unit_mul_mul (s : Sign) (m : ℕ) (e : ℤ) :
    |unit s * ((m : ℚ) * 2 ^ e)| = m * 2 ^ e := by
  rw [abs_unit_mul, abs_of_nonneg (mul_two_zpow_nonneg m e)]

theorem abs_lt_of_exponent_le (s : Sign) {m : ℕ} {e : ℤ} (hm : m < 2 ^ 53) (he : e ≤ 971) :
    |unit s * ((m : ℚ) * 2 ^ e)| < 2 ^ (1024 : ℤ) := by
  have hm' : (m : ℚ) < 2 ^ (53 : ℤ) := by exact_mod_cast hm
  calc |unit s * ((m : ℚ) * 2 ^ e)| = m * 2 ^ e := abs_unit_mul_mul s m e
    _ < 2 ^ (53 : ℤ) * 2 ^ e := mul_lt_mul_of_pos_right hm' (two_zpow_pos e)
    _ = 2 ^ (53 + e) := (two_zpow_add _ _).symm
    _ ≤ 2 ^ (1024 : ℤ) := two_zpow_le (by omega)

theorem value?_pack {u : UnpackedFloat} {q : ℚ} (h : Gives u q) :
    value? (.ofModel (.pack u)) = fit q := by
  show rational? (unpack Format.binary64 (pack Format.binary64 u)) = fit q
  rw [unpack_pack h.1]
  obtain ⟨hcanonical, hq⟩ := h
  cases u with
  | notANumber => cases hq
  | infinity s => cases hq
  | zero s =>
      cases hq
      rw [fit_zero]
      rfl
  | finite s m e hm =>
      cases hq
      obtain ⟨hlt, -, hlead⟩ := hcanonical
      by_cases hsmall : e ≤ 971
      · rw [fit_of_abs_lt (abs_lt_of_exponent_le s hlt hsmall)]
        simp only [if_pos hsmall]
        rfl
      · have hlarge : (2 : ℚ) ^ (1024 : ℤ) ≤ m * 2 ^ e := by
          have hm' : (2 : ℚ) ^ (52 : ℤ) ≤ m := by
            exact_mod_cast hlead.resolve_right (by omega)
          calc (2 : ℚ) ^ (1024 : ℤ) ≤ 2 ^ (52 + e) := two_zpow_le (by omega)
            _ = 2 ^ (52 : ℤ) * 2 ^ e := two_zpow_add _ _
            _ ≤ m * 2 ^ e := mul_le_mul_of_nonneg_right hm' (two_zpow_pos e).le
        rw [fit, if_neg (by rw [abs_unit_mul_mul]; exact not_lt.mpr hlarge)]
        simp only [if_neg hsmall]
        rfl

theorem value?_pack_of_none {u : UnpackedFloat} (h : rational? u = none) :
    value? (.ofModel (.pack u)) = none := by
  show rational? (unpack Format.binary64 (pack Format.binary64 u)) = none
  cases u with
  | notANumber => rw [unpack_pack (u := .notANumber) trivial]; rfl
  | infinity s => rw [unpack_pack (u := .infinity s) trivial]; rfl
  | zero s => cases h
  | finite s m e hm => cases h

section Operations

variable {x y : Float} {a b : ℚ}

theorem gives_of_value? (hx : value? x = some a) : Gives x.toModel.unpack a :=
  ⟨canonical_unpack _, hx⟩

theorem isDouble_of_value? (hx : value? x = some a) : IsDouble a :=
  (gives_of_value? hx).isDouble

/-- A double is never too large to be one. -/
theorem abs_lt_of_value? (hx : value? x = some a) : |a| < 2 ^ (1024 : ℤ) := by
  have hcanonical : Canonical x.toModel.unpack := canonical_unpack _
  have hexponent {s : Sign} {m : ℕ} {e : ℤ} {h : 0 < m}
      (hunpack : x.toModel.unpack = .finite s m e h) : e ≤ 971 :=
    exponent_le_of_unpack _ hunpack
  unfold value? at hx
  generalize x.toModel.unpack = u at hx hcanonical hexponent
  cases u with
  | notANumber => cases hx
  | infinity s => cases hx
  | zero s =>
      cases hx
      rw [abs_zero]
      exact two_zpow_pos _
  | finite s m e hm =>
      cases hx
      exact abs_lt_of_exponent_le s hcanonical.1 (hexponent rfl)

theorem value?_add (hx : value? x = some a) (hy : value? y = some b) :
    value? (x + y) = fit (rounded (a + b)) :=
  value?_pack ((gives_of_value? hx).add (gives_of_value? hy))

theorem value?_sub (hx : value? x = some a) (hy : value? y = some b) :
    value? (x - y) = fit (rounded (a - b)) :=
  value?_pack ((gives_of_value? hx).sub (gives_of_value? hy))

theorem value?_mul (hx : value? x = some a) (hy : value? y = some b) :
    value? (x * y) = fit (rounded (a * b)) :=
  value?_pack ((gives_of_value? hx).mul (gives_of_value? hy))

theorem value?_div (hx : value? x = some a) (hy : value? y = some b) (hb : b ≠ 0) :
    value? (x / y) = fit (rounded (a / b)) :=
  value?_pack ((gives_of_value? hx).div (gives_of_value? hy) hb)

theorem value?_abs (hx : value? x = some a) : value? x.abs = some |a| := by
  have hpack := value?_pack (gives_of_value? hx).abs
  rw [fit_of_abs_lt (by rw [abs_abs]; exact abs_lt_of_value? hx)] at hpack
  exact hpack

/-! A sum, a difference or a product is a number only where both operands are. -/

theorem rational?_add_of_none {u v : UnpackedFloat} (h : rational? u = none ∨ rational? v = none) :
    rational? (UnpackedFloat.add Format.binary64 u v) = none := by
  cases u with
  | notANumber => rfl
  | infinity s =>
      cases v with
      | infinity s' =>
          show rational? (if (s == s') = true then .infinity s else .notANumber) = none
          split <;> rfl
      | _ => rfl
  | zero s =>
      cases v with
      | notANumber => rfl
      | infinity s' => rfl
      | _ => rcases h with h | h <;> cases h
  | finite s m e hm =>
      cases v with
      | notANumber => rfl
      | infinity s' => rfl
      | _ => rcases h with h | h <;> cases h

theorem rational?_mul_of_none {u v : UnpackedFloat} (h : rational? u = none ∨ rational? v = none) :
    rational? (UnpackedFloat.mul Format.binary64 u v) = none := by
  cases u with
  | notANumber => rfl
  | infinity s => cases v <;> rfl
  | zero s =>
      cases v with
      | notANumber => rfl
      | infinity s' => rfl
      | _ => rcases h with h | h <;> cases h
  | finite s m e hm =>
      cases v with
      | notANumber => rfl
      | infinity s' => rfl
      | _ => rcases h with h | h <;> cases h

theorem rational?_neg (u : UnpackedFloat) : rational? u.neg = none ↔ rational? u = none := by
  cases u <;> simp [UnpackedFloat.neg, rational?]

theorem rational?_sub_of_none {u v : UnpackedFloat} (h : rational? u = none ∨ rational? v = none) :
    rational? (UnpackedFloat.sub Format.binary64 u v) = none := by
  rw [sub_eq_add]
  exact rational?_add_of_none (h.imp_right (rational?_neg v).mpr)

theorem exists_value?_of_pack {f : UnpackedFloat → UnpackedFloat → UnpackedFloat} {r : ℚ}
    (hnone : ∀ {u v}, rational? u = none ∨ rational? v = none → rational? (f u v) = none)
    (h : value? (.ofModel (.pack (f x.toModel.unpack y.toModel.unpack))) = some r) :
    ∃ a b, value? x = some a ∧ value? y = some b := by
  cases hx : value? x with
  | none => cases (value?_pack_of_none (hnone (.inl hx))).symm.trans h
  | some a =>
      cases hy : value? y with
      | none => cases (value?_pack_of_none (hnone (.inr hy))).symm.trans h
      | some b => exact ⟨a, b, rfl, rfl⟩

theorem exists_value?_of_add {r : ℚ} (h : value? (x + y) = some r) :
    ∃ a b, value? x = some a ∧ value? y = some b ∧ r = rounded (a + b) := by
  obtain ⟨a, b, hx, hy⟩ := exists_value?_of_pack rational?_add_of_none h
  exact ⟨a, b, hx, hy, eq_of_fit ((value?_add hx hy).symm.trans h)⟩

theorem exists_value?_of_sub {r : ℚ} (h : value? (x - y) = some r) :
    ∃ a b, value? x = some a ∧ value? y = some b ∧ r = rounded (a - b) := by
  obtain ⟨a, b, hx, hy⟩ := exists_value?_of_pack rational?_sub_of_none h
  exact ⟨a, b, hx, hy, eq_of_fit ((value?_sub hx hy).symm.trans h)⟩

theorem exists_value?_of_mul {r : ℚ} (h : value? (x * y) = some r) :
    ∃ a b, value? x = some a ∧ value? y = some b ∧ r = rounded (a * b) := by
  obtain ⟨a, b, hx, hy⟩ := exists_value?_of_pack rational?_mul_of_none h
  exact ⟨a, b, hx, hy, eq_of_fit ((value?_mul hx hy).symm.trans h)⟩

end Operations

section Order

/-- Where leading bits are in their places, exponents are compared first. -/
theorem mul_lt_mul_of_canonical {s s' : Sign} {m m' : ℕ} {e e' : ℤ} {hm : 0 < m} {hm' : 0 < m'}
    (h : Canonical (.finite s m e hm)) (h' : Canonical (.finite s' m' e' hm')) (hlt : e < e') :
    (m : ℚ) * 2 ^ e < m' * 2 ^ e' := by
  obtain ⟨hsize, hmin, -⟩ := h
  obtain ⟨-, -, hlead⟩ := h'
  have hm₁ : (m : ℚ) < 2 ^ (53 : ℤ) := by exact_mod_cast hsize
  have hm₂ : (2 : ℚ) ^ (52 : ℤ) ≤ m' := by exact_mod_cast hlead.resolve_right (by omega)
  calc (m : ℚ) * 2 ^ e < 2 ^ (53 : ℤ) * 2 ^ e := mul_lt_mul_of_pos_right hm₁ (two_zpow_pos e)
    _ = 2 ^ (53 + e) := (two_zpow_add _ _).symm
    _ ≤ 2 ^ (52 + e') := two_zpow_le (by omega)
    _ = 2 ^ (52 : ℤ) * 2 ^ e' := two_zpow_add _ _
    _ ≤ m' * 2 ^ e' := mul_le_mul_of_nonneg_right hm₂ (two_zpow_pos e').le

theorem compare_magnitude {s s' : Sign} {m m' : ℕ} {e e' : ℤ} {hm : 0 < m} {hm' : 0 < m'}
    (h : Canonical (.finite s m e hm)) (h' : Canonical (.finite s' m' e' hm')) :
    (compare e e').then (compare m m') = compare ((m : ℚ) * 2 ^ e) (m' * 2 ^ e') := by
  rcases lt_trichotomy e e' with hlt | rfl | hgt
  · rw [compare_lt_iff_lt.mpr hlt, compare_lt_iff_lt.mpr (mul_lt_mul_of_canonical h h' hlt)]
    rfl
  · have hpow := two_zpow_pos e
    rw [compare_eq_iff_eq.mpr rfl]
    show compare m m' = _
    rcases lt_trichotomy m m' with hlt | rfl | hgt
    · rw [compare_lt_iff_lt.mpr hlt, eq_comm, compare_lt_iff_lt]
      exact mul_lt_mul_of_pos_right (Nat.cast_lt.mpr hlt) hpow
    · rw [compare_eq_iff_eq.mpr rfl, compare_eq_iff_eq.mpr rfl]
    · rw [compare_gt_iff_gt.mpr hgt, eq_comm, compare_gt_iff_gt]
      exact mul_lt_mul_of_pos_right (Nat.cast_lt.mpr hgt) hpow
  · rw [compare_gt_iff_gt.mpr hgt, compare_gt_iff_gt.mpr (mul_lt_mul_of_canonical h' h hgt)]
    rfl

variable {u v : UnpackedFloat} {a b : ℚ}

theorem compare_of_gives (hu : Gives u a) (hv : Gives v b) :
    UnpackedFloat.compare u v = some (compare a b) := by
  obtain ⟨hcu, ha⟩ := hu
  obtain ⟨hcv, hb⟩ := hv
  cases u with
  | notANumber => cases ha
  | infinity s => cases ha
  | zero s =>
      cases ha
      cases v with
      | notANumber => cases hb
      | infinity s' => cases hb
      | zero s' =>
          cases hb
          rw [compare_eq_iff_eq.mpr rfl]
          rfl
      | finite s' m' e' hm' =>
          cases hb
          cases s' with
          | positive =>
              rw [unit, one_mul, compare_lt_iff_lt.mpr (mul_two_zpow_pos hm' e')]
              rfl
          | negative =>
              rw [unit, neg_one_mul,
                compare_gt_iff_gt.mpr (neg_lt_zero.mpr (mul_two_zpow_pos hm' e'))]
              rfl
  | finite s m e hm =>
      cases ha
      cases v with
      | notANumber => cases hb
      | infinity s' => cases hb
      | zero s' =>
          cases hb
          cases s with
          | positive =>
              rw [unit, one_mul, compare_gt_iff_gt.mpr (mul_two_zpow_pos hm e)]
              rfl
          | negative =>
              rw [unit, neg_one_mul,
                compare_lt_iff_lt.mpr (neg_lt_zero.mpr (mul_two_zpow_pos hm e))]
              rfl
      | finite s' m' e' hm' =>
          cases hb
          have hleft := mul_two_zpow_pos hm e
          have hright := mul_two_zpow_pos hm' e'
          have hmagnitude := compare_magnitude hcu hcv
          cases s with
          | positive =>
              cases s' with
              | positive =>
                  rw [unit, one_mul, one_mul, ← hmagnitude]
                  rfl
              | negative =>
                  rw [unit, unit, one_mul, neg_one_mul, compare_gt_iff_gt.mpr (by linarith)]
                  rfl
          | negative =>
              cases s' with
              | positive =>
                  rw [unit, unit, one_mul, neg_one_mul, compare_lt_iff_lt.mpr (by linarith)]
                  rfl
              | negative =>
                  have hswap : compare (-((m : ℚ) * 2 ^ e)) (-(m' * 2 ^ e')) =
                      (compare ((m : ℚ) * 2 ^ e) (m' * 2 ^ e')).swap := by
                    rcases lt_trichotomy ((m : ℚ) * 2 ^ e) (m' * 2 ^ e') with hlt | heq | hgt
                    · rw [compare_lt_iff_lt.mpr hlt, compare_gt_iff_gt.mpr (neg_lt_neg hlt)]
                      rfl
                    · rw [heq, compare_eq_iff_eq.mpr rfl, compare_eq_iff_eq.mpr rfl]
                      rfl
                    · rw [compare_gt_iff_gt.mpr hgt, compare_lt_iff_lt.mpr (neg_lt_neg hgt)]
                      rfl
                  rw [unit, neg_one_mul, neg_one_mul, hswap, ← hmagnitude]
                  rfl

variable {x y : Float}

theorem lt_iff (hx : value? x = some a) (hy : value? y = some b) : x < y ↔ a < b := by
  show decide ((x.toModel.unpack.compare y.toModel.unpack == some .lt) = true) = true ↔ a < b
  rw [compare_of_gives (gives_of_value? hx) (gives_of_value? hy), decide_eq_true_eq, beq_iff_eq,
    Option.some_inj, compare_lt_iff_lt]

theorem le_iff (hx : value? x = some a) (hy : value? y = some b) : x ≤ y ↔ a ≤ b := by
  show decide ((x.toModel.unpack.compare y.toModel.unpack).any (·.isLE) = true) = true ↔ a ≤ b
  rw [compare_of_gives (gives_of_value? hx) (gives_of_value? hy), decide_eq_true_eq,
    Option.any_some, Ordering.isLE_iff_ne_gt]
  exact compare_le_iff_le

theorem beq_iff (hx : value? x = some a) (hy : value? y = some b) :
    (x == y) = true ↔ a = b := by
  show (x.toModel.unpack.compare y.toModel.unpack == some .eq) = true ↔ a = b
  rw [compare_of_gives (gives_of_value? hx) (gives_of_value? hy), beq_iff_eq, Option.some_inj,
    compare_eq_iff_eq]

end Order

/-! Whole numbers. -/

theorem value?_ofNat {n : ℕ} (h : n ≤ 2 ^ 53) :
    value? (.ofModel (.ofNat n)) = some (n : ℚ) := by
  have hgives := gives_normalize n 0 .positive
  rw [zpow_zero, mul_one, Int.cast_natCast,
    rounded_of_isDouble (IsDouble.of_nat h)] at hgives
  have hsmall : |(n : ℚ)| < 2 ^ (1024 : ℤ) := by
    have hle : (n : ℚ) ≤ 2 ^ (53 : ℤ) := by exact_mod_cast h
    rw [Nat.abs_cast]
    exact hle.trans_lt (zpow_lt_zpow_right₀ (by norm_num) (by omega))
  rw [← fit_of_abs_lt hsmall]
  exact value?_pack hgives

theorem value?_toFloat_uint16 (n : UInt16) : value? n.toFloat = some (n.toNat : ℚ) :=
  value?_ofNat (Nat.le_of_lt (Nat.lt_trans n.toNat_lt (by omega)))

theorem value?_toFloat_uint32 (n : UInt32) : value? n.toFloat = some (n.toNat : ℚ) :=
  value?_ofNat (Nat.le_of_lt (Nat.lt_trans n.toNat_lt (by omega)))

theorem numerator_div_denominator (m : ℕ) (e : ℤ) :
    (Binary64.numerator m e : ℚ) / Binary64.denominator e = m * 2 ^ e := by
  have hsplit : (2 : ℚ) ^ e * 2 ^ (-e).toNat = 2 ^ e.toNat := by
    rw [← zpow_natCast, ← zpow_natCast, ← two_zpow_add]
    congr 1
    omega
  have hpos : (0 : ℚ) < 2 ^ (-e).toNat := by positivity
  rw [Binary64.numerator, Binary64.denominator, Nat.shiftLeft_eq, Nat.shiftLeft_eq, one_mul]
  push_cast
  rw [div_eq_iff hpos.ne', mul_assoc, hsplit]

theorem ofFloat_eq_parts (x : Float) : Binary64.ofFloat x = parts x.toModel.unpack :=
  ofBits_eq_parts _

theorem divRound_eq_nearest_mul (m : ℕ) (e : ℤ) :
    divRound .away (Binary64.numerator m e) (Binary64.denominator e) =
      nearest .away (m * 2 ^ e) := by
  have hpos : 0 < Binary64.denominator e := by
    rw [Binary64.denominator, Nat.shiftLeft_eq, one_mul]
    exact Nat.two_pow_pos _
  rw [← numerator_div_denominator]
  exact divRound_eq_nearest .away _ hpos

/-- The parts of a double that is not negative are rounded like its number. -/
theorem nearestInt_ofFloat {x : Float} {a : ℚ} (hx : value? x = some a) (ha : 0 ≤ a) :
    (Binary64.ofFloat x).nearestInt = some (nearest .away a : ℤ) := by
  rw [ofFloat_eq_parts]
  unfold value? at hx
  generalize x.toModel.unpack = u at hx
  cases u with
  | notANumber => cases hx
  | infinity s => cases hx
  | zero s =>
      cases hx
      have hround := divRound_eq_nearest_mul 0 (-1074)
      rw [Nat.cast_zero, zero_mul, nearest_zero] at hround
      rw [parts, Binary64.nearestInt, hround, nearest_zero]
      cases s <;> rfl
  | finite s m e hm =>
      cases hx
      have hpos := mul_two_zpow_pos hm e
      cases s with
      | positive =>
          rw [unit, one_mul, ← divRound_eq_nearest_mul]
          rfl
      | negative =>
          rw [unit, neg_one_mul] at ha
          linarith

theorem exists_value?_of_nearestInt {x : Float} {n : ℤ}
    (h : (Binary64.ofFloat x).nearestInt = some n) : ∃ a, value? x = some a := by
  rw [ofFloat_eq_parts] at h
  unfold value?
  generalize x.toModel.unpack = u at h
  cases u with
  | notANumber => cases h
  | infinity s => cases h
  | zero s => exact ⟨_, rfl⟩
  | finite s m e hm => exact ⟨_, rfl⟩

end DacRack.Number
