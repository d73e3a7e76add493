import DacRack.Proofs.Floats

/-!
# Which side of zero a double lies on

Infinities and zeros have a sign too, and where a quotient is too large or too small to
be a number that is all that is left of it. `Signed s` follows the sign through products
and quotients. `Toward s` asks for less, as it lets any zero pass: a zero divided by what
has no minus is zero, whatever its sign.

Rounding a double to a word keeps to its side (`apply_toInt64_nonneg`). It comes out as
zero just where the magnitude is less than a half, or there is none (`toInt64_ne_zero_iff`).
-/

namespace DacRack.Number

open Float.Model Float.Model.UnpackedFloat

/-- Has the sign, if it is anything at all. -/
def Signed (s : Sign) : UnpackedFloat → Prop
  | .notANumber => True
  | .infinity s' | .zero s' | .finite s' _ _ _ => s' = s

/-- Lies on the side of zero that the sign says, or is zero itself. -/
def Toward (s : Sign) : UnpackedFloat → Prop
  | .notANumber | .zero _ => True
  | .infinity s' | .finite s' _ _ _ => s' = s

theorem Signed.toward {s : Sign} {u : UnpackedFloat} (h : Signed s u) : Toward s u := by
  cases u with
  | notANumber => trivial
  | zero s' => trivial
  | infinity s' => exact h
  | finite s' m e hm => exact h

section Signs

variable {s s' : Sign} {u v : UnpackedFloat}

theorem signed_roundWithAccuracy (s : Sign) (m : ℕ) (e : ℤ) (accuracy : Accuracy) :
    Signed s (roundWithAccuracy Format.binary64 s m e accuracy) := by
  unfold roundWithAccuracy
  simp only
  split
  · exact rfl
  · exact rfl

theorem signed_packComponents (s : Sign) (exponent : BitVec Format.binary64.exponentBits)
    (fraction : BitVec Format.binary64.mantissaBitsWithoutImplicit) :
    Signed s (unpack Format.binary64 (packComponents Format.binary64 s exponent fraction)) := by
  rw [unpack_packComponents]
  split
  · split
    · exact rfl
    · trivial
  · split
    · split
      · exact rfl
      · exact rfl
    · exact rfl

/-- Packing keeps the sign, of whatever is packed. -/
theorem Signed.pack (h : Signed s u) :
    Signed s (unpack Format.binary64 (pack Format.binary64 u)) := by
  cases u with
  | notANumber =>
      rw [unpack_pack (u := .notANumber) trivial]
      trivial
  | infinity s' =>
      rw [← show s' = s from h]
      exact signed_packComponents _ _ _
  | zero s' =>
      rw [← show s' = s from h]
      exact signed_packComponents _ _ _
  | finite s' m e hm =>
      rw [← show s' = s from h]
      unfold UnpackedFloat.pack
      simp only
      split
      · exact signed_packComponents _ _ _
      · split
        · exact signed_packComponents _ _ _
        · exact signed_packComponents _ _ _

theorem Toward.pack (h : Toward s u) :
    Toward s (unpack Format.binary64 (pack Format.binary64 u)) := by
  cases u with
  | notANumber =>
      rw [unpack_pack (u := .notANumber) trivial]
      trivial
  | zero s' =>
      rw [unpack_pack (u := .zero s') trivial]
      trivial
  | infinity s' => exact (Signed.pack (u := .infinity s') h).toward
  | finite s' m e hm => exact (Signed.pack (u := .finite s' m e hm) h).toward

/-! The sign of a product and of a quotient. -/

theorem Signed.mul (hu : Signed s u) (hv : Signed s' v) :
    Signed (s * s') (UnpackedFloat.mul Format.binary64 u v) := by
  cases u with
  | notANumber => trivial
  | infinity _ =>
      cases hu
      cases v with
      | notANumber => trivial
      | zero _ => trivial
      | infinity _ => cases hv; exact rfl
      | finite _ m e hm => cases hv; exact rfl
  | zero _ =>
      cases hu
      cases v with
      | notANumber => trivial
      | infinity _ => trivial
      | zero _ => cases hv; exact rfl
      | finite _ m e hm => cases hv; exact rfl
  | finite _ m e hm =>
      cases hu
      cases v with
      | notANumber => trivial
      | infinity _ => cases hv; exact rfl
      | zero _ => cases hv; exact rfl
      | finite _ m' e' hm' => cases hv; exact signed_roundWithAccuracy _ _ _ _

theorem Signed.div (hu : Signed s u) (hv : Signed s' v) :
    Signed (s / s') (UnpackedFloat.div Format.binary64 u v) := by
  cases u with
  | notANumber => trivial
  | infinity _ =>
      cases hu
      cases v with
      | notANumber => trivial
      | infinity _ => trivial
      | zero _ => cases hv; exact rfl
      | finite _ m e hm => cases hv; exact rfl
  | zero _ =>
      cases hu
      cases v with
      | notANumber => trivial
      | zero _ => trivial
      | infinity _ => cases hv; exact rfl
      | finite _ m e hm => cases hv; exact rfl
  | finite _ m e hm =>
      cases hu
      cases v with
      | notANumber => trivial
      | infinity _ => cases hv; exact rfl
      | zero _ => cases hv; exact rfl
      | finite _ m' e' hm' => cases hv; exact signed_roundWithAccuracy _ _ _ _

/-! What has no minus leaves the side alone. Zero stays zero, whatever its sign. -/

theorem Toward.mul (hu : Toward s u) (hv : Signed .positive v) :
    Toward s (UnpackedFloat.mul Format.binary64 u v) := by
  have hsign : s * .positive = s := by cases s <;> rfl
  rw [← hsign]
  cases u with
  | notANumber => trivial
  | zero _ => cases v <;> trivial
  | infinity _ => exact (Signed.mul (u := .infinity _) hu hv).toward
  | finite _ m e hm => exact (Signed.mul (u := .finite _ m e hm) hu hv).toward

theorem Toward.div (hu : Toward s u) (hv : Signed .positive v) :
    Toward s (UnpackedFloat.div Format.binary64 u v) := by
  have hsign : s / .positive = s := by cases s <;> rfl
  rw [← hsign]
  cases u with
  | notANumber => trivial
  | zero _ => cases v <;> trivial
  | infinity _ => exact (Signed.div (u := .infinity _) hu hv).toward
  | finite _ m e hm => exact (Signed.div (u := .finite _ m e hm) hu hv).toward

theorem signed_abs (u : UnpackedFloat) : Signed .positive u.abs := by
  cases u with
  | notANumber => trivial
  | infinity s => exact rfl
  | zero s => exact rfl
  | finite s m e hm => exact rfl

end Signs

/-! Rounding to a word keeps to the side, and leaves less than a half at zero. -/

theorem toInt_ofIntClamp (n : ℤ) :
    (Int64.ofIntClamp n).toInt = max (-2 ^ 63) (min n (2 ^ 63 - 1)) := by
  have hmin : Int64.minValue.toInt = -2 ^ 63 := by decide
  have hmax : Int64.maxValue.toInt = 2 ^ 63 - 1 := by decide
  by_cases hlow : Int64.minValue.toInt ≤ n
  · by_cases hhigh : n ≤ Int64.maxValue.toInt
    · rw [Int64.toInt_ofIntClamp hlow hhigh]
      omega
    · rw [Int64.ofIntClamp, dif_pos hlow, dif_neg hhigh]
      omega
  · rw [Int64.ofIntClamp, dif_neg hlow]
    omega

/-- The word that a number in parts is rounded to. -/
theorem toInt_toInt64_finite (s : Sign) (m : ℕ) (e : ℤ) :
    (Binary64.finite (negative s) m e).toInt64.toInt =
      max (-2 ^ 63) (min (s.apply (nearest .away (m * 2 ^ e))) (2 ^ 63 - 1)) := by
  rw [Binary64.toInt64, toInt_ofIntClamp, divRound_eq_nearest_mul]
  cases s <;> rfl

theorem toInt_toInt64_zero (s : Sign) : (parts (.zero s)).toInt64.toInt = 0 := by
  rw [parts, toInt_toInt64_finite, Nat.cast_zero, zero_mul, nearest_zero]
  cases s <;> rfl

theorem apply_toInt64_nonneg {s : Sign} {u : UnpackedFloat} (h : Toward s u) :
    0 ≤ s.apply (parts u).toInt64.toInt := by
  cases u with
  | notANumber => cases s <;> decide
  | zero s' =>
      rw [toInt_toInt64_zero]
      cases s <;> decide
  | infinity _ =>
      cases h
      cases s <;> decide
  | finite _ m e hm =>
      cases h
      rw [parts, toInt_toInt64_finite]
      cases s with
      | positive =>
          show 0 ≤ max _ (min ((_ : ℕ) : ℤ) _)
          omega
      | negative =>
          show 0 ≤ -max _ (min (-((_ : ℕ) : ℤ)) _)
          omega

theorem nearest_away_ne_zero_iff {q : ℚ} (hq : 0 ≤ q) : nearest .away q ≠ 0 ↔ 1 / 2 ≤ q := by
  constructor
  · intro hne
    by_contra hlt
    refine hne (nearest_eq_of_abs_lt .away hq ?_)
    rw [Nat.cast_zero, sub_zero, abs_of_nonneg hq]
    exact not_le.mp hlt
  · intro hle
    have hhalf : nearest .away (1 / 2) = 1 := by
      have hround := divRound_eq_nearest .away 1 (d := 2) (by omega)
      rw [Nat.cast_one] at hround
      exact hround.symm.trans (by decide)
    have hmono := nearest_mono .away (by norm_num) hle
    omega

theorem toInt64_parts_ne_zero_iff {u : UnpackedFloat} {a : ℚ} (h : rational? u = some a) :
    (parts u).toInt64.toInt ≠ 0 ↔ 1 / 2 ≤ |a| := by
  cases u with
  | notANumber => cases h
  | infinity s => cases h
  | zero s =>
      cases h
      rw [toInt_toInt64_zero, abs_zero]
      norm_num
  | finite s m e hm =>
      cases h
      have hnonneg := mul_two_zpow_nonneg m e
      rw [abs_unit_mul_mul, ← nearest_away_ne_zero_iff hnonneg, parts, toInt_toInt64_finite]
      cases s with
      | positive =>
          show max _ (min ((_ : ℕ) : ℤ) _) ≠ 0 ↔ _
          omega
      | negative =>
          show max _ (min (-((_ : ℕ) : ℤ)) _) ≠ 0 ↔ _
          omega

section Doubles

theorem value?_half : value? 0.5 = some (1 / 2) := by
  have hdiv : (0.5 : Float) = (1 : UInt16).toFloat / (2 : UInt16).toFloat := by decide +kernel
  have hdouble : IsDouble (1 / 2) := ⟨1, -1, by norm_num, by omega, by norm_num⟩
  have hsmall : |(1 / 2 : ℚ)| < 2 ^ (1024 : ℤ) := by
    have hpow : (2 : ℚ) ^ (0 : ℤ) ≤ 2 ^ (1024 : ℤ) := two_zpow_le (by omega)
    refine lt_of_lt_of_le ?_ hpow
    rw [abs_of_pos (by norm_num), zpow_zero]
    norm_num
  rw [hdiv, value?_div (value?_toFloat_uint16 1) (value?_toFloat_uint16 2) (by decide +kernel)]
  show fit (rounded (1 / 2)) = _
  rw [rounded_of_isDouble hdouble, fit_of_abs_lt hsmall]

/-- What has no number is rounded to zero only if it is not infinite either. -/
theorem toInt64_parts_ne_zero_iff_of_none {u v : UnpackedFloat} {a : ℚ} (hu : rational? u = none)
    (hv : rational? v = some a) : (parts u).toInt64.toInt ≠ 0 ↔
      (v.compare (unpack Format.binary64 (pack Format.binary64 u.abs))).any (·.isLE) = true := by
  cases u with
  | zero s => cases hu
  | finite s m e hm => cases hu
  | notANumber =>
      show (0 : Int64).toInt ≠ 0 ↔ _
      rw [show UnpackedFloat.abs .notANumber = .notANumber from rfl,
        unpack_pack (u := .notANumber) trivial]
      refine iff_of_false (by decide) ?_
      cases v <;> exact Bool.false_ne_true
  | infinity s =>
      rw [show UnpackedFloat.abs (.infinity s) = .infinity .positive from rfl,
        unpack_pack (u := .infinity .positive) trivial]
      refine iff_of_true ?_ ?_
      · cases s <;> decide
      · cases v with
        | notANumber => cases hv
        | infinity s => cases hv
        | zero s => rfl
        | finite s m e hm => cases s <;> rfl

/-- A double is rounded to a word other than zero if its magnitude is at least a half. -/
theorem toInt64_ne_zero_iff (x : Float) :
    (Binary64.ofFloat x).toInt64.toInt ≠ 0 ↔ 0.5 ≤ x.abs := by
  rw [ofFloat_eq_parts]
  cases hx : value? x with
  | some a => rw [le_iff value?_half (value?_abs hx), toInt64_parts_ne_zero_iff hx]
  | none =>
      rw [toInt64_parts_ne_zero_iff_of_none hx value?_half]
      show _ ↔ decide _ = true
      rw [decide_eq_true_eq]
      exact Iff.rfl

end Doubles

/-! Where the signs come from. -/

theorem toward_of_value? {s : Sign} {x : Float} {a : ℚ} (hx : value? x = some a)
    (ha : 0 ≤ unit s * a) : Toward s x.toModel.unpack := by
  unfold value? at hx
  generalize x.toModel.unpack = u at hx
  cases u with
  | notANumber => cases hx
  | infinity s' => cases hx
  | zero s' => trivial
  | finite s' m e hm =>
      cases hx
      have hpos := mul_two_zpow_pos hm e
      cases s with
      | positive =>
          cases s' with
          | positive => exact rfl
          | negative =>
              rw [unit, unit, one_mul, neg_one_mul] at ha
              linarith
      | negative =>
          cases s' with
          | negative => exact rfl
          | positive =>
              rw [unit, unit, one_mul, neg_one_mul] at ha
              linarith

theorem signed_of_pos {x : Float} (h : 0 < x) : Signed .positive x.toModel.unpack := by
  have hcompare : ((0 : Float).toModel.unpack.compare x.toModel.unpack == some .lt) = true :=
    of_decide_eq_true h
  have hzero : (0 : Float).toModel.unpack = .zero .positive := by rfl
  rw [hzero] at hcompare
  generalize x.toModel.unpack = u at hcompare
  cases u with
  | notANumber => trivial
  | zero s => cases hcompare
  | infinity s =>
      cases s with
      | positive => exact rfl
      | negative => cases hcompare
  | finite s m e hm =>
      cases s with
      | positive => exact rfl
      | negative => cases hcompare

theorem signed_toFloat (n : UInt32) : Signed .positive n.toFloat.toModel.unpack := by
  refine Signed.pack (u := UnpackedFloat.normalize Format.binary64 (n.toNat : ℤ) 0 .positive) ?_
  unfold UnpackedFloat.normalize
  split
  · next hlt =>
      rw [compare_lt_iff_lt] at hlt
      omega
  · exact rfl
  · exact signed_roundWithAccuracy _ _ _ _

end DacRack.Number
