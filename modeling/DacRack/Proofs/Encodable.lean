import DacRack.Proofs.RoundTrips

/-!
# Which voltages have a code

A voltage that is in its range is checked once more when its code has been computed. Where the
span of the range is a number, that check never fails (`Measured.exists_code_iff`). But bounds
are only asked to be in order, so a span may be infinite, because a bound is or because it is too
large for a double. Then every voltage's part of the span comes out as zero, as long as its
distance from the lower end is a number, and otherwise as none at all (`value?_div_infinity`):
voltages near the lower end all have code 0, and voltages further up are refused although they
are in the range.

So the check is what decides on the distance, in every range (`encodable_iff`), and it is never
called upon just where the span is finite.
-/

namespace DacRack

open Number Float.Model Float.Model.UnpackedFloat

namespace Number

variable {x y : Float} {s : Sign}

theorem value?_div_infinity (hy : y.toModel.unpack = .infinity s) :
    value? (x / y) = (value? x).map fun _ => 0 := by
  have hquotient : value? (x / y) = value? (.ofModel (.pack
      (UnpackedFloat.div Format.binary64 x.toModel.unpack (.infinity s)))) := by
    rw [← hy]
    rfl
  have hzero (s' : Sign) : value? (.ofModel (.pack (.zero s'))) = some 0 :=
    (value?_pack (u := .zero s') ⟨trivial, rfl⟩).trans fit_zero
  rw [hquotient]
  show _ = (rational? x.toModel.unpack).map fun _ => 0
  cases x.toModel.unpack with
  | notANumber => exact value?_pack_of_none (u := .notANumber) rfl
  | infinity s' => exact value?_pack_of_none (u := .notANumber) rfl
  | zero s' => exact hzero (s' / s)
  | finite s' m e hm => exact hzero (s' / s)

/-- A rounded result that is too large is infinite. -/
theorem exists_unpack_pack_of_none {u : UnpackedFloat} {q : ℚ} (h : Gives u q)
    (hnone : value? (.ofModel (.pack u)) = none) :
    ∃ s, (Float.ofModel (.pack u)).toModel.unpack = .infinity s := by
  change rational? (unpack Format.binary64 (pack Format.binary64 u)) = none at hnone
  show ∃ s, unpack Format.binary64 (pack Format.binary64 u) = .infinity s
  obtain ⟨hcanonical, hq⟩ := h
  rw [unpack_pack hcanonical] at hnone ⊢
  cases u with
  | notANumber => cases hq
  | infinity s => cases hq
  | zero s => cases hnone
  | finite s m e hm =>
      simp only at hnone ⊢
      split at hnone
      · cases hnone
      · next hlarge => exact ⟨s, if_neg hlarge⟩

theorem exists_unpack_sub_of_lt (hlt : y < x) (hnone : value? (x - y) = none) :
    ∃ s, (x - y).toModel.unpack = .infinity s := by
  have hcompare : (y.toModel.unpack.compare x.toModel.unpack == some .lt) = true :=
    of_decide_eq_true hlt
  have hinfinite {s : Sign} := VoltageRange.unpack_sub (u := .infinity s) x y trivial rfl
  have hnumbers {a b : ℚ} (hx : rational? x.toModel.unpack = some a)
      (hy : rational? y.toModel.unpack = some b) : ∃ s, (x - y).toModel.unpack = .infinity s :=
    exists_unpack_pack_of_none ((gives_of_value? hx).sub (gives_of_value? hy)) hnone
  generalize x.toModel.unpack = u at hcompare hinfinite hnumbers
  generalize y.toModel.unpack = v at hcompare hinfinite hnumbers
  cases u with
  | notANumber => cases v <;> cases hcompare
  | infinity s =>
      cases v with
      | notANumber => cases hcompare
      | infinity s' =>
          cases s <;> cases s' <;> first | exact ⟨_, hinfinite rfl⟩ | cases hcompare
      | _ => exact ⟨_, hinfinite rfl⟩
  | zero s =>
      cases v with
      | notANumber => cases hcompare
      | infinity s' => exact ⟨_, hinfinite rfl⟩
      | _ => exact hnumbers rfl rfl
  | finite s m e hm =>
      cases v with
      | notANumber => cases hcompare
      | infinity s' => exact ⟨_, hinfinite rfl⟩
      | _ => exact hnumbers rfl rfl

end Number

namespace VoltageRange

variable {range : VoltageRange} {low high : ℚ} {volt : Float}

theorem of_code_error {outside : OutOfRange} (h : range.code volt = .error outside) :
    outside = ⟨volt, range.min, range.max⟩ := by
  unfold code at h
  simp only at h
  split at h
  · split at h
    · split at h
      · cases h
      · exact (Except.error.inj h).symm
    · exact (Except.error.inj h).symm
  · exact (Except.error.inj h).symm

theorem Measured.isFinite_sub (h : range.Measured low high)
    (hcontains : range.contains volt = true) : (volt - range.min).isFinite = true := by
  obtain ⟨y, hy, hle, hle'⟩ := h.contains_iff.mp hcontains
  have hsub : value? (volt - range.min) = some (rounded (y - low)) := by
    rw [value?_sub hy h.value?_min, fit_of_abs_lt]
    rw [abs_of_nonneg (rounded_nonneg (by linarith))]
    exact (rounded_mono (by linarith)).trans_lt h.span_lt
  exact isFinite_iff.mpr ⟨_, hsub⟩

/-- In a range with an infinite span, all voltages near enough to the lower end have code 0. -/
theorem code_of_infinite_span (hspan : value? (range.max - range.min) = none)
    (hcontains : range.contains volt = true) :
    range.code volt =
      if (volt - range.min).isFinite then .ok 0 else .error ⟨volt, range.min, range.max⟩ := by
  obtain ⟨s, hs⟩ := exists_unpack_sub_of_lt range.min_lt_max hspan
  have hpart := value?_div_infinity (x := volt - range.min) hs
  cases hdistance : value? (volt - range.min) with
  | some d =>
      rw [hdistance] at hpart
      have hscaled := value?_mul hpart value?_codeScale
      rw [zero_mul, rounded_zero, fit_zero] at hscaled
      have hnearest := nearestInt_ofFloat hscaled le_rfl
      rw [nearest_zero] at hnearest
      rw [if_pos (isFinite_iff.mpr ⟨d, hdistance⟩), code]
      simp only [hcontains, if_true, hnearest]
      rfl
  | none =>
      have hinfinite : ¬ (volt - range.min).isFinite = true := fun hfinite => by
        obtain ⟨d, hd⟩ := isFinite_iff.mp hfinite
        cases hdistance.symm.trans hd
      rw [if_neg hinfinite]
      cases hcode : range.code volt with
      | error outside => rw [of_code_error hcode]
      | ok n =>
          obtain ⟨-, p, hp⟩ := of_code_ok hcode
          obtain ⟨a, -, hvalue, -⟩ := exists_value?_of_mul hp
          rw [hpart, hdistance] at hvalue
          cases hvalue

theorem contains_max (range : VoltageRange) : range.contains range.max = true := by
  have hlt : (range.min.toModel.unpack.compare range.max.toModel.unpack == some .lt) = true :=
    of_decide_eq_true range.min_lt_max
  have hle : (range.min.toModel.unpack.compare range.max.toModel.unpack).any (·.isLE) = true := by
    rw [beq_iff_eq.mp hlt]
    rfl
  have hself : (range.max.toModel.unpack.compare range.max.toModel.unpack).any (·.isLE) = true := by
    have hnumber {a : ℚ} (ha : rational? range.max.toModel.unpack = some a) :
        (range.max.toModel.unpack.compare range.max.toModel.unpack).any (·.isLE) = true :=
      of_decide_eq_true ((le_iff ha ha).mpr le_rfl)
    generalize range.min.toModel.unpack = v at hlt
    generalize range.max.toModel.unpack = u at hlt hnumber ⊢
    cases u with
    | notANumber => cases v <;> cases hlt
    | infinity s => cases s <;> rfl
    | zero s => exact hnumber rfl
    | finite s m e hm => exact hnumber rfl
  rw [contains, Bool.and_eq_true, decide_eq_true_eq, decide_eq_true_eq]
  exact ⟨decide_eq_true hle, decide_eq_true hself⟩

/-- A voltage has a code where it is in the range and its distance from the lower end is a
number. To be in the range is enough just where the span is a number. -/
theorem encodable_iff (range : VoltageRange) :
    (∀ volt, (∃ n, range.code volt = .ok n) ↔
      range.contains volt = true ∧ (volt - range.min).isFinite = true) ∧
    ((∀ volt, (∃ n, range.code volt = .ok n) ↔ range.contains volt = true) ↔
      (range.max - range.min).isFinite = true) := by
  have hdistance (volt : Float) : (∃ n, range.code volt = .ok n) ↔
      range.contains volt = true ∧ (volt - range.min).isFinite = true := by
    cases hspan : value? (range.max - range.min) with
    | some span =>
        obtain ⟨low, high, h, -⟩ := measured_of_sub hspan
        rw [h.exists_code_iff]
        exact ⟨fun hcontains => ⟨hcontains, h.isFinite_sub hcontains⟩, And.left⟩
    | none =>
        constructor
        · rintro ⟨n, hn⟩
          obtain ⟨hcontains, -⟩ := of_code_ok hn
          rw [code_of_infinite_span hspan hcontains] at hn
          split at hn
          · next hfinite => exact ⟨hcontains, hfinite⟩
          · cases hn
        · rintro ⟨hcontains, hfinite⟩
          exact ⟨0, by rw [code_of_infinite_span hspan hcontains, if_pos hfinite]⟩
  refine ⟨hdistance, fun h => ?_, fun hfinite volt => ?_⟩
  · exact ((hdistance range.max).mp ((h range.max).mpr range.contains_max)).2
  · obtain ⟨low, high, h⟩ := exists_measured hfinite
    exact h.exists_code_iff

/-- The ends of a range are numbers, and its upper end is in it, but the distance between them is
too large for a double, so that it has no code. -/
theorem exists_not_encodable_atMax :
    ∃ range, ofBounds? (-1e308) 1e308 = some range ∧
      range.contains 1e308 = true ∧ ¬ ∃ n, range.code 1e308 = .ok n := by
  have hlt : (-1e308 : Float) < 1e308 := by decide +kernel
  have hinfinite : (1e308 - -1e308 : Float).isFinite = false := by decide +kernel
  refine ⟨⟨-1e308, 1e308, hlt⟩, dif_pos hlt, contains_max _, fun hcode => ?_⟩
  obtain ⟨-, hfinite⟩ := ((encodable_iff ⟨-1e308, 1e308, hlt⟩).1 1e308).mp hcode
  exact Bool.false_ne_true (hinfinite.symm.trans hfinite)

end VoltageRange

end DacRack
