import DacRack.Proofs.Codes
import DacRack.Proofs.Signs
import DacRack.Step.Ramp

/-!
# Which way a slope points

The slope of a ramp comes from the steps between two codes, divided by how often the
output is updated and by how long the ramp takes. Neither of the two is negative, but
both may be zero or infinite: an instrument that reports a period of zero has it updated
infinitely often, and a slow ramp may take forever.

So the slope never points away from the target (`slope_nonneg`, `slope_nonpos`), but it
may be rounded to zero, and then points nowhere. The limit goes by the slope. With the
target on one side of the voltage the codes are on that side too, so a plan heads for its
target exactly where its slope is at least a half before it is rounded
(`headsFor_iff_of_between`).
-/

namespace DacRack

/-- What the slope is rounded from. -/
def Ramp.steepness (plan : Ramp) : Float :=
  (plan.targetCode.toFloat - plan.currentCode.toFloat) / (plan.updateRate * plan.duration) *
    slopeScale

namespace Ramp

open Number

variable {range : VoltageRange} {current target : Float} {period : UInt32} {rate : Float}
  {plan : Ramp}

/-- What a plan was made from. -/
theorem of_between (h : between range current target period rate = .ok plan) :
    range.code current = .ok plan.currentCode ∧ range.code target = .ok plan.targetCode ∧
      plan.updateRate = 1.0 / (period.toFloat * 1e-6) ∧
      plan.duration = (current - target).abs / rate ∧
      plan.slope = (Binary64.ofFloat plan.steepness).toInt64 := by
  unfold between at h
  cases hcurrent : range.code current with
  | error e =>
      rw [hcurrent] at h
      cases h
  | ok currentCode =>
      cases htarget : range.code target with
      | error e =>
          rw [hcurrent, htarget] at h
          cases h
      | ok targetCode =>
          rw [hcurrent, htarget] at h
          cases h
          exact ⟨rfl, rfl, rfl, rfl, rfl⟩

/-- What the steps are divided by has no minus. -/
theorem signed_of_between (h : between range current target period rate = .ok plan)
    (hrate : rateAllowed rate = true) :
    Signed .positive (plan.updateRate * plan.duration).toModel.unpack := by
  obtain ⟨-, -, hupdate, hduration, -⟩ := of_between h
  have hpositive : 0 < rate := by
    rw [rateAllowed, Bool.and_eq_true, decide_eq_true_eq] at hrate
    exact hrate.1
  have hmicros : Signed .positive (period.toFloat * 1e-6).toModel.unpack :=
    ((signed_toFloat period).mul (signed_of_pos (by decide))).pack
  have hupdate' : Signed .positive plan.updateRate.toModel.unpack := by
    rw [hupdate]
    exact (Signed.div (signed_of_pos (by decide)) hmicros).pack
  have hduration' : Signed .positive plan.duration.toModel.unpack := by
    rw [hduration]
    exact (Signed.div (signed_abs _).pack (signed_of_pos hpositive)).pack
  exact (hupdate'.mul hduration').pack

theorem value?_steps (current target : UInt16) :
    value? (target.toFloat - current.toFloat) = some ((target.toNat : ℚ) - current.toNat) := by
  have hbound : |(target.toNat : ℤ) - current.toNat| ≤ 2 ^ 16 := by
    have htarget := target.toNat_lt
    have hcurrent := current.toNat_lt
    rw [abs_le]
    omega
  have hdouble : IsDouble ((target.toNat : ℚ) - current.toNat) := by
    refine ⟨(target.toNat : ℤ) - current.toNat, 0, ?_, by omega, by simp⟩
    exact_mod_cast hbound.trans (by omega)
  have hsmall : |(target.toNat : ℚ) - current.toNat| < 2 ^ (1024 : ℤ) := by
    have hbound' : |(target.toNat : ℚ) - current.toNat| ≤ 2 ^ (16 : ℤ) := by
      exact_mod_cast hbound
    exact hbound'.trans_lt (zpow_lt_zpow_right₀ (by norm_num) (by omega))
  rw [value?_sub (value?_toFloat_uint16 _) (value?_toFloat_uint16 _),
    rounded_of_isDouble hdouble, fit_of_abs_lt hsmall]

/-- The slope points to the side of the steps, if anywhere. -/
theorem apply_slope_nonneg {s : Float.Model.UnpackedFloat.Sign}
    (h : between range current target period rate = .ok plan) (hrate : rateAllowed rate = true)
    (hsteps : 0 ≤ unit s * ((plan.targetCode.toNat : ℚ) - plan.currentCode.toNat)) :
    0 ≤ s.apply plan.slope.toInt := by
  have htoward := (((toward_of_value? (value?_steps _ _) hsteps).div
    (signed_of_between h hrate)).pack.mul (signed_of_pos (x := slopeScale) (by decide))).pack
  obtain ⟨-, -, -, -, hslope⟩ := of_between h
  rw [hslope, ofFloat_eq_parts]
  exact apply_toInt64_nonneg htoward

theorem slope_nonneg (h : between range current target period rate = .ok plan)
    (hrate : rateAllowed rate = true) (hle : plan.currentCode.toNat ≤ plan.targetCode.toNat) :
    0 ≤ plan.slope.toInt := by
  have hcast : (plan.currentCode.toNat : ℚ) ≤ plan.targetCode.toNat := by exact_mod_cast hle
  refine apply_slope_nonneg (s := .positive) h hrate ?_
  rw [unit, one_mul]
  linarith

theorem slope_nonpos (h : between range current target period rate = .ok plan)
    (hrate : rateAllowed rate = true) (hle : plan.targetCode.toNat ≤ plan.currentCode.toNat) :
    plan.slope.toInt ≤ 0 := by
  have hcast : (plan.targetCode.toNat : ℚ) ≤ plan.currentCode.toNat := by exact_mod_cast hle
  have hnonneg : 0 ≤ -plan.slope.toInt := by
    refine apply_slope_nonneg (s := .negative) h hrate ?_
    rw [unit, neg_one_mul]
    linarith
  omega

theorem slope_ne_zero_iff (h : between range current target period rate = .ok plan) :
    plan.slope.toInt ≠ 0 ↔ 0.5 ≤ plan.steepness.abs := by
  obtain ⟨-, -, -, -, hslope⟩ := of_between h
  rw [hslope]
  exact toInt64_ne_zero_iff _

end Ramp

theorem limitCommand_of_pos {plan : Ramp} (h : 0 < plan.slope.toInt) :
    Step.limitCommand plan = .upperLimit plan.targetCode := by
  unfold Step.limitCommand limitOf
  rw [if_pos h]

theorem limitCommand_of_nonpos {plan : Ramp} (h : plan.slope.toInt ≤ 0) :
    Step.limitCommand plan = .lowerLimit plan.targetCode := by
  unfold Step.limitCommand limitOf
  rw [if_neg (not_lt.mpr h)]

/-- The limit is the target, on the side of the current code where it lies, and the slope
points there. -/
def HeadsFor (current : UInt32) (target : UInt16) (limit : Command) (slope : Int64) : Prop :=
  (current.toNat < target.toNat → limit = .upperLimit target ∧ 0 < slope.toInt) ∧
    (target.toNat < current.toNat → limit = .lowerLimit target ∧ slope.toInt < 0)

/-- A plan heads for its target unless its slope was rounded to zero. -/
theorem headsFor_iff_of_between {range : VoltageRange} {word period : UInt32}
    {target rate : Float} {plan : Ramp}
    (h : Ramp.between range (range.volt word) target period rate = .ok plan)
    (hrate : rateAllowed rate = true) (hne : (range.volt word == target) = false)
    (hcode : word.toNat ≠ plan.targetCode.toNat) :
    HeadsFor word plan.targetCode (Step.limitCommand plan) plan.slope ↔
      0.5 ≤ plan.steepness.abs := by
  obtain ⟨hcurrent, htarget, -⟩ := Ramp.of_between h
  rw [← Ramp.slope_ne_zero_iff h]
  rcases VoltageRange.lt_or_lt_of_beq hcurrent htarget hne with hlt | hlt
  · obtain ⟨hword, hle⟩ := VoltageRange.le_code_of_volt_lt hcurrent htarget hlt
    have hslope := Ramp.slope_nonneg h hrate hle
    constructor
    · intro hheads
      obtain ⟨-, hpos⟩ := hheads.1 (by omega)
      omega
    · intro hzero
      have hpos : 0 < plan.slope.toInt := by omega
      exact ⟨fun _ => ⟨limitCommand_of_pos hpos, hpos⟩, fun hdown => absurd hdown (by omega)⟩
  · obtain ⟨hword, hle⟩ := VoltageRange.code_le_of_lt_volt hcurrent htarget hlt
    have hslope := Ramp.slope_nonpos h hrate hle
    constructor
    · intro hheads
      obtain ⟨-, hneg⟩ := hheads.2 (by omega)
      omega
    · intro hzero
      have hneg : plan.slope.toInt < 0 := by omega
      exact ⟨fun hup => absurd hup (by omega), fun _ => ⟨limitCommand_of_nonpos hslope, hneg⟩⟩

end DacRack
