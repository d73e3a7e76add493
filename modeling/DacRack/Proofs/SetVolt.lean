import DacRack.Proofs.Refusals
import DacRack.Proofs.RoundTrips

/-!
# Setting a voltage, at once and by a ramp

A voltage that is set at once is turned into a code, and the code is sent. A ramp takes the
longer way: it is given the voltage of that code, which is looked for in the range and turned
into a code once more, and so is the voltage of the word where the channel is.

Both should lead to the same place, and `ramped_setVolt` says how far they do. What is sent is
the code in the end (`ends_setVolt_sets`), where the range has room for the precision of
doubles. But the voltage of the highest code may be past the end of the range, and then a ramp
to it is refused, and one away from it, though the same voltages can be set at once.

`Refused` is taken apart along the steps of a call: a part that can only fail late leaves it
to the others (`Fails.refused_bind_iff`), and what remains are the two places where a voltage
is turned into a code.
-/

namespace DacRack

variable {σ φ κ α β : Type}

/-- A voltage was not accepted. -/
def Refused (r : Except (Error φ) α) : Prop :=
  ∃ cause, r = .error (.outOfRange cause)

/-- The request puts out a code, or lets a ramp go to it. -/
inductive Request.Sets : Request → UInt16 → Prop
  | upperLimit (code : UInt16) : Sets (.commands [.upperLimit code]) code
  | lowerLimit (code : UInt16) : Sets (.commands [.lowerLimit code]) code
  | jump (code : UInt16) :
      Sets (.commands [.upperLimit maxCode, .lowerLimit 0, .setOutput code]) code

/-- Only what acts on a channel does. -/
theorem Plain.exists_channel_of_sets {target : Target} {commands : List Command} {code : UInt16}
    (h : Plain target commands) (hsets : (Request.commands commands).Sets code) :
    ∃ channel, target = .channel channel := by
  generalize hrequest : Request.commands commands = request at hsets
  cases h with
  | jump channel | upperLimit channel | lowerLimit channel | slope channel | updatePeriod channel =>
      exact ⟨channel, rfl⟩
  | query bank => cases bank <;> cases hrequest <;> cases hsets
  | store bank => cases bank <;> cases hrequest <;> cases hsets
  | _ => cases hrequest; cases hsets

theorem Ramp.exists_between_iff (range : VoltageRange) (current target : Float)
    (period : UInt32) (rate : Float) :
    (∃ plan, Ramp.between range current target period rate = .ok plan) ↔
      (∃ n, range.code current = .ok n) ∧ ∃ n, range.code target = .ok n := by
  constructor
  · rintro ⟨plan, hplan⟩
    obtain ⟨hcurrent, htarget, -⟩ := of_between hplan
    exact ⟨⟨_, hcurrent⟩, _, htarget⟩
  · rintro ⟨⟨m, hm⟩, n, hn⟩
    unfold between
    rw [hm, hn]
    exact ⟨_, rfl⟩

namespace Step

variable {s : Session σ φ κ} {step : Step σ φ κ α} {next : α → Step σ φ κ β}

/-! Where a step refuses a voltage, going along its parts. -/

section Refused

theorem Fails.not_refused (h : Fails Error.Late step) (s : Session σ φ κ) :
    ¬ Refused (s.perform step).1 := by
  rintro ⟨cause, hcause⟩
  obtain ⟨made, -, hfails⟩ := h s
  rcases hfails _ hcause with hlate | ⟨htooLong, -⟩
  · cases hlate
  · cases htooLong

theorem refused_bind_iff : Refused (s.perform (step >>= next)).1 ↔
    Refused (s.perform step).1 ∨
      ∃ a s', s.perform step = (.ok a, s') ∧ Refused (s'.perform (next a)).1 := by
  rw [Session.perform_bind]
  cases s.perform step with
  | mk r s' =>
      cases r with
      | error e =>
          constructor
          · rintro ⟨cause, ⟨⟩⟩
            exact .inl ⟨cause, rfl⟩
          · rintro (⟨cause, ⟨⟩⟩ | ⟨a, s', ⟨⟩, -⟩)
            exact ⟨cause, rfl⟩
      | ok a =>
          constructor
          · exact fun hnext => .inr ⟨a, s', rfl, hnext⟩
          · rintro (⟨cause, ⟨⟩⟩ | ⟨a', s'', ⟨⟩, hnext⟩)
            exact hnext

theorem Fails.refused_bind_iff (h : Fails Error.Late step) :
    Refused (s.perform (step >>= next)).1 ↔
      ∃ a s', s.perform step = (.ok a, s') ∧ Refused (s'.perform (next a)).1 :=
  Step.refused_bind_iff.trans (or_iff_right (h.not_refused s))

/-- What follows may refuse nothing. -/
theorem refused_bind_iff_of_fails (hnext : ∀ a, Fails Error.Late (next a)) :
    Refused (s.perform (step >>= next)).1 ↔ Refused (s.perform step).1 := by
  refine Step.refused_bind_iff.trans (or_iff_left ?_)
  rintro ⟨a, s', -, hrefused⟩
  exact (hnext a).not_refused s' hrefused

theorem refused_ensure_bind_iff {why : Parameter} {condition : Bool} {next : Unit → Step σ φ κ β} :
    Refused (s.perform (ensure (.badParameter why) condition >>= next)).1 ↔
      condition = true ∧ Refused (s.perform (next ())).1 := by
  cases condition with
  | false => exact ⟨nofun, nofun⟩
  | true => exact ⟨fun hnext => ⟨rfl, hnext⟩, fun hnext => hnext.2⟩

theorem refused_inRange_bind_iff {result : Except OutOfRange α} :
    Refused (s.perform (inRange result >>= next)).1 ↔
      (¬ ∃ a, result = .ok a) ∨ ∃ a, result = .ok a ∧ Refused (s.perform (next a)).1 := by
  cases result with
  | error cause =>
      exact iff_of_true ⟨cause, rfl⟩ (.inl nofun)
  | ok a =>
      refine ⟨fun hnext => .inr ⟨a, rfl, hnext⟩, ?_⟩
      rintro (hnone | ⟨a', hok, hnext⟩)
      · exact absurd ⟨a, rfl⟩ hnone
      · cases hok
        exact hnext

theorem Fails.config {own : Nat → Error φ → Prop} (h : Fails own step) {s' : Session σ φ κ}
    {r : Except (Error φ) α} (hperform : s.perform step = (r, s')) : s'.config = s.config := by
  obtain ⟨made, hg, -⟩ := h s
  rw [hperform] at hg
  exact hg.config

variable [Link σ φ]

/-- A ramp is refused when it is started just where it cannot be planned. -/
theorem refused_startRamp_iff {channel : Channel} {current target rate : Float} :
    Refused (s.perform (startRamp channel current target rate)).1 ↔
      ∃ period s', s.perform (updatePeriod channel) = (.ok period, s') ∧
        ¬ ((∃ n, s.config.range.code current = .ok n) ∧
          ∃ n, s.config.range.code target = .ok n) := by
  unfold startRamp
  rw [(fails_updatePeriod channel).refused_bind_iff]
  refine exists_congr fun period => exists_congr fun s' => and_congr_right fun hperiod => ?_
  rw [Session.perform_range_bind, refused_inRange_bind_iff,
    (fails_updatePeriod channel).config hperiod,
    ← Ramp.exists_between_iff _ current target period rate]
  refine or_iff_left ?_
  rintro ⟨plan, -, hrefused⟩
  obtain ⟨hfits, hrefused⟩ := refused_ensure_bind_iff.mp hrefused
  exact (fails_launch channel current target hfits).not_refused s' hrefused

theorem perform_volt_ok_iff {channel : Channel} {current : Float} {s' : Session σ φ κ} :
    s.perform (volt channel) = (.ok current, s') ↔
      ∃ value, s.perform (readSetting channel .output) = (.ok value, s') ∧
        current = s.config.range.volt value.toUInt32 := by
  constructor
  · intro h
    obtain ⟨value, s₁, hread, h⟩ := Session.perform_bind_ok h
    rw [Session.perform_range_bind, (fails_readSetting channel .output).config hread] at h
    cases h
    exact ⟨value, hread, rfl⟩
  · rintro ⟨value, hread, rfl⟩
    refine (Session.perform_bind_of_ok hread).trans ?_
    rw [Session.perform_range_bind, (fails_readSetting channel .output).config hread]
    rfl

variable [Clock κ]

/-- A ramp is refused for its target, or for where it would start from. -/
theorem refused_ramp_iff {channel : Channel} {target rate : Float} {wait : Bool} :
    Refused (s.perform (ramp channel target rate wait)).1 ↔ rateAllowed rate = true ∧
      ((¬ ∃ n, s.config.range.code target = .ok n) ∨
        ∃ value s₁ period s₂, s.perform (readSetting channel .output) = (.ok value, s₁) ∧
          s₁.perform (updatePeriod channel) = (.ok period, s₂) ∧
          (s.config.range.volt value.toUInt32 == target) = false ∧
          ¬ ∃ n, s.config.range.code (s.config.range.volt value.toUInt32) = .ok n) := by
  unfold ramp
  rw [refused_ensure_bind_iff, Session.perform_range_bind, refused_inRange_bind_iff]
  refine and_congr_right fun _ => ?_
  by_cases htarget : ∃ n, s.config.range.code target = .ok n
  swap
  · exact iff_of_true (.inl htarget) (.inl htarget)
  rw [or_iff_right (not_not.mpr htarget), or_iff_right (not_not.mpr htarget)]
  have hwait (_ : Unit) := fails_settleIf (σ := σ) (φ := φ) (κ := κ) channel wait
  constructor
  · rintro ⟨n, -, hrefused⟩
    obtain ⟨current, s₁, hvolt, hrefused⟩ := (fails_readVolt channel .output).refused_bind_iff.mp
      hrefused
    obtain ⟨value, hread, rfl⟩ := perform_volt_ok_iff.mp hvolt
    have hconfig := (fails_readSetting channel .output).config hread
    split at hrefused
    · obtain ⟨_, ⟨⟩⟩ := hrefused
    · next hne =>
        obtain ⟨period, s₂, hperiod, hplan⟩ :=
          refused_startRamp_iff.mp ((refused_bind_iff_of_fails hwait).mp hrefused)
        rw [hconfig] at hplan
        exact ⟨value, s₁, period, s₂, hread, hperiod, eq_false_of_ne_true hne,
          fun hcurrent => hplan ⟨hcurrent, htarget⟩⟩
  · rintro ⟨value, s₁, period, s₂, hread, hperiod, hne, hcurrent⟩
    obtain ⟨n, hn⟩ := htarget
    refine ⟨n, hn, (fails_readVolt channel .output).refused_bind_iff.mpr
      ⟨_, s₁, perform_volt_ok_iff.mpr ⟨value, hread, rfl⟩, ?_⟩⟩
    have hconfig := (fails_readSetting channel .output).config hread
    rw [if_neg (by rw [hne]; exact Bool.false_ne_true), refused_bind_iff_of_fails hwait,
      refused_startRamp_iff, hconfig]
    exact ⟨period, s₂, hperiod, fun hplan => hcurrent hplan.1⟩

end Refused

/-! What setting a voltage sets. -/

section Sets

variable {P : UInt16 → Prop}

/-- What acts on no channel sets nothing. -/
theorem Sends.sets
    (h : Sends (Allowed (fun target => ∀ channel, target ≠ .channel channel) none) step) :
    Sends (fun _ request => ∀ n, request.Sets n → P n) step := by
  refine h.mono fun target request hallowed n hsets => ?_
  rcases hallowed with ⟨htarget, commands, rfl, hplain⟩ | ⟨text, rfl, -⟩
  · obtain ⟨channel, rfl⟩ := hplain.exists_channel_of_sets hsets
    exact absurd rfl (htarget channel)
  · cases hsets

theorem Ends.bind_forall {J : Exchange φ → Prop} (h : Ends step s fun made _ _ => ∀ e ∈ made, J e)
    (hnext : ∀ made a s', s.Grown s' made → Ends (next a) s' fun made _ _ => ∀ e ∈ made, J e) :
    Ends (step >>= next) s fun made _ _ => ∀ e ∈ made, J e := by
  refine h.bind (fun _ _ _ _ hmade => hmade) fun made a s' hg hmade => ?_
  exact (hnext made a s' hg).mono fun made' _ _ _ hmade' =>
    List.forall_mem_append.mpr ⟨hmade', hmade⟩

variable [Link σ φ]

theorem built_setting {channel : Channel} {commands : List Command}
    (h : ∀ n, (Request.commands commands).Sets n → P n) :
    Built (fun _ request => ∀ n, request.Sets n → P n)
      (command channel commands : Step σ φ κ Unit) :=
  built_command (fun _ hsets => nomatch hsets) h

theorem sends_setCode (channel : Channel) (code : UInt16) :
    Sends (fun _ request => ∀ n, request.Sets n → n = code)
      (setCode channel code : Step σ φ κ Unit) := by
  refine Built.sends ((built_setting ?_).bind fun _ => ?_)
  · rintro n ⟨⟩
    rfl
  · exact (silent_setMotion _ _).built.bind fun _ => (silent_note (by simp)).built

theorem sends_updatePeriod (channel : Channel) :
    Sends (fun _ request => ∀ n, request.Sets n → P n)
      (updatePeriod channel : Step σ φ κ UInt32) :=
  ((built_readSetting channel .updatePeriod).bind fun _ => (silent_pure _).built).allowed.sets

theorem sends_volt (channel : Channel) :
    Sends (fun _ request => ∀ n, request.Sets n → P n) (volt channel : Step σ φ κ Float) :=
  ((built_readSetting channel .output).bind fun _ =>
    silent_range.built.bind fun _ => (silent_pure _).built).allowed.sets

theorem sets_limitCommand {plan : Ramp} {n : UInt16}
    (h : (Request.commands [limitCommand plan]).Sets n) : n = plan.targetCode := by
  unfold limitCommand at h
  generalize plan.targetCode = code at *
  split at h
  · cases h
    rfl
  · cases h
    rfl

/-- A ramp sets its target. -/
theorem ends_startRamp_sets (channel : Channel) (current target rate : Float)
    (s : Session σ φ κ) : Ends (startRamp channel current target rate) s fun made _ _ =>
      ∀ e ∈ made, ∀ n, e.request.Sets n → s.config.range.code target = .ok n := by
  unfold startRamp
  refine Ends.bind_forall (sends_updatePeriod channel s) fun reading period s₁ hg => ?_
  refine Ends.range_bind (Ends.inRange_bind (fun _ => List.forall_mem_nil _) fun plan hplan => ?_)
  rw [hg.config] at hplan
  obtain ⟨-, htarget, -⟩ := Ramp.of_between hplan
  suffices h : Built (fun _ request => ∀ n, request.Sets n →
      s.config.range.code target = .ok n) _ from h.sends s₁
  refine Built.ensure_bind fun _ => ?_
  refine (built_setting fun n hsets => ?_).bind fun _ => ?_
  · rw [sets_limitCommand hsets]
    exact htarget
  · refine (built_setting fun n hsets => (nomatch hsets)).bind fun _ => ?_
    exact (silent_setMotion _ _).built.bind fun _ => (silent_note (by simp)).built

variable [Clock κ]

theorem sends_settle (channel : Channel) :
    Sends (fun _ request => ∀ n, request.Sets n → P n) (settle channel : Step σ φ κ Unit) :=
  (built_settle channel).allowed.sets

theorem ends_ramp_sets (channel : Channel) (target rate : Float) (wait : Bool)
    (s : Session σ φ κ) : Ends (ramp channel target rate wait) s fun made _ _ =>
      ∀ e ∈ made, ∀ n, e.request.Sets n → s.config.range.code target = .ok n := by
  unfold ramp
  refine Ends.ensure_bind (List.forall_mem_nil _) fun _ => Ends.range_bind ?_
  refine Ends.inRange_bind (fun _ => List.forall_mem_nil _) fun _ _ => ?_
  refine Ends.bind_forall (sends_volt channel s) fun reading current s₁ hg => ?_
  split
  · exact ends_pure (List.forall_mem_nil _)
  · have hstart := ends_startRamp_sets channel current target rate s₁
    rw [hg.config] at hstart
    refine hstart.bind_forall fun _ _ s₂ _ => ?_
    split
    · exact sends_settle channel s₂
    · exact ends_pure (List.forall_mem_nil _)

/-- Setting a voltage sets its code, or by a ramp the code of that code's voltage. -/
theorem ends_setVolt_sets (channel : Channel) (volt : Float) (s : Session σ φ κ) :
    Ends (setVolt channel volt) s fun made _ _ => ∀ e ∈ made, ∀ n, e.request.Sets n →
      ∃ code, s.config.range.code volt = .ok code ∧
        if (s.host.channelState channel).rampOnSet then
          s.config.range.code (s.config.range.volt code.toUInt32) = .ok n
        else n = code := by
  unfold setVolt
  refine Ends.range_bind (Ends.inRange_bind (fun _ => List.forall_mem_nil _) fun code hcode => ?_)
  refine Ends.channelState_bind ?_
  cases (s.host.channelState channel).rampOnSet with
  | true =>
      refine (ends_ramp_sets channel _ _ true s).mono fun made _ _ _ hmade e he n hsets => ?_
      exact ⟨code, hcode, hmade e he n hsets⟩
  | false =>
      refine (sends_setCode channel code s).mono fun made _ _ _ hmade e he n hsets => ?_
      exact ⟨code, hcode, hmade e he n hsets⟩

end Sets

end Step

section

variable [Link σ φ] [Clock κ] {s : Session σ φ κ} {channel : Channel} {volt : Float}
  {code : UInt16}

theorem perform_setVolt (hcode : s.config.range.code volt = .ok code) :
    s.perform (Step.setVolt channel volt) =
      s.perform (if (s.host.channelState channel).rampOnSet
        then Step.ramp channel (s.config.range.volt code.toUInt32)
          (s.host.channelState channel).rampRate true
        else Step.setCode channel code) := by
  unfold Step.setVolt
  rw [Session.perform_range_bind, hcode]
  rfl

/-- The ramping call is refused where the range is too wide for doubles, and where the highest
code stands for a voltage that is not in the range, if it is to go there or starts from there. -/
theorem refused_setVolt_iff (hcode : s.config.range.code volt = .ok code)
    (hramps : (s.host.channelState channel).rampOnSet = true)
    (hword : ∀ value s₁, s.perform (Step.readSetting channel .output) = (.ok value, s₁) →
      value ≤ 65535) :
    Refused (s.perform (Step.setVolt channel volt)).1 ↔
      rateAllowed (s.host.channelState channel).rampRate = true ∧
        ((s.config.range.max - s.config.range.min).isFinite = false ∨
          s.config.range.contains (s.config.range.volt 65535) = false ∧
            (code = 65535 ∨ ∃ s₁ period s₂,
              s.perform (Step.readSetting channel .output) = (.ok 65535, s₁) ∧
                s₁.perform (Step.updatePeriod channel) = (.ok period, s₂))) := by
  rw [perform_setVolt hcode, if_pos hramps, Step.refused_ramp_iff]
  refine and_congr_right fun _ => ?_
  rw [VoltageRange.exists_code_volt_code_iff]
  constructor
  · rintro (htarget | ⟨value, s₁, period, s₂, hread, hperiod, -, hcurrent⟩)
    · rw [not_and_or, Classical.not_imp] at htarget
      rcases htarget with hfinite | ⟨htop, hout⟩
      · exact .inl (eq_false_of_ne_true hfinite)
      · exact .inr ⟨eq_false_of_ne_true hout, .inl htop⟩
    · rw [VoltageRange.exists_code_volt_value_iff (hword value s₁ hread), not_and_or,
        Classical.not_imp] at hcurrent
      rcases hcurrent with hfinite | ⟨rfl, hout⟩
      · exact .inl (eq_false_of_ne_true hfinite)
      · exact .inr ⟨eq_false_of_ne_true hout, .inr ⟨s₁, period, s₂, hread, hperiod⟩⟩
  · rintro (hfinite | ⟨hout, htop | ⟨s₁, period, s₂, hread, hperiod⟩⟩)
    · exact .inl fun htarget => absurd (hfinite.symm.trans htarget.1) nofun
    · exact .inl fun htarget => absurd (hout.symm.trans (htarget.2 htop)) nofun
    · refine or_iff_not_imp_left.mpr fun htarget => ?_
      rw [not_not] at htarget
      refine ⟨65535, s₁, period, s₂, hread, hperiod, ?_, ?_⟩
      -- Of two equal voltages neither is outside the range alone.
      · by_contra heq
        obtain ⟨low, high, hmeasured⟩ := VoltageRange.exists_measured htarget.1
        have hin := hmeasured.exists_code_iff.mp
          (VoltageRange.exists_code_volt_code_iff.mpr htarget)
        have hin' := hmeasured.contains_of_beq hin (eq_true_of_ne_false heq)
        exact absurd (hout.symm.trans hin') nofun
      · rw [VoltageRange.exists_code_volt_value_iff (hword 65535 s₁ hread)]
        exact fun hcurrent => absurd (hout.symm.trans (hcurrent.2 rfl)) nofun

/-- A voltage that is set at once is set by a ramp too, but for the ends of some ranges: the
call is refused where the range is too wide for doubles, and where the highest code stands for
a voltage past the end and is gone to or started from. Where it is not, the limit of the ramp
is the code of the code's voltage, which is the code itself in every range that is not
narrower than doubles are precise. -/
theorem ramped_setVolt (d s : Session σ φ κ) (channel : Channel) (volt : Float) (code : UInt16)
    (hrange : d.config.range = s.config.range)
    (hjumps : (d.host.channelState channel).rampOnSet = false)
    (hramps : (s.host.channelState channel).rampOnSet = true)
    (hsent : ∃ made, d.Grown (d.perform (Step.setVolt channel volt)).2 made ∧
      ∃ e ∈ made, e.request = .commands [.upperLimit maxCode, .lowerLimit 0, .setOutput code])
    (hword : ∀ value s₁, s.perform (Step.readSetting channel .output) = (.ok value, s₁) →
      value ≤ 65535) :
    (Refused (s.perform (Step.setVolt channel volt)).1 ↔
      rateAllowed (s.host.channelState channel).rampRate = true ∧
        ((s.config.range.max - s.config.range.min).isFinite = false ∨
          s.config.range.contains (s.config.range.volt 65535) = false ∧
            (code = 65535 ∨ ∃ s₁ period s₂,
              s.perform (Step.readSetting channel .output) = (.ok 65535, s₁) ∧
                s₁.perform (Step.updatePeriod channel) = (.ok period, s₂)))) ∧
    ∃ made, s.Grown (s.perform (Step.setVolt channel volt)).2 made ∧
      ∀ e ∈ made, ∀ limit, e.request.Sets limit →
        s.config.range.code (s.config.range.volt code.toUInt32) = .ok limit ∧
          (2.2250738585072014e-308 ≤ s.config.range.max - s.config.range.min →
            limit = code) := by
  obtain ⟨sent, hsent, e, he, hrequest⟩ := hsent
  obtain ⟨sent', hsent', hsets⟩ := Step.ends_setVolt_sets channel volt d
  obtain rfl := hsent.unique hsent'
  obtain ⟨code', hcode, heq⟩ := hsets e he code (by rw [hrequest]; exact .jump code)
  rw [if_neg (by rw [hjumps]; exact Bool.false_ne_true)] at heq
  subst heq
  rw [hrange] at hcode
  refine ⟨refused_setVolt_iff hcode hramps hword, ?_⟩
  obtain ⟨made, hg, hmade⟩ := Step.ends_setVolt_sets channel volt s
  refine ⟨made, hg, fun e he limit hlimit => ?_⟩
  obtain ⟨code', hcode', hback⟩ := hmade e he limit hlimit
  rw [hcode] at hcode'
  cases hcode'
  rw [if_pos hramps] at hback
  exact ⟨hback, fun hwide => VoltageRange.code_volt_code hwide hcode hback⟩

end

/-- A range whose upper end is below the voltage of the highest code. -/
def lopsided : VoltageRange :=
  ⟨-0.1, 0.3, by decide +kernel⟩

/-- A connection to an instrument of that range, with these replies still to come. -/
def spanning (replies : List String) : Session ScriptedLink FaultKind SteppingClock :=
  (Session.perform { connecting replies with config := { range := lopsided } } Step.connect).2

theorem range_spanning (replies : List String) : (spanning replies).config.range = lopsided := by
  have hconnect : Step.Composed (fun _ => True) none
      (Step.connect : Step ScriptedLink FaultKind SteppingClock Unit) :=
    Step.composed_connect (fun _ _ => trivial) fun _ => trivial
  obtain ⟨made, hg, -⟩ := hconnect.sends trivial
    { connecting replies with config := { range := lopsided } }
  unfold spanning
  rw [hg.config]

/-- One where a channel is to ramp. -/
def overshooting (channel : Channel) : Session ScriptedLink FaultKind SteppingClock :=
  ((spanning ["A1545!", "p0!", "A1536!", "p1000!"]).perform
    (Step.setRampOnSet channel true)).2

theorem range_overshooting (channel : Channel) :
    (overshooting channel).config.range = lopsided := by
  obtain ⟨made, hg, -⟩ := Step.silent_setRampOnSet channel true
    (spanning ["A1545!", "p0!", "A1536!", "p1000!"])
  unfold overshooting
  rw [hg.config, range_spanning]

/-- The upper end of a range is set at once, and refused when it is to be ramped to. -/
theorem exists_refused_atUpperEnd :
    (∃ e ∈ ((spanning ["B0!C0!", "D65535!"]).perform
      (Step.setVolt ⟨0, 0⟩ 0.3)).2.journal.exchanges,
        e.request = .commands [.upperLimit maxCode, .lowerLimit 0, .setOutput 65535]) ∧
      Refused ((overshooting ⟨0, 0⟩).perform (Step.setVolt ⟨0, 0⟩ 0.3)).1 := by
  have hjump : ∃ e ∈ ((spanning ["B0!C0!", "D65535!"]).perform
      (Step.setVolt ⟨0, 0⟩ 0.3)).2.journal.exchanges,
        e.request = .commands [.upperLimit maxCode, .lowerLimit 0, .setOutput 65535] := by
    decide +kernel
  have hbefore : ∀ e ∈ (spanning ["B0!C0!", "D65535!"]).journal.exchanges,
      e.request ≠ .commands [.upperLimit maxCode, .lowerLimit 0, .setOutput 65535] := by
    decide +kernel
  obtain ⟨made, hg, -⟩ := Step.ends_setVolt_sets ⟨0, 0⟩ 0.3 (spanning ["B0!C0!", "D65535!"])
  have hsent : ∃ e ∈ made,
      e.request = .commands [.upperLimit maxCode, .lowerLimit 0, .setOutput 65535] := by
    obtain ⟨e, hmem, he⟩ := hjump
    rw [hg.exchanges] at hmem
    exact ⟨e, (List.mem_append.mp hmem).resolve_right fun h => hbefore e h he, he⟩
  have hread : ((overshooting ⟨0, 0⟩).perform
      (Step.readSetting ⟨0, 0⟩ .output)).1.toOption = some 0 := by
    decide +kernel
  have hrange : (spanning ["B0!C0!", "D65535!"]).config.range =
      (overshooting ⟨0, 0⟩).config.range :=
    (range_spanning _).trans (range_overshooting _).symm
  refine ⟨hjump, ?_⟩
  refine (ramped_setVolt (spanning ["B0!C0!", "D65535!"]) (overshooting ⟨0, 0⟩) ⟨0, 0⟩ 0.3 65535
    hrange ?_ ?_ ⟨made, hg, hsent⟩ ?_).1.mpr ⟨?_, .inr ⟨?_, .inl rfl⟩⟩
  · decide +kernel
  · decide +kernel
  · intro value s₁ hvalue
    rw [hvalue] at hread
    cases hread
    decide
  · decide +kernel
  · decide +kernel

end DacRack
