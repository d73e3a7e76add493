import DacRack.Proofs.Addressing
import DacRack.Proofs.Decimal
import DacRack.Proofs.Effects

/-!
# What is true of a connection at all times

Connecting finds out what the instrument can do, and that is settled from then on. The
rest of what the host remembers may change with every call, but not beyond bounds: a rate
is one a ramp may run at, a ramp goes to where the channel can go, no channel has a
power-on value, and a slot is in the mode that needs calibration only where there is
calibration. `HostState.Sound` is the conjunction. Connecting establishes it, and each
effect a call can have keeps it, so it holds after any run of calls, failed ones included.

What is refused for good follows from it, and so does what is never sent: the one command
that needs calibration goes out only after a look at what the instrument can do
(`sound_connected_run`).

The identity is not among the bounds. It is read anew whenever the instrument is identified,
and the features are not, so a connection that was made without an EEPROM can come to have
the identity that only an EEPROM gives (`identity_without_eeprom_iff`).
-/

namespace DacRack

variable {σ φ κ α β : Type}

theorem isNaN_eq_false_of_pos {rate : Float} (h : 0 < rate) : rate.isNaN = false := by
  have hlt : decide (((0 : Float).toModel.unpack.compare rate.toModel.unpack ==
    some .lt) = true) = true := h
  show rate.toModel.unpack.isNaN = false
  cases hrate : rate.toModel.unpack with
  | notANumber =>
      rw [hrate] at hlt
      cases hzero : (0 : Float).toModel.unpack <;>
        simp [hzero, Float.Model.UnpackedFloat.compare] at hlt
  | _ => rfl

theorem rateAllowed_iff {rate : Float} : rateAllowed rate = true ↔ 0 < rate ∧ rate ≤ 10 := by
  unfold rateAllowed maxRampRate
  rw [Bool.and_eq_true, decide_eq_true_iff, decide_eq_true_iff]

/-! ## The bounds

Each effect of a call is a few writes to the host's memory, and each write keeps the bounds:
it is the guard in front of it that says so. -/

/-- What is known of a channel is within its bounds. -/
structure ChannelState.Sound (range : VoltageRange) (state : ChannelState) : Prop where
  rate_pos : 0 < state.rampRate
  rate_le : state.rampRate ≤ 10
  rate_not_nan : state.rampRate.isNaN = false
  target : ∀ target, state.motion = .ramping target → range.contains target = true
  powerOn : state.powerOnAddress = none

/-- What the host remembers of an instrument with these features is within its bounds. -/
structure HostState.Sound (range : VoltageRange) (features : Features) (host : HostState) :
    Prop where
  found : host.features = features
  slotEeprom : features.slotEeprom = false
  channels : ∀ channel, (host.channelState channel).Sound range
  modes : ∀ slot, host.mode slot = .fineCald → features.calibration = true

theorem ChannelState.sound_default (range : VoltageRange) : ({} : ChannelState).Sound range where
  rate_pos := by decide +kernel
  rate_le := by decide +kernel
  rate_not_nan := by decide +kernel
  target := nofun
  powerOn := rfl

namespace HostState.Sound

variable {range : VoltageRange} {features : Features} {host host' : HostState}
  {channel : Channel}

/-- Nothing is known yet but what was found. -/
theorem of_found (range : VoltageRange) {features : Features} (identity : Identity)
    (h : features.slotEeprom = false) :
    ({ features, identity } : HostState).Sound range features := by
  refine ⟨rfl, h, fun channel => ?_, fun slot => ?_⟩
  · have hdefault : ({ features, identity } : HostState).channelState channel = {} := by
      simp [channelState]
    rw [hdefault]
    exact ChannelState.sound_default range
  · have hdefault : ({ features, identity } : HostState).mode slot = default := by
      simp [HostState.mode]
    rw [hdefault]
    intro h
    cases h

theorem updateChannel (h : host.Sound range features)
    {change : ChannelState → ChannelState}
    (hchange : (change (host.channelState channel)).Sound range) :
    (host.updateChannel channel change).Sound range features := by
  refine ⟨h.found, h.slotEeprom, fun other => ?_, h.modes⟩
  by_cases hother : other = channel
  · rw [hother, channelState_updateChannel_self]
    exact hchange
  · rw [channelState_updateChannel_of_ne _ _ hother]
    exact h.channels other

theorem setMotion (h : host.Sound range features) {motion : Motion}
    (hmotion : ∀ target, motion = .ramping target → range.contains target = true) :
    (host.setMotion channel motion).Sound range features := by
  have hchannel := h.channels channel
  exact h.updateChannel ⟨hchannel.rate_pos, hchannel.rate_le, hchannel.rate_not_nan, hmotion,
    hchannel.powerOn⟩

theorem setIdle (h : host.Sound range features) :
    (host.setMotion channel .idle).Sound range features :=
  h.setMotion nofun

theorem setRamping (h : host.Sound range features) {target : Float}
    (htarget : range.contains target = true) :
    (host.setMotion channel (.ramping target)).Sound range features :=
  h.setMotion fun _ hmotion => by cases hmotion; exact htarget

theorem setMode (h : host.Sound range features) {slot : Fin slotCount} {mode : SlotMode}
    (hmode : mode.needsCalibration = true → features.calibration = true) :
    (host.setMode slot mode).Sound range features := by
  refine ⟨h.found, h.slotEeprom, h.channels, fun other hother => ?_⟩
  by_cases heq : other = slot
  · rw [heq, mode_setMode_self] at hother
    exact hmode (by rw [hother]; rfl)
  · rw [mode_setMode_of_ne _ _ heq] at hother
    exact h.modes other hother

section

variable {target volt : Float} {wait ok : Bool} {made : List (Exchange φ)}

theorem ramped (h : Ramped range channel target wait host made ok host')
    (hsound : host.Sound range features) : host'.Sound range features := by
  cases h with
  | unarmed => exact hsound
  | armed _ hrange => exact hsound.setRamping hrange
  | ended => exact hsound.setIdle
  | unended _ hrange => exact hsound.setRamping hrange

theorem settled (h : Settled channel host ok host') (hsound : host.Sound range features) :
    host'.Sound range features := by
  cases ok with
  | true =>
      rw [h.eq_of_ok]
      exact hsound.setIdle
  | false =>
      rw [h.eq_of_error]
      exact hsound

theorem voltSet (h : VoltSet range channel volt host made ok host')
    (hsound : host.Sound range features) : host'.Sound range features := by
  unfold VoltSet at h
  split at h
  · rw [h.2]
    exact hsound
  · split at h
    · exact hsound.ramped h
    · exact hsound.settled h

theorem channelCall {call : ChannelCall} (h : call.Effect range channel host made ok host')
    (hsound : host.Sound range features) : host'.Sound range features := by
  cases call with
  | setVolt v => exact hsound.voltSet h
  | ramp target rate wait => exact hsound.ramped h
  | settle => exact hsound.settled h
  | setRampOnSet enable =>
      have hchannel := hsound.channels channel
      rw [h.2]
      exact hsound.updateChannel ⟨hchannel.rate_pos, hchannel.rate_le, hchannel.rate_not_nan,
        hchannel.target, hchannel.powerOn⟩
  | setRampRate rate =>
      obtain ⟨hallowed, hhost⟩ := h
      rw [hhost]
      split
      · next hok =>
          rw [hok] at hallowed
          obtain ⟨hpos, hle⟩ := rateAllowed_iff.mp hallowed.symm
          have hchannel := hsound.channels channel
          exact hsound.updateChannel ⟨hpos, hle, isNaN_eq_false_of_pos hpos, hchannel.target,
            hchannel.powerOn⟩
      · exact hsound
  | _ =>
      rw [show host' = host from h]
      exact hsound

/-- No effect of a call leads out of bounds. -/
theorem call {call : Call} {result : Except (Error φ) Answer}
    (h : call.Effect range host made result host') (hsound : host.Sound range features) :
    host'.Sound range features := by
  cases call with
  | identify =>
      obtain ⟨identity, -, rfl⟩ := h
      exact ⟨hsound.found, hsound.slotEeprom, hsound.channels, hsound.modes⟩
  | setAll volt => exact InTurn.preserves (fun h hsound => voltSet h hsound) h hsound
  | rampAll target rate =>
      exact AllRamped.preserves (fun h hsound => ramped h hsound)
        (fun h hsound => settled h hsound) h hsound
  | onSlot number call =>
      cases call with
      | setMode mode =>
          simp only [Call.Effect] at h
          split at h
          · obtain ⟨slot, -, hcalibration, rfl⟩ := h
            rw [hsound.found] at hcalibration
            exact hsound.setMode hcalibration
          · rw [h]
            exact hsound
      | _ =>
          rw [show host' = host from h]
          exact hsound
  | onChannel channel call => exact hsound.channelCall h
  | _ =>
      rw [show host' = host from h]
      exact hsound

end

end HostState.Sound

/-! ## The command that needs calibration

Only the mode command has its letter, and only its number can make it the calibrated mode. A
call on a slot is looked at by itself, since there alone does it depend on the features
whether the command is sent. -/

/-- A request of the driver's own that puts a slot into the mode that needs calibration,
as it is sent. -/
def Request.Calibrates (request : Request) : Prop :=
  ∃ commands, request = .commands commands ∧
    ['M', '3', ';'] <:+: commands.flatMap Command.wire

theorem Command.eq_setSlotMode_of_mem {command : Command} (h : 'M' ∈ command.wire) :
    ∃ mode, command = .setSlotMode mode := by
  have hletter : command.letter = 'M' := by
    simp only [Command.wire, Command.endedBy, List.mem_cons, List.mem_append, List.not_mem_nil,
      or_false] at h
    rcases h with h | h | h
    · exact h.symm
    · cases hargument : command.argument? with
      | none =>
          rw [hargument] at h
          cases h
      | some n =>
          rw [hargument] at h
          rcases Text.mem_intDigits h with h | h
          · cases h
          · cases h
    · cases h
  cases command with
  | setSlotMode mode => exact ⟨mode, rfl⟩
  | _ => cases hletter

/-- No other row of the repertoire does. -/
theorem Plain.eq_of_calibrates {target : Target} {commands : List Command}
    (h : Plain target commands) (hcalibrates : (Request.commands commands).Calibrates) :
    ∃ slot, target = .slot slot ∧ commands = [.setSlotMode SlotMode.fineCald.number] := by
  obtain ⟨_, ⟨⟩, hwithin⟩ := hcalibrates
  obtain ⟨command, hmem, hM⟩ := List.mem_flatMap.mp (hwithin.subset List.mem_cons_self)
  obtain ⟨number, rfl⟩ := Command.eq_setSlotMode_of_mem hM
  cases h with
  | setMode slot mode =>
      refine ⟨slot, rfl, ?_⟩
      cases mode with
      | fineCald => rfl
      | _ => exact absurd hwithin (by decide)
  | query bank address => cases bank <;> simp [Bank.query] at hmem
  | store bank address word => cases bank <;> simp [Bank.store] at hmem
  | _ => simp at hmem

theorem Plain.not_calibrates {target : Target} {commands : List Command}
    (h : Plain target commands) (ht : ∀ slot, target ≠ .slot slot) :
    ¬ (Request.commands commands).Calibrates := by
  intro hcalibrates
  obtain ⟨slot, htarget, -⟩ := h.eq_of_calibrates hcalibrates
  exact ht slot htarget

/-- A call acts on a slot where it names one. -/
theorem Call.Aims.exists_onSlot {call : Call} {slot : Fin slotCount}
    (h : call.Aims (.slot slot)) : ∃ number slotCall, call = .onSlot number slotCall := by
  cases call with
  | onSlot number slotCall => exact ⟨number, slotCall, rfl⟩
  | setAll volt | rampAll target rate =>
      obtain ⟨_, howns⟩ := h
      cases howns
  | _ => cases h

namespace Step

/-! ## Steps and runs -/

theorem perform_powerOnAddress {channel : Channel} {s : Session σ φ κ}
    (h : (s.host.channelState channel).powerOnAddress = none) :
    s.perform (powerOnAddress channel) = (.error (.unsupported .powerOnVolt), s) := by
  show s.perform (require _ (s.host.channelState channel).powerOnAddress) = _
  rw [h]
  rfl

variable [Link σ φ]

theorem built_selecting {may : Target → Request → Prop} {slot : Fin slotCount}
    {step : Step σ φ κ α}
    (hselect : may .instrument (.commands [.selectSlot (UInt8.ofNat slot)]))
    (h : Built may step) : Built may (do selectSlot (UInt8.ofNat slot); step) := by
  refine Built.bind ?_ fun _ => h
  refine (Built.transact hselect).bind fun _ => (silent_understand _).built.bind fun _ => ?_
  exact (silent_ensure _ _).built.bind fun _ => (silent_note (by simp)).built

/-- Where nothing that is sent calibrates. -/
theorem Built.not_calibrates {step : Step σ φ κ α}
    (h : Built (fun _ request => ¬ request.Calibrates) step) {P : Prop} (s : Session σ φ κ) :
    Ends step s fun made _ _ => ∀ e ∈ made, e.request.Calibrates → P :=
  (h.sends s).mono fun _ _ _ _ hsent e he hcalibrates => absurd hcalibrates (hsent e he)

theorem ends_setMode_calibrates (slot : Fin slotCount) (mode : SlotMode) (s : Session σ φ κ) :
    Ends (setMode slot mode) s fun made _ _ => ∀ e ∈ made, e.request.Calibrates →
      s.host.features.calibration = true := by
  refine Ends.bind_of_ok rfl (.refl s)
    (Ends.ensure_bind (List.forall_mem_nil _) fun hallowed => ?_)
  suffices h : Built (fun _ request => request.Calibrates →
      s.host.features.calibration = true) _ from h.sends s
  refine Built.bind (built_selecting ?_ (.transact ?_)) fun _ => ?_
  · exact fun h => absurd h ((Plain.selectSlot _).not_calibrates nofun)
  · intro hcalibrates
    obtain ⟨_, -, hcommands⟩ := (Plain.setMode slot mode).eq_of_calibrates hcalibrates
    cases mode with
    | fineCald => exact hallowed
    | _ => cases hcommands
  · refine (silent_understand _).built.bind fun _ => ?_
    exact (silent_modifyHost _).built.bind fun _ => (silent_note (by simp)).built

theorem ends_slotCall_calibrates (slot : Fin slotCount) (call : SlotCall) (s : Session σ φ κ) :
    Ends (call.run slot) s fun made _ _ => ∀ e ∈ made, e.request.Calibrates →
      s.host.features.calibration = true := by
  have hselect : ¬ (Request.commands [.selectSlot (UInt8.ofNat slot)]).Calibrates :=
    (Plain.selectSlot _).not_calibrates nofun
  cases call with
  | mode => exact Built.not_calibrates (silent_host.bind fun _ => silent_pure _).built s
  | setMode mode =>
      refine (ends_setMode_calibrates slot mode s).bind (fun _ _ _ _ h => h) ?_
      exact fun _ _ _ _ h => ends_pure h
  | queryMode =>
      have hask : ¬ (Request.commands [.askSlotMode]).Calibrates := by
        intro h
        obtain ⟨_, -, hcommands⟩ := (Plain.askMode slot).eq_of_calibrates h
        cases hcommands
      refine Built.not_calibrates (Built.bind ?_ fun _ => (silent_pure _).built) s
      refine Built.bind (built_selecting hselect (.transact hask)) fun _ => ?_
      exact (silent_understand _).built.bind fun _ => (silent_understand _).built
  | channel number =>
      exact Built.not_calibrates ((silent_require _ _).bind fun _ => silent_pure _).built s
  | ask text =>
      refine Built.not_calibrates (Built.bind ?_ fun _ => (silent_pure _).built) s
      exact built_selecting hselect (.text nofun)

theorem ends_call_calibrates [Clock κ] (call : Call) (s : Session σ φ κ) :
    Ends call.run s fun made _ _ => ∀ e ∈ made, e.request.Calibrates →
      s.host.features.calibration = true := by
  by_cases hslot : ∃ number slotCall, call = .onSlot number slotCall
  · obtain ⟨number, slotCall, rfl⟩ := hslot
    show Ends (slotNumbered number >>= fun slot => slotCall.run slot) s _
    unfold slotNumbered
    split
    · next h => exact ends_slotCall_calibrates ⟨number, h⟩ slotCall s
    · exact ends_throw (List.forall_mem_nil _)
  · refine ((built_call call).sends s).mono fun made r s' _ hsent e he hcalibrates => ?_
    rcases (hsent e he).allowed with ⟨haims, commands, hcommands, hplain⟩ | ⟨text, htext, -⟩
    · rw [hcommands] at hcalibrates
      obtain ⟨slot, htarget, -⟩ := hplain.eq_of_calibrates hcalibrates
      rw [htarget] at haims
      exact absurd (haims.named.exists_onSlot) hslot
    · rw [htext] at hcalibrates
      obtain ⟨_, ⟨⟩, -⟩ := hcalibrates

theorem ends_probe_calibrates (s : Session σ φ κ) :
    Ends probe s fun made _ s' => s'.host = s.host ∧ ∀ e ∈ made, ¬ e.request.Calibrates := by
  have hprobe : Composed Probed none (probe : Step σ φ κ (Features × Identity)) :=
    composed_probe fun _ h => h
  refine ((confined_probe.ends_same s).and (hprobe.sends trivial s)).mono ?_
  rintro made r s' - ⟨hhost, hsent⟩
  refine ⟨hhost, fun e he hcalibrates => ?_⟩
  rcases hsent e he with ⟨haims, commands, hcommands, hplain⟩ | ⟨text, -, htext⟩
  · rw [hcommands] at hcalibrates
    obtain ⟨slot, htarget, -⟩ := hplain.eq_of_calibrates hcalibrates
    rw [htarget] at haims
    exact haims
  · cases htext

theorem ends_setMode_sound {range : VoltageRange} {features : Features} {identity : Identity}
    (slot : Fin slotCount) (mode : SlotMode) (s : Session σ φ κ)
    (hs : s.host.Sound range features ∧ s.host.identity = identity) :
    Ends (setMode slot mode) s fun made _ s' =>
      (s'.host.Sound range features ∧ s'.host.identity = identity) ∧
        ∀ e ∈ made, e.request.Calibrates → features.calibration = true := by
  obtain ⟨hsound, hidentity⟩ := hs
  refine ((ends_setMode slot mode s).and (ends_setMode_calibrates slot mode s)).mono ?_
  rintro made r s' - ⟨heffect, hsent⟩
  rw [hsound.found] at heffect hsent
  refine ⟨?_, hsent⟩
  split at heffect
  · obtain ⟨hcalibration, hhost⟩ := heffect
    rw [hhost]
    exact ⟨hsound.setMode hcalibration, hidentity⟩
  · rw [heffect]
    exact ⟨hsound, hidentity⟩

/-- Connecting comes to what it found, and to nothing out of bounds. -/
theorem ends_connect_sound [Clock κ] (s : Session σ φ κ) (hs : s.host = {}) :
    Ends connect s fun made _ s' => ∃ features identity probed,
      (s.perform now).2.perform probe = (.ok (features, identity), probed) ∧
        (s'.host.Sound s.config.range features ∧ s'.host.identity = identity) ∧
        ∀ e ∈ made, e.request.Calibrates → features.calibration = true := by
  obtain ⟨features, identity, probed, hprobe, hslot, -⟩ := perform_probe (s.perform now).2
  refine Ends.bind_of_ok rfl ⟨rfl, rfl, rfl⟩ ?_
  refine (ends_probe_calibrates (s.perform now).2).result.bind ?_ ?_
  · rintro made e s₁ - ⟨-, he⟩
    rw [hprobe] at he
    cases he
  rintro made ⟨features', identity'⟩ s₁ - ⟨⟨hhost, hmade⟩, hfound⟩
  rw [hprobe] at hfound
  obtain ⟨rfl, rfl⟩ : features = features' ∧ identity = identity' := by
    cases hfound
    exact ⟨rfl, rfl⟩
  have hmodes (mode : SlotMode) (s₂ : Session σ φ κ)
      (hs₂ : s₂.host.Sound s.config.range features ∧ s₂.host.identity = identity) :
      Ends ((List.finRange slotCount).forM fun slot => setMode slot mode) s₂ fun made' _ s' =>
        (s'.host.Sound s.config.range features ∧ s'.host.identity = identity) ∧
          ∀ e ∈ made' ++ made, e.request.Calibrates → features.calibration = true := by
    refine (ends_forM (fun slot _ s hs => ends_setMode_sound slot mode s hs) s₂ hs₂).mono ?_
    rintro made' r s' - ⟨hsound, hsent⟩
    refine ⟨hsound, List.forall_mem_append.mpr ⟨hsent, fun e he hcalibrates => ?_⟩⟩
    exact absurd hcalibrates (hmade e he)
  refine Ends.bind_of_ok rfl ⟨rfl, rfl, rfl⟩ ?_
  -- Probing never finds the slots' EEPROMs, so no channel gets a power-on value.
  simp only [hslot]
  refine Ends.bind_of_ok rfl (.refl _) ((hmodes _ _ ?_).bind ?_ ?_)
  · refine ⟨?_, rfl⟩
    show HostState.Sound _ _ { s₁.host with features, identity }
    rw [hhost, show (s.perform now).2.host = {} from hs]
    exact .of_found _ identity hslot
  · rintro made' e s' - ⟨hsound, hsent⟩
    exact ⟨features, identity, probed, hprobe, hsound, hsent⟩
  · rintro made' _ s' - ⟨hsound, hsent⟩
    refine ⟨[], ⟨rfl, rfl, rfl⟩, features, identity, probed, hprobe, hsound, hsent⟩

/-- A call keeps to the bounds and to what the instrument can do. -/
theorem ends_call_sound [Clock κ] {features : Features} (call : Call) (s : Session σ φ κ) :
    Ends call.run s fun made _ s' => s.host.Sound s.config.range features →
      s'.host.Sound s.config.range features ∧
        ∀ e ∈ made, e.request.Calibrates → features.calibration = true := by
  refine ((ends_call call s).and (ends_call_calibrates call s)).mono ?_
  rintro made r s' - ⟨heffect, hsent⟩ hs
  rw [hs.found] at hsent
  exact ⟨hs.call heffect, hsent⟩

/-- A rate that was accepted once is not refused later. -/
theorem ends_setVolt_rate [Clock κ] {range : VoltageRange} {features : Features}
    (channel : Channel) (volt : Float) (s : Session σ φ κ)
    (hs : s.host.Sound range features) :
    Ends (setVolt channel volt) s fun _ r _ => r ≠ .error (.badParameter .rampRate) := by
  have hallowed : rateAllowed (s.host.channelState channel).rampRate = true :=
    rateAllowed_iff.mpr ⟨(hs.channels channel).rate_pos, (hs.channels channel).rate_le⟩
  have hends {step : Step σ φ κ Unit}
      (h : Confined (fun _ => True) (fun parameter => parameter ≠ .rampRate) step) :
      Ends step s fun _ r _ => r ≠ .error (.badParameter .rampRate) := by
    refine (h.ends (R := fun _ _ => True) (fun _ => trivial) (fun _ _ => trivial)
      (fun _ _ _ => trivial) s).mono ?_
    rintro made r s' - ⟨-, hrefuses⟩ hr
    exact hrefuses .rampRate hr rfl
  refine Ends.range_bind (Ends.inRange_bind nofun fun code hcode => Ends.channelState_bind ?_)
  split
  · refine hends (confined_ramp (fun _ => trivial) _ _ (fun hrefused => ?_) nofun)
    rw [hallowed] at hrefused
    cases hrefused
  · refine hends ((confined_command channel _).bind fun _ => ?_)
    exact (confined_setMotion (fun _ => trivial) .idle).bind fun _ => .note nofun

end Step

section

variable [Link σ φ] [Clock κ]

theorem sound_performAll {features : Features} (calls : List Call) (s : Session σ φ κ)
    (hs : s.host.Sound s.config.range features) :
    ∃ made, s.Grown (s.performAll calls) made ∧
      (s.performAll calls).host.Sound s.config.range features ∧
      ∀ e ∈ made, e.request.Calibrates → features.calibration = true := by
  obtain ⟨made, hg, hrun⟩ := ends_performAll
    (R := fun s made s' => s.host.Sound s.config.range features →
      s'.host.Sound s.config.range features ∧
        ∀ e ∈ made, e.request.Calibrates → features.calibration = true)
    (fun s hs => ⟨hs, List.forall_mem_nil _⟩) (fun s call => Step.ends_call_sound call s)
    (fun hg h h' hs => by
      obtain ⟨hs', hmade⟩ := h hs
      rw [← hg.config] at hs' ⊢
      obtain ⟨hs'', hmade'⟩ := h' hs'
      exact ⟨hs'', List.forall_mem_append.mpr ⟨hmade', hmade⟩⟩) calls s
  exact ⟨made, hg, hrun hs⟩

/-- After connecting and any calls, what the host remembers is within its bounds, and the
features are those that probing found when connecting. So a power-on value is refused with
nothing sent, a voltage is never refused for the rate it is ramped to at, and nothing but a
caller's own text puts a slot into the mode that needs calibration where there is none. -/
theorem sound_connected_run (link : σ) (clock : κ) (config : Config) (capacity : Nat)
    (calls : List Call) :
    let start : Session σ φ κ := { link, clock, config, capacity }
    let s := (start.perform Step.connect).2.performAll calls
    ∃ features identity probed,
      (start.perform Step.now).2.perform Step.probe = (.ok (features, identity), probed) ∧
      s.host.Sound config.range features ∧
      (∀ channel, s.perform (Call.onChannel channel .powerOnVolt).run =
          (.error (.unsupported .powerOnVolt), s) ∧
        ∀ volt, s.perform (Call.onChannel channel (.setPowerOnVolt volt)).run =
          (.error (.unsupported .powerOnVolt), s)) ∧
      (∀ channel volt, (s.perform (Call.onChannel channel (.setVolt volt)).run).1 ≠
        .error (.badParameter .rampRate)) ∧
      (features.calibration = false →
        ∀ e ∈ s.journal.exchanges, ¬ e.request.Calibrates) := by
  intro start s
  obtain ⟨made, hg, features, identity, probed, hprobe, ⟨hopened, -⟩, hsent⟩ :=
    Step.ends_connect_sound start rfl
  rw [← hg.config] at hopened
  obtain ⟨made', hg', hs, hsent'⟩ := sound_performAll calls _ hopened
  rw [hg.config] at hs
  refine ⟨features, identity, probed, hprobe, hs, fun channel => ?_, fun channel volt => ?_, ?_⟩
  · have hnone := (hs.channels channel).powerOn
    have haddress := Step.perform_powerOnAddress hnone
    exact ⟨Session.perform_bind_error (Session.perform_bind_error haddress),
      fun volt => Session.perform_bind_error (Session.perform_bind_error haddress)⟩
  · have hcall : Step.Ends (Call.onChannel channel (.setVolt volt)).run s
        fun _ r _ => r ≠ .error (.badParameter .rampRate) := by
      refine (Step.ends_setVolt_rate channel volt s hs).bind ?_ ?_
      · exact fun _ e _ _ h he => h (by cases he; rfl)
      · exact fun _ _ _ _ _ => Step.ends_pure nofun
    exact hcall.choose_spec.2
  · intro hcalibration e he hcalibrates
    have hexchanges : s.journal.exchanges = made' ++ made := by
      rw [(hg.trans hg').exchanges]
      exact List.append_nil _
    rw [hexchanges] at he
    have hyes := List.forall_mem_append.mpr ⟨hsent', hsent⟩ e he hcalibrates
    rw [hcalibration] at hyes
    cases hyes

/-! ## The identity

It is the one that was found last, when connecting or when the instrument was identified. -/

omit [Link σ φ] [Clock κ] in
theorem Call.Effect.identity {range : VoltageRange} {host host' : HostState}
    {made : List (Exchange φ)} {call : Call} {result : Except (Error φ) Answer}
    (h : call.Effect range host made result host') (hcall : call ≠ .identify) :
    host'.identity = host.identity := by
  cases call with
  | identify => exact absurd rfl hcall
  | setAll volt => exact (h.sameButMotions (.setAll volt)).identity
  | rampAll target rate => exact (h.sameButMotions (.rampAll target rate)).identity
  | onSlot number call =>
      cases call with
      | setMode mode =>
          simp only [Call.Effect] at h
          split at h
          · obtain ⟨slot, -, -, rfl⟩ := h
            rfl
          · rw [h]
      | _ => rw [show host' = host from h]
  | onChannel channel call =>
      cases call with
      | setVolt v => exact (VoltSet.sameButMotions h).identity
      | ramp target rate wait => exact (Ramped.sameButMotions h).identity
      | settle => exact (Settled.sameButMotions h).identity
      | setRampOnSet enable =>
          rw [h.2]
          rfl
      | setRampRate rate =>
          rw [h.2]
          split <;> rfl
      | _ => rw [show host' = host from h]
  | _ => rw [show host' = host from h]

theorem identity_performAll {calls : List Call} (h : .identify ∉ calls) (s : Session σ φ κ) :
    (s.performAll calls).host.identity = s.host.identity := by
  induction calls generalizing s with
  | nil => rfl
  | cons call calls ih =>
      have hcall : call ≠ .identify := fun heq => h (by rw [heq]; exact List.mem_cons_self)
      obtain ⟨made, -, heffect⟩ := Step.ends_call call s
      exact (ih (fun hmem => h (List.mem_cons_of_mem _ hmem)) _).trans (heffect.identity hcall)

theorem performAll_append (s : Session σ φ κ) (calls calls' : List Call) :
    s.performAll (calls ++ calls') = (s.performAll calls).performAll calls' :=
  List.foldl_append

/-- After the instrument was last identified, its identity is what probing found. -/
theorem identity_performAll_identify {before after : List Call} (h : .identify ∉ after)
    {s probed : Session σ φ κ} {features : Features} {identity : Identity}
    (hprobe : (s.performAll before).perform Step.probe = (.ok (features, identity), probed)) :
    (s.performAll (before ++ .identify :: after)).host.identity = identity := by
  rw [performAll_append]
  refine (identity_performAll h _).trans ?_
  have hidentify : (s.performAll before).perform Step.identify =
      (.ok identity, { probed with host := { probed.host with identity } }) := by
    unfold Step.identify
    rw [Session.perform_bind, hprobe]
    rfl
  show ((s.performAll before).perform (Step.identify >>= fun found =>
    pure (Answer.identity found))).2.host.identity = identity
  rw [Session.perform_bind, hidentify]
  rfl

omit [Link σ φ] [Clock κ] in
theorem exists_last_of_mem {a : α} {items : List α} (h : a ∈ items) :
    ∃ before after, items = before ++ a :: after ∧ a ∉ after := by
  obtain ⟨later, earlier, heq, hnot⟩ := List.eq_append_cons_of_mem (List.mem_reverse.mpr h)
  refine ⟨earlier.reverse, later.reverse, ?_, fun hmem => hnot (List.mem_reverse.mp hmem)⟩
  rw [← List.reverse_reverse items, heq]
  simp

/-- An instrument that had no EEPROM when connecting has an identity all the same just where
it was identified later on, and was then found to have one. -/
theorem identity_without_eeprom_iff (link : σ) (clock : κ) (config : Config) (capacity : Nat)
    (calls : List Call) :
    let start : Session σ φ κ := { link, clock, config, capacity }
    let opened := (start.perform Step.connect).2
    let s := opened.performAll calls
    s.host.features = opened.host.features ∧
      (s.host.features.eeprom = false ∧ s.host.identity ≠ {} ↔
        opened.host.features.eeprom = false ∧ ∃ before after features identity probed,
          calls = before ++ .identify :: after ∧ .identify ∉ after ∧
          (opened.performAll before).perform Step.probe = (.ok (features, identity), probed) ∧
          features.eeprom = true ∧ identity ≠ {}) := by
  intro start opened s
  obtain ⟨_, hg, features, identity, probed, hprobe, ⟨hopened, hidentity⟩, -⟩ :=
    Step.ends_connect_sound start rfl
  have hsame : s.host.features = opened.host.features := by
    rw [← hg.config] at hopened
    obtain ⟨_, -, hs, -⟩ := sound_performAll calls _ hopened
    exact hs.found.trans hopened.found.symm
  refine ⟨hsame, ?_⟩
  rw [hsame]
  refine and_congr_right fun heeprom => ⟨fun hidentified => ?_, ?_⟩
  · by_cases hcalls : .identify ∈ calls
    · obtain ⟨before, after, rfl, hafter⟩ := exists_last_of_mem hcalls
      obtain ⟨features', identity', probed', hprobe', -, hnone⟩ :=
        Step.perform_probe (opened.performAll before)
      have hfound : identity' ≠ {} := by
        rw [← identity_performAll_identify hafter hprobe']
        exact hidentified
      refine ⟨before, after, features', identity', probed', rfl, hafter, hprobe', ?_, hfound⟩
      exact Bool.of_not_eq_false fun hno => hfound (hnone hno)
    · have hkept : s.host.identity = identity := (identity_performAll hcalls opened).trans hidentity
      obtain ⟨_, _, _, hprobe', -, hnone⟩ := Step.perform_probe (start.perform Step.now).2
      rw [hprobe] at hprobe'
      cases hprobe'
      refine absurd (hkept.trans (hnone ?_)) hidentified
      rw [← hopened.found]
      exact heeprom
  · rintro ⟨before, after, features', identity', probed', rfl, hafter, hprobe', -, hfound⟩
    rw [show s.host.identity = identity' from identity_performAll_identify hafter hprobe']
    exact hfound

end

/-- A plain instrument that is found to have an EEPROM when it is identified later on. -/
def refitted : Session ScriptedLink FaultKind SteppingClock :=
  connecting ["A1107296256!", "p21930!", "B0!", "A6!", "e0!", "?", "A1107296266!", "p139!",
    "A1107296264!", "p14081!"]

theorem identity_without_eeprom_refitted :
    (refitted.perform Step.connect).1.toOption = some () ∧
      ((refitted.perform Step.connect).2.performAll [.identify]).host.features.eeprom = false ∧
      ((refitted.perform Step.connect).2.performAll [.identify]).host.identity ≠ {} := by
  have hconnects : (refitted.perform Step.connect).1.toOption = some () ∧
      (refitted.perform Step.connect).2.host.features.eeprom = false := by
    decide +kernel
  have hfound : (((refitted.perform Step.connect).2.performAll []).perform
      Step.probe).1.toOption =
        some ({ eeprom := true }, { serialNumber := 14081, hardwareVersion := 139 }) := by
    decide +kernel
  obtain ⟨features, identity, probed, hprobe, -⟩ :=
    Step.perform_probe ((refitted.perform Step.connect).2.performAll [])
  rw [hprobe] at hfound
  obtain ⟨rfl, rfl⟩ := Prod.mk.inj (Option.some.inj hfound)
  obtain ⟨-, hiff⟩ := identity_without_eeprom_iff refitted.link refitted.clock {} 64 [.identify]
  rw [show ({ link := refitted.link, clock := refitted.clock } : Session ScriptedLink FaultKind
    SteppingClock) = refitted from rfl] at hiff
  refine ⟨hconnects.1, hiff.mpr ⟨hconnects.2, [], [], _, _, probed, rfl, List.not_mem_nil, hprobe,
    rfl, by decide⟩⟩

end DacRack
