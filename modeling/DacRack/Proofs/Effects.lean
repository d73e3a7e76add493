import DacRack.Proofs.Probes
import DacRack.Proofs.Ramps

/-!
# What the host remembers of a call

The host's memory follows what the instrument acknowledged. Most calls leave it as it is,
whether they succeed or not. The others change one thing each, and only once the reply
that stands for it was accepted: the mode of a slot, how a channel is to be ramped, the
identity, or what is known of a channel's motion. `Call.Effect` says which, call by call.

Motion is the one thing that may change in a call that fails. A channel counts as ramping
from when its slope was accepted (`Armed`), so a ramp that is waited for and not seen to
end stays so (`Ramped`). And a call on all channels takes one after the other up to the
first that fails, which leaves those before it as they came to be (`InTurn`).
-/

namespace DacRack

variable {σ φ κ α β : Type}

namespace HostState

variable (host : HostState) (channel : Channel) (motion : Motion)

@[simp]
theorem channelState_setMotion_self :
    (host.setMotion channel motion).channelState channel =
      { host.channelState channel with motion } :=
  channelState_updateChannel_self ..

theorem channelState_setMotion_of_ne {other : Channel} (h : other ≠ channel) :
    (host.setMotion channel motion).channelState other = host.channelState other :=
  channelState_updateChannel_of_ne _ _ h

/-- Of two things that are known of a motion the later one counts. -/
@[simp]
theorem setMotion_setMotion (motion' : Motion) :
    (host.setMotion channel motion).setMotion channel motion' =
      host.setMotion channel motion' := by
  simp [setMotion, updateChannel, channelState]

end HostState

theorem VoltageRange.contains_of_code {range : VoltageRange} {volt : Float} {code : UInt16}
    (h : range.code volt = .ok code) : range.contains volt = true := by
  unfold VoltageRange.code at h
  by_contra hout
  rw [if_neg hout] at h
  cases h

/-! ## The effects

They are relations between the memory before and after, with what went out to the instrument
in between and whether the call succeeded. -/

/-- A slope went out to the channel and was accepted. -/
def Armed (channel : Channel) (made : List (Exchange φ)) : Prop :=
  ∃ e ∈ made, e.target = .channel channel ∧ (∃ slope, e.request = .commands [.slope slope]) ∧
    Accepted e.outcome

theorem Still.not_armed {made : List (Exchange φ)} (h : Still made) (channel : Channel) :
    ¬ Armed channel made := by
  rintro ⟨e, he, -, ⟨slope, hslope⟩, -⟩
  exact h e he slope hslope

/-- One slope that went out decides, whatever else did. -/
theorem armed_iff {channel : Channel} {slope : Int64} {outcome : Except (Error φ) String}
    {later earlier : List (Exchange φ)} (hlater : Still later) (hearlier : Still earlier) :
    Armed channel
        (later ++ ⟨.channel channel, .commands [.slope slope], outcome⟩ :: earlier) ↔
      Accepted outcome := by
  constructor
  · rintro ⟨e, he, -, ⟨slope', hslope⟩, haccepted⟩
    rcases List.mem_append.mp he with he | he
    · exact absurd hslope (hlater e he slope')
    · rcases List.mem_cons.mp he with rfl | he
      · exact haccepted
      · exact absurd hslope (hearlier e he slope')
  · intro haccepted
    exact ⟨_, List.mem_append_right _ List.mem_cons_self, rfl, ⟨slope, rfl⟩, haccepted⟩

/-- What a ramp makes of the host's memory, by the transactions it made and by whether it
succeeded. -/
inductive Ramped (range : VoltageRange) (channel : Channel) (target : Float) (wait : Bool)
    (host : HostState) (made : List (Exchange φ)) : Bool → HostState → Prop
  | unarmed (ok : Bool) (h : ¬ Armed channel made) :
      Ramped range channel target wait host made ok host
  | armed (h : Armed channel made) (hrange : range.contains target = true)
      (hwait : wait = false) :
      Ramped range channel target wait host made true (host.setMotion channel (.ramping target))
  | ended (h : Armed channel made) (hrange : range.contains target = true) (hwait : wait = true) :
      Ramped range channel target wait host made true (host.setMotion channel .idle)
  /-- It was not seen to end. -/
  | unended (h : Armed channel made) (hrange : range.contains target = true)
      (hwait : wait = true) :
      Ramped range channel target wait host made false
        (host.setMotion channel (.ramping target))

/-- What waiting for a ramp makes of it. -/
def Settled (channel : Channel) (host : HostState) (ok : Bool) (host' : HostState) : Prop :=
  host' = if ok then host.setMotion channel .idle else host

theorem Settled.eq_of_ok {channel : Channel} {host host' : HostState}
    (h : Settled channel host true host') : host' = host.setMotion channel .idle := h

theorem Settled.eq_of_error {channel : Channel} {host host' : HostState}
    (h : Settled channel host false host') : host' = host := h

/-- What setting a voltage makes of it: as the channel is set up, what a ramp does or what
is known of a channel that was set at once. -/
def VoltSet (range : VoltageRange) (channel : Channel) (volt : Float) (host : HostState)
    (made : List (Exchange φ)) (ok : Bool) (host' : HostState) : Prop :=
  match range.code volt with
  | .error _ => ok = false ∧ host' = host
  | .ok code =>
    if (host.channelState channel).rampOnSet then
      Ramped range channel (range.volt code.toUInt32) true host made ok host'
    else Settled channel host ok host'

/-- One channel after the other, up to the first that fails. -/
inductive InTurn
    (effect : Channel → HostState → List (Exchange φ) → Bool → HostState → Prop) :
    List Channel → HostState → List (Exchange φ) → Bool → HostState → Prop
  | done (host : HostState) : InTurn effect [] host [] true host
  | failed {channel : Channel} {host host' : HostState} {made : List (Exchange φ)}
      (h : effect channel host made false host') (rest : List Channel) :
      InTurn effect (channel :: rest) host made false host'
  | next {channel : Channel} {rest : List Channel} {host host' host'' : HostState}
      {made made' : List (Exchange φ)} {ok : Bool} (h : effect channel host made true host')
      (hrest : InTurn effect rest host' made' ok host'') :
      InTurn effect (channel :: rest) host (made' ++ made) ok host''

/-- What ramping all channels makes of it: they are all started, and then waited for. -/
inductive AllRamped (range : VoltageRange) (target : Float) (host : HostState) :
    List (Exchange φ) → Bool → HostState → Prop
  | unstarted {made : List (Exchange φ)} {host' : HostState}
      (h : InTurn (fun channel => Ramped range channel target false) Channel.all host made false
        host') : AllRamped range target host made false host'
  | started {starting waiting : List (Exchange φ)} {host' host'' : HostState} {ok : Bool}
      (h : InTurn (fun channel => Ramped range channel target false) Channel.all host starting
        true host')
      (hwait : InTurn (fun channel host _ => Settled channel host) Channel.all host' waiting ok
        host'') : AllRamped range target host (waiting ++ starting) ok host''

/-- What an operation on a channel makes of the host's memory. -/
def ChannelCall.Effect (range : VoltageRange) (channel : Channel) (host : HostState)
    (made : List (Exchange φ)) (ok : Bool) (host' : HostState) : ChannelCall → Prop
  | .setVolt v => VoltSet range channel v host made ok host'
  | .ramp target _ wait => Ramped range channel target wait host made ok host'
  | .settle => Settled channel host ok host'
  | .setRampOnSet enable => ok = true ∧
      host' = host.updateChannel channel fun state => { state with rampOnSet := enable }
  | .setRampRate rate => ok = rateAllowed rate ∧
      host' = if ok then host.updateChannel channel fun state => { state with rampRate := rate }
        else host
  | _ => host' = host

/-- What a call makes of the host's memory, by the transactions it made and by its result. -/
def Call.Effect (range : VoltageRange) (host : HostState) (made : List (Exchange φ))
    (result : Except (Error φ) Answer) (host' : HostState) : Call → Prop
  | .identify => ∃ identity, result = .ok (.identity identity) ∧ host' = { host with identity }
  | .setAll volt => InTurn (fun channel => VoltSet range channel volt) Channel.all host made
      result.isOk host'
  | .rampAll target _ => AllRamped range target host made result.isOk host'
  | .onSlot number (.setMode mode) =>
      if result.isOk then ∃ slot : Fin slotCount, slot = number ∧
        (mode.needsCalibration → host.features.calibration) ∧ host' = host.setMode slot mode
      else host' = host
  | .onChannel channel call => call.Effect range channel host made result.isOk host'
  | _ => host' = host

/-! ## What becomes of a failed call

A call on one slot or channel writes to the host's memory last of all, but for a ramp, which
counts from when it starts. So there are two ways to fail and leave a trace. -/

/-- The two differ in nothing but what is known of the channels' motions. -/
structure HostState.SameButMotions (host host' : HostState) : Prop where
  features : host'.features = host.features
  identity : host'.identity = host.identity
  modes : host'.modes = host.modes
  channels : ∀ channel, ∃ motion,
    host'.channelState channel = { host.channelState channel with motion }

/-- The calls on all channels. -/
inductive Call.OnAll : Call → Prop
  | setAll (volt : Float) : OnAll (.setAll volt)
  | rampAll (target rate : Float) : OnAll (.rampAll target rate)

/-- The call starts a ramp of the channel to the target and waits for it. -/
inductive Call.Awaits (range : VoltageRange) (host : HostState) : Call → Channel → Float → Prop
  | ramp (channel : Channel) (target rate : Float) :
      Awaits range host (.onChannel channel (.ramp target rate true)) channel target
  | setVolt {channel : Channel} {volt : Float} {code : UInt16} (hcode : range.code volt = .ok code)
      (hramps : (host.channelState channel).rampOnSet = true) :
      Awaits range host (.onChannel channel (.setVolt volt)) channel (range.volt code.toUInt32)

namespace HostState.SameButMotions

variable {host host' host'' : HostState}

theorem refl (host : HostState) : host.SameButMotions host :=
  ⟨rfl, rfl, rfl, fun _ => ⟨_, rfl⟩⟩

theorem trans (h : host.SameButMotions host') (h' : host'.SameButMotions host'') :
    host.SameButMotions host'' := by
  refine ⟨h'.features.trans h.features, h'.identity.trans h.identity, h'.modes.trans h.modes, ?_⟩
  intro channel
  obtain ⟨motion, hmotion⟩ := h.channels channel
  obtain ⟨motion', hmotion'⟩ := h'.channels channel
  exact ⟨motion', by rw [hmotion', hmotion]⟩

theorem setMotion (host : HostState) (channel : Channel) (motion : Motion) :
    host.SameButMotions (host.setMotion channel motion) := by
  refine ⟨rfl, rfl, rfl, fun other => ?_⟩
  by_cases h : other = channel
  · rw [h]
    exact ⟨motion, channelState_setMotion_self host channel motion⟩
  · exact ⟨_, channelState_setMotion_of_ne host channel motion h⟩

end HostState.SameButMotions

section

variable {range : VoltageRange} {channel : Channel} {target volt : Float} {wait ok : Bool}
  {host host' : HostState} {made : List (Exchange φ)}

theorem Ramped.sameButMotions (h : Ramped range channel target wait host made ok host') :
    host.SameButMotions host' := by
  cases h with
  | unarmed => exact .refl host
  | armed | ended | unended => exact .setMotion host channel _

theorem Settled.sameButMotions (h : Settled channel host ok host') :
    host.SameButMotions host' := by
  cases ok with
  | true =>
      rw [h.eq_of_ok]
      exact .setMotion host channel .idle
  | false =>
      rw [h.eq_of_error]
      exact .refl host

theorem VoltSet.sameButMotions (h : VoltSet range channel volt host made ok host') :
    host.SameButMotions host' := by
  unfold VoltSet at h
  split at h
  · rw [h.2]
    exact .refl host
  · split at h
    · exact h.sameButMotions
    · exact h.sameButMotions

/-- What every channel keeps they all keep. -/
theorem InTurn.preserves
    {effect : Channel → HostState → List (Exchange φ) → Bool → HostState → Prop}
    {P : HostState → Prop} (heffect : ∀ {channel host made ok host'},
      effect channel host made ok host' → P host → P host') {channels : List Channel}
    (h : InTurn effect channels host made ok host') (hP : P host) : P host' := by
  induction h with
  | done host => exact hP
  | failed h rest => exact heffect h hP
  | next h _ ih => exact ih (heffect h hP)

theorem AllRamped.preserves {P : HostState → Prop}
    (hramp : ∀ {channel host ok host'} {made : List (Exchange φ)},
      Ramped range channel target false host made ok host' → P host → P host')
    (hsettle : ∀ {channel host ok host'}, Settled channel host ok host' → P host → P host')
    (h : AllRamped range target host made ok host') (hP : P host) : P host' := by
  cases h with
  | unstarted h => exact h.preserves (fun heffect => hramp heffect) hP
  | started h hwait =>
      have hstarted := h.preserves (fun heffect => hramp heffect) hP
      exact hwait.preserves (fun heffect => hsettle heffect) hstarted

theorem Call.Effect.sameButMotions {call : Call} {result : Except (Error φ) Answer}
    (hcall : call.OnAll) (h : call.Effect range host made result host') :
    host.SameButMotions host' := by
  cases hcall with
  | setAll volt =>
      refine InTurn.preserves (fun heffect hP => ?_) h (.refl host)
      exact hP.trans heffect.sameButMotions
  | rampAll target rate =>
      refine AllRamped.preserves (fun heffect hP => ?_) (fun heffect hP => ?_) h (.refl host)
      · exact hP.trans heffect.sameButMotions
      · exact hP.trans heffect.sameButMotions

/-- A ramp that was accepted and waited for is what the wait made of it. -/
theorem Ramped.of_settled (harmed : Armed channel made) (hrange : range.contains target = true)
    (hwait : wait = true)
    (h : Settled channel (host.setMotion channel (.ramping target)) ok host') :
    Ramped range channel target wait host made ok host' := by
  cases ok with
  | true =>
      rw [h.eq_of_ok, HostState.setMotion_setMotion]
      exact .ended harmed hrange hwait
  | false =>
      rw [h.eq_of_error]
      exact .unended harmed hrange hwait

/-- A ramp that failed was not accepted, or it was waited for. -/
theorem Ramped.of_error (h : Ramped range channel target wait host made false host') :
    host' = host ∨ wait = true ∧ Armed channel made ∧
      host' = host.setMotion channel (.ramping target) := by
  cases h with
  | unarmed => exact .inl rfl
  | unended harmed _ hwait => exact .inr ⟨hwait, harmed, rfl⟩

theorem VoltSet.of_error (h : VoltSet range channel volt host made false host') :
    host' = host ∨ ∃ code, range.code volt = .ok code ∧
      (host.channelState channel).rampOnSet = true ∧ Armed channel made ∧
      host' = host.setMotion channel (.ramping (range.volt code.toUInt32)) := by
  unfold VoltSet at h
  split at h
  · exact .inl h.2
  · next code hcode =>
      split at h
      · next hramps =>
          rcases h.of_error with hsame | ⟨-, harmed, hramping⟩
          · exact .inl hsame
          · exact .inr ⟨code, hcode, hramps, harmed, hramping⟩
      · exact .inl h.eq_of_error

theorem Call.Effect.of_error {call : Call} {e : Error φ}
    (h : call.Effect range host made (.error e) host') :
    host' = host ∨ call.OnAll ∨ ∃ channel target, call.Awaits range host channel target ∧
      Armed channel made ∧ host' = host.setMotion channel (.ramping target) := by
  cases call with
  | identify =>
      obtain ⟨_, he, -⟩ := h
      cases he
  | setAll volt => exact .inr (.inl (.setAll volt))
  | rampAll target rate => exact .inr (.inl (.rampAll target rate))
  | onSlot number call => cases call <;> exact .inl h
  | onChannel channel call =>
      cases call with
      | setVolt volt =>
          rcases VoltSet.of_error h with hsame | ⟨code, hcode, hramps, harmed, hramping⟩
          · exact .inl hsame
          · exact .inr (.inr ⟨channel, _, .setVolt hcode hramps, harmed, hramping⟩)
      | ramp target rate wait =>
          rcases Ramped.of_error h with hsame | ⟨rfl, harmed, hramping⟩
          · exact .inl hsame
          · exact .inr (.inr ⟨channel, target, .ramp channel target rate, harmed, hramping⟩)
      | settle => exact .inl (Settled.eq_of_error h)
      | setRampOnSet enable => cases h.1
      | setRampRate rate => exact .inl h.2
      | _ => exact .inl h
  | _ => exact .inl h

end

namespace Step

/-- A call answers with what its operation gave. -/
theorem Ends.answer {step : Step σ φ κ α} {answer : α → β} {s : Session σ φ κ}
    {P : List (Exchange φ) → Bool → HostState → Prop}
    (h : Ends step s fun made r s' => P made r.isOk s'.host) :
    Ends (step >>= fun a => pure (answer a)) s fun made r s' => P made r.isOk s'.host :=
  h.bind (fun _ _ _ _ h => h) fun _ _ _ _ h => ends_pure h

theorem ends_inTurn
    {effect : Channel → HostState → List (Exchange φ) → Bool → HostState → Prop}
    {step : Channel → Step σ φ κ Unit} {config : Config}
    (hstep : ∀ channel (s : Session σ φ κ), s.config = config → Ends (step channel) s
      fun made r s' => effect channel s.host made r.isOk s'.host)
    (channels : List Channel) (s : Session σ φ κ) (hs : s.config = config) :
    Ends (channels.forM step) s
      fun made r s' => InTurn effect channels s.host made r.isOk s'.host := by
  induction channels generalizing s with
  | nil => exact ends_pure (.done s.host)
  | cons channel rest ih =>
      refine (hstep channel s hs).bind (fun made e s' _ h => .failed h rest) ?_
      intro made _ s' hg h
      exact (ih s' (hg.config.trans hs)).mono fun made' r s'' _ hrest => .next h hrest

variable [Link σ φ]

/-! ## The operations

Where an operation only asks and answers, that it is `Confined` to no changes is all there is
to show. The others are followed up to the one place where they write. -/

section

variable [Clock κ]

/-- Waits for a channel's ramp to end, and takes it that the channel is idle then. -/
def rest (wait : Wait) (channel : Channel) : Step σ φ κ Unit := do
  awaitRest channel wait
  setMotion channel .idle

theorem ends_rest (wait : Wait) (channel : Channel) (s : Session σ φ κ) :
    Ends (rest wait channel) s fun _ r s' => Settled channel s.host r.isOk s'.host := by
  refine ((confined_awaitRest channel wait).ends_same s).bind (fun _ _ _ _ h => h) ?_
  intro made _ s' _ hhost
  refine ⟨[], ⟨rfl, rfl, rfl⟩, ?_⟩
  rw [← hhost]
  rfl

theorem ends_settled (channel : Channel) (s : Session σ φ κ) :
    Ends (settle channel) s fun _ r s' => Settled channel s.host r.isOk s'.host := by
  refine (confined_startWait.ends_same s).bind (fun _ _ _ _ h => h) ?_
  intro made wait s' _ hhost
  rw [← hhost]
  exact ends_rest wait channel s'

theorem ends_ramped (channel : Channel) (target rate : Float) (wait : Bool)
    (s : Session σ φ κ) : Ends (ramp channel target rate wait) s fun made r s' =>
      Ramped s.config.range channel target wait s.host made r.isOk s'.host := by
  refine Ends.ensure_bind (.unarmed _ (still_nil.not_armed channel)) fun _ => ?_
  refine Ends.range_bind (Ends.inRange_bind
    (fun _ => .unarmed _ (still_nil.not_armed channel)) fun code hcode => ?_)
  have hrange := VoltageRange.contains_of_code hcode
  refine ((confined_volt channel).leavesHost.ends (ends_volt channel s)).bind ?_ ?_
  · rintro reading e s₁ - ⟨⟨hreading, -⟩, hhost⟩
    rw [hhost]
    exact .unarmed _ (hreading.not_armed channel)
  rintro reading current s₁ - ⟨⟨hreading, -⟩, hhost₁⟩
  split
  · refine ends_pure ?_
    rw [hhost₁]
    exact .unarmed _ (hreading.not_armed channel)
  refine (ends_startRamp channel current target rate s₁).bind ?_ ?_
  · intro made e s₂ _ hstart
    rcases hstart with ⟨hmade, -, hhost₂⟩ |
      ⟨period, plan, outcome, earlier, -, hearlier, rfl, ⟨-, he, -⟩ | ⟨hrefused, -, hhost₂⟩⟩
    · rw [hhost₂, hhost₁]
      exact .unarmed _ ((hmade.append hreading).not_armed channel)
    · cases he
    · rw [hhost₂, hhost₁]
      refine .unarmed _ fun harmed => hrefused ?_
      exact (armed_iff still_nil (hearlier.append hreading)).mp harmed
  · intro made _ s₂ _ hstart
    rcases hstart with ⟨-, ⟨e, he⟩, -⟩ |
      ⟨period, plan, outcome, earlier, -, hearlier, rfl, ⟨haccepted, -, hhost₂⟩ | ⟨-, ⟨e, he⟩, -⟩⟩
    · cases he
    · rw [hhost₁] at hhost₂
      have harmed {later : List (Exchange φ)} (hlater : Still later) :
          Armed channel (later ++ ⟨.channel channel, .commands [.slope plan.slope], outcome⟩ ::
            earlier ++ reading) := by
        rw [List.append_assoc]
        exact (armed_iff hlater (hearlier.append hreading)).mpr haccepted
      split
      · next hwait =>
          refine ((still_settle channel s₂).and (ends_settled channel s₂)).mono ?_
          rintro later r s₃ - ⟨hlater, hsettled⟩
          rw [hhost₂] at hsettled
          exact .of_settled (harmed hlater) hrange hwait hsettled
      · next hwait =>
          refine ends_pure ?_
          rw [hhost₂]
          exact .armed (harmed still_nil) hrange (eq_false_of_ne_true hwait)
    · cases he

theorem ends_voltSet (channel : Channel) (volt : Float) (s : Session σ φ κ) :
    Ends (setVolt channel volt) s fun made r s' =>
      VoltSet s.config.range channel volt s.host made r.isOk s'.host := by
  unfold VoltSet
  refine Ends.range_bind ?_
  cases s.config.range.code volt with
  | error e => exact ends_throw ⟨rfl, rfl⟩
  | ok code =>
      show Ends (channelState channel >>= fun state =>
        if state.rampOnSet then ramp channel (s.config.range.volt code.toUInt32) state.rampRate true
        else setCode channel code) s _
      refine Ends.channelState_bind ?_
      by_cases hramps : (s.host.channelState channel).rampOnSet = true
      · rw [if_pos hramps]
        simp only [if_pos hramps]
        exact ends_ramped channel _ _ true s
      · rw [if_neg hramps]
        simp only [if_neg hramps]
        refine ((confined_command channel _).ends_same s).bind (fun _ _ _ _ h => h) ?_
        intro made _ s' _ hhost
        refine ⟨[], ⟨rfl, rfl, rfl⟩, ?_⟩
        rw [← hhost]
        rfl

theorem ends_rests (wait : Wait) (s : Session σ φ κ) :
    Ends (onAllChannels (rest wait)) s fun made r s' =>
      InTurn (fun channel host _ => Settled channel host) Channel.all s.host made r.isOk s'.host :=
  ends_inTurn (fun channel s' _ => ends_rest wait channel s') Channel.all s rfl

theorem ends_allRamped (target rate : Float) (s : Session σ φ κ) :
    Ends (rampAll target rate) s fun made r s' =>
      AllRamped s.config.range target s.host made r.isOk s'.host := by
  have hramp (channel : Channel) (s' : Session σ φ κ) (hs' : s'.config = s.config) :
      Ends (ramp channel target rate false) s' fun made r s'' =>
        Ramped s.config.range channel target false s'.host made r.isOk s''.host := by
    rw [← hs']
    exact ends_ramped channel target rate false s'
  refine (ends_inTurn hramp Channel.all s rfl).bind (fun _ _ _ _ h => .unstarted h) ?_
  intro starting _ s₁ _ hstarted
  refine Ends.bind_of_ok rfl ⟨rfl, rfl, rfl⟩ (Ends.bind_of_ok rfl ⟨rfl, rfl, rfl⟩ ?_)
  exact (ends_rests _ _).mono fun waiting r s' _ hwaited => .started hstarted hwaited

theorem ends_setAll (volt : Float) (s : Session σ φ κ) :
    Ends (setAll volt) s fun made r s' =>
      InTurn (fun channel => VoltSet s.config.range channel volt) Channel.all s.host made r.isOk
        s'.host := by
  have hvolt (channel : Channel) (s' : Session σ φ κ) (hs' : s'.config = s.config) :
      Ends (setVolt channel volt) s' fun made r s'' =>
        VoltSet s.config.range channel volt s'.host made r.isOk s''.host := by
    rw [← hs']
    exact ends_voltSet channel volt s'
  exact ends_inTurn hvolt Channel.all s rfl

end

theorem ends_setMode (slot : Fin slotCount) (mode : SlotMode) (s : Session σ φ κ) :
    Ends (setMode slot mode) s fun _ r s' =>
      if r.isOk then (mode.needsCalibration = true → s.host.features.calibration = true) ∧
        s'.host = s.host.setMode slot mode
      else s'.host = s.host := by
  refine Ends.bind_of_ok rfl (.refl s) (Ends.ensure_bind rfl fun hallowed => ?_)
  have hcalibration : mode.needsCalibration = true → s.host.features.calibration = true := by
    intro hneeds
    simpa [hneeds] using hallowed
  have hsend : Confined (fun _ => False) (fun _ => True)
      (transactSlot slot [.setSlotMode mode.number] : Step σ φ κ String) :=
    (confined_selectSlot _).bind fun _ => confined_transact _ _
  refine (hsend.ends_same s).bind (fun _ _ _ _ h => h) ?_
  intro made reply s₁ _ hhost₁
  refine ((confined_understand _).ends_same s₁).bind (fun _ _ _ _ h => h.trans hhost₁) ?_
  intro made' payload s₂ _ hhost₂
  refine ⟨[], ⟨rfl, rfl, rfl⟩, hcalibration, ?_⟩
  rw [← hhost₁, ← hhost₂]
  rfl

theorem ends_identify (s : Session σ φ κ) :
    Ends identify s fun _ r s' => ∃ identity, r = .ok identity ∧
      s'.host = { s.host with identity } := by
  obtain ⟨features, identity, s', hprobe, -⟩ := perform_probe s
  refine (confined_probe.ends_same s).result.bind ?_ ?_
  · rintro made e s₁ - ⟨-, he⟩
    rw [hprobe] at he
    cases he
  · rintro made ⟨features, identity⟩ s₁ - ⟨hhost, -⟩
    refine ⟨[], ⟨rfl, rfl, rfl⟩, identity, rfl, ?_⟩
    rw [← hhost]
    rfl

theorem ends_slotCall (slot : Fin slotCount) (call : SlotCall) (s : Session σ φ κ) :
    Ends (call.run slot) s fun made r s' =>
      (Call.onSlot slot call).Effect s.config.range s.host made r s'.host := by
  cases call with
  | mode => exact (confined_host.bind fun _ => confined_pure _).ends_same s
  | setMode mode =>
      refine (ends_setMode slot mode s).bind (fun _ _ _ _ h => h) ?_
      rintro made _ s' - ⟨hcalibration, hhost⟩
      exact ends_pure ⟨slot, rfl, hcalibration, hhost⟩
  | queryMode => exact ((confined_queryMode slot).bind fun _ => confined_pure _).ends_same s
  | channel number =>
      exact ((confined_require fun _ _ _ => trivial).bind fun _ => confined_pure _).ends_same s
  | ask text => exact ((confined_askSlot slot text).bind fun _ => confined_pure _).ends_same s

variable [Clock κ]

theorem ends_channelCall (channel : Channel) (call : ChannelCall) (s : Session σ φ κ) :
    Ends (call.run channel) s fun made r s' =>
      call.Effect s.config.range channel s.host made r.isOk s'.host := by
  cases call with
  | volt => exact ((confined_volt channel).bind fun _ => confined_pure _).ends_same s
  | setVolt v => exact (ends_voltSet channel v s).answer
  | ramp target rate wait => exact (ends_ramped channel target rate wait s).answer
  | settle => exact (ends_settled channel s).answer
  | setRampOnSet enable => exact ⟨[], ⟨rfl, rfl, rfl⟩, rfl, rfl⟩
  | setRampRate rate =>
      refine Ends.answer (P := fun _ ok host' => ok = rateAllowed rate ∧ host' = if ok then
        s.host.updateChannel channel fun state => { state with rampRate := rate } else s.host) ?_
      unfold setRampRate
      cases rateAllowed rate with
      | true => exact ⟨[], ⟨rfl, rfl, rfl⟩, rfl, rfl⟩
      | false => exact ⟨[], ⟨rfl, rfl, rfl⟩, rfl, rfl⟩
  | lowerLimit => exact ((confined_readVolt channel _).bind fun _ => confined_pure _).ends_same s
  | upperLimit => exact ((confined_readVolt channel _).bind fun _ => confined_pure _).ends_same s
  | setLowerLimit v =>
      exact ((confined_setLowerLimit channel v).bind fun _ => confined_pure _).ends_same s
  | setUpperLimit v =>
      exact ((confined_setUpperLimit channel v).bind fun _ => confined_pure _).ends_same s
  | updatePeriod =>
      exact ((confined_updatePeriod channel).bind fun _ => confined_pure _).ends_same s
  | setUpdatePeriod period =>
      exact ((confined_setUpdatePeriod channel period trivial).bind fun _ =>
        confined_pure _).ends_same s
  | slope => exact ((confined_slope channel).bind fun _ => confined_pure _).ends_same s
  | setSlope n =>
      exact ((confined_setSlope channel n trivial).bind fun _ => confined_pure _).ends_same s
  | powerOnVolt => exact ((confined_powerOnVolt channel).bind fun _ => confined_pure _).ends_same s
  | setPowerOnVolt v =>
      exact ((confined_setPowerOnVolt channel v).bind fun _ => confined_pure _).ends_same s
  | ask text => exact ((confined_askChannel channel text).bind fun _ => confined_pure _).ends_same s

theorem ends_call (call : Call) (s : Session σ φ κ) :
    Ends call.run s fun made r s' => call.Effect s.config.range s.host made r s'.host := by
  cases call with
  | identify =>
      refine (ends_identify s).bind ?_ ?_
      · rintro made e s' - ⟨_, he, -⟩
        cases he
      · rintro made _ s' - ⟨identity, ⟨⟩, hhost⟩
        exact ends_pure ⟨_, rfl, hhost⟩
  | setAll volt => exact (ends_setAll volt s).answer
  | rampAll target rate => exact (ends_allRamped target rate s).answer
  | read address words bank =>
      exact ((confined_read bank fun _ => trivial).bind fun _ => confined_pure _).ends_same s
  | write address value bank =>
      exact ((confined_write address value bank).bind fun _ => confined_pure _).ends_same s
  | ask text => exact (Confined.bind (.exchange _ _) fun _ => confined_pure _).ends_same s
  | onSlot number call =>
      show Ends (slotNumbered number >>= fun slot => call.run slot) s _
      unfold slotNumbered
      split
      · next h => exact ends_slotCall ⟨number, h⟩ call s
      · refine ends_throw ?_
        cases call <;> rfl
  | onChannel channel call => exact ends_channelCall channel call s

end Step

/-- What a call makes of the host's memory, and of a failed one in particular. Where it is
not as it was before, the call was on all channels, or a ramp that was accepted was waited
for in vain. -/
theorem effect_of_call [Link σ φ] [Clock κ] (s : Session σ φ κ) (call : Call) :
    let result := (s.perform call.run).1
    let s' := (s.perform call.run).2
    ∃ made, s'.journal.exchanges = made ++ s.journal.exchanges ∧
      call.Effect s.config.range s.host made result s'.host ∧
      (call.OnAll → s.host.SameButMotions s'.host) ∧
      ∀ e, result = .error e → s'.host = s.host ∨ call.OnAll ∨
        ∃ channel target, call.Awaits s.config.range s.host channel target ∧
          Armed channel made ∧ s'.host = s.host.setMotion channel (.ramping target) := by
  intro result s'
  obtain ⟨made, hg, heffect⟩ := Step.ends_call call s
  refine ⟨made, hg.exchanges, heffect, fun hcall => heffect.sameButMotions hcall, fun e he => ?_⟩
  rw [show (s.perform call.run).1 = .error e from he] at heffect
  exact heffect.of_error

end DacRack
