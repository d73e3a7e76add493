import DacRack.Proofs.Effects
import DacRack.Proofs.Failures

/-!
# Refusing arguments

What is wrong with an argument is found before anything is sent. A call that refuses one
leaves no trace of itself: the connection afterwards is the one before. `Step.Careful` says
that a step refuses in no other way, and it is preserved where steps that refuse nothing
follow (`Careful.bind`); these are all that talk to the instrument.

One thing cannot be checked beforehand. A ramp is planned from where the output is and from
how often it is updated, which only the instrument knows. Both are read first, and where no
ramp can be planned from them, that is all that was done (`ends_ramp_failed`).

Conversely a bad argument is never let through (`Call.Faulty`). Where a call is given more
than one, it refuses one of them.
-/

namespace DacRack

variable {σ φ κ α β : Type}

/-- An argument was not accepted, or what it needs is not there. -/
def Error.IsRefusal : Error φ → Prop
  | noSuchAddress _ | outOfRange _ | noWord _ _ | badParameter _ | unsupported _ => True
  | link _ | reply _ | timedOut | cancelled | tooLong => False

theorem Error.Late.not_isRefusal {capacity : Nat} {e : Error φ} (h : e.Late capacity) :
    ¬ e.IsRefusal := by
  cases h <;> exact id

/-- Why a ramp is refused once it is to be planned. -/
inductive Error.OfPlan : Error φ → Prop
  | outOfRange (cause : OutOfRange) : OfPlan (.outOfRange cause)
  | tooSteep : OfPlan (.badParameter .rampSteepness)

/-- Nothing was done but to read the output of a channel and then its update period. -/
def OnlyReads (channel : Channel) (made : List (Exchange φ)) : Prop :=
  ∃ output period reading reading', Reads channel .output output reading ∧
    Reads channel .updatePeriod period reading' ∧ made = reading' ++ reading

/-- How a step that sends nothing before it refuses may fail. -/
def Unspent (s s' : Session σ φ κ) (capacity : Nat) (e : Error φ) : Prop :=
  e.IsRefusal ∧ s' = s ∨ e.Late capacity

namespace Step

/-- The step refuses before it does anything. -/
def Careful (step : Step σ φ κ α) : Prop :=
  ∀ s, Ends step s fun made r s' => FailsBy (Unspent s s') s.capacity made r

theorem Fails.careful {step : Step σ φ κ α} (h : Fails Error.Late step) : Careful step :=
  fun s => (h s).mono fun _ _ _ _ hfails =>
    hfails.mono (fun _ => .inr) (List.Subset.refl _)

theorem careful_throw {e : Error φ} (h : e.IsRefusal) : Careful (throw e : Step σ φ κ α) := by
  refine fun s => ends_throw ?_
  rintro _ ⟨⟩
  exact .inl (.inl ⟨h, rfl⟩)

theorem Careful.ofExcept_bind {result : Except (Error φ) α} {next : α → Step σ φ κ β}
    (h : ∀ e, result = .error e → e.IsRefusal) (hnext : ∀ a, result = .ok a → Careful (next a)) :
    Careful (ofExcept result >>= next) := by
  cases result with
  | error e => exact careful_throw (h e rfl)
  | ok a => exact hnext a rfl

theorem Careful.inRange_bind {result : Except OutOfRange α} {next : α → Step σ φ κ β}
    (hnext : ∀ a, Careful (next a)) : Careful (inRange result >>= next) := by
  refine Careful.ofExcept_bind (fun e he => ?_) fun a _ => hnext a
  cases result <;> cases he
  trivial

theorem Careful.ensure_bind {e : Error φ} {condition : Bool} {next : Unit → Step σ φ κ β}
    (h : e.IsRefusal) (hnext : condition = true → Careful (next ())) :
    Careful (ensure e condition >>= next) := by
  cases condition with
  | false => exact careful_throw h
  | true => exact hnext rfl

theorem Careful.require_bind {e : Error φ} {a? : Option α} {next : α → Step σ φ κ β}
    (h : e.IsRefusal) (hnext : ∀ a, a? = some a → Careful (next a)) :
    Careful (require e a? >>= next) := by
  cases a? with
  | none => exact careful_throw h
  | some a => exact hnext a rfl

theorem Careful.look {next : Session σ φ κ → Step σ φ κ α} (h : ∀ s, Careful (next s)) :
    Careful (get >>= next) := by
  intro s
  obtain ⟨made, hg, hfails⟩ := h s s
  exact ⟨made, hg, hfails⟩

theorem Careful.range_bind {next : VoltageRange → Step σ φ κ α}
    (h : ∀ range, Careful (next range)) : Careful (range >>= next) :=
  Careful.look fun s => h s.config.range

theorem Careful.host_bind {next : HostState → Step σ φ κ α} (h : ∀ host, Careful (next host)) :
    Careful (host >>= next) :=
  Careful.look fun s => h s.host

/-- What follows may only fail late. -/
theorem Careful.bind {step : Step σ φ κ α} {next : α → Step σ φ κ β} (h : Careful step)
    (hnext : ∀ a, Fails Error.Late (next a)) : Careful (step >>= next) := by
  intro s
  refine (h s).bind (fun _ _ _ _ hfails => hfails.of_error) ?_
  intro made a s' hg _
  refine (hnext a s').mono fun made' r s'' _ hfails => ?_
  rw [hg.capacity] at hfails
  exact hfails.mono (fun _ => .inr) (List.subset_append_left _ _)

theorem Careful.answer {step : Step σ φ κ α} (h : Careful step) (answer : α → β) :
    Careful (step >>= fun a => pure (answer a)) :=
  h.bind fun _ => fails_pure _

theorem isRefusal_of_validAddress {address : Int} {e : Error φ}
    (h : validAddress address = .error e) : e.IsRefusal := by
  unfold validAddress at h
  split at h <;> cases h
  trivial

theorem isRefusal_of_validWord {target : UInt32} {value : Int} {e : Error φ}
    (h : validWord target value = .error e) : e.IsRefusal := by
  unfold validWord at h
  split at h <;> cases h
  trivial

theorem careful_setRampRate (channel : Channel) (rate : Float) :
    Careful (setRampRate channel rate : Step σ φ κ Unit) :=
  Careful.ensure_bind trivial fun _ => (fails_modifyHost _).careful

theorem Careful.powerOnAddress_bind {channel : Channel} {next : UInt32 → Step σ φ κ α}
    (h : ∀ address, Careful (next address)) : Careful (powerOnAddress channel >>= next) := by
  have hlook : Careful (get >>= fun s : Session σ φ κ =>
      require (.unsupported .powerOnVolt) (s.host.channelState channel).powerOnAddress >>=
        next) :=
    Careful.look fun s => Careful.require_bind trivial fun address _ => h address
  exact hlook

/-- A step that is tried does not fail, and what it refused is left to what follows. -/
theorem Careful.attempt_bind {own : Nat → Error φ → Prop} {step : Step σ φ κ α}
    {next : Except (Error φ) α → Step σ φ κ β} (h : Careful step)
    (hok : ∀ a, Fails own (next (.ok a))) (herror : ∀ e, Fails own (next (.error e))) :
    Fails own (attempt step >>= next) := by
  refine (fails_attempt fun s => (h s).mono fun _ _ _ _ _ => trivial).bind fun r => ?_
  cases r with
  | ok a => exact hok a
  | error e => exact herror e

variable [Link σ φ]

theorem careful_read (address : Int) (words : Nat) (bank : Bank) :
    Careful (read address words bank : Step σ φ κ UInt64) := by
  unfold read
  split
  · exact (fails_pure 0).careful
  · split
    · exact careful_throw trivial
    · exact Careful.ofExcept_bind (fun _ => isRefusal_of_validAddress) fun start _ =>
        (fails_readFrom bank words start).careful

theorem careful_write (address value : Int) (bank : Bank) :
    Careful (write address value bank : Step σ φ κ Unit) :=
  Careful.ofExcept_bind (fun _ => isRefusal_of_validAddress) fun target _ =>
    Careful.ofExcept_bind (fun _ => isRefusal_of_validWord) fun word _ =>
      (fails_writeTo bank target word).careful

theorem careful_setMode (slot : Fin slotCount) (mode : SlotMode) :
    Careful (setMode slot mode : Step σ φ κ Unit) := by
  refine Careful.host_bind fun host => Careful.ensure_bind trivial fun _ => Fails.careful ?_
  refine (fails_transactSlot (.setMode slot mode)).bind fun reply => ?_
  refine (fails_understand _).bind fun _ => (fails_modifyHost _).bind fun _ => ?_
  exact fails_note (by simp)

theorem careful_queryMode (slot : Fin slotCount) :
    Careful (queryMode slot : Step σ φ κ SlotMode) :=
  Fails.careful ((fails_transactSlot (.askMode slot)).bind fun _ =>
    (fails_understand _).bind fun _ => fails_understand _)

theorem careful_setLowerLimit (channel : Channel) (volt : Float) :
    Careful (setLowerLimit channel volt : Step σ φ κ Unit) :=
  Careful.range_bind fun _ => Careful.inRange_bind fun code =>
    (fails_command (.lowerLimit channel code)).careful

theorem careful_setUpperLimit (channel : Channel) (volt : Float) :
    Careful (setUpperLimit channel volt : Step σ φ κ Unit) :=
  Careful.range_bind fun _ => Careful.inRange_bind fun code =>
    (fails_command (.upperLimit channel code)).careful

theorem careful_setUpdatePeriod (channel : Channel) (period : UInt32) :
    Careful (setUpdatePeriod channel period : Step σ φ κ Unit) :=
  Careful.require_bind trivial fun _ hus =>
    (fails_command (.updatePeriod channel (minPeriod_le_of_period? hus))).careful

theorem careful_setSlope (channel : Channel) (slope : Int64) :
    Careful (setSlope channel slope : Step σ φ κ Unit) :=
  Careful.ensure_bind trivial fun hfits => (fails_command (.slope channel hfits)).careful

theorem careful_powerOnVolt (channel : Channel) :
    Careful (powerOnVolt channel : Step σ φ κ Float) :=
  Careful.powerOnAddress_bind fun _ => (careful_read _ _ _).bind fun _ =>
    fails_range.bind fun _ => fails_pure _

theorem careful_setPowerOnVolt (channel : Channel) (volt : Float) :
    Careful (setPowerOnVolt channel volt : Step σ φ κ Unit) :=
  Careful.powerOnAddress_bind fun _ => Careful.range_bind fun _ =>
    Careful.inRange_bind fun _ => careful_write _ _ _

/-! Finding out who the instrument is takes whatever comes. -/

section

variable {own : Nat → Error φ → Prop}

theorem fails_probeEeprom : Fails own (probeEeprom : Step σ φ κ Bool) :=
  (careful_read _ _ _).attempt_bind (fun _ => fails_pure _) fun _ =>
    (fails_note (by simp)).bind fun _ => fails_pure _

theorem fails_probeSlotEeprom : Fails own (probeSlotEeprom : Step σ φ κ Unit) :=
  (careful_read _ _ _).attempt_bind (fun _ => fails_note (by simp)) fun _ =>
    fails_note (by simp)

theorem fails_probeCalibration : Fails own (probeCalibration : Step σ φ κ Bool) := by
  refine (fails_transact .askCalibration).careful.attempt_bind (fun reply => ?_) fun _ =>
    (fails_note (by simp)).bind fun _ => fails_pure _
  simp only []
  split
  · exact fails_pure _
  · exact (fails_note (by simp)).bind fun _ => fails_pure _

theorem fails_readIdentityWord (probe : Probe) (address : Nat) :
    Fails own (readIdentityWord probe address : Step σ φ κ UInt64) :=
  (careful_read _ _ _).attempt_bind (fun _ => fails_pure _) fun _ =>
    (fails_note (by simp)).bind fun _ => fails_pure _

theorem fails_readIdentity : Fails own (readIdentity : Step σ φ κ Identity) :=
  (fails_readIdentityWord _ _).bind fun _ => (fails_readIdentityWord _ _).bind fun _ =>
    fails_pure _

theorem fails_probe : Fails own (probe : Step σ φ κ (Features × Identity)) := by
  refine fails_probeEeprom.bind fun eeprom => fails_probeSlotEeprom.bind fun _ => ?_
  refine fails_probeCalibration.bind fun calibration => ?_
  have hrest (identity : Identity) : Fails own (do
      note (.probed { eeprom, calibration } identity)
      return ({ eeprom, calibration }, identity) : Step σ φ κ (Features × Identity)) :=
    (fails_note (by simp)).bind fun _ => fails_pure _
  cases eeprom with
  | true => exact fails_readIdentity.bind hrest
  | false => exact (fails_pure _).bind hrest

theorem fails_identify : Fails own (identify : Step σ φ κ Identity) :=
  fails_probe.bind fun _ => (fails_modifyHost _).bind fun _ => fails_pure _

end

theorem careful_setCode (channel : Channel) (code : UInt16) :
    Careful (setCode channel code : Step σ φ κ Unit) := by
  refine Fails.careful ((fails_command (.jump channel code)).bind fun _ => ?_)
  exact (fails_setMotion channel .idle).bind fun _ => fails_note (by simp)

/-! ## Ramps -/

theorem fails_limitCommand (channel : Channel) (plan : Ramp) :
    Fails Error.Late (command channel [limitCommand plan] : Step σ φ κ Unit) :=
  fails_command (plain_limitCommand channel plan)

/-- What a ramp does once it was planned. -/
theorem fails_launch (channel : Channel) (current target : Float) {plan : Ramp}
    (hfits : slopeFits plan.slope = true) :
    Fails Error.Late (do
      command channel [limitCommand plan]
      command channel [.slope plan.slope]
      setMotion channel (.ramping target)
      note (.rampStarted channel current target plan.duration plan.slope) :
        Step σ φ κ Unit) := by
  refine (fails_limitCommand channel plan).bind fun _ => ?_
  refine (fails_command (.slope channel hfits)).bind fun _ => ?_
  exact (fails_setMotion channel _).bind fun _ => fails_note (by simp)

/-- A ramp is refused for its arguments before anything was done, or for its plan, once what
the plan goes by was read. -/
def Unplanned (channel : Channel) (s s' : Session σ φ κ) (made : List (Exchange φ))
    (capacity : Nat) (e : Error φ) : Prop :=
  Unspent s s' capacity e ∨ e.OfPlan ∧ s'.host = s.host ∧ OnlyReads channel made

theorem ends_startRamp_failed (channel : Channel) (current target rate : Float)
    (s : Session σ φ κ) :
    Ends (startRamp channel current target rate) s fun made r s' =>
      FailsBy (fun capacity e => e.Late capacity ∨ e.OfPlan ∧ s'.host = s.host ∧
        ∃ period, Reads channel .updatePeriod period made) s.capacity made r := by
  refine (((confined_updatePeriod channel).leavesHost.ends (ends_updatePeriod channel s)).and
    (fails_updatePeriod channel s)).bind ?_ ?_
  · rintro made e s' - ⟨-, hfails⟩
    exact (hfails.mono (fun _ => .inl) (List.Subset.refl _)).of_error
  rintro reading period s₁ hg ⟨⟨⟨-, hreads⟩, hhost⟩, -⟩
  have hreads := hreads period rfl
  have hplan {e : Error φ} (he : e.OfPlan) : FailsBy (fun capacity e => e.Late capacity ∨
      e.OfPlan ∧ s₁.host = s.host ∧ ∃ period, Reads channel .updatePeriod period reading)
      s.capacity reading (.error e : Except (Error φ) Unit) := by
    rintro _ ⟨⟩
    exact .inl (.inr ⟨he, hhost, period, hreads⟩)
  refine Ends.range_bind (Ends.inRange_bind (fun cause => hplan (.outOfRange cause))
    fun plan _ => Ends.ensure_bind (hplan .tooSteep) fun hfits => ?_)
  refine (fails_launch channel current target hfits s₁).mono fun made r s₂ _ hfails => ?_
  rw [hg.capacity] at hfails
  exact hfails.mono (fun _ => .inl) (List.subset_append_left _ _)

variable [Clock κ]

theorem fails_settleIf (channel : Channel) (wait : Bool) :
    Fails Error.Late (if wait then settle channel else pure () : Step σ φ κ Unit) := by
  split
  · exact fails_settle channel
  · exact fails_pure ()

theorem ends_ramp_failed (channel : Channel) (target rate : Float) (wait : Bool)
    (s : Session σ φ κ) :
    Ends (ramp channel target rate wait) s fun made r s' =>
      FailsBy (Unplanned channel s s' made) s.capacity made r := by
  have hrefuse {e : Error φ} (he : e.IsRefusal) : FailsBy (Unplanned channel s s [])
      s.capacity [] (.error e : Except (Error φ) Unit) := by
    rintro _ ⟨⟩
    exact .inl (.inl (.inl ⟨he, rfl⟩))
  refine Ends.ensure_bind (hrefuse trivial) fun _ => ?_
  refine Ends.range_bind (Ends.inRange_bind (fun _ => hrefuse trivial) fun _ _ => ?_)
  refine (((confined_volt channel).leavesHost.ends (ends_volt channel s)).and
    (fails_readVolt channel .output s)).bind ?_ ?_
  · rintro made e s' - ⟨-, hfails⟩
    exact (hfails.mono (fun _ he => .inl (.inr he)) (List.Subset.refl _)).of_error
  rintro reading current s₁ hg ⟨⟨⟨-, hok⟩, hhost⟩, -⟩
  obtain ⟨output, -, hreads⟩ := hok current rfl
  split
  · exact ends_pure nofun
  refine (ends_startRamp_failed channel current target rate s₁).bind ?_ ?_
  · rintro made e s₂ - hfails
    rw [hg.capacity] at hfails
    refine (hfails.mono (fun e he => ?_) (List.subset_append_left made reading)).of_error
    rcases he with hlate | ⟨hplan, hhost₂, period, hperiod⟩
    · exact .inl (.inr hlate)
    · exact .inr ⟨hplan, hhost₂.trans hhost, output, period, reading, made, hreads, hperiod, rfl⟩
  · intro starting _ s₂ hg₂ _
    refine (fails_settleIf channel wait s₂).mono fun waiting r s₃ _ hfails => ?_
    rw [hg₂.capacity, hg.capacity] at hfails
    refine hfails.mono (fun _ he => .inl (.inr he)) ?_
    rw [List.append_assoc]
    exact List.subset_append_left _ _

theorem ends_setVolt_failed (channel : Channel) (volt : Float) (s : Session σ φ κ) :
    Ends (setVolt channel volt) s fun made r s' =>
      FailsBy (fun capacity e => Unspent s s' capacity e ∨
        (s.host.channelState channel).rampOnSet = true ∧ e.OfPlan ∧ s'.host = s.host ∧
          OnlyReads channel made) s.capacity made r := by
  refine Ends.range_bind (Ends.inRange_bind (fun cause => ?_) fun code _ => ?_)
  · rintro _ ⟨⟩
    exact .inl (.inl (.inl ⟨trivial, rfl⟩))
  refine Ends.channelState_bind ?_
  split
  · next hramps =>
      refine (ends_ramp_failed channel _ _ true s).mono fun made r s' _ hfails => ?_
      exact hfails.mono (fun e => Or.imp_right fun h => ⟨hramps, h⟩) (List.Subset.refl _)
  · refine (careful_setCode channel code s).mono fun made r s' _ hfails => ?_
    exact hfails.mono (fun _ => .inl) (List.Subset.refl _)

end Step

/-- The calls that ramp a channel. -/
inductive Call.Ramps (host : HostState) : Call → Channel → Prop
  | ramp (channel : Channel) (target rate : Float) (wait : Bool) :
      Ramps host (.onChannel channel (.ramp target rate wait)) channel
  | setVolt {channel : Channel} (volt : Float)
      (h : (host.channelState channel).rampOnSet = true) :
      Ramps host (.onChannel channel (.setVolt volt)) channel

variable [Link σ φ]

theorem SlotCall.careful_run (slot : Fin slotCount) (call : SlotCall) :
    Step.Careful (call.run slot : Step σ φ κ Answer) := by
  cases call with
  | mode => exact Step.Careful.host_bind fun _ => (Step.fails_pure _).careful
  | setMode mode => exact (Step.careful_setMode slot mode).answer _
  | queryMode => exact (Step.careful_queryMode slot).answer _
  | channel number =>
      exact Step.Careful.require_bind trivial fun _ _ => (Step.fails_pure _).careful
  | ask text =>
      exact ((Step.fails_selectSlot _).bind fun _ => Step.fails_exchange _ _).careful.answer _

variable [Clock κ]

/-- How a call on one slot or channel, or on the memory, may fail. -/
theorem Call.ends_failed (call : Call) (h : ¬ call.OnAll) (s : Session σ φ κ) :
    Step.Ends call.run s fun made r s' =>
      FailsBy (fun capacity e => Unspent s s' capacity e ∨ ∃ channel,
        call.Ramps s.host channel ∧ e.OfPlan ∧ s'.host = s.host ∧ OnlyReads channel made)
        s.capacity made r := by
  have careful {step : Step σ φ κ Answer} (h : Step.Careful step) :
      Step.Ends step s fun made r s' =>
        FailsBy (fun capacity e => Unspent s s' capacity e ∨ ∃ channel,
          call.Ramps s.host channel ∧ e.OfPlan ∧ s'.host = s.host ∧ OnlyReads channel made)
          s.capacity made r :=
    (h s).mono fun made r s' _ hfails => hfails.mono (fun _ => .inl) (List.Subset.refl _)
  cases call with
  | identify => exact careful (Step.fails_identify.careful.answer _)
  | setAll volt => exact absurd (.setAll volt) h
  | rampAll target rate => exact absurd (.rampAll target rate) h
  | read address words bank => exact careful ((Step.careful_read address words bank).answer _)
  | write address value bank =>
      exact careful ((Step.careful_write address value bank).answer _)
  | ask text => exact careful ((Step.fails_exchange _ _).careful.answer _)
  | onSlot number call =>
      change Step.Ends (Step.slotNumbered number >>= fun slot => call.run slot) s _
      unfold Step.slotNumbered
      split
      · exact careful (call.careful_run _)
      · exact careful (Step.careful_throw trivial)
  | onChannel channel call =>
      have done {step : Step σ φ κ Unit} {own : Session σ φ κ → List (Exchange φ) → Nat →
          Error φ → Prop} (h : Step.Ends step s fun made r s' =>
            FailsBy (own s' made) s.capacity made r) :
          Step.Ends (step >>= fun _ => pure Answer.done) s fun made r s' =>
            FailsBy (own s' made) s.capacity made r :=
        h.bind (fun _ _ _ _ hfails => hfails.of_error) fun _ _ _ _ _ => Step.ends_pure nofun
      cases call with
      | setVolt volt =>
          refine (done (Step.ends_setVolt_failed channel volt s)).mono fun made r s' _ hfails => ?_
          refine hfails.mono (fun e he => he.imp_right ?_) (List.Subset.refl _)
          rintro ⟨hramps, hplan⟩
          exact ⟨channel, .setVolt volt hramps, hplan⟩
      | ramp target rate wait =>
          refine (done (Step.ends_ramp_failed channel target rate wait s)).mono
            fun made r s' _ hfails => ?_
          refine hfails.mono (fun e he => he.imp_right ?_) (List.Subset.refl _)
          exact fun hplan => ⟨channel, .ramp channel target rate wait, hplan⟩
      | volt | lowerLimit | upperLimit =>
          exact careful ((Step.fails_readVolt channel _).careful.answer _)
      | settle => exact careful ((Step.fails_settle channel).careful.answer _)
      | setRampOnSet enable =>
          exact careful ((Step.fails_setRampOnSet channel enable).careful.answer _)
      | setRampRate rate => exact careful ((Step.careful_setRampRate channel rate).answer _)
      | setLowerLimit volt => exact careful ((Step.careful_setLowerLimit channel volt).answer _)
      | setUpperLimit volt => exact careful ((Step.careful_setUpperLimit channel volt).answer _)
      | updatePeriod => exact careful ((Step.fails_updatePeriod channel).careful.answer _)
      | setUpdatePeriod period =>
          exact careful ((Step.careful_setUpdatePeriod channel period).answer _)
      | slope => exact careful ((Step.fails_slope channel).careful.answer _)
      | setSlope slope => exact careful ((Step.careful_setSlope channel slope).answer _)
      | powerOnVolt => exact careful ((Step.careful_powerOnVolt channel).answer _)
      | setPowerOnVolt volt =>
          exact careful ((Step.careful_setPowerOnVolt channel volt).answer _)
      | ask text =>
          exact careful (((Step.fails_selectChannel _).bind fun _ =>
            Step.fails_exchange _ _).careful.answer _)

/-! ## Bad arguments

A voltage or a rate that is no number lies in no range, so that the conditions here are those
of the checks turned round, and not their complements. -/

/-- The arguments that an operation on a channel is to refuse, and how. -/
inductive ChannelCall.Faulty (range : VoltageRange) (state : ChannelState) :
    ChannelCall → Error φ → Prop
  | setVolt {volt : Float} (h : ¬ (range.min ≤ volt ∧ volt ≤ range.max)) :
      Faulty range state (.setVolt volt) (.outOfRange ⟨volt, range.min, range.max⟩)
  | target {volt : Float} (rate : Float) (wait : Bool)
      (h : ¬ (range.min ≤ volt ∧ volt ≤ range.max)) :
      Faulty range state (.ramp volt rate wait) (.outOfRange ⟨volt, range.min, range.max⟩)
  | lowerLimit {volt : Float} (h : ¬ (range.min ≤ volt ∧ volt ≤ range.max)) :
      Faulty range state (.setLowerLimit volt) (.outOfRange ⟨volt, range.min, range.max⟩)
  | upperLimit {volt : Float} (h : ¬ (range.min ≤ volt ∧ volt ≤ range.max)) :
      Faulty range state (.setUpperLimit volt) (.outOfRange ⟨volt, range.min, range.max⟩)
  | powerOn {volt : Float} (h : ¬ (range.min ≤ volt ∧ volt ≤ range.max)) :
      Faulty range state (.setPowerOnVolt volt) (.outOfRange ⟨volt, range.min, range.max⟩)
  | rampRate (volt : Float) {rate : Float} (wait : Bool) (h : ¬ (0 < rate ∧ rate ≤ 10)) :
      Faulty range state (.ramp volt rate wait) (.badParameter .rampRate)
  | setRampRate {rate : Float} (h : ¬ (0 < rate ∧ rate ≤ 10)) :
      Faulty range state (.setRampRate rate) (.badParameter .rampRate)
  | period {period : UInt32} (h : ¬ (50 ≤ period.toNat ∧ period.toNat ≤ 65535)) :
      Faulty range state (.setUpdatePeriod period) (.badParameter .updatePeriod)
  | slope {slope : Int64} (h : 2 ^ 32 < slope.toInt.natAbs) :
      Faulty range state (.setSlope slope) (.badParameter .slope)
  | noPowerOn (h : state.powerOnAddress = none) :
      Faulty range state .powerOnVolt (.unsupported .powerOnVolt)
  | noPowerOnToSet (volt : Float) (h : state.powerOnAddress = none) :
      Faulty range state (.setPowerOnVolt volt) (.unsupported .powerOnVolt)

/-- The arguments that a call is to refuse, and how. -/
inductive Call.Faulty (range : VoltageRange) (host : HostState) : Call → Error φ → Prop
  | readAddress {address : Int} {words : Nat} (bank : Bank) (hsome : 0 < words)
      (hfew : words ≤ 2) (h : ¬ (0 ≤ address ∧ address ≤ 1107296266)) :
      Faulty range host (.read address words bank) (.noSuchAddress address)
  | words (address : Int) {words : Nat} (bank : Bank) (h : 2 < words) :
      Faulty range host (.read address words bank) (.badParameter .wordCount)
  | writeAddress {address : Int} (value : Int) (bank : Bank)
      (h : ¬ (0 ≤ address ∧ address ≤ 1107296266)) :
      Faulty range host (.write address value bank) (.noSuchAddress address)
  | value (address : Int) {value : Int} (bank : Bank) (h : ¬ (0 ≤ value ∧ value < 2 ^ 32)) :
      Faulty range host (.write address value bank) (.noWord (UInt32.ofInt address) value)
  | slot {number : Nat} (call : SlotCall) (h : 5 ≤ number) :
      Faulty range host (.onSlot number call) (.badParameter .slotIndex)
  | place (number : Nat) {place : Nat} (h : 4 ≤ place) :
      Faulty range host (.onSlot number (.channel place)) (.badParameter .channelIndex)
  | mode (number : Nat) (h : host.features.calibration = false) :
      Faulty range host (.onSlot number (.setMode .fineCald)) (.unsupported .calibratedMode)
  | channel (channel : Channel) {call : ChannelCall} {e : Error φ}
      (h : call.Faulty range (host.channelState channel) e) :
      Faulty range host (.onChannel channel call) e

theorem VoltageRange.code_eq_error {range : VoltageRange} {volt : Float}
    (h : ¬ (range.min ≤ volt ∧ volt ≤ range.max)) :
    range.code volt = .error ⟨volt, range.min, range.max⟩ := by
  have hout : ¬ range.contains volt = true := by
    rwa [contains, Bool.and_eq_true, decide_eq_true_eq, decide_eq_true_eq]
  rw [code, if_neg hout]

theorem rateAllowed_eq_false {rate : Float} (h : ¬ (0 < rate ∧ rate ≤ 10)) :
    rateAllowed rate = false := by
  rw [← Bool.not_eq_true, rateAllowed, Bool.and_eq_true, decide_eq_true_eq, decide_eq_true_eq]
  exact h

theorem validAddress_eq_error {address : Int} (h : ¬ (0 ≤ address ∧ address ≤ 1107296266)) :
    validAddress address = (.error (.noSuchAddress address) : Except (Error φ) UInt32) := by
  rw [validAddress, address?, if_neg (by simpa [maxAddress] using h)]

theorem validWord_eq_error {target : UInt32} {value : Int} (h : ¬ (0 ≤ value ∧ value < 2 ^ 32)) :
    validWord target value = (.error (.noWord target value) : Except (Error φ) UInt32) := by
  have hlimit : (wordLimit : Int) = 2 ^ 32 := by decide
  rw [validWord, word?, hlimit, if_neg h]

namespace Session

variable {s : Session σ φ κ} {range : VoltageRange} {channel : Channel} {e : Error φ}

/-! Refusals of the parts, which are found without a trace. -/

omit [Link σ φ] [Clock κ] in
theorem perform_range_bind {next : VoltageRange → Step σ φ κ α} :
    s.perform (Step.range >>= next) = s.perform (next s.config.range) := rfl

omit [Link σ φ] [Clock κ] in
theorem perform_ofExcept_error {result : Except (Error φ) α} {next : α → Step σ φ κ β}
    (h : result = .error e) : s.perform (Step.ofExcept result >>= next) = (.error e, s) := by
  rw [h]
  rfl

omit [Link σ φ] [Clock κ] in
theorem perform_ensure_error {condition : Bool} {next : Unit → Step σ φ κ β}
    (h : condition = false) : s.perform (Step.ensure e condition >>= next) = (.error e, s) :=
  perform_ofExcept_error (by rw [h]; rfl)

omit [Link σ φ] [Clock κ] in
theorem perform_require_none {a? : Option α} {next : α → Step σ φ κ β} (h : a? = none) :
    s.perform (Step.require e a? >>= next) = (.error e, s) :=
  perform_ofExcept_error (by rw [h]; rfl)

omit [Link σ φ] [Clock κ] in
theorem perform_inRange_error {volt : Float} {next : UInt16 → Step σ φ κ β}
    (h : ¬ (range.min ≤ volt ∧ volt ≤ range.max)) :
    s.perform (Step.inRange (range.code volt) >>= next) =
      (.error (.outOfRange ⟨volt, range.min, range.max⟩), s) :=
  perform_ofExcept_error (by rw [VoltageRange.code_eq_error h]; rfl)

omit [Clock κ] in
theorem perform_read_error {address : Int} {words : Nat} {bank : Bank} (hsome : 0 < words)
    (hfew : words ≤ 2) (h : ¬ (0 ≤ address ∧ address ≤ 1107296266)) :
    s.perform (Step.read address words bank) = (.error (.noSuchAddress address), s) := by
  unfold Step.read
  rw [if_neg (by omega), if_neg (by omega)]
  exact perform_ofExcept_error (validAddress_eq_error h)

omit [Clock κ] in
theorem perform_write_error {address value : Int} {bank : Bank}
    (h : ¬ (0 ≤ value ∧ value < 2 ^ 32)) (haddress : 0 ≤ address ∧ address ≤ 1107296266) :
    s.perform (Step.write address value bank) =
      (.error (.noWord (UInt32.ofInt address) value), s) := by
  have hvalid : validAddress address = (.ok (UInt32.ofInt address) : Except (Error φ) UInt32) := by
    rw [validAddress, address?, if_pos (by simpa [maxAddress] using haddress)]
  unfold Step.write
  rw [hvalid]
  exact (perform_bind_of_ok rfl).trans (perform_ofExcept_error (validWord_eq_error h))

theorem perform_ramp_rate {target rate : Float} {wait : Bool} (h : ¬ (0 < rate ∧ rate ≤ 10)) :
    s.perform (Step.ramp channel target rate wait) = (.error (.badParameter .rampRate), s) :=
  perform_ensure_error (rateAllowed_eq_false h)

theorem perform_ramp_target {target rate : Float} {wait : Bool}
    (hrate : 0 < rate ∧ rate ≤ 10)
    (h : ¬ (s.config.range.min ≤ target ∧ target ≤ s.config.range.max)) :
    s.perform (Step.ramp channel target rate wait) =
      (.error (.outOfRange ⟨target, s.config.range.min, s.config.range.max⟩), s) := by
  have hallowed : rateAllowed rate = true := by
    rw [rateAllowed, Bool.and_eq_true, decide_eq_true_eq, decide_eq_true_eq]
    exact hrate
  have hensure : s.perform (Step.ensure (.badParameter .rampRate) true) = (.ok (), s) := rfl
  rw [Step.ramp, hallowed, perform_bind_of_ok hensure, perform_range_bind]
  exact perform_inRange_error h

omit [Link σ φ] [Clock κ] in
theorem perform_powerOn_none (h : (s.host.channelState channel).powerOnAddress = none)
    {next : UInt32 → Step σ φ κ α} :
    s.perform (Step.powerOnAddress channel >>= next) =
      (.error (.unsupported .powerOnVolt), s) := by
  refine perform_bind_error ?_
  show s.perform (Step.require _ _) = _
  rw [h]
  rfl

theorem perform_onSlot {number : Nat} {call : SlotCall} (h : number < slotCount) :
    s.perform (Call.onSlot number call).run = s.perform (call.run ⟨number, h⟩) := by
  change s.perform (Step.slotNumbered number >>= fun slot => call.run slot) = _
  rw [Step.slotNumbered, dif_pos h]
  rfl

theorem perform_onSlot_missing {number : Nat} {call : SlotCall} (h : 5 ≤ number) :
    s.perform (Call.onSlot number call).run = (.error (.badParameter .slotIndex), s) := by
  change s.perform (Step.slotNumbered number >>= fun slot => call.run slot) = _
  rw [Step.slotNumbered, dif_neg (Nat.not_lt_of_le h)]
  rfl

/-- An operation on a channel refuses one of its bad arguments. -/
theorem perform_faulty_channelCall {call : ChannelCall}
    (h : call.Faulty s.config.range (s.host.channelState channel) e) :
    ∃ e', call.Faulty s.config.range (s.host.channelState channel) e' ∧
      s.perform (call.run channel) = (.error e', s) := by
  cases h with
  | setVolt hvolt =>
      refine ⟨_, .setVolt hvolt, perform_bind_error ?_⟩
      rw [Step.setVolt, perform_range_bind]
      exact perform_inRange_error hvolt
  | @target volt rate wait hvolt =>
      by_cases hrate : 0 < rate ∧ rate ≤ 10
      · exact ⟨_, .target rate wait hvolt, perform_bind_error (perform_ramp_target hrate hvolt)⟩
      · exact ⟨_, .rampRate volt wait hrate, perform_bind_error (perform_ramp_rate hrate)⟩
  | lowerLimit hvolt =>
      refine ⟨_, .lowerLimit hvolt, perform_bind_error ?_⟩
      rw [Step.setLowerLimit, perform_range_bind]
      exact perform_inRange_error hvolt
  | upperLimit hvolt =>
      refine ⟨_, .upperLimit hvolt, perform_bind_error ?_⟩
      rw [Step.setUpperLimit, perform_range_bind]
      exact perform_inRange_error hvolt
  | @powerOn volt hvolt =>
      cases haddress : (s.host.channelState channel).powerOnAddress with
      | none =>
          exact ⟨_, .noPowerOnToSet volt haddress,
            perform_bind_error (perform_powerOn_none haddress)⟩
      | some address =>
          refine ⟨_, .powerOn hvolt, perform_bind_error ?_⟩
          have hfound : s.perform (Step.powerOnAddress channel) = (.ok address, s) := by
            show s.perform (Step.require _ _) = _
            rw [haddress]
            rfl
          rw [Step.setPowerOnVolt, perform_bind_of_ok hfound, perform_range_bind]
          exact perform_inRange_error hvolt
  | rampRate volt wait hrate =>
      exact ⟨_, .rampRate volt wait hrate, perform_bind_error (perform_ramp_rate hrate)⟩
  | setRampRate hrate =>
      exact ⟨_, .setRampRate hrate,
        perform_bind_error (perform_ensure_error (rateAllowed_eq_false hrate))⟩
  | period hperiod =>
      exact ⟨_, .period hperiod, perform_bind_error (perform_require_none (if_neg hperiod))⟩
  | slope hslope =>
      refine ⟨_, .slope hslope, perform_bind_error (perform_ensure_error ?_)⟩
      exact decide_eq_false (Nat.not_le_of_lt hslope)
  | noPowerOn hnone =>
      exact ⟨_, .noPowerOn hnone, perform_bind_error (perform_powerOn_none hnone)⟩
  | noPowerOnToSet volt hnone =>
      exact ⟨_, .noPowerOnToSet volt hnone, perform_bind_error (perform_powerOn_none hnone)⟩

/-- A call refuses one of its bad arguments. -/
theorem perform_faulty {call : Call} (h : call.Faulty s.config.range s.host e) :
    ∃ e', call.Faulty s.config.range s.host e' ∧ s.perform call.run = (.error e', s) := by
  cases h with
  | readAddress bank hsome hfew haddress =>
      exact ⟨_, .readAddress bank hsome hfew haddress,
        perform_bind_error (perform_read_error hsome hfew haddress)⟩
  | words address bank hwords =>
      refine ⟨_, .words address bank hwords, perform_bind_error ?_⟩
      unfold Step.read
      rw [if_neg (by omega), if_pos hwords]
      rfl
  | writeAddress value bank haddress =>
      exact ⟨_, .writeAddress value bank haddress,
        perform_bind_error (perform_ofExcept_error (validAddress_eq_error haddress))⟩
  | value address bank hvalue =>
      by_cases haddress : 0 ≤ address ∧ address ≤ 1107296266
      · exact ⟨_, .value address bank hvalue,
          perform_bind_error (perform_write_error hvalue haddress)⟩
      · exact ⟨_, .writeAddress _ bank haddress,
          perform_bind_error (perform_ofExcept_error (validAddress_eq_error haddress))⟩
  | slot call hnumber => exact ⟨_, .slot call hnumber, perform_onSlot_missing hnumber⟩
  | @place number place hplace =>
      by_cases hnumber : number < slotCount
      · refine ⟨_, .place number hplace, ?_⟩
        rw [perform_onSlot hnumber]
        refine perform_bind_error ?_
        have hnone : Channel.ofNumbers? number place = none := by
          rw [Channel.ofNumbers?, dif_pos hnumber, dif_neg (Nat.not_lt_of_le hplace)]
        rw [Step.channelNumbered, hnone]
        rfl
      · have hmissing : 5 ≤ number := Nat.le_of_not_lt hnumber
        exact ⟨_, .slot _ hmissing, perform_onSlot_missing hmissing⟩
  | mode number hcalibration =>
      by_cases hnumber : number < slotCount
      · refine ⟨_, .mode number hcalibration, ?_⟩
        rw [perform_onSlot hnumber]
        exact perform_bind_error (perform_ensure_error hcalibration)
      · have hmissing : 5 ≤ number := Nat.le_of_not_lt hnumber
        exact ⟨_, .slot _ hmissing, perform_onSlot_missing hmissing⟩
  | channel channel hfaulty =>
      obtain ⟨e', hfaulty', hperform⟩ := perform_faulty_channelCall hfaulty
      exact ⟨e', .channel channel hfaulty', hperform⟩

end Session

/-- A call on one slot or channel, or on the memory, that refuses an argument leaves the
connection as it was, unless it is a ramp that cannot be planned: then it read what the plan
goes by, and did nothing else. And no bad argument is accepted. -/
theorem refusal_of_call (s : Session σ φ κ) (call : Call) (hsingle : ¬ call.OnAll) :
    (∀ e s', s.perform call.run = (.error e, s') → e.IsRefusal →
      s' = s ∨ ∃ channel, call.Ramps s.host channel ∧ e.OfPlan ∧ s'.host = s.host ∧
        ∃ made, s.Grown s' made ∧ OnlyReads channel made) ∧
    ∀ e : Error φ, call.Faulty s.config.range s.host e →
      ∃ e', call.Faulty s.config.range s.host e' ∧ s.perform call.run = (.error e', s) := by
  refine ⟨?_, fun e => Session.perform_faulty⟩
  intro e s' hperform hrefusal
  obtain ⟨made, hg, hfails⟩ := call.ends_failed hsingle s
  rw [hperform] at hg hfails
  rcases hfails e rfl with ((⟨-, hsame⟩ | hlate) | ⟨channel, hramps, hplan, hhost, hreads⟩) |
    ⟨rfl, -⟩
  · exact .inl hsame
  · exact absurd hrefusal hlate.not_isRefusal
  · exact .inr ⟨channel, hramps, hplan, hhost, made, hg, hreads⟩
  · exact absurd hrefusal id

/-- A connection to an instrument that reports a code no channel has. -/
def misplaced : Session ScriptedLink FaultKind SteppingClock :=
  connected ["A1545!", "p70000!", "A1536!", "p1000!"]

/-- A ramp that cannot be planned, and a slope that is too steep by far. -/
theorem refusal_misplaced :
    (∃ e s', misplaced.perform (Call.onChannel ⟨0, 0⟩ (.ramp 5 1 true)).run = (.error e, s') ∧
      e.OfPlan ∧ ∃ made, misplaced.Grown s' made ∧ OnlyReads ⟨0, 0⟩ made) ∧
    ∃ e, misplaced.perform (Call.onChannel ⟨0, 0⟩ (.setSlope Int64.minValue)).run =
      (.error e, misplaced) := by
  have hrun : (match (misplaced.perform (Call.onChannel ⟨0, 0⟩ (.ramp 5 1 true)).run).1 with
      | .error (.outOfRange _) => true
      | _ => false) = true ∧
      (misplaced.perform (Call.onChannel ⟨0, 0⟩ (.ramp 5 1 true)).run).2.link.script ≠
        misplaced.link.script := by
    decide +kernel
  have hfault : Call.Faulty misplaced.config.range misplaced.host
      (.onChannel ⟨0, 0⟩ (.setSlope Int64.minValue)) (.badParameter .slope : Error FaultKind) :=
    .channel _ (.slope (by decide))
  obtain ⟨e', -, hsteep⟩ := (refusal_of_call misplaced
    (.onChannel ⟨0, 0⟩ (.setSlope Int64.minValue)) nofun).2 _ hfault
  refine ⟨?_, e', hsteep⟩
  obtain ⟨hrefused, -⟩ := refusal_of_call misplaced (.onChannel ⟨0, 0⟩ (.ramp 5 1 true)) nofun
  cases hperform : misplaced.perform (Call.onChannel ⟨0, 0⟩ (.ramp 5 1 true)).run with
  | mk r s' =>
      rw [hperform] at hrun
      obtain ⟨hrange, hread⟩ := hrun
      split at hrange
      · next cause hr =>
          obtain rfl : r = .error (.outOfRange cause) := hr
          rcases hrefused _ s' hperform trivial with hsame | ⟨channel, hramps, hplan, -, hmade⟩
          · exact absurd (congrArg (fun s => s.link.script) hsame) hread
          · cases hramps
            exact ⟨_, s', rfl, hplan, hmade⟩
      · cases hrange

end DacRack
