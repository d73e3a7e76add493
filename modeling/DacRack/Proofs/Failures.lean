import DacRack.Proofs.Grammar
import DacRack.Proofs.Lines

/-!
# Where failures come from

A step fails for one of two reasons. The instrument or the line to it let it down, which only
comes out after something was sent, or it refuses what it was asked to do. Of the first kind
are faults, replies that do not say what they should, waits that were cut short, and lines
that have no end (`Error.Late`).

A line without end is a failure of the transaction it was to answer, which the journal shows.
Otherwise a buffer is only ever too small for what is to be sent, and it is not if it holds 17
bytes, as no transaction is longer than that (`Plain.length_wire_le`). `Fails own step` says
so of a step that fails in no other way than `own` allows for a buffer of its size.
-/

namespace DacRack

variable {σ φ κ α β : Type}

/-- A failure that the instrument is the cause of, or a small buffer. -/
inductive Error.Late (capacity : Nat) : Error φ → Prop
  | link (fault : φ) : Late capacity (.link fault)
  | reply (cause : ReplyError) : Late capacity (.reply cause)
  | timedOut : Late capacity .timedOut
  | cancelled : Late capacity .cancelled
  | tooLong (h : capacity < 17) : Late capacity .tooLong

/-- An error was that of a line without end, or one that `own` allows for. -/
def FailsBy (own : Nat → Error φ → Prop) (capacity : Nat) (made : List (Exchange φ))
    (r : Except (Error φ) α) : Prop :=
  ∀ e, r = .error e →
    own capacity e ∨ e = .tooLong ∧ ∃ x ∈ made, x.outcome = .error .tooLong

/-- A failure of a part is one of the whole. -/
theorem FailsBy.mono {own own' : Nat → Error φ → Prop} {capacity : Nat}
    {made made' : List (Exchange φ)} {r : Except (Error φ) α} (h : FailsBy own capacity made r)
    (hown : ∀ e, own capacity e → own' capacity e) (hmade : made ⊆ made') :
    FailsBy own' capacity made' r := by
  intro e he
  refine (h e he).imp (hown e) ?_
  rintro ⟨htooLong, x, hx, houtcome⟩
  exact ⟨htooLong, x, hmade hx, houtcome⟩

theorem FailsBy.of_error {own : Nat → Error φ → Prop} {capacity : Nat}
    {made : List (Exchange φ)} {e : Error φ}
    (h : FailsBy own capacity made (.error e : Except (Error φ) α)) :
    FailsBy own capacity made (.error e : Except (Error φ) β) := by
  rintro _ ⟨⟩
  exact h e rfl

theorem Line.late_of_ask [Link σ φ] {capacity room : Nat} {terminator : UInt8}
    {request : String} {link : σ} {e : Error φ}
    (h : (Line.ask capacity terminator request link).1 = .error e) :
    e.Late room ∨ e = .tooLong := by
  rcases Line.error_of_ask h with ⟨fault, rfl⟩ | ⟨cause, rfl⟩ | rfl
  · exact .inl (.link fault)
  · exact .inl (.reply cause)
  · exact .inr rfl

namespace Step

def Fails (own : Nat → Error φ → Prop) (step : Step σ φ κ α) : Prop :=
  ∀ s, Ends step s fun made r _ => FailsBy own s.capacity made r

variable {own own' : Nat → Error φ → Prop}

theorem Fails.mono {step : Step σ φ κ α} (h : Fails own step)
    (hown : ∀ capacity e, own capacity e → own' capacity e) : Fails own' step :=
  fun s => (h s).mono fun _ _ _ _ hfails => hfails.mono (hown _) (List.Subset.refl _)

theorem Fails.bind {step : Step σ φ κ α} {next : α → Step σ φ κ β} (h : Fails own step)
    (hnext : ∀ a, Fails own (next a)) : Fails own (step >>= next) := by
  intro s
  refine (h s).bind (fun _ _ _ _ hfails => hfails.of_error) ?_
  intro made a s' hg _
  refine (hnext a s').mono fun made' r s'' _ hfails => ?_
  rw [hg.capacity] at hfails
  exact hfails.mono (fun _ he => he) (List.subset_append_left _ _)

theorem fails_ofExcept {result : Except (Error φ) α}
    (h : ∀ capacity e, result = .error e → own capacity e) :
    Fails own (ofExcept result : Step σ φ κ α) :=
  fun s => ends_ofExcept fun e he => .inl (h s.capacity e he)

theorem fails_pure (a : α) : Fails own (pure a : Step σ φ κ α) :=
  fun _ => ends_pure nofun

theorem Fails.look {next : Session σ φ κ → Step σ φ κ α} (h : ∀ s, Fails own (next s)) :
    Fails own (get >>= next) := by
  intro s
  obtain ⟨made, hg, hfails⟩ := h s s
  exact ⟨made, hg, hfails⟩

theorem fails_note {entry : Note φ} (h : ∀ e, entry ≠ .exchange e) :
    Fails own (note entry : Step σ φ κ Unit) := by
  intro s
  obtain ⟨made, hg, -⟩ := silent_note h s
  exact ⟨made, hg, nofun⟩

theorem fails_modifyHost (change : HostState → HostState) :
    Fails own (modifyHost change : Step σ φ κ Unit) :=
  fun _ => ⟨[], ⟨rfl, rfl, rfl⟩, nofun⟩

theorem fails_setMotion (channel : Channel) (motion : Motion) :
    Fails own (setMotion channel motion : Step σ φ κ Unit) :=
  fun _ => ⟨[], ⟨rfl, rfl, rfl⟩, nofun⟩

theorem fails_setRampOnSet [Link σ φ] (channel : Channel) (enable : Bool) :
    Fails own (setRampOnSet channel enable : Step σ φ κ Unit) :=
  fun _ => ⟨[], ⟨rfl, rfl, rfl⟩, nofun⟩

theorem fails_range : Fails own (range : Step σ φ κ VoltageRange) :=
  .look fun _ => fails_pure _

/-- A step that is tried does not fail. -/
theorem fails_attempt {step : Step σ φ κ α} (h : ∀ s, Ends step s fun _ _ _ => True) :
    Fails own (attempt step) := by
  intro s
  refine (h s).attempt.mono ?_
  rintro made r s' - ⟨r', rfl, -⟩
  exact nofun

theorem Fails.forM {step : β → Step σ φ κ PUnit} (items : List β)
    (h : ∀ item, Fails own (step item)) : Fails own (items.forM step) := by
  induction items with
  | nil => exact fails_pure _
  | cons item items ih => exact (h item).bind fun _ => ih

theorem fails_understand (result : Except ReplyError α) :
    Fails Error.Late (understand result : Step σ φ κ α) := by
  refine fails_ofExcept fun capacity e he => ?_
  cases result with
  | ok a => cases he
  | error cause =>
      cases he
      exact .reply cause

theorem fails_ensure {e : Error φ} {condition : Bool}
    (h : ∀ capacity, condition = false → own capacity e) :
    Fails own (ensure e condition : Step σ φ κ Unit) := by
  refine fails_ofExcept fun capacity e' he => ?_
  cases condition with
  | true => cases he
  | false =>
      cases he
      exact h capacity rfl

theorem fails_exposePowerOn [Link σ φ] (channel : Channel) :
    Fails own (exposePowerOn channel : Step σ φ κ UInt32) :=
  fun _ => ⟨[], ⟨rfl, rfl, rfl⟩, nofun⟩

theorem fails_now [Clock κ] : Fails own (now : Step σ φ κ Instant) :=
  fun _ => ⟨[], ⟨rfl, rfl, rfl⟩, nofun⟩

theorem fails_startWait [Clock κ] : Fails own (startWait : Step σ φ κ Wait) :=
  fun _ => ⟨[], ⟨rfl, rfl, rfl⟩, nofun⟩

variable [Link σ φ]

theorem Fails.repeatUntil {round : Step σ φ κ Bool} (h : Fails own round)
    (draws : Draws 1 round) : Fails own (repeatUntil round draws) := by
  refine ends_repeatUntil (P := fun s made (r : Except (Error φ) Bool) _ =>
      FailsBy own s.capacity made r)
    (Q := fun s made (r : Except (Error φ) Unit) _ => FailsBy own s.capacity made r) h ?_ ?_ ?_
  · exact fun _ _ _ _ hfails => hfails.of_error
  · exact fun _ _ _ _ => nofun
  · intro s made s' made' r s'' hg _ hfails
    rw [hg.capacity] at hfails
    exact hfails.mono (fun _ he => he) (List.subset_append_left _ _)

/-! ## What is sent and what is read -/

theorem failsBy_ask {target : Target} {request : Request} {capacity room : Nat}
    {terminator : UInt8} {link link' : σ} {outcome : Except (Error φ) String}
    (h : Line.ask capacity terminator request.wire link = (outcome, link')) :
    FailsBy Error.Late room [⟨target, request, outcome⟩] outcome := by
  rintro e rfl
  refine (Line.late_of_ask (congrArg Prod.fst h)).imp_right ?_
  rintro rfl
  exact ⟨rfl, _, List.mem_singleton_self _, rfl⟩

theorem fails_exchange (target : Target) (request : Request) :
    Fails Error.Late (exchange target request : Step σ φ κ String) :=
  fun _ => ends_exchange_ask fun _ _ _ hask => failsBy_ask hask

theorem fails_transact {target : Target} {commands : List Command} (h : Plain target commands) :
    Fails Error.Late (transact target commands : Step σ φ κ String) := by
  intro s
  refine ends_transact_ask ?_ fun _ _ _ _ hask => failsBy_ask hask
  rintro hlong _ ⟨⟩
  exact .inl (.tooLong (Nat.lt_of_lt_of_le hlong h.length_wire_le))

theorem fails_selectSlot (slot : UInt8) :
    Fails Error.Late (selectSlot slot : Step σ φ κ Unit) :=
  (fails_transact (.selectSlot slot)).bind fun _ => (fails_understand _).bind fun _ =>
    (fails_ensure fun _ _ => .reply _).bind fun _ => fails_note nofun

theorem fails_selectChannel (channel : Channel) :
    Fails Error.Late (selectChannel channel : Step σ φ κ Unit) := by
  have hplain : Plain .instrument [.selectSlot (UInt8.ofNat channel.slot),
      .selectChannel (UInt8.ofNat channel.place)] := .selectChannel channel
  refine (fails_transact hplain).bind fun reply s => ?_
  have hget : s.perform get = (.ok s, s) := rfl
  refine Ends.bind_of_ok hget (.refl s) (Ends.ofExcept_bind ?_ fun echo _ => ?_)
  · rintro e he _ ⟨⟩
    unfold Command.encodeEcho Command.within at he
    split at he
    · cases he
    · next hlong =>
        cases he
        have hlength := hplain.length_wire_le
        rw [Command.length_flatMap_wire] at hlength
        exact .inl (.tooLong (by omega))
  · have hchecked : Fails Error.Late (ensure (.reply (.channelNotSelected channel))
        (Text.trim reply.toList == echo.toList) : Step σ φ κ Unit) :=
      fails_ensure fun _ _ => .reply _
    exact (hchecked.bind fun _ => fails_note (by simp)) s

theorem fails_moveCursor (address : UInt32) :
    Fails Error.Late (moveCursor address : Step σ φ κ Unit) :=
  (fails_transact (.moveCursor address)).bind fun _ => (fails_understand _).bind fun _ =>
    fails_ensure fun _ _ => .reply _

theorem fails_selectBank (bank : Bank) :
    Fails Error.Late (selectBank bank : Step σ φ κ Unit) := by
  cases bank with
  | main => exact fails_pure ()
  | slotEeprom slot => exact fails_selectSlot slot

theorem fails_transactSlot {slot : Fin slotCount} {commands : List Command}
    (h : Plain (.slot slot) commands) :
    Fails Error.Late (transactSlot slot commands : Step σ φ κ String) :=
  (fails_selectSlot _).bind fun _ => fails_transact h

theorem fails_command {channel : Channel} {commands : List Command}
    (h : Plain (.channel channel) commands) :
    Fails Error.Late (command channel commands : Step σ φ κ Unit) := by
  refine ((fails_selectChannel channel).bind fun _ => fails_transact h).bind fun reply => ?_
  exact (fails_understand _).bind fun _ => fails_pure ()

theorem fails_readCursor (bank : Bank) (address : UInt32) :
    Fails Error.Late (readCursor bank address : Step σ φ κ UInt32) :=
  (fails_transact (.query bank address)).bind fun _ => fails_understand _

theorem fails_readWords (bank : Bank) (words : Nat) (address : UInt32) (value : UInt64) :
    Fails Error.Late (readWords bank words address value : Step σ φ κ UInt64) := by
  induction words generalizing address value with
  | zero => exact fails_pure _
  | succ words ih =>
      refine Fails.bind ?_ fun word => ih _ _
      exact (fails_moveCursor address).bind fun _ => fails_readCursor bank address

/-- Reading once the address was found valid. -/
theorem fails_readFrom (bank : Bank) (words : Nat) (start : UInt32) :
    Fails Error.Late (do
      selectBank bank
      let value ← readWords bank words start 0
      note (.wordsRead value start words bank)
      return value : Step σ φ κ UInt64) :=
  (fails_selectBank bank).bind fun _ => (fails_readWords bank words start 0).bind fun _ =>
    (fails_note (by simp)).bind fun _ => fails_pure _

/-- Writing once the address and the value were found valid. -/
theorem fails_writeTo (bank : Bank) (target word : UInt32) :
    Fails Error.Late (do
      selectBank bank
      moveCursor target
      let _ ← transact (.word bank target) [bank.store word]
      let found ← readCursor bank target
      ensure (.reply (.notWritten target word)) (found == word)
      note (.wordWritten word target bank) : Step σ φ κ Unit) := by
  refine (fails_selectBank bank).bind fun _ => (fails_moveCursor target).bind fun _ => ?_
  refine (fails_transact (.store bank target word)).bind fun _ => ?_
  refine (fails_readCursor bank target).bind fun found => ?_
  exact (fails_ensure fun _ _ => .reply _).bind fun _ => fails_note (by simp)

theorem fails_readSetting (channel : Channel) (setting : Setting) :
    Fails Error.Late (readSetting channel setting : Step σ φ κ UInt64) := by
  obtain ⟨hsome, hfew, -, -⟩ := setting.readAccepted channel
  unfold readSetting read
  rw [if_neg (by omega), if_neg (by omega), validAddress_natCast (setting.address_le channel)]
  exact fails_readFrom .main setting.words _

theorem fails_readVolt (channel : Channel) (setting : Setting) :
    Fails Error.Late (readVolt channel setting : Step σ φ κ Float) :=
  (fails_readSetting channel setting).bind fun _ => fails_range.bind fun _ => fails_pure _

theorem fails_updatePeriod (channel : Channel) :
    Fails Error.Late (updatePeriod channel : Step σ φ κ UInt32) :=
  (fails_readSetting channel .updatePeriod).bind fun _ => fails_pure _

theorem fails_slope (channel : Channel) :
    Fails Error.Late (slope channel : Step σ φ κ Int64) :=
  (fails_readSetting channel .slope).bind fun _ => fails_pure _

variable [Clock κ]

theorem fails_tick (wait : Wait) : Fails Error.Late (tick wait : Step σ φ κ Unit) := by
  intro s
  unfold Ends Session.perform tick
  cases wait.tick (Link.stopRequested s.link) s.clock with
  | mk interruption? clock =>
      cases interruption? with
      | none => exact ⟨[], ⟨rfl, rfl, rfl⟩, nofun⟩
      | some interruption =>
          refine ⟨[], ⟨rfl, rfl, rfl⟩, ?_⟩
          rintro _ ⟨⟩
          cases interruption with
          | cancelled => exact .inl .cancelled
          | timedOut => exact .inl .timedOut

theorem fails_awaitRest (channel : Channel) (wait : Wait) :
    Fails Error.Late (awaitRest channel wait : Step σ φ κ Unit) := by
  refine Fails.repeatUntil ?_ _
  refine (fails_slope channel).bind fun slope => ?_
  split
  · exact fails_pure _
  · exact (fails_tick wait).bind fun _ => fails_pure _

theorem fails_settle (channel : Channel) :
    Fails Error.Late (settle channel : Step σ φ κ Unit) :=
  fails_startWait.bind fun wait => (fails_awaitRest channel wait).bind fun _ =>
    fails_setMotion channel .idle

end Step

end DacRack
