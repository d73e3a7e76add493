import DacRack.Proofs.Instrument
import DacRack.Proofs.Requests

/-!
# What the driver gets from the instrument

With an instrument at the other end, a transaction has one outcome, and so has every
step that is put together from transactions. `Gives setup n step I a I'` says that a
step makes the result `a` out of the instrument `I` and leaves it as `I'`, at the cost
of `n` answers, in any session that is served by the instrument. Steps in a row give
what they give one after the other (`Gives.bind`).

The link has bytes for so many answers yet (`Served.life`), each as long as the longest
there may be.
-/

namespace DacRack

/-- What stays the same while an instrument serves a session. -/
structure Setup where
  /-- The longest request and the longest answer, in bytes. -/
  room : Nat
  config : Config
  rampsOnSet : Channel → Bool

variable {κ α β : Type}

/-- A session with the instrument `I`, with room and life for `n` answers. -/
structure Served (setup : Setup) (I : Instrument) (n : Nat)
    (s : Session InstrumentLink FaultKind κ) : Prop where
  instrument : s.link.instrument = I
  unread : s.link.unread = []
  life : n * (setup.room + 1) ≤ s.link.life
  terminator : s.link.terminator = setup.config.terminator
  capacity : setup.room ≤ s.capacity
  config : s.config = setup.config
  rampOnSet : ∀ channel, (s.host.channelState channel).rampOnSet = setup.rampsOnSet channel

namespace Step

def Gives (setup : Setup) (n : Nat) (step : Step InstrumentLink FaultKind κ α)
    (I : Instrument) (a : α) (I' : Instrument) : Prop :=
  ∀ s m, Served setup I (n + m) s →
    ∃ s', s.perform step = (.ok a, s') ∧ Served setup I' m s'

variable {setup : Setup} {I I' I'' : Instrument}

theorem Gives.bind {m n : Nat} {step : Step InstrumentLink FaultKind κ α}
    {next : α → Step InstrumentLink FaultKind κ β} {a : α} {b : β}
    (h : Gives setup m step I a I') (hnext : Gives setup n (next a) I' b I'') :
    Gives setup (m + n) (step >>= next) I b I'' := by
  intro s k hs
  rw [Nat.add_assoc] at hs
  obtain ⟨s', hstep, hs'⟩ := h s (n + k) hs
  obtain ⟨s'', hnext, hs''⟩ := hnext s' k hs'
  refine ⟨s'', ?_, hs''⟩
  rw [Session.perform_bind, hstep]
  exact hnext

theorem Gives.mono {m n : Nat} {step : Step InstrumentLink FaultKind κ α} {a : α}
    (h : Gives setup m step I a I') (hmn : m ≤ n) : Gives setup n step I a I' := by
  intro s k hs
  obtain ⟨s', hstep, hs'⟩ := h s (n - m + k) (by rwa [← Nat.add_assoc, Nat.add_sub_of_le hmn])
  have hlife : k * (setup.room + 1) ≤ (n - m + k) * (setup.room + 1) :=
    Nat.mul_le_mul_right _ (Nat.le_add_left k (n - m))
  exact ⟨s', hstep, { hs' with life := Nat.le_trans hlife hs'.life }⟩

/-! Where only one of two steps asks anything, the cost is its own. -/

theorem Gives.bind_left {n : Nat} {step : Step InstrumentLink FaultKind κ α}
    {next : α → Step InstrumentLink FaultKind κ β} {a : α} {b : β}
    (h : Gives setup n step I a I') (hnext : Gives setup 0 (next a) I' b I'') :
    Gives setup n (step >>= next) I b I'' :=
  h.bind hnext

theorem Gives.bind_right {n : Nat} {step : Step InstrumentLink FaultKind κ α}
    {next : α → Step InstrumentLink FaultKind κ β} {a : α} {b : β}
    (h : Gives setup 0 step I a I') (hnext : Gives setup n (next a) I' b I'') :
    Gives setup n (step >>= next) I b I'' :=
  (h.bind hnext).mono (Nat.le_of_eq (Nat.zero_add n))

theorem Gives.get_bind {n : Nat}
    {next : Session InstrumentLink FaultKind κ → Step InstrumentLink FaultKind κ β} {b : β}
    (h : ∀ s, setup.room ≤ s.capacity → Gives setup n (next s) I b I') :
    Gives setup n (get >>= next) I b I' :=
  fun s m hs => h s hs.capacity s m hs

theorem Gives.channelState_bind {n : Nat} {channel : Channel}
    {next : ChannelState → Step InstrumentLink FaultKind κ β} {b : β}
    (h : ∀ state, state.rampOnSet = setup.rampsOnSet channel →
      Gives setup n (next state) I b I') :
    Gives setup n (channelState channel >>= next) I b I' :=
  fun s m hs => h _ (hs.rampOnSet channel) s m hs

theorem gives_pure (a : α) :
    Gives setup 0 (pure a : Step InstrumentLink FaultKind κ α) I a I := by
  intro s m hs
  rw [Nat.zero_add] at hs
  exact ⟨s, rfl, hs⟩

theorem gives_ofExcept {result : Except (Error FaultKind) α} {a : α} (h : result = .ok a) :
    Gives setup 0 (ofExcept result : Step InstrumentLink FaultKind κ α) I a I := by
  rw [h]
  exact gives_pure a

theorem gives_understand {result : Except ReplyError α} {a : α} (h : result = .ok a) :
    Gives setup 0 (understand result : Step InstrumentLink FaultKind κ α) I a I := by
  rw [h]
  exact gives_pure a

theorem gives_ensure {e : Error FaultKind} {condition : Bool} (h : condition = true) :
    Gives setup 0 (ensure e condition : Step InstrumentLink FaultKind κ Unit) I () I := by
  rw [h]
  exact gives_pure ()

theorem gives_note (entry : Note FaultKind) :
    Gives setup 0 (note entry : Step InstrumentLink FaultKind κ Unit) I () I := by
  intro s m hs
  rw [Nat.zero_add] at hs
  exact ⟨_, rfl, { hs with }⟩

theorem gives_range :
    Gives setup 0 (range : Step InstrumentLink FaultKind κ VoltageRange) I
      setup.config.range I := by
  intro s m hs
  rw [Nat.zero_add] at hs
  refine ⟨s, ?_, hs⟩
  rw [← hs.config]
  rfl

theorem gives_setMotion (channel : Channel) (motion : Motion) :
    Gives setup 0 (setMotion channel motion : Step InstrumentLink FaultKind κ Unit) I () I := by
  intro s m hs
  rw [Nat.zero_add] at hs
  refine ⟨_, rfl, { hs with rampOnSet := fun other => ?_ }⟩
  rw [← hs.rampOnSet other]
  by_cases h : other = channel
  · rw [h, HostState.channelState_updateChannel_self]
  · rw [HostState.channelState_updateChannel_of_ne _ _ h]

theorem gives_transact {target : Target} {commands : List Command}
    (hrequest : (commands.flatMap Command.wire).length ≤ setup.room)
    (hanswer : (I.answers commands).length ≤ setup.room) :
    Gives setup 1 (transact target commands : Step InstrumentLink FaultKind κ String) I
      (String.ofList (I.answers commands)) (I.afterAll commands) := by
  intro s m hs
  have hlife := hs.life
  rw [Nat.add_mul, Nat.one_mul] at hlife
  have hask : Line.ask s.capacity s.config.terminator (Request.commands commands).wire s.link =
      (.ok (String.ofList (I.answers commands)),
        { s.link with
          instrument := I.afterAll commands
          life := s.link.life - ((I.answers commands).length + 1) }) := by
    have hanswers : s.link.instrument.answers commands = I.answers commands := by
      rw [hs.instrument]
    rw [hs.config, ← hs.terminator, ← hanswers, ← hs.instrument]
    refine InstrumentLink.ask_commands hs.unread ?_ ?_
    · rw [hanswers]
      exact Nat.le_trans hanswer hs.capacity
    · rw [hanswers]
      omega
  have hencode : Command.encode s.capacity commands =
      some (String.ofList (commands.flatMap Command.wire)) := by
    rw [Command.encode, Command.within, if_pos (Nat.le_trans hrequest hs.capacity)]
  have hperform : s.perform (transact target commands) =
      s.perform (exchange target (.commands commands)) := by
    show s.perform (ofExcept (fitting (Command.encode s.capacity commands)) >>= fun _ =>
      exchange target (.commands commands)) = _
    rw [hencode]
    rfl
  rw [hperform]
  unfold Session.perform exchange
  rw [hask]
  refine ⟨_, rfl, { hs with instrument := rfl, life := ?_ }⟩
  show m * (setup.room + 1) ≤ s.link.life - ((I.answers commands).length + 1)
  omega

/-- Commands that are echoed, all of which fit. -/
theorem gives_echo {target : Target} {commands : List Command}
    (hecho : I.answers commands = commands.flatMap Command.echo)
    (hlength : (commands.flatMap Command.echo).length ≤ setup.room) :
    Gives setup 1 (transact target commands : Step InstrumentLink FaultKind κ String) I
      (String.ofList (commands.flatMap Command.echo)) (I.afterAll commands) := by
  have hwire : (commands.flatMap Command.wire).length ≤ setup.room := by
    rw [Command.length_flatMap_wire]
    exact hlength
  have h : Gives setup 1 (transact target commands : Step InstrumentLink FaultKind κ String) I
      (String.ofList (I.answers commands)) (I.afterAll commands) :=
    gives_transact hwire (by rw [hecho]; exact hlength)
  rw [hecho] at h
  exact h

theorem gives_moveCursor (address : UInt32) (hroom : 13 ≤ setup.room) :
    Gives setup 1 (moveCursor address : Step InstrumentLink FaultKind κ Unit) I ()
      { I with cursor := address } := by
  have hlt := address.toNat_lt
  have hlength : (Command.moveCursor address).echo.length ≤ 10 + 2 :=
    Command.length_echo_le_of_nat rfl (by omega) (by omega)
  refine (gives_echo rfl ?_).bind_left ?_
  · rw [List.flatMap_singleton]
    omega
  refine (gives_understand (a := (address.toNat : Int)) ?_).bind_left ?_
  · rw [String.toList_ofList, List.flatMap_singleton]
    refine Reply.number_echo rfl ?_
    rw [Text.fitsInt64_iff]
    omega
  · exact gives_ensure (beq_self_eq_true _)

theorem gives_selectChannel (channel : Channel) (hroom : 13 ≤ setup.room) :
    Gives setup 1 (selectChannel channel : Step InstrumentLink FaultKind κ Unit) I ()
      (I.select channel) := by
  have hslot : (Command.selectSlot (UInt8.ofNat channel.slot)).echo.length ≤ 3 + 2 :=
    Command.length_echo_le_of_nat rfl (by omega) (Nat.lt_trans (UInt8.toNat_lt _) (by decide))
  have hplace : (Command.selectChannel (UInt8.ofNat channel.place)).echo.length ≤ 3 + 2 :=
    Command.length_echo_le_of_nat rfl (by omega) (Nat.lt_trans (UInt8.toNat_lt _) (by decide))
  have hlength : ([Command.selectSlot (UInt8.ofNat channel.slot),
      Command.selectChannel (UInt8.ofNat channel.place)].flatMap Command.echo).length ≤
        setup.room := by
    rw [List.flatMap_cons, List.flatMap_singleton, List.length_append]
    omega
  refine (gives_echo rfl hlength).bind_left (Gives.get_bind fun s hcapacity => ?_)
  have hencode : Command.encodeEcho s.capacity
      [Command.selectSlot (UInt8.ofNat channel.slot),
        Command.selectChannel (UInt8.ofNat channel.place)] = some (String.ofList
      ([Command.selectSlot (UInt8.ofNat channel.slot),
        Command.selectChannel (UInt8.ofNat channel.place)].flatMap Command.echo)) := by
    rw [Command.encodeEcho, Command.within, if_pos (Nat.le_trans hlength hcapacity)]
  rw [hencode]
  refine (gives_ofExcept rfl).bind_left ?_
  refine (gives_ensure ?_).bind_left (gives_note _)
  rw [String.toList_ofList, Text.trim_eq_self]
  · exact beq_self_eq_true _
  · intro c hc
    obtain ⟨command, -, hc⟩ := List.mem_flatMap.mp hc
    exact (Instrument.visible_of_mem_echo hc).1

/-- Commands to a channel are executed with the channel active. -/
theorem gives_command {channel : Channel} {commands : List Command}
    (hroom : 13 ≤ setup.room) (hne : commands ≠ [])
    (hlength : (commands.flatMap Command.echo).length ≤ setup.room)
    (hecho : ∀ I : Instrument, I.answers commands = commands.flatMap Command.echo) :
    Gives setup 2 (command channel commands : Step InstrumentLink FaultKind κ Unit) I ()
      ((I.select channel).afterAll commands) := by
  let body := (commands.flatMap Command.echo).dropLast.drop 1
  have hask : Gives setup 2 (transactChannel channel commands :
      Step InstrumentLink FaultKind κ String) I _ _ :=
    (gives_selectChannel channel hroom).bind (n := 1) (gives_echo (hecho _) hlength)
  refine hask.bind_left ((gives_understand ?_).bind_left (gives_pure ()) (a := body))
  rw [String.toList_ofList]
  refine Reply.payload_of_getLast? (fun c hc => ?_) (Command.getLast?_flatMap_echo hne)
  obtain ⟨command, -, hc⟩ := List.mem_flatMap.mp hc
  exact (Instrument.visible_of_mem_echo hc).1

/-- Both ways to write a word stand for it. -/
theorem ofInt_written (I : Instrument) (word : UInt32) :
    UInt32.ofInt (I.written word) = word ∧ -2 ^ 31 ≤ I.written word ∧
      I.written word < 2 ^ 32 := by
  have hlt := word.toNat_lt
  unfold Instrument.written
  split
  · exact ⟨ofInt_eq_iff.mpr (signed_word word).1, (signed_word word).2⟩
  · exact ⟨ofInt_eq_iff.mpr (by omega), by omega, by omega⟩

/-- The word under the cursor, however it is written. -/
theorem gives_readCursor {bank : Bank} (hfaces : I.Faces bank) (address : UInt32)
    (hroom : 13 ≤ setup.room) :
    Gives setup 1 (readCursor bank address : Step InstrumentLink FaultKind κ UInt32) I
      (I.words bank I.cursor) { I with asked := I.asked + 1 } := by
  obtain ⟨hword, hlo, hhi⟩ := ofInt_written I (I.words bank I.cursor)
  have hanswers := Instrument.answers_query hfaces
  have hlength : (I.answers [bank.query]).length ≤ setup.room := by
    have hdigits : (Text.intDigits (I.written (I.words bank I.cursor))).length ≤ 10 + 1 :=
      Text.length_intDigits_le (by omega) (by omega)
    rw [hanswers, List.length_append, List.length_cons, List.length_singleton]
    omega
  have hwire : ([bank.query].flatMap Command.wire).length ≤ setup.room := by
    have hlength : ([bank.query].flatMap Command.wire).length = 2 := by cases bank <;> rfl
    omega
  have hafter : I.afterAll [bank.query] = { I with asked := I.asked + 1 } := by
    cases bank <;> rfl
  rw [← hafter]
  refine (gives_transact hwire hlength).bind_left (gives_understand ?_)
  rw [String.toList_ofList, hanswers]
  exact Reply.word_eq (by cases bank <;> rfl) hword hlo hhi

theorem gives_readWord {bank : Bank} (hfaces : I.Faces bank) (address : UInt32)
    (hroom : 13 ≤ setup.room) :
    Gives setup 2 (readWord bank address : Step InstrumentLink FaultKind κ UInt32) I
      (I.words bank address) { I with cursor := address, asked := I.asked + 1 } :=
  (gives_moveCursor address hroom).bind (n := 1)
    (gives_readCursor (I := { I with cursor := address }) hfaces address hroom)

theorem gives_selectSlot (slot : UInt8) (hroom : 13 ≤ setup.room) :
    Gives setup 1 (selectSlot slot : Step InstrumentLink FaultKind κ Unit) I ()
      { I with slot } := by
  have hlt := slot.toNat_lt
  have hlength : (Command.selectSlot slot).echo.length ≤ 3 + 2 :=
    Command.length_echo_le_of_nat rfl (by omega) (by omega)
  refine (gives_echo rfl ?_).bind_left ?_
  · rw [List.flatMap_singleton]
    omega
  refine (gives_understand (a := (slot.toNat : Int)) ?_).bind_left ?_
  · rw [String.toList_ofList, List.flatMap_singleton]
    refine Reply.number_echo rfl ?_
    rw [Text.fitsInt64_iff]
    omega
  · exact (gives_ensure (beq_self_eq_true _)).bind_left (gives_note _)

/-- How many slots are selected to get at a bank. -/
def selections : Bank → Nat
  | .main => 0
  | .slotEeprom _ => 1

theorem gives_selectBank (bank : Bank) (hroom : 13 ≤ setup.room) :
    Gives setup (selections bank)
      (selectBank bank : Step InstrumentLink FaultKind κ Unit) I () (I.turnTo bank) := by
  cases bank with
  | main => exact gives_pure ()
  | slotEeprom slot => exact gives_selectSlot slot hroom

theorem gives_read {address words n : Nat} {bank : Bank} {value : UInt64}
    (hwords : words = 1 ∨ words = 2) (h : address ≤ maxAddress) (hroom : 13 ≤ setup.room)
    (hread : Gives setup n
      (readWords bank words (UInt32.ofNat address) 0 : Step InstrumentLink FaultKind κ UInt64)
      (I.turnTo bank) value I') :
    Gives setup (selections bank + n)
      (read address words bank : Step InstrumentLink FaultKind κ UInt64) I value I' := by
  unfold read
  rw [if_neg (by omega), if_neg (by omega)]
  refine (gives_ofExcept (validAddress_natCast h)).bind_right ?_
  refine (gives_selectBank bank hroom).bind ?_
  exact hread.bind_left ((gives_note _).bind_left (gives_pure value))

theorem gives_readOne (bank : Bank) {address : Nat} (h : address ≤ maxAddress)
    (hroom : 13 ≤ setup.room) :
    Gives setup (selections bank + 2)
      (read address 1 bank : Step InstrumentLink FaultKind κ UInt64) I
      (I.words bank (UInt32.ofNat address)).toUInt64
      { I.turnTo bank with
        cursor := UInt32.ofNat address, asked := (I.turnTo bank).asked + 1 } := by
  have hfaces := I.faces_turnTo bank
  rw [← I.words_turnTo bank]
  refine gives_read (.inl rfl) h hroom ((gives_readWord hfaces _ hroom).bind_left ?_)
  have hvalue (word : UInt32) : (0 : UInt64) <<< 32 ||| word.toUInt64 = word.toUInt64 :=
    UInt64.zero_or
  rw [hvalue]
  exact gives_pure _

/-- Two words make up one number, the high one first. -/
theorem gives_readTwo (bank : Bank) {address : Nat} (h : address + 1 ≤ maxAddress)
    (hroom : 13 ≤ setup.room) :
    Gives setup (selections bank + 4)
      (read address 2 bank : Step InstrumentLink FaultKind κ UInt64) I
      ((I.words bank (UInt32.ofNat address)).toUInt64 <<< 32 |||
        (I.words bank (UInt32.ofNat (address + 1))).toUInt64)
      { I.turnTo bank with
        cursor := UInt32.ofNat (address + 1), asked := (I.turnTo bank).asked + 2 } := by
  have hfaces := I.faces_turnTo bank
  rw [← I.words_turnTo bank]
  refine gives_read (.inr rfl) (by omega) hroom ?_
  refine (gives_readWord hfaces _ hroom).bind (n := 2) ?_
  have hnext : UInt32.ofNat address + 1 = UInt32.ofNat (address + 1) :=
    (UInt32.ofNat_add address 1).symm
  have hvalue (word : UInt32) : (0 : UInt64) <<< 32 ||| word.toUInt64 = word.toUInt64 :=
    UInt64.zero_or
  rw [hvalue, hnext]
  exact (gives_readWord (I := { I.turnTo bank with
    cursor := UInt32.ofNat address, asked := (I.turnTo bank).asked + 1 }) hfaces _ hroom).bind_left
      (gives_pure _)

end Step

end DacRack
