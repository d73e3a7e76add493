import DacRack.Proofs.Motion
import DacRack.Proofs.Selection

/-!
# Which slots and words are asked for

The cursor goes where a word is to be read or written, and a slot is selected for itself,
for a channel or for its EEPROM. So what is asked for is told by what a call acts on
(`Aimed.within`, `Aimed.slot_lt_or`), which is mostly there: channels and slots are
numbered by their types, and an address is checked before anything is sent.

Two things are not covered by that. An address is checked as the first of the words to be
read, and the second of two can lie beyond the end of the memory. And the slot of an EEPROM
is not checked at all. Both are reached by a call that names them, and then they are asked
for, if only the buffer has room for the command: a slot because its selection comes first
(`opens_call`), the second word because it follows the first as soon as that was read
(`ends_read_two`).
-/

namespace DacRack

variable {σ φ κ α β : Type}

namespace Request

/-- The request carries a command of the driver's. -/
def Carries (command : Command) (request : Request) : Prop :=
  ∃ commands, request = .commands commands ∧ command ∈ commands

/-- The request moves the cursor no further than that. -/
def Within (limit : Nat) (request : Request) : Prop :=
  ∀ address, request.Carries (.moveCursor address) → address.toNat ≤ limit

/-- The request moves the cursor out of the memory. -/
def Strays (request : Request) : Prop :=
  ∃ address, request.Carries (.moveCursor address) ∧ maxAddress < address.toNat

theorem Within.not_strays {request : Request} (h : request.Within maxAddress) :
    ¬ request.Strays := by
  rintro ⟨address, hmove, hlt⟩
  exact absurd (h address hmove) (Nat.not_le_of_lt hlt)

/-- A command has room where the row it is part of has. -/
theorem Carries.length_wire_le {command : Command} {request : Request} {capacity : Nat}
    (h : request.Carries command) (hfits : request.Fits capacity) :
    command.wire.length ≤ capacity := by
  obtain ⟨commands, rfl, hmem⟩ := h
  obtain ⟨before, after, rfl⟩ := List.append_of_mem hmem
  have hlength := hfits _ rfl
  simp only [List.flatMap_append, List.flatMap_cons, List.length_append] at hlength
  omega

end Request

namespace Aimed

variable {aims : Target → Prop} {text? : Option (Target × String)} {target : Target}
  {request : Request}

/-- The cursor goes no further than the words that are acted on. -/
theorem within (h : Aimed aims text? target request) {limit : Nat}
    (hlimit : ∀ bank address, aims (.word bank address) → address.toNat ≤ limit) :
    request.Within limit := by
  rintro address ⟨commands, hrequest, hmem⟩
  obtain ⟨bank, haims⟩ := (h.selects commands hrequest).word address hmem
  exact hlimit bank address haims

/-- A slot is selected that is there, or one whose EEPROM is acted on. -/
theorem slot_lt_or (h : Aimed aims text? target request) {slot : UInt8}
    (hselect : request.Carries (.selectSlot slot)) :
    slot.toNat < slotCount ∨ ∃ address, aims (.word (.slotEeprom slot) address) := by
  obtain ⟨commands, hrequest, hmem⟩ := hselect
  exact (h.selects commands hrequest).slot slot hmem

end Aimed

/-- No word outside the memory. -/
def Target.InMemory : Target → Prop
  | .word _ address => address.toNat ≤ maxAddress
  | _ => True

theorem inMemory_maxAddress {bank : Bank} :
    Target.InMemory (.word bank (UInt32.ofInt maxAddress)) := by
  show (UInt32.ofInt maxAddress).toNat ≤ maxAddress
  decide +kernel

namespace Step

/-- The step adds transactions, and takes none back. -/
def Grows (step : Step σ φ κ α) : Prop :=
  ∀ s, Ends step s fun _ _ _ => True

theorem Silent.grows {step : Step σ φ κ α} (h : Silent step) : Grows step :=
  fun s => (h s).mono fun _ _ _ _ _ => trivial

/-- The step asks for the command, if there is room for it, however it goes on. -/
def Opens (command : Command) (step : Step σ φ κ α) : Prop :=
  ∀ s, command.wire.length ≤ s.capacity →
    Ends step s fun made _ _ => ∃ e ∈ made, e.request.Carries command

theorem Opens.bind {command : Command} {step : Step σ φ κ α} {next : α → Step σ φ κ β}
    (h : Opens command step) (hnext : ∀ a, Grows (next a)) : Opens command (step >>= next) := by
  intro s hroom
  refine (h s hroom).bind (fun _ _ _ _ hmade => hmade) fun made a s' _ hmade => ?_
  refine (hnext a s').mono fun made' r s'' _ _ => ?_
  obtain ⟨e, he, hcarries⟩ := hmade
  exact ⟨e, List.mem_append_right _ he, hcarries⟩

variable [Link σ φ]

theorem Built.grows {may : Target → Request → Prop} {step : Step σ φ κ α}
    (h : Built may step) : Grows step :=
  fun s => (h.fits s).mono fun _ _ _ _ _ => trivial

theorem opens_transact (target : Target) (command : Command) :
    Opens command (transact target [command] : Step σ φ κ String) := by
  intro s hroom
  refine ends_transact_ask (fun hlong => ?_) fun outcome s' _ _ _ => ?_
  · rw [List.flatMap_singleton] at hlong
    exact absurd hroom (Nat.not_le_of_lt hlong)
  · exact ⟨_, List.mem_singleton_self _, _, rfl, List.mem_singleton_self _⟩

theorem opens_selectSlot (slot : UInt8) :
    Opens (.selectSlot slot) (selectSlot slot : Step σ φ κ Unit) :=
  (opens_transact _ _).bind fun _ => ((silent_understand _).bind fun _ =>
    (silent_ensure _ _).bind fun _ => silent_note (by simp)).grows

theorem opens_moveCursor (address : UInt32) :
    Opens (.moveCursor address) (moveCursor address : Step σ φ κ Unit) :=
  (opens_transact _ _).bind fun _ =>
    ((silent_understand _).bind fun _ => silent_ensure _ _).grows

theorem grows_readCursor (bank : Bank) (address : UInt32) :
    Grows (readCursor bank address : Step σ φ κ UInt32) := by
  have h : Built (Aimed (fun _ => True) none) (readCursor bank address : Step σ φ κ UInt32) :=
    built_readCursor trivial
  exact h.grows

theorem grows_readWords (bank : Bank) {words : Nat} {first : UInt32}
    (hfirst : first.toNat + words ≤ UInt32.size) (value : UInt64) :
    Grows (readWords bank words first value : Step σ φ κ UInt64) := by
  have h : Built (Aimed (fun _ => True) none)
      (readWords bank words first value : Step σ φ κ UInt64) :=
    built_readWords trivial words hfirst (fun _ _ _ => trivial) value
  exact h.grows

/-! A read or a write that is accepted goes to the bank before it does anything else. -/

theorem read_eq {address : Int} {words : Nat} (h : ReadAccepted address words) (bank : Bank) :
    (read address words bank : Step σ φ κ UInt64) =
      (selectBank bank >>= fun _ => readWords bank words (UInt32.ofInt address) 0) >>=
        fun value => note (.wordsRead value (UInt32.ofInt address) words bank) >>= fun _ =>
          pure value := by
  obtain ⟨hsome, hfew, hnonneg, hmax⟩ := h
  rw [read, if_neg (by omega), if_neg (by omega), validAddress_of_le hnonneg hmax, bind_assoc]
  rfl

theorem opens_read {slot : UInt8} {address : Int} {words : Nat}
    (h : ReadAccepted address words) :
    Opens (.selectSlot slot) (read address words (.slotEeprom slot) : Step σ φ κ UInt64) := by
  rw [read_eq h]
  refine ((opens_selectSlot slot).bind fun _ => grows_readWords _ ?_ _).bind fun value => ?_
  · obtain ⟨-, hfew, hnonneg, hmax⟩ := h
    simp only [maxAddress] at hmax
    have hnat := toNat_ofInt hnonneg (by omega)
    simp only [UInt32.size]
    omega
  · exact ((silent_note (by simp)).bind fun _ => silent_pure value).grows

theorem opens_write {slot : UInt8} {address value : Int} (h : WriteAccepted address value) :
    Opens (.selectSlot slot) (write address value (.slotEeprom slot) : Step σ φ κ Unit) := by
  obtain ⟨hnonneg, hmax, hvalue, hlt⟩ := h
  rw [write, validAddress_of_le hnonneg hmax]
  show Opens _ (ofExcept (validWord (UInt32.ofInt address) value) >>= _)
  rw [validWord_of_lt ⟨hvalue, hlt⟩]
  refine (opens_selectSlot slot).bind fun _ => ?_
  refine Built.grows (?_ : Built (Aimed (fun _ => True) none) _)
  exact built_storeWord trivial trivial _

/-! Reading two words from the end of the memory. -/

section

variable {bank : Bank} {s : Session σ φ κ}

/-- Reads the last word of the memory. -/
def readLast (bank : Bank) : Step σ φ κ UInt32 := do
  selectBank bank
  readWord bank (UInt32.ofInt maxAddress)

theorem read_maxAddress {words : Nat} (h : words ≤ 1) :
    (read maxAddress (words + 1) bank : Step σ φ κ UInt64) =
      readLast bank >>= fun word =>
        readWords bank words (UInt32.ofInt maxAddress + 1) ((0 : UInt64) <<< 32 ||| word.toUInt64) >>=
          fun value =>
            note (.wordsRead value (UInt32.ofInt maxAddress) (words + 1) bank) >>= fun _ =>
              pure value := by
  rw [read_eq ⟨by omega, by omega, by decide, by decide⟩]
  simp only [readLast, readWords, bind_assoc]

theorem read_last_ok_iff :
    (∃ value, (s.perform (read maxAddress 1 bank)).1 = .ok value) ↔
      ∃ word, (s.perform (readLast bank)).1 = .ok word := by
  rw [read_maxAddress (Nat.zero_le 1), Session.perform_bind]
  cases s.perform (readLast bank) with
  | mk r s' =>
      cases r with
      | error e => exact ⟨nofun, nofun⟩
      | ok word => exact ⟨fun _ => ⟨word, rfl⟩, fun _ => ⟨_, rfl⟩⟩

/-- Where the last word can be asked for, so can one more: both addresses have as many
digits. -/
theorem length_wire_past_end :
    (Command.moveCursor (UInt32.ofInt maxAddress + 1)).wire.length =
      (Command.moveCursor (UInt32.ofInt maxAddress)).wire.length := by
  decide +kernel

theorem ends_readLast :
    Ends (readLast bank) s fun made r _ => (∀ e ∈ made, ¬ e.request.Strays) ∧
      ((∃ word, r = .ok word) →
        (Command.moveCursor (UInt32.ofInt maxAddress)).wire.length ≤ s.capacity) := by
  have hselect : Built (Aimed Target.InMemory none) (selectBank bank : Step σ φ κ Unit) :=
    built_selectBank trivial inMemory_maxAddress
  have hbuilt : Built (Aimed Target.InMemory none) (readLast bank : Step σ φ κ UInt32) :=
    hselect.bind fun _ => built_readWord trivial inMemory_maxAddress
  have hcarries : Ends (readLast bank) s fun made r _ => (∃ word, r = .ok word) →
      ∃ e ∈ made, e.request.Carries (.moveCursor (UInt32.ofInt maxAddress)) := by
    refine (hselect.grows s).bind (fun _ _ _ _ _ => nofun) fun made _ s' _ _ => ?_
    refine (ends_moveCursor _ s').bind (fun _ _ _ _ _ => nofun) fun made' _ s'' _ hends => ?_
    obtain ⟨-, -, hok⟩ := hends
    obtain ⟨move, rfl, hrequest, -⟩ := hok rfl
    refine (grows_readCursor _ _ s'').mono fun made'' r s₃ _ _ _ => ⟨move, by simp, ?_⟩
    exact ⟨_, hrequest, List.mem_singleton_self _⟩
  refine (((hbuilt.sends s).and (hbuilt.fits s)).and hcarries).mono ?_
  rintro made r s' - ⟨⟨hsent, hfits⟩, hcarries⟩
  refine ⟨fun e he => ((hsent e he).within fun _ _ h => h).not_strays, fun hr => ?_⟩
  obtain ⟨e, he, hmove⟩ := hcarries hr
  exact hmove.length_wire_le (hfits e he)

/-- The second word is asked for as soon as the first was read. -/
theorem ends_read_two :
    Ends (read maxAddress 2 bank) s fun made _ _ => (∃ e ∈ made, e.request.Strays) ↔
      ∃ value, (s.perform (read maxAddress 1 bank)).1 = .ok value := by
  rw [read_last_ok_iff, read_maxAddress (Nat.le_refl 1)]
  refine ends_readLast.result.bind ?_ ?_
  · rintro made e s' - ⟨⟨hno, -⟩, hr⟩
    rw [hr]
    exact ⟨fun ⟨e, he, hstrays⟩ => absurd hstrays (hno e he), nofun⟩
  · rintro made word s' hg ⟨⟨-, hroom⟩, hr⟩
    have hopens : Opens (.moveCursor (UInt32.ofInt maxAddress + 1))
        (readWords bank 1 (UInt32.ofInt maxAddress + 1)
          ((0 : UInt64) <<< 32 ||| word.toUInt64) : Step σ φ κ UInt64) :=
      ((opens_moveCursor _).bind fun _ => grows_readCursor _ _).bind fun _ => (silent_pure _).grows
    rw [← length_wire_past_end, ← hg.capacity] at hroom
    refine Ends.mono ((hopens.bind fun value => ?_) s' (hroom ⟨word, rfl⟩))
      fun made' r s'' _ hcarries => ?_
    · exact ((silent_note (by simp)).bind fun _ => silent_pure value).grows
    · obtain ⟨e, he, hmove⟩ := hcarries
      refine ⟨fun _ => ⟨word, hr⟩, fun _ => ⟨e, List.mem_append_left _ he, _, hmove, ?_⟩⟩
      decide +kernel

end

end Step

/-- The call reads or writes words of the EEPROM of a slot, and is accepted. -/
def Call.Accesses (slot : UInt8) : Call → Prop
  | read address words bank => bank = .slotEeprom slot ∧ ReadAccepted address words
  | write address value bank => bank = .slotEeprom slot ∧ WriteAccepted address value
  | _ => False

/-- Only as the place of an EEPROM a slot comes in that is not there. -/
theorem Call.Touches.accesses {call : Call} {slot : UInt8} {address : UInt32}
    (h : call.Touches (.word (.slotEeprom slot) address)) (hslot : slotCount ≤ slot.toNat) :
    call.Accesses slot := by
  obtain ⟨hnamed, heeprom, haccepted, -⟩ := h
  cases call with
  | identify =>
      obtain ⟨rfl, -⟩ := hnamed
      exact absurd hslot (by decide)
  | setAll | rampAll => cases heeprom trivial
  | read first words bank => exact ⟨hnamed.1.symm, haccepted _ _ rfl⟩
  | write first value bank => exact ⟨hnamed.1.symm, haccepted _ _ rfl⟩
  | ask | onSlot => exact hnamed.elim
  | onChannel channel call =>
      obtain rfl : slot = UInt8.ofNat channel.slot := hnamed
      rw [toNat_ofNat_slot] at hslot
      exact absurd channel.slot.isLt (Nat.not_lt_of_le hslot)

section

variable [Link σ φ] [Clock κ]

namespace Step

theorem opens_call {call : Call} {slot : UInt8} (h : call.Accesses slot) :
    Opens (.selectSlot slot) (call.run : Step σ φ κ Answer) := by
  cases call with
  | read address words bank =>
      obtain ⟨rfl, hread⟩ := h
      exact (opens_read hread).bind fun _ => (silent_pure _).grows
  | write address value bank =>
      obtain ⟨rfl, hwrite⟩ := h
      exact (opens_write hwrite).bind fun _ => (silent_pure _).grows
  | _ => exact h.elim

theorem built_call (call : Call) :
    Built (Aimed call.Touches call.asks?) (call.run : Step σ φ κ Answer) := by
  refine (composed_call_of_touches call fun _ h => h).built ?_
  exact ⟨call.aims_instrument, nofun, nofun, nofun⟩

/-- A slot that is not there is selected by a call that is to act on its EEPROM. -/
theorem ends_call_selects {slot : UInt8} (hslot : slotCount ≤ slot.toNat)
    (s : Session σ φ κ) (call : Call) :
    Ends call.run s fun made _ _ => (∃ e ∈ made, e.request.Carries (.selectSlot slot)) ↔
      (Command.selectSlot slot).wire.length ≤ s.capacity ∧ call.Accesses slot := by
  by_cases hopens : (Command.selectSlot slot).wire.length ≤ s.capacity ∧ call.Accesses slot
  · refine (opens_call hopens.2 s hopens.1).mono fun made r s' _ hcarries => ?_
    exact ⟨fun _ => hopens, fun _ => hcarries⟩
  · refine (((built_call call).sends s).and ((built_call call).fits s)).mono ?_
    rintro made r s' - ⟨hsent, hfits⟩
    refine ⟨fun ⟨e, he, hselect⟩ => ⟨hselect.length_wire_le (hfits e he), ?_⟩,
      fun h => absurd h hopens⟩
    rcases (hsent e he).slot_lt_or hselect with hlt | ⟨address, h⟩
    · exact absurd hlt (Nat.not_lt_of_le hslot)
    · exact h.accesses hslot

/-- The cursor leaves the memory for the second of two words. -/
theorem ends_call_strays (s : Session σ φ κ) (call : Call) :
    Ends call.run s fun made _ _ => (∃ e ∈ made, e.request.Strays) ↔
      ∃ bank value, call = .read maxAddress 2 bank ∧
        (s.perform (read maxAddress 1 bank)).1 = .ok value := by
  by_cases h : ∃ bank, call = .read maxAddress 2 bank
  · obtain ⟨bank, rfl⟩ := h
    have hread : Ends (Call.read maxAddress 2 bank).run s fun made _ _ =>
        (∃ e ∈ made, e.request.Strays) ↔
          ∃ value, (s.perform (read maxAddress 1 bank)).1 = .ok value :=
      ends_read_two.bind (fun _ _ _ _ h => h) fun _ _ _ _ h => ends_pure h
    refine hread.mono fun made r s' _ hiff => hiff.trans ?_
    constructor
    · rintro ⟨value, hvalue⟩
      exact ⟨bank, value, rfl, hvalue⟩
    · rintro ⟨_, value, ⟨⟩, hvalue⟩
      exact ⟨value, hvalue⟩
  · refine ((built_call call).sends s).mono fun made r s' _ hsent => ?_
    constructor
    · rintro ⟨e, he, hstrays⟩
      have hwithin : e.request.Within maxAddress :=
        (hsent e he).within fun bank address htouches =>
          (htouches.within bank address rfl).resolve_right fun hend => h ⟨bank, hend.1⟩
      exact absurd hstrays hwithin.not_strays
    · rintro ⟨bank, value, rfl, -⟩
      exact absurd ⟨bank, rfl⟩ h

theorem built_connect :
    Built (Aimed (fun target => Probed target ∨ ∃ slot, target = .slot slot) none)
      (connect : Step σ φ κ Unit) :=
  (composed_connect (fun _ h => .inl h) fun slot => .inr ⟨slot, rfl⟩).built (.inl trivial)

theorem ends_connect_selects {slot : UInt8} (hslot : slotCount ≤ slot.toNat)
    (s : Session σ φ κ) :
    Ends connect s fun made _ _ => ∀ e ∈ made, ¬ e.request.Carries (.selectSlot slot) := by
  refine (built_connect.sends s).mono fun made r s' _ hsent e he hselect => ?_
  rcases (hsent e he).slot_lt_or hselect with hlt | ⟨address, ⟨rfl, -⟩ | ⟨_, h⟩⟩
  · exact absurd hlt (Nat.not_lt_of_le hslot)
  · exact absurd hslot (by decide)
  · cases h

/-- Connecting stays with the words that are probed. -/
theorem sends_connect_within :
    Sends (fun _ request => request.Within maxAddress) (connect : Step σ φ κ Unit) := by
  refine built_connect.sends.mono fun target request h => h.within fun bank address haims => ?_
  rcases haims with hprobed | ⟨_, hslot⟩
  · exact hprobed.le_maxAddress
  · cases hslot

/-- A call never goes further than one word beyond the memory. -/
theorem sends_call_within (call : Call) :
    Sends (fun _ request => request.Within (maxAddress + 1))
      (call.run : Step σ φ κ Answer) := by
  refine (built_call call).sends.mono fun target request h =>
    h.within fun bank address htouches => ?_
  rcases htouches.within bank address rfl with hle | ⟨-, heq⟩
  · exact Nat.le_succ_of_le hle
  · exact Nat.le_of_eq heq

theorem ends_connect_strays (s : Session σ φ κ) :
    Ends connect s fun made _ _ => ∀ e ∈ made, ¬ e.request.Strays :=
  (sends_connect_within s).mono fun _ _ _ _ hsent e he => (hsent e he).not_strays

end Step

/-- A run makes a transaction of a kind that connecting makes none of where one of its calls
does. -/
theorem exists_connected_run_iff {kind : Exchange φ → Prop}
    {makes : Session σ φ κ → Call → Prop}
    (hconnect : ∀ s : Session σ φ κ,
      Step.Ends Step.connect s fun made _ _ => ∀ e ∈ made, ¬ kind e)
    (hcall : ∀ s (call : Call),
      Step.Ends call.run s fun made _ _ => (∃ e ∈ made, kind e) ↔ makes s call)
    (start : Session σ φ κ) (calls : List Call) :
    let opened := (start.perform Step.connect).2
    ∃ made, start.Grown (opened.performAll calls) made ∧ ((∃ e ∈ made, kind e) ↔
      ∃ before call after, calls = before ++ call :: after ∧
        makes (opened.performAll before) call) := by
  intro opened
  obtain ⟨made, hg, hnone⟩ := hconnect start
  obtain ⟨made', hg', hiff⟩ := exists_performAll_iff hcall calls opened
  refine ⟨made' ++ made, hg.trans hg', ?_⟩
  rw [← hiff]
  constructor
  · rintro ⟨e, he, hkind⟩
    rcases List.mem_append.mp he with he | he
    · exact ⟨e, he, hkind⟩
    · exact absurd hkind (hnone e he)
  · rintro ⟨e, he, hkind⟩
    exact ⟨e, List.mem_append_left _ he, hkind⟩

/-- The cursor goes one beyond the memory at most. It does so just where two words are read
from the end of the memory and the first of them is read. -/
theorem cursor_strays_iff (start : Session σ φ κ) (calls : List Call) :
    let opened := (start.perform Step.connect).2
    ∃ made, (opened.performAll calls).journal.exchanges = made ++ start.journal.exchanges ∧
      (∀ e ∈ made, ∀ address, e.request.Carries (.moveCursor address) →
        address.toNat ≤ maxAddress + 1) ∧
      ((∃ e ∈ made, ∃ address, e.request.Carries (.moveCursor address) ∧
          maxAddress < address.toNat) ↔
        ∃ before bank after value, calls = before ++ .read maxAddress 2 bank :: after ∧
          ((opened.performAll before).perform (Step.read maxAddress 1 bank)).1 = .ok value) := by
  intro opened
  obtain ⟨made, hg, hwithin⟩ := sends_connected_run
    (Step.sends_connect_within.mono fun _ _ h address hmove => Nat.le_succ_of_le (h address hmove))
    Step.sends_call_within start calls
  obtain ⟨made', hg', hiff⟩ := exists_connected_run_iff Step.ends_connect_strays
    Step.ends_call_strays start calls
  obtain rfl := hg.unique hg'
  refine ⟨made, hg.exchanges, hwithin, hiff.trans ?_⟩
  constructor
  · rintro ⟨before, _, after, hcalls, bank, value, rfl, hvalue⟩
    exact ⟨before, bank, after, value, hcalls, hvalue⟩
  · rintro ⟨before, bank, after, value, hcalls, hvalue⟩
    exact ⟨before, _, after, hcalls, bank, value, rfl, hvalue⟩

/-- A plain instrument that has something to say for the last word and one more. -/
def atEnd : Session ScriptedLink FaultKind SteppingClock :=
  connecting ["A1107296266!", "p139!", "A1107296267!", "p0!"]

theorem exists_strays_atEnd :
    ∃ e ∈ ((atEnd.perform Step.connect).2.performAll
        [.read maxAddress 2 .main]).journal.exchanges,
      ∃ address, e.request.Carries (.moveCursor address) ∧ maxAddress < address.toNat := by
  have hread : ((atEnd.perform Step.connect).2.perform
      (Step.read maxAddress 1 .main)).1.toOption = some 139 := by
    decide +kernel
  obtain ⟨value, hvalue⟩ : ∃ value, ((atEnd.perform Step.connect).2.perform
      (Step.read maxAddress 1 .main)).1 = .ok value := by
    cases hr : ((atEnd.perform Step.connect).2.perform (Step.read maxAddress 1 .main)).1 with
    | ok value => exact ⟨value, rfl⟩
    | error e =>
        rw [hr] at hread
        cases hread
  obtain ⟨made, hmade, -, hiff⟩ := cursor_strays_iff atEnd [.read maxAddress 2 .main]
  obtain ⟨e, he, hstrays⟩ := hiff.mpr ⟨[], .main, [], value, rfl, hvalue⟩
  exact ⟨e, by rw [hmade]; exact List.mem_append_left _ he, hstrays⟩

/-- A slot that is not there is refused where a call names it as a slot. As the place of an
EEPROM it is not: it is selected just where there is room for the command and a word of its
EEPROM is to be read or written. -/
theorem missing_slot_selected_iff (start : Session σ φ κ) (calls : List Call) :
    let opened := (start.perform Step.connect).2
    (∀ (s : Session σ φ κ) (number : Nat) (call : SlotCall), slotCount ≤ number →
      s.perform (Call.onSlot number call).run = (.error (.badParameter .slotIndex), s)) ∧
    ∃ made, (opened.performAll calls).journal.exchanges = made ++ start.journal.exchanges ∧
      ∀ slot : UInt8, slotCount ≤ slot.toNat →
        ((∃ e ∈ made, e.request.Carries (.selectSlot slot)) ↔
          (Command.selectSlot slot).wire.length ≤ start.capacity ∧
            ∃ call ∈ calls, call.Accesses slot) := by
  intro opened
  constructor
  · intro s number call hnumber
    show s.perform (Step.slotNumbered number >>= fun slot => call.run slot) = _
    rw [Step.slotNumbered, dif_neg (Nat.not_lt_of_le hnumber)]
    rfl
  have hgrown (calls : List Call) :
      ∃ made, start.Grown (opened.performAll calls) made := by
    obtain ⟨_, hopened, -⟩ := Step.built_connect.grows start
    obtain ⟨_, hcalls, -⟩ := ends_performAll (R := fun _ _ _ => True) (fun _ => trivial)
      (fun s call => (Step.built_call call).grows s) (fun _ _ _ => trivial) calls opened
    exact ⟨_, hopened.trans hcalls⟩
  obtain ⟨made, hg⟩ := hgrown calls
  refine ⟨made, hg.exchanges, fun slot hslot => ?_⟩
  obtain ⟨made', hg', hiff⟩ := exists_connected_run_iff (Step.ends_connect_selects hslot)
    (Step.ends_call_selects hslot) start calls
  obtain rfl := hg.unique hg'
  refine hiff.trans ?_
  constructor
  · rintro ⟨before, call, after, rfl, hroom, haccesses⟩
    obtain ⟨_, hbefore⟩ := hgrown before
    rw [hbefore.capacity] at hroom
    exact ⟨hroom, call, by simp, haccesses⟩
  · rintro ⟨hroom, call, hmem, haccesses⟩
    obtain ⟨before, after, rfl⟩ := List.append_of_mem hmem
    obtain ⟨_, hbefore⟩ := hgrown before
    rw [← hbefore.capacity] at hroom
    exact ⟨before, call, after, rfl, hroom, haccesses⟩

end

/-- A plain instrument that has something to say for a word of an EEPROM at an eighth
slot. -/
def atMissingSlot : Session ScriptedLink FaultKind SteppingClock :=
  connecting ["B7!", "A6!", "e1!"]

theorem missing_slot_selected_atMissingSlot :
    ∃ e ∈ ((atMissingSlot.perform Step.connect).2.performAll
        [.read 6 1 (.slotEeprom 7)]).journal.exchanges,
      e.request.Carries (.selectSlot 7) := by
  obtain ⟨-, made, hmade, hiff⟩ := missing_slot_selected_iff atMissingSlot
    [.read 6 1 (.slotEeprom 7)]
  obtain ⟨e, he, hselect⟩ := (hiff 7 (by decide)).mpr
    ⟨by decide, _, List.mem_singleton_self _, rfl, by decide, by decide, by decide, by decide⟩
  exact ⟨e, by rw [hmade]; exact List.mem_append_left _ he, hselect⟩

end DacRack
