import DacRack.Proofs.Service

/-!
# The driver is a word store

The instrument has one memory cursor for all its banks, and the EEPROMs share the active
slot with everything else that is done to slots and channels. A caller has no need to know
of either. To them there is a word at every address of every bank: what was written last is
what is read, and writing changes no other word. `WordStore.perform` says what a call
answers and makes of the words, and `WordStore.run` does the same for a run of calls.

Every access turns to the bank it means and moves the cursor there, so that it finds its
word wherever other operations have left the two (`gives_readOne`, `gives_readTwo`,
`gives_write`). All that goes on between two accesses is then of no consequence: a
selection that was made for another purpose leaves the words as they are, and the words
are all that a run of calls carries along (`gives_run`).

A word may be written with a sign or without one, in every single answer and in the one
that confirms what was stored. Both stand for the same word (`ofInt_written`).
-/

namespace DacRack

/-- The words of all banks. -/
abbrev WordStore := Bank → UInt32 → UInt32

/-- A call on the words of a bank, or a selection made on behalf of another call. -/
inductive WordCall where
  | read (address : Int) (words : Nat) (bank : Bank)
  | write (address value : Int) (bank : Bank)
  | selectSlot (slot : UInt8)
  | selectChannel (channel : Channel)

namespace WordStore

/-- The word at an address of a bank. -/
def word (store : WordStore) (bank : Bank) (address : Int) : UInt32 :=
  store bank (UInt32.ofInt address)

/-- The words after one of them was replaced. -/
def put (store : WordStore) (bank : Bank) (address : Int) (word : UInt32) : WordStore :=
  Function.update store bank (Function.update (store bank) (UInt32.ofInt address) word)

/-- What a call answers and makes of the words, if all its words lie in the memory and the
value to write is one. -/
def perform (store : WordStore) : WordCall → Option (Answer × WordStore)
  | .read _ 0 _ => some (.word 0, store)
  | .read address 1 bank =>
    if 0 ≤ address ∧ address ≤ 1107296266 then
      some (.word (UInt64.ofNat (store.word bank address).toNat), store)
    else none
  | .read address 2 bank =>
    if 0 ≤ address ∧ address + 1 ≤ 1107296266 then
      let high := (store.word bank address).toNat
      let low := (store.word bank (address + 1)).toNat
      some (.word (UInt64.ofNat (high * 2 ^ 32 + low)), store)
    else none
  | .read _ _ _ => none
  | .write address value bank =>
    if 0 ≤ address ∧ address ≤ 1107296266 ∧ 0 ≤ value ∧ value < 2 ^ 32 then
      some (.done, store.put bank address (UInt32.ofInt value))
    else none
  | .selectSlot _ | .selectChannel _ => some (.done, store)

theorem word_put (store : WordStore) (bank other : Bank) {address address' : Int}
    (h : 0 ≤ address ∧ address ≤ 1107296266) (h' : 0 ≤ address' ∧ address' ≤ 1107296266)
    (word : UInt32) :
    (store.put bank address word).word other address' =
      if other = bank ∧ address' = address then word else store.word other address' := by
  have hinj : UInt32.ofInt address' = UInt32.ofInt address ↔ address' = address := by
    rw [← UInt32.toNat_inj, UInt32.ofInt, UInt32.ofInt, UInt32.toNat_ofNat',
      UInt32.toNat_ofNat']
    omega
  rw [WordStore.word, put, Function.update_apply]
  split
  · next hbank =>
      subst hbank
      simp only [Function.update_apply, hinj, true_and]
      rfl
  · next hbank =>
      rw [if_neg fun hboth => hbank hboth.1]
      rfl

/-- What calls answer one after the other, and the words after them. -/
def run : WordStore → List WordCall → Option (List Answer × WordStore)
  | store, [] => some ([], store)
  | store, call :: calls => do
    let (answer, store) ← store.perform call
    let (answers, store) ← store.run calls
    return (answer :: answers, store)

end WordStore

def WordCall.run {σ φ κ : Type} [Link σ φ] [Clock κ] : WordCall → Step σ φ κ Answer
  | read address words bank => (Call.read address words bank).run
  | write address value bank => (Call.write address value bank).run
  | selectSlot slot => do Step.selectSlot slot; return .done
  | selectChannel channel => do Step.selectChannel channel; return .done

namespace Step

variable {κ : Type} {setup : Setup} {I : Instrument}

theorem le_maxAddress {address : Nat} (h : (address : Int) ≤ 1107296266) :
    address ≤ maxAddress := by
  rw [maxAddress]
  omega

theorem validWord_natCast {target : UInt32} {value : Nat} (h : value < 2 ^ 32) :
    validWord target (value : Int) =
      (.ok (UInt32.ofNat value) : Except (Error FaultKind) UInt32) := by
  rw [validWord_of_lt ⟨by omega, by omega⟩, ofInt_natCast]

theorem gives_write (bank : Bank) {address value : Nat} (h : address ≤ maxAddress)
    (hvalue : value < 2 ^ 32) (hroom : 13 ≤ setup.room) :
    ∃ I' : Instrument, I'.words = WordStore.put I.words bank address (UInt32.ofNat value) ∧
      Gives setup (selections bank + 3)
        (write address value bank : Step InstrumentLink FaultKind κ Unit) I () I' := by
  let J : Instrument := { I.turnTo bank with cursor := UInt32.ofNat address }
  let word := UInt32.ofNat value
  have hfaces : J.Faces bank := I.faces_turnTo bank
  have hwords : (J.afterAll [bank.store word]).words =
      WordStore.put I.words bank address word := by
    have hput := Instrument.words_store hfaces word
    have hturn : J.words = I.words := I.words_turnTo bank
    rw [hturn] at hput
    rw [WordStore.put, ofInt_natCast]
    exact hput
  have hfaces' : (J.afterAll [bank.store word]).Faces bank := by
    intro slot hslot
    rw [← hfaces slot hslot]
    cases bank <;> rfl
  have hcursor : (J.afterAll [bank.store word]).cursor = UInt32.ofNat address := by
    cases bank <;> rfl
  have hecho : J.answers [bank.store word] = [bank.store word].flatMap Command.echo := by
    cases bank <;> rfl
  have hlength : ([bank.store word].flatMap Command.echo).length ≤ setup.room := by
    have hlt := word.toNat_lt
    have harg : (bank.store word).argument? = some (word.toNat : Int) := by cases bank <;> rfl
    have hle : (bank.store word).echo.length ≤ 10 + 2 :=
      Command.length_echo_le_of_nat harg (by omega) (by omega)
    rw [List.flatMap_singleton]
    omega
  refine ⟨{ J.afterAll [bank.store word] with
    asked := (J.afterAll [bank.store word]).asked + 1 }, hwords, ?_⟩
  refine (gives_ofExcept (validAddress_natCast h)).bind_right ?_
  refine (gives_ofExcept (validWord_natCast hvalue)).bind_right ?_
  refine (gives_selectBank bank hroom).bind ?_
  refine (gives_moveCursor _ hroom).bind (n := 2) ?_
  refine (gives_echo hecho hlength).bind (n := 1) ?_
  refine (gives_readCursor hfaces' _ hroom).bind_left ?_
  refine (gives_ensure ?_).bind_left (gives_note _)
  rw [hwords, hcursor, WordStore.put, ofInt_natCast, Function.update_self, Function.update_self]
  exact beq_self_eq_true _

theorem selections_le (bank : Bank) : selections bank ≤ 1 := by
  cases bank with
  | main => exact Nat.zero_le _
  | slotEeprom slot => exact Nat.le_refl _

theorem Gives.answered {α : Type} {n : Nat} {step : Step InstrumentLink FaultKind κ α} {a : α}
    {I' : Instrument} {store : WordStore} (h : Gives setup n step I a I') (hn : n ≤ 5)
    (hwords : I'.words = store) (answer : α → Answer) :
    ∃ I' : Instrument, I'.words = store ∧
      Gives setup 5 (step >>= fun a => pure (answer a)) I (answer a) I' :=
  ⟨I', hwords, (h.mono hn).bind_left (gives_pure _)⟩

variable [Clock κ]

theorem gives_wordCall {call : WordCall} {answer : Answer} {store : WordStore}
    (hroom : 13 ≤ setup.room) (h : WordStore.perform I.words call = some (answer, store)) :
    ∃ I' : Instrument, I'.words = store ∧
      Gives setup 5 (call.run : Step InstrumentLink FaultKind κ Answer) I answer I' := by
  cases call with
  | read address words bank =>
      have hselections := selections_le bank
      match words with
      | 0 =>
          cases h
          exact (gives_pure (0 : UInt64)).answered (by omega) rfl .word
      | 1 =>
          rw [WordStore.perform] at h
          split at h
          · next hvalid =>
              cases h
              obtain ⟨address, rfl⟩ := Int.eq_ofNat_of_zero_le hvalid.1
              have hread := gives_readOne (κ := κ) (I := I) bank
                (le_maxAddress hvalid.2) hroom
              rw [WordStore.word, ofInt_natCast, UInt64.ofNat_uInt32ToNat]
              exact hread.answered (by omega) (I.words_turnTo bank) .word
          · cases h
      | 2 =>
          rw [WordStore.perform] at h
          split at h
          · next hvalid =>
              cases h
              obtain ⟨address, rfl⟩ := Int.eq_ofNat_of_zero_le hvalid.1
              have hread := gives_readTwo (κ := κ) (I := I) bank
                (le_maxAddress hvalid.2) hroom
              rw [toUInt64_shiftLeft_or, ← ofInt_natCast, ← ofInt_natCast (address + 1)] at hread
              exact hread.answered (by omega) (I.words_turnTo bank) .word
          · cases h
      | words + 3 => cases h
  | write address value bank =>
      have hselections := selections_le bank
      rw [WordStore.perform] at h
      split at h
      · next hvalid =>
          cases h
          obtain ⟨haddress, hmax, hvalue, hlt⟩ := hvalid
          obtain ⟨address, rfl⟩ := Int.eq_ofNat_of_zero_le haddress
          obtain ⟨value, rfl⟩ := Int.eq_ofNat_of_zero_le hvalue
          have hlt' : value < 2 ^ 32 := by omega
          obtain ⟨I', hwords, hwrite⟩ := gives_write (κ := κ) (I := I) bank
            (le_maxAddress hmax) hlt' hroom
          rw [← ofInt_natCast value] at hwords
          exact hwrite.answered (by omega) hwords fun _ => .done
      · cases h
  | selectSlot slot =>
      cases h
      exact (gives_selectSlot slot hroom).answered (by omega) rfl fun _ => .done
  | selectChannel channel =>
      cases h
      exact (gives_selectChannel channel hroom).answered (by omega) rfl fun _ => .done

theorem gives_run {calls : List WordCall} {answers : List Answer} {store : WordStore}
    (hroom : 13 ≤ setup.room) (h : WordStore.run I.words calls = some (answers, store)) :
    ∃ I' : Instrument, I'.words = store ∧
      Gives setup (calls.length * 5)
        (calls.mapM WordCall.run : Step InstrumentLink FaultKind κ (List Answer)) I answers
        I' := by
  induction calls generalizing I answers store with
  | nil =>
      cases h
      rw [List.mapM_nil]
      exact ⟨I, rfl, (gives_pure []).mono (Nat.zero_le _)⟩
  | cons call calls ih =>
      obtain ⟨⟨answer, store₁⟩, hcall, h⟩ := Option.bind_eq_some_iff.mp h
      obtain ⟨⟨rest, store₂⟩, hcalls, h⟩ := Option.bind_eq_some_iff.mp h
      cases h
      obtain ⟨I₁, rfl, hanswer⟩ := gives_wordCall (κ := κ) hroom hcall
      obtain ⟨I₂, hwords, hanswers⟩ := ih hcalls
      rw [List.mapM_cons, List.length_cons, Nat.succ_mul, Nat.add_comm]
      exact ⟨I₂, hwords, hanswer.bind (hanswers.bind_left (gives_pure _))⟩

end Step

namespace Session

variable {κ : Type} [Clock κ]

/-- A connection with an instrument at its end is a word store: calls whose words all lie in
the memory are answered as by a store, whatever else they select in between, and leave the
instrument with the words of the store. The instrument may have its cursors anywhere, and it
has to live for 70 bytes of answers to each call. -/
theorem perform_wordCalls (s : Session InstrumentLink FaultKind κ) (calls : List WordCall)
    (answers : List Answer) (store : WordStore) (hcapacity : 13 ≤ s.capacity)
    (hterminator : s.link.terminator = s.config.terminator) (hunread : s.link.unread = [])
    (hlife : 70 * calls.length ≤ s.link.life)
    (h : WordStore.run s.link.instrument.words calls = some (answers, store)) :
    ∃ s', s.perform (calls.mapM WordCall.run) = (.ok answers, s') ∧
      s'.link.instrument.words = store := by
  let setup : Setup :=
    { room := 13
      config := s.config
      rampsOnSet := fun channel => (s.host.channelState channel).rampOnSet }
  have hserved : Served setup s.link.instrument (calls.length * 5 + 0) s :=
    { instrument := rfl
      unread := hunread
      life := by
        show (calls.length * 5 + 0) * (13 + 1) ≤ s.link.life
        omega
      terminator := hterminator
      capacity := hcapacity
      config := rfl
      rampOnSet := fun _ => rfl }
  have hroom : 13 ≤ setup.room := Nat.le_refl 13
  obtain ⟨I', hwords, hgives⟩ := Step.gives_run (κ := κ) hroom h
  obtain ⟨s', hperform, hserved'⟩ := hgives s 0 hserved
  exact ⟨s', hperform, by rw [hserved'.instrument, hwords]⟩

/-- A connection with just enough room, with an instrument that has its own address for a
word at every address and writes every second word with a sign. -/
def archive : Session InstrumentLink FaultKind SteppingClock :=
  let instrument : Instrument :=
    { slot := 9
      place := 7
      cursor := 5
      memory := fun address => address
      eeprom := fun slot address => slot.toUInt32 + address
      signed := fun n => n % 2 = 0
      asked := 0 }
  { link := .ofInstrument instrument 560, clock := {}, capacity := 13 }

theorem perform_archive :
    ∃ s', archive.perform (([.write 1107296266 4294967295 .main, .selectChannel ⟨4, 3⟩,
        .write 6 2147483648 (.slotEeprom 200), .write 5 1 (.slotEeprom 200), .selectSlot 3,
        .read 5 2 (.slotEeprom 200), .read 1107296266 1 .main,
        .read 6 1 (.slotEeprom 3)] : List WordCall).mapM WordCall.run) =
      (.ok [.done, .done, .done, .done, .done, .word 6442450944, .word 4294967295,
        .word 9], s') := by
  obtain ⟨s', hperform, -⟩ := perform_wordCalls archive
    [.write 1107296266 4294967295 .main, .selectChannel ⟨4, 3⟩,
      .write 6 2147483648 (.slotEeprom 200), .write 5 1 (.slotEeprom 200), .selectSlot 3,
      .read 5 2 (.slotEeprom 200), .read 1107296266 1 .main, .read 6 1 (.slotEeprom 3)]
    [.done, .done, .done, .done, .done, .word 6442450944, .word 4294967295, .word 9] _
    (Nat.le_refl 13) rfl rfl (Nat.le_refl 560) rfl
  exact ⟨s', hperform⟩

end Session

end DacRack
