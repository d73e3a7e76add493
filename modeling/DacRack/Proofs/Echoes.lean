import DacRack.Proofs.Motion
import DacRack.Proofs.Selection

/-!
# Whose answer a reply is

A reply says a letter and a number (`Reply.Says`), and reading it keeps the number alone
(`Reply.number_ok_iff`). So whatever a step makes of a reply is decided by the number
(`Judged`), and a reply to another command is taken for the answer just where its number is
one that the answer could have carried.

`Heard` says so of a transaction with one command, and `Step.heard_whatever_letter` of the four
kinds of them that are checked by their numbers: selecting a slot, moving the cursor, reading
a word, and asking for a mode. Only a channel's selection is compared as a whole
(`Exchange.ConfirmsChannel`).
-/

namespace DacRack

namespace Reply

variable {raw : List Char} {letter letter' : Char} {n n' : Int}

/-- The letter that a reply begins with. -/
def initial? (raw : List Char) : Option Char :=
  (Text.trim raw).head?

/-- A letter, a number and a mark, with any white space around them and the number. -/
def Says (raw : List Char) (letter : Char) (n : Int) : Prop :=
  ∃ body, Text.trim raw = letter :: (body ++ ['!']) ∧
    Text.readInt64? (Text.trim body) = some n

theorem Says.initial_eq (h : Says raw letter n) : initial? raw = some letter := by
  obtain ⟨body, hraw, -⟩ := h
  rw [initial?, hraw]
  rfl

theorem Says.number_eq (h : Says raw letter n) (h' : Says raw letter' n') : n' = n := by
  obtain ⟨body, hraw, hn⟩ := h
  obtain ⟨body', hraw', hn'⟩ := h'
  rw [hraw] at hraw'
  obtain ⟨-, hbody⟩ := List.cons.inj hraw'
  rw [← List.append_cancel_right hbody, hn] at hn'
  exact (Option.some.inj hn').symm

theorem payload_ok_iff {text : List Char} :
    payload raw = .ok text ↔ ∃ front, Text.trim raw = front ++ ['!'] ∧ front.drop 1 = text := by
  simp only [payload]
  constructor
  · intro h
    split at h
    · next hlast =>
        obtain ⟨front, hraw⟩ := List.getLast?_eq_some_iff.mp hlast
        rw [hraw, List.dropLast_concat] at h
        exact ⟨front, hraw, Except.ok.inj h⟩
    · cases h
  · rintro ⟨front, hraw, rfl⟩
    rw [hraw, if_pos List.getLast?_concat, List.dropLast_concat]

theorem integer_ok_iff {text : List Char} :
    integer text = .ok n ↔ Text.readInt64? (Text.trim text) = some n := by
  unfold integer
  cases Text.readInt64? (Text.trim text) with
  | none => exact ⟨nofun, nofun⟩
  | some m =>
      exact ⟨fun h => congrArg some (Except.ok.inj h), fun h => congrArg _ (Option.some.inj h)⟩

/-- The letter of a reply has no part in its number. -/
theorem number_ok_iff : number raw = .ok n ↔ ∃ letter, Says raw letter n := by
  have hbind : number raw = .ok n ↔ ∃ text, payload raw = .ok text ∧ integer text = .ok n := by
    unfold number
    cases payload raw with
    | error e => exact ⟨nofun, nofun⟩
    | ok text => exact ⟨fun h => ⟨text, rfl, h⟩, fun ⟨_, h, h'⟩ => Except.ok.inj h ▸ h'⟩
  rw [hbind]
  constructor
  · rintro ⟨text, hpayload, hn⟩
    obtain ⟨front, hraw, rfl⟩ := payload_ok_iff.mp hpayload
    rw [integer_ok_iff] at hn
    cases front with
    | nil => cases hn
    | cons letter body => exact ⟨letter, body, hraw, hn⟩
  · rintro ⟨letter, body, hraw, hn⟩
    exact ⟨body, payload_ok_iff.mpr ⟨letter :: body, hraw, rfl⟩, integer_ok_iff.mpr hn⟩

/-- The word that a number stands for. -/
def wordOf? (n : Int) : Option UInt32 :=
  if Int32.minValue.toInt ≤ n ∧ n < UInt32.size then some (UInt32.ofInt n) else none

end Reply

variable {σ φ κ α : Type}

/-- A reply is accepted for its number and for nothing else, and a refusal is for the reply. -/
structure Judged (value? : Int → Option α) (raw : List Char) (r : Except (Error φ) α) : Prop where
  accepted : ∀ a, r = .ok a ↔ ∃ letter n, Reply.Says raw letter n ∧ value? n = some a
  refused : ∀ e, r = .error e → ∃ cause, e = .reply cause

/-- The result is the value, or where there is none it blames the reply. -/
def Gives (value? : Option α) (r : Except (Error φ) α) : Prop :=
  match value? with
  | some a => r = .ok a
  | none => ∃ cause, r = .error (.reply cause)

theorem Gives.ok_iff {value? : Option α} {r : Except (Error φ) α} (h : Gives value? r) (a : α) :
    r = .ok a ↔ value? = some a := by
  cases value? with
  | some b =>
      obtain rfl := h
      exact ⟨fun h => congrArg some (Except.ok.inj h), fun h => congrArg _ (Option.some.inj h)⟩
  | none =>
      obtain ⟨cause, rfl⟩ := h
      exact ⟨nofun, nofun⟩

theorem Gives.of_error {value? : Option α} {r : Except (Error φ) α} {e : Error φ}
    (h : Gives value? r) (he : r = .error e) : ∃ cause, e = .reply cause := by
  cases value? with
  | some b => exact nomatch he.symm.trans h
  | none =>
      obtain ⟨cause, rfl⟩ := h
      exact ⟨cause, (Except.error.inj he).symm⟩

/-- What came of a transaction with one command, whose answer carries a number that stands for
a value. A reply that begins with another letter than the command's is accepted just where its
number stands for one. -/
inductive Heard (command : Command) (value? : Int → Option α) :
    List (Exchange φ) → Except (Error φ) α → Prop
  | unsent : Heard command value? [] (.error .tooLong)
  | failed {target : Target} {e : Error φ} :
      Heard command value? [⟨target, .commands [command], .error e⟩] (.error e)
  | replied {target : Target} {reply : String} {r : Except (Error φ) α}
      (judged : Judged value? reply.toList r)
      (misheard : (∃ a, r = .ok a) ∧ Reply.initial? reply.toList ≠ some command.letter ↔
        ∃ letter n a, letter ≠ command.letter ∧ Reply.Says reply.toList letter n ∧
          value? n = some a) :
      Heard command value? [⟨target, .commands [command], .ok reply⟩] r

theorem Judged.misheard_iff {value? : Int → Option α} {raw : List Char} {r : Except (Error φ) α}
    (h : Judged value? raw r) (own : Char) :
    (∃ a, r = .ok a) ∧ Reply.initial? raw ≠ some own ↔
      ∃ letter n a, letter ≠ own ∧ Reply.Says raw letter n ∧ value? n = some a := by
  constructor
  · rintro ⟨⟨a, ha⟩, hother⟩
    obtain ⟨letter, n, hspoken, hvalue⟩ := (h.accepted a).mp ha
    rw [hspoken.initial_eq] at hother
    exact ⟨letter, n, a, fun heq => hother (congrArg some heq), hspoken, hvalue⟩
  · rintro ⟨letter, n, a, hother, hspoken, hvalue⟩
    refine ⟨⟨a, (h.accepted a).mpr ⟨letter, n, hspoken, hvalue⟩⟩, ?_⟩
    rw [hspoken.initial_eq]
    exact fun heq => hother (Option.some.inj heq)

/-- A number that has to be `expected`. -/
def confirms (expected : Nat) (n : Int) : Option Unit :=
  if n == expected then some () else none

namespace Step

variable {s : Session σ φ κ}

theorem judged_number {value? : Int → Option α} {next : Int → Step σ φ κ α}
    (hnext : ∀ n, Ends (next n) s fun made r _ => made = [] ∧ Gives (value? n) r)
    (reply : String) :
    Ends (understand (Reply.number reply.toList) >>= next) s fun made r _ =>
      made = [] ∧ Judged value? reply.toList r := by
  cases hnumber : Reply.number reply.toList with
  | error cause =>
      refine ends_throw ⟨rfl, fun a => ⟨nofun, ?_⟩, fun e he => ⟨cause, (Except.error.inj he).symm⟩⟩
      rintro ⟨letter, n, hspoken, -⟩
      rw [Reply.number_ok_iff.mpr ⟨letter, hspoken⟩] at hnumber
      cases hnumber
  | ok n =>
      obtain ⟨own, hown⟩ := Reply.number_ok_iff.mp hnumber
      refine (hnext n).mono fun made r _ _ h => ?_
      obtain ⟨rfl, hgives⟩ := h
      refine ⟨rfl, fun a => (hgives.ok_iff a).trans ⟨fun h => ⟨own, n, hown, h⟩, ?_⟩,
        fun e he => hgives.of_error he⟩
      rintro ⟨letter, n', hspoken, hvalue⟩
      rwa [hown.number_eq hspoken] at hvalue

theorem gives_confirms (cause : ReplyError) (expected : Nat) (n : Int) :
    Ends (ensure (.reply cause) (n == expected)) s fun made r _ =>
      made = [] ∧ Gives (confirms expected n) r := by
  unfold confirms
  cases n == (expected : Int) with
  | true => exact ends_pure ⟨rfl, rfl⟩
  | false => exact ends_throw ⟨rfl, cause, rfl⟩

variable [Link σ φ]

theorem ends_heard {target : Target} {command : Command} {value? : Int → Option α}
    {check : String → Step σ φ κ α} (hcheck : ∀ reply s,
      Ends (check reply) s fun made r _ => made = [] ∧ Judged value? reply.toList r) :
    Ends (transact target [command] >>= check) s fun made r _ =>
      Heard command value? made r := by
  refine Ends.bind (P := fun made (r : Except (Error φ) String) _ =>
    (made = [] ∧ r = .error .tooLong) ∨ made = [⟨target, .commands [command], r⟩]) ?_ ?_ ?_
  · exact ends_transact (.inl ⟨rfl, rfl⟩) fun _ _ _ => .inr rfl
  · intro made e s' _ hends
    rcases hends with ⟨rfl, he⟩ | rfl
    · cases he
      exact .unsent
    · exact .failed
  · intro made reply s' _ hends
    rcases hends with ⟨-, he⟩ | rfl
    · cases he
    · refine (hcheck reply s').mono fun made' r s'' _ h => ?_
      obtain ⟨rfl, hjudged⟩ := h
      exact .replied hjudged (hjudged.misheard_iff _)

theorem heard_selectSlot (slot : UInt8) (s : Session σ φ κ) :
    Ends (selectSlot slot) s fun made r _ =>
      Heard (.selectSlot slot) (confirms slot.toNat) made r := by
  refine ends_heard fun reply _ => judged_number (fun n => ?_) reply
  refine (gives_confirms _ _ n).bind (fun _ _ _ _ h => h) fun made _ s' _ h => ?_
  obtain ⟨rfl, hgives⟩ := h
  exact ⟨[], ⟨rfl, rfl, rfl⟩, rfl, hgives⟩

theorem heard_moveCursor (address : UInt32) (s : Session σ φ κ) :
    Ends (moveCursor address) s fun made r _ =>
      Heard (.moveCursor address) (confirms address.toNat) made r :=
  ends_heard fun reply _ => judged_number (fun n => gives_confirms _ _ n) reply

theorem heard_readCursor (bank : Bank) (address : UInt32) (s : Session σ φ κ) :
    Ends (readCursor bank address) s fun made r _ =>
      Heard bank.query Reply.wordOf? made r := by
  refine ends_heard fun reply _ => ?_
  have hword : (understand (Reply.word reply.toList) : Step σ φ κ UInt32) =
      understand (Reply.number reply.toList) >>= fun n => understand
        (if Int32.minValue.toInt ≤ n ∧ n < UInt32.size then .ok (UInt32.ofInt n)
          else .error .notInteger) := by
    unfold Reply.word
    cases Reply.number reply.toList <;> rfl
  rw [hword]
  refine judged_number (fun n => ?_) reply
  unfold Reply.wordOf?
  split
  · exact ends_pure ⟨rfl, rfl⟩
  · exact ends_throw ⟨rfl, _, rfl⟩

theorem heard_queryMode (slot : Fin slotCount) (s : Session σ φ κ) :
    Ends (queryMode slot) s fun made r _ =>
      (∃ e, r = .error e ∧
        Heard (.selectSlot (UInt8.ofNat slot)) (confirms slot) made (.error e)) ∨
      ∃ asked sel, made = asked ++ sel ∧
        Heard (.selectSlot (UInt8.ofNat slot)) (confirms slot) sel (.ok ()) ∧
        Heard .askSlotMode SlotMode.ofNumber? asked r := by
  unfold queryMode transactSlot
  rw [bind_assoc]
  have hsel := heard_selectSlot (UInt8.ofNat slot) s
  rw [toNat_ofNat_slot] at hsel
  refine hsel.bind (fun _ e _ _ hmade => .inl ⟨e, rfl, hmade⟩) fun sel _ s' _ hheard => ?_
  refine Ends.mono (P := fun asked r _ => Heard .askSlotMode SlotMode.ofNumber? asked r)
    (ends_heard fun reply _ => ?_) ?_
  · refine judged_number (fun n => ?_) reply
    unfold SlotMode.ofReply
    cases SlotMode.ofNumber? n with
    | some mode => exact ends_pure ⟨rfl, rfl⟩
    | none => exact ends_throw ⟨rfl, _, rfl⟩
  · intro asked r _ _ hasked
    exact .inr ⟨asked, sel, rfl, hheard, hasked⟩

/-- A reply to selecting a slot, moving the cursor, reading a word or asking for a mode is
accepted for its number, and one to another command with such a number is accepted too. -/
theorem heard_whatever_letter (s : Session σ φ κ) :
    (∀ slot, Ends (selectSlot slot) s fun made r _ =>
      Heard (.selectSlot slot) (confirms slot.toNat) made r) ∧
    (∀ address, Ends (moveCursor address) s fun made r _ =>
      Heard (.moveCursor address) (confirms address.toNat) made r) ∧
    (∀ bank address, Ends (readCursor bank address) s fun made r _ =>
      Heard bank.query Reply.wordOf? made r) ∧
    ∀ slot, Ends (queryMode slot) s fun made r _ =>
      (∃ e, r = .error e ∧
        Heard (.selectSlot (UInt8.ofNat slot)) (confirms slot) made (.error e)) ∨
      ∃ asked sel, made = asked ++ sel ∧
        Heard (.selectSlot (UInt8.ofNat slot)) (confirms slot) sel (.ok ()) ∧
        Heard .askSlotMode SlotMode.ofNumber? asked r :=
  ⟨(heard_selectSlot · s), (heard_moveCursor · s), (heard_readCursor · · s),
    (heard_queryMode · s)⟩

end Step

/-- A connection with the answers to come to a move of the cursor, a selection and a read of
main memory. -/
def crossed : Session ScriptedLink FaultKind SteppingClock :=
  connected ["A0!", "B6!", "p1!"]

/-- A word is read out of a slot's EEPROM, and none of them answers what was sent. -/
theorem exists_misheard_crossed :
    (crossed.perform (Step.read 6 1 (.slotEeprom 0))).1.toOption = some 1 ∧
      ∃ sel reply, (crossed.perform (Step.selectSlot 0)).1 = .ok () ∧
        (crossed.perform (Step.selectSlot 0)).2.journal.exchanges =
          sel :: crossed.journal.exchanges ∧
        sel.request = .commands [.selectSlot 0] ∧ sel.outcome = .ok reply ∧
        Reply.initial? reply.toList ≠ some (Command.selectSlot 0).letter := by
  refine ⟨by decide +kernel, ?_⟩
  have hok : (crossed.perform (Step.selectSlot 0)).1.toOption = some () := by decide +kernel
  have hreply : (crossed.perform (Step.selectSlot 0)).2.journal.exchanges.head?.bind
      (fun e => e.outcome.toOption) = some "A0!" := by
    decide +kernel
  obtain ⟨made, hg, hheard⟩ := (Step.heard_whatever_letter crossed).1 0
  generalize (crossed.perform (Step.selectSlot 0)).1 = r at hheard hok ⊢
  rw [hg.exchanges] at hreply ⊢
  cases hheard with
  | unsent => cases hok
  | failed => cases hok
  | replied judged misheard =>
      obtain rfl := Option.some.inj hreply
      obtain ⟨⟨_, hr⟩, hother⟩ :=
        misheard.mpr ⟨'A', 0, (), by decide, ⟨['0'], by decide, by decide⟩, rfl⟩
      exact ⟨_, _, hr, List.singleton_append, rfl, rfl, hother⟩

end DacRack
