import DacRack.Proofs.Requests

/-!
# Nothing scoped goes out without a fresh selection

The instrument applies a command to whatever was selected last, and the host keeps
no record of what that was. What makes this safe is a rule about the order of
transactions: one that acts on a slot, a channel or a word comes directly after one
that selected it and was answered as it should be. `Selected earlier e` is that rule
for a transaction `e`, given those before it, and `Ordered` is the rule for a whole
journal.

The rule only ever looks back, and no further than the operation a transaction
belongs to. So it is shown for the transactions of each operation by themselves,
whatever the instrument answers and wherever the operation breaks off, and carries
over to any number of operations in a row (`Ordered.append`). The one rule that looks
back further is that of a slot's EEPROM: the slot stays selected while the cursor
moves. That is why reading several words is an induction with `BankActive` as its
invariant.
-/

namespace DacRack

variable {σ φ κ α β : Type}

namespace Exchange

/-- Selects a slot, and was answered with the number of that slot. -/
def ConfirmsSlot (slot : UInt8) (e : Exchange φ) : Prop :=
  e.request = .commands [.selectSlot slot] ∧
    ∃ reply, e.outcome = .ok reply ∧ Reply.number reply.toList = .ok slot.toNat

/-- Selects a channel, and was answered with exactly its two numbers. -/
def ConfirmsChannel (channel : Channel) (e : Exchange φ) : Prop :=
  e.request = .commands [.selectSlot (UInt8.ofNat channel.slot),
      .selectChannel (UInt8.ofNat channel.place)] ∧
    ∃ reply, e.outcome = .ok reply ∧ Text.trim reply.toList =
      ['B'] ++ Text.natDigits channel.slot ++ ['!', 'C'] ++ Text.natDigits channel.place ++ ['!']

/-- Moves the cursor, and was answered with the address it was to go to. -/
def ConfirmsCursor (address : UInt32) (e : Exchange φ) : Prop :=
  e.request = .commands [.moveCursor address] ∧
    ∃ reply, e.outcome = .ok reply ∧ Reply.number reply.toList = .ok address.toNat

/-- Whether another slot may be the active one afterwards. A caller's text may do
anything. -/
def mayReselect (e : Exchange φ) : Bool :=
  match e.request with
  | .commands commands => commands.any fun command => command.letter == 'B'
  | .text _ => true

/-- Reads back a word that was stored just before, after the cursor was moved to it. -/
def ReadsBack (bank : Bank) (address : UInt32) (earlier : List (Exchange φ))
    (e : Exchange φ) : Prop :=
  e.request = .commands [bank.query] ∧ ∃ stored move older word,
    earlier = stored :: move :: older ∧ stored.target = .word bank address ∧
      stored.request = .commands [bank.store word] ∧ move.ConfirmsCursor address

end Exchange

/-- The slot whose EEPROM is meant was the last one to be selected, and confirmed. -/
def BankActive (bank : Bank) (earlier : List (Exchange φ)) : Prop :=
  ∀ slot, bank.slot? = some slot →
    ∃ sel, earlier.find? Exchange.mayReselect = some sel ∧ sel.ConfirmsSlot slot

/-- What a transaction acts on was selected directly before it. -/
def Selected (earlier : List (Exchange φ)) (e : Exchange φ) : Prop :=
  match e.target with
  | .instrument => True
  | .slot slot => ∃ sel ∈ earlier.head?, sel.ConfirmsSlot (UInt8.ofNat slot)
  | .channel channel => ∃ sel ∈ earlier.head?, sel.ConfirmsChannel channel
  | .word bank address =>
      BankActive bank earlier ∧
        ((∃ move ∈ earlier.head?, move.ConfirmsCursor address) ∨
          e.ReadsBack bank address earlier)

/-- Every transaction, the latest first, is selected by those before it. -/
inductive Ordered : List (Exchange φ) → Prop
  | nil : Ordered []
  | cons {e : Exchange φ} {earlier : List (Exchange φ)} :
      Selected earlier e → Ordered earlier → Ordered (e :: earlier)

theorem head?_append {earlier older : List (Exchange φ)} {e : Exchange φ}
    (h : e ∈ earlier.head?) : e ∈ (earlier ++ older).head? := by
  cases earlier with
  | nil => cases h
  | cons x xs => exact h

theorem BankActive.append {bank : Bank} {earlier older : List (Exchange φ)}
    (h : BankActive bank earlier) : BankActive bank (earlier ++ older) := by
  intro slot hslot
  obtain ⟨sel, hfind, hsel⟩ := h slot hslot
  exact ⟨sel, by rw [List.find?_append, hfind]; rfl, hsel⟩

/-- What went on before the operation makes no difference. -/
theorem Selected.append {earlier older : List (Exchange φ)} {e : Exchange φ}
    (h : Selected earlier e) : Selected (earlier ++ older) e := by
  unfold Selected at h ⊢
  split
  · trivial
  · next ht =>
      rw [ht] at h
      obtain ⟨sel, hmem, hsel⟩ := h
      exact ⟨sel, head?_append hmem, hsel⟩
  · next ht =>
      rw [ht] at h
      obtain ⟨sel, hmem, hsel⟩ := h
      exact ⟨sel, head?_append hmem, hsel⟩
  · next ht =>
      rw [ht] at h
      obtain ⟨hbank, hcursor⟩ := h
      refine ⟨hbank.append, ?_⟩
      rcases hcursor with ⟨move, hmem, hmove⟩ | ⟨hquery, stored, move, rest, word, rfl, h⟩
      · exact .inl ⟨move, head?_append hmem, hmove⟩
      · exact .inr ⟨hquery, stored, move, rest ++ older, word, rfl, h⟩

theorem Ordered.append {later earlier : List (Exchange φ)} (h : Ordered later)
    (h' : Ordered earlier) : Ordered (later ++ earlier) := by
  induction h with
  | nil => exact h'
  | cons hsel _ ih => exact .cons hsel.append ih

theorem BankActive.append_of_stay {bank : Bank} {later earlier : List (Exchange φ)}
    (h : BankActive bank earlier) (hstay : ∀ e ∈ later, e.mayReselect = false) :
    BankActive bank (later ++ earlier) := by
  intro slot hslot
  obtain ⟨sel, hfind, hsel⟩ := h slot hslot
  have hnone : later.find? Exchange.mayReselect = none := by
    rw [List.find?_eq_none]
    intro e he
    rw [hstay e he]
    exact Bool.false_ne_true
  exact ⟨sel, by rw [List.find?_append, hnone]; exact hfind, hsel⟩

/-- What may come after a move of the cursor: nothing, an access, or a word that is
stored and then read back. -/
inductive Access (bank : Bank) (address : UInt32) : List (Exchange φ) → Prop
  | none : Access bank address []
  | query (outcome : Except (Error φ) String) :
      Access bank address [⟨.word bank address, .commands [bank.query], outcome⟩]
  | store (word : UInt32) (outcome : Except (Error φ) String) :
      Access bank address [⟨.word bank address, .commands [bank.store word], outcome⟩]
  | readBack (word : UInt32) (outcome outcome' : Except (Error φ) String) :
      Access bank address [⟨.word bank address, .commands [bank.query], outcome'⟩,
        ⟨.word bank address, .commands [bank.store word], outcome⟩]

namespace Access

variable {bank : Bank} {address : UInt32} {made : List (Exchange φ)}

/-- An access leaves the active slot as it is. -/
theorem stay (h : Access bank address made) : ∀ e ∈ made, e.mayReselect = false := by
  intro e he
  cases h with
  | none => cases he
  | query outcome =>
      rw [List.mem_singleton.mp he]
      cases bank <;> rfl
  | store word outcome =>
      rw [List.mem_singleton.mp he]
      cases bank <;> rfl
  | readBack word outcome outcome' =>
      rcases List.mem_cons.mp he with rfl | he
      · cases bank <;> rfl
      · rw [List.mem_singleton.mp he]
        cases bank <;> rfl

theorem ordered {move : Exchange φ} {earlier : List (Exchange φ)}
    (h : Access bank address made) (hmove : move.ConfirmsCursor address)
    (hord : Ordered (move :: earlier)) (hbank : BankActive bank (move :: earlier)) :
    Ordered (made ++ move :: earlier) := by
  have hstored (word : UInt32) (outcome : Except (Error φ) String) :
      Ordered (⟨.word bank address, .commands [bank.store word], outcome⟩ ::
        move :: earlier) :=
    .cons ⟨hbank, .inl ⟨move, rfl, hmove⟩⟩ hord
  cases h with
  | none => exact hord
  | query outcome => exact .cons ⟨hbank, .inl ⟨move, rfl, hmove⟩⟩ hord
  | store word outcome => exact hstored word outcome
  | readBack word outcome outcome' =>
      have hstore : Access bank address
          [⟨.word bank address, .commands [bank.store word], outcome⟩] := .store word outcome
      exact .cons ⟨hbank.append_of_stay hstore.stay,
        .inr ⟨rfl, _, move, earlier, word, rfl, rfl, rfl, hmove⟩⟩ (hstored word outcome)

end Access

namespace Step

/-- The step keeps to the order, whatever it meets with. -/
def Orderly (step : Step σ φ κ α) : Prop :=
  ∀ s, Ends step s fun made _ _ => Ordered made

theorem Silent.orderly {step : Step σ φ κ α} (h : Silent step) : Orderly step := by
  intro s
  refine (h s).mono ?_
  intro made r s' _ hends
  obtain ⟨rfl, -⟩ := hends
  exact .nil

theorem Orderly.bind {step : Step σ φ κ α} {next : α → Step σ φ κ β} (h : Orderly step)
    (hnext : ∀ a, Orderly (next a)) : Orderly (step >>= next) := by
  intro s
  refine (h s).bind (fun _ _ _ _ hmade => hmade) fun made a s' _ hmade => ?_
  exact (hnext a s').mono fun made' r s'' _ hmade' => hmade'.append hmade

theorem Orderly.attempt {step : Step σ φ κ α} (h : Orderly step) :
    Orderly (attempt step) :=
  fun s => (h s).attempt.mono fun _ _ _ _ hmade => hmade.choose_spec.2

/-- The step makes at most one transaction, and that one acts on `target`. -/
def Single (target : Target) (step : Step σ φ κ α) : Prop :=
  ∀ s, Ends step s fun made _ _ =>
    made = [] ∨ ∃ request outcome, made = [⟨target, request, outcome⟩]

/-- The step keeps to the order among the transactions of a bank that is active, and
leaves it active. -/
def Keeps (bank : Bank) (step : Step σ φ κ α) : Prop :=
  ∀ s, Ends step s fun made _ _ => ∀ earlier, Ordered earlier → BankActive bank earlier →
    Ordered (made ++ earlier) ∧ BankActive bank (made ++ earlier)

theorem Silent.keeps {bank : Bank} {step : Step σ φ κ α} (h : Silent step) :
    Keeps bank step := by
  intro s
  refine (h s).mono ?_
  intro made r s' _ hends earlier hord hbank
  obtain ⟨rfl, -⟩ := hends
  exact ⟨hord, hbank⟩

theorem Keeps.bind {bank : Bank} {step : Step σ φ κ α} {next : α → Step σ φ κ β}
    (h : Keeps bank step) (hnext : ∀ a, Keeps bank (next a)) :
    Keeps bank (step >>= next) := by
  intro s
  refine (h s).bind (fun _ _ _ _ hmade => hmade) fun made a s' _ hmade => ?_
  refine (hnext a s').mono fun made' r s'' _ hmade' earlier hord hbank => ?_
  obtain ⟨hord, hbank⟩ := hmade earlier hord hbank
  rw [List.append_assoc]
  exact hmade' _ hord hbank

variable [Link σ φ]

theorem Orderly.repeatUntil {round : Step σ φ κ Bool} (h : Orderly round)
    (draws : Draws 1 round) : Orderly (repeatUntil round draws) :=
  ends_repeatUntil h (fun _ _ _ _ hP => hP) (fun _ _ _ hP => hP)
    fun _ _ _ _ _ _ _ hP hQ => hQ.append hP

theorem ordered_instrument {request : Request} {outcome : Except (Error φ) String} :
    Ordered [⟨.instrument, request, outcome⟩] := .cons trivial .nil

theorem orderly_transact_instrument (commands : List Command) :
    Orderly (transact .instrument commands : Step σ φ κ String) :=
  fun _ => ends_transact .nil fun _ _ _ => ordered_instrument

/-- What a channel's selection is to be answered with. -/
theorem echo_selectChannel {capacity : Nat} {channel : Channel} {expected : String}
    (h : fitting (Command.encodeEcho capacity [.selectSlot (UInt8.ofNat channel.slot),
      .selectChannel (UInt8.ofNat channel.place)]) =
        (.ok expected : Except (Error φ) String)) :
    expected.toList = ['B'] ++ Text.natDigits channel.slot ++ ['!', 'C'] ++
      Text.natDigits channel.place ++ ['!'] := by
  have hslot := toNat_ofNat_slot channel.slot
  have hplace : (UInt8.ofNat channel.place).toNat = channel.place :=
    UInt8.toNat_ofNat_of_lt' (Nat.lt_trans channel.place.isLt (by decide))
  unfold Command.encodeEcho Command.within at h
  split at h
  · cases h
    simp [Command.echo, Command.endedBy, Command.letter, Command.argument?, Text.intDigits,
      hslot, hplace]
  · cases h

/-- Selecting a slot is one transaction, and a confirmed one where it succeeds. -/
theorem ends_selectSlot (slot : UInt8) (s : Session σ φ κ) :
    Ends (selectSlot slot) s fun made r _ => Ordered made ∧
      (r = .ok () → ∃ sel, made = [sel] ∧ sel.ConfirmsSlot slot) := by
  refine (ends_checked (fun reply => ?_) s).mono fun made r s' _ h => ?_
  · exact (silent_understand _).bind fun _ => (silent_ensure _ _).bind fun _ =>
      silent_note (by simp)
  · rcases h with ⟨rfl, e, rfl⟩ | ⟨outcome, rfl, hchecked⟩
    · exact ⟨.nil, fun h => nomatch h⟩
    · refine ⟨ordered_instrument, fun hr => ⟨_, rfl, rfl, ?_⟩⟩
      obtain ⟨reply, s₁, rfl, h⟩ := hchecked () hr
      obtain ⟨echoed, hecho, h⟩ := Session.perform_understand_ok h
      obtain ⟨heq, -⟩ := Session.perform_ensure_ok h
      exact ⟨reply, rfl, by rw [hecho, eq_of_beq heq]⟩

theorem ends_moveCursor (address : UInt32) (s : Session σ φ κ) :
    Ends (moveCursor address) s fun made r _ => Ordered made ∧
      (∀ e ∈ made, e.mayReselect = false) ∧
      (r = .ok () → ∃ move, made = [move] ∧ move.ConfirmsCursor address) := by
  refine (ends_checked (fun reply => ?_) s).mono fun made r s' _ h => ?_
  · exact (silent_understand _).bind fun _ => silent_ensure _ _
  · rcases h with ⟨rfl, e, rfl⟩ | ⟨outcome, rfl, hchecked⟩
    · exact ⟨.nil, by simp, fun h => nomatch h⟩
    · refine ⟨ordered_instrument, fun e he => ?_, fun hr => ⟨_, rfl, rfl, ?_⟩⟩
      · rw [List.mem_singleton.mp he]
        rfl
      obtain ⟨reply, s₁, rfl, h⟩ := hchecked () hr
      obtain ⟨echoed, hecho, h⟩ := Session.perform_understand_ok h
      have heq := Session.perform_ensured h
      exact ⟨reply, rfl, by rw [hecho, eq_of_beq heq]⟩

theorem ends_selectChannel (channel : Channel) (s : Session σ φ κ) :
    Ends (selectChannel channel) s fun made r _ => Ordered made ∧
      (r = .ok () → ∃ sel, made = [sel] ∧ sel.ConfirmsChannel channel) := by
  refine (ends_checked (fun reply => ?_) s).mono fun made r s' _ h => ?_
  · exact silent_get.bind fun _ => (silent_ofExcept _).bind fun _ =>
      (silent_ensure _ _).bind fun _ => silent_note (by simp)
  · rcases h with ⟨rfl, e, rfl⟩ | ⟨outcome, rfl, hchecked⟩
    · exact ⟨.nil, fun h => nomatch h⟩
    · refine ⟨ordered_instrument, fun hr => ⟨_, rfl, rfl, ?_⟩⟩
      obtain ⟨reply, s₁, rfl, h⟩ := hchecked () hr
      obtain ⟨s₂, -, -, h⟩ := Session.perform_bind_ok h
      obtain ⟨expected, hexpected, h⟩ := Session.perform_ofExcept_ok h
      obtain ⟨heq, -⟩ := Session.perform_ensure_ok h
      exact ⟨reply, rfl, by rw [eq_of_beq heq, echo_selectChannel hexpected]⟩

/-! A transaction with a slot or a channel follows its selection. -/

theorem single_transact (target : Target) (commands : List Command) :
    Single target (transact target commands : Step σ φ κ String) :=
  fun _ => ends_transact (.inl rfl) fun _ _ _ => .inr ⟨_, _, rfl⟩

theorem single_exchange (target : Target) (request : Request) :
    Single target (exchange target request : Step σ φ κ String) :=
  fun _ => ends_exchange fun _ _ _ => .inr ⟨_, _, rfl⟩

theorem orderly_onSlot {slot : Fin slotCount} {step : Step σ φ κ α}
    (h : Single (.slot slot) step) :
    Orderly (selectSlot (UInt8.ofNat slot) >>= fun _ => step) := by
  intro s
  refine (ends_selectSlot _ s).bind (fun _ _ _ _ h => h.1) ?_
  intro made _ s' _ hends
  obtain ⟨hmade, hok⟩ := hends
  obtain ⟨sel, rfl, hsel⟩ := hok rfl
  refine (h s').mono ?_
  intro made' r s'' _ hends
  rcases hends with rfl | ⟨request, outcome, rfl⟩
  · exact hmade
  · exact .cons ⟨sel, rfl, hsel⟩ hmade

theorem orderly_onChannel {channel : Channel} {step : Step σ φ κ α}
    (h : Single (.channel channel) step) :
    Orderly (selectChannel channel >>= fun _ => step) := by
  intro s
  refine (ends_selectChannel _ s).bind (fun _ _ _ _ h => h.1) ?_
  intro made _ s' _ hends
  obtain ⟨hmade, hok⟩ := hends
  obtain ⟨sel, rfl, hsel⟩ := hok rfl
  refine (h s').mono ?_
  intro made' r s'' _ hends
  rcases hends with rfl | ⟨request, outcome, rfl⟩
  · exact hmade
  · exact .cons ⟨sel, rfl, hsel⟩ hmade

/-! Memory operations do not touch what is selected: once the slot that is meant is
active it stays so, and each access follows a move of the cursor. -/

/-- Once the bank is active, a step that keeps to the order there is in order. -/
theorem Keeps.orderly {bank : Bank} {step : Step σ φ κ α} (h : Keeps bank step) :
    Orderly (selectBank bank >>= fun _ => step) := by
  intro s
  refine Ends.bind (P := fun made (r : Except (Error φ) Unit) _ =>
    Ordered made ∧ (r = .ok () → BankActive bank made)) ?_ (fun _ _ _ _ h => h.1) ?_
  · unfold selectBank
    cases bank with
    | main => exact ends_pure ⟨.nil, fun _ slot hslot => nomatch hslot⟩
    | slotEeprom slot =>
        refine (ends_selectSlot slot s).mono fun made r s' _ hends => ⟨hends.1, fun hr => ?_⟩
        obtain ⟨sel, rfl, hsel⟩ := hends.2 hr
        intro slot' heq
        cases heq
        refine ⟨sel, ?_, hsel⟩
        rw [List.find?_cons, Exchange.mayReselect, hsel.1]
        rfl
  · intro made _ s' _ hends
    obtain ⟨hord, hbank⟩ := hends
    exact (h s').mono fun made' r s'' _ hmade' => (hmade' made hord (hbank rfl)).1

theorem keeps_moveCursor {bank : Bank} {address : UInt32} {step : Step σ φ κ α}
    (h : ∀ s, Ends step s fun made _ _ => Access bank address made) :
    Keeps bank (moveCursor address >>= fun _ => step) := by
  intro s
  refine (ends_moveCursor address s).bind ?_ ?_
  · intro made e s' hg hends earlier hord hbank
    obtain ⟨hord', hstay, -⟩ := hends
    exact ⟨hord'.append hord, hbank.append_of_stay hstay⟩
  · intro made _ s' hg hends
    obtain ⟨hord', hstay, hok⟩ := hends
    obtain ⟨move, rfl, hmove⟩ := hok rfl
    refine (h s').mono fun made' r s'' _ haccess earlier hord hbank => ?_
    rw [List.append_assoc]
    have hbank' := hbank.append_of_stay hstay
    exact ⟨haccess.ordered hmove (hord'.append hord) hbank',
      hbank'.append_of_stay haccess.stay⟩

theorem ends_readCursor (bank : Bank) (address : UInt32) (s : Session σ φ κ) :
    Ends (readCursor bank address) s fun made _ _ => made = [] ∨
      ∃ outcome, made = [⟨.word bank address, .commands [bank.query], outcome⟩] := by
  refine (ends_checked (fun _ => silent_understand _) s).mono ?_
  intro made r s' _ hends
  rcases hends with ⟨rfl, -⟩ | ⟨outcome, rfl, -⟩
  · exact .inl rfl
  · exact .inr ⟨outcome, rfl⟩

theorem keeps_readWord (bank : Bank) (address : UInt32) :
    Keeps bank (readWord bank address : Step σ φ κ UInt32) := by
  refine keeps_moveCursor fun s => (ends_readCursor bank address s).mono ?_
  intro made r s' _ hends
  rcases hends with rfl | ⟨outcome, rfl⟩
  · exact .none
  · exact .query outcome

theorem keeps_readWords (bank : Bank) (words : Nat) (first : UInt32) (value : UInt64) :
    Keeps bank (readWords bank words first value : Step σ φ κ UInt64) := by
  induction words generalizing first value with
  | zero => exact (silent_pure _).keeps
  | succ words ih => exact (keeps_readWord bank first).bind fun _ => ih _ _

theorem orderly_read (address : Int) (words : Nat) (bank : Bank) :
    Orderly (read address words bank : Step σ φ κ UInt64) := by
  unfold read
  split
  · exact (silent_pure _).orderly
  · split
    · exact (silent_throw _).orderly
    · refine (silent_ofExcept _).orderly.bind fun start => Keeps.orderly ?_
      exact (keeps_readWords _ _ _ _).bind fun _ =>
        ((silent_note (by simp)).bind fun _ => silent_pure _).keeps

/-- Storing a word and reading it back is all that goes on behind the cursor. -/
theorem ends_storeWord (bank : Bank) (address word : UInt32) (s : Session σ φ κ) :
    Ends (do
      let _ ← transact (.word bank address) [bank.store word]
      let found ← readCursor bank address
      ensure (.reply (.notWritten address word)) (found == word)
      note (.wordWritten word address bank)) s
      fun made _ _ => Access bank address made := by
  refine Ends.bind (P := fun made (r : Except (Error φ) String) _ => (made = [] ∧
    ∃ e, r = .error e) ∨ made = [⟨.word bank address, .commands [bank.store word], r⟩]) ?_ ?_ ?_
  · exact ends_transact (.inl ⟨rfl, _, rfl⟩) fun _ _ _ => .inr rfl
  · intro made e s' _ hends
    rcases hends with ⟨rfl, -⟩ | rfl
    · exact .none
    · exact .store word _
  · intro made reply s' _ hends
    rcases hends with ⟨-, e, he⟩ | rfl
    · cases he
    · have hread := ends_readCursor bank address s'
      have hadd {made' : List (Exchange φ)} (h : made' = [] ∨
          ∃ outcome, made' = [⟨.word bank address, .commands [bank.query], outcome⟩]) :
          Access bank address
            (made' ++ [⟨.word bank address, .commands [bank.store word], .ok reply⟩]) := by
        rcases h with rfl | ⟨outcome, rfl⟩
        · exact .store word _
        · exact .readBack word _ outcome
      refine hread.bind (fun _ _ _ _ h => hadd h) fun made' found s'' _ h => ?_
      have hrest : Silent (do
          ensure (.reply (.notWritten address word)) (found == word)
          note (.wordWritten word address bank) : Step σ φ κ Unit) :=
        (silent_ensure _ _).bind fun _ => silent_note (by simp)
      refine (hrest s'').mono ?_
      intro made'' r s₃ _ hends
      obtain ⟨rfl, -⟩ := hends
      exact hadd h

theorem orderly_write (address value : Int) (bank : Bank) :
    Orderly (write address value bank : Step σ φ κ Unit) :=
  (silent_ofExcept _).orderly.bind fun target => (silent_ofExcept _).orderly.bind fun word =>
    Keeps.orderly (keeps_moveCursor (ends_storeWord bank target word))

theorem Composed.orderly {aims : Target → Prop} {text? : Option (Target × String)}
    {step : Step σ φ κ α} (h : Composed aims text? step) : Orderly step := by
  induction h with
  | silent h => exact h.orderly
  | bind _ _ ih ihnext => exact ih.bind ihnext
  | attempt _ ih => exact ih.attempt
  | repeatUntil draws _ ih => exact ih.repeatUntil draws
  | askCalibration => exact orderly_transact_instrument _
  | transactSlot _ _ => exact orderly_onSlot (single_transact _ _)
  | transactChannel _ _ => exact orderly_onChannel (single_transact _ _)
  | read _ => exact orderly_read _ _ _
  | write _ => exact orderly_write _ _ _
  | ask _ => exact fun s => ends_exchange fun _ _ _ => ordered_instrument
  | askSlot _ => exact orderly_onSlot (single_exchange _ _)
  | askChannel _ => exact orderly_onChannel (single_exchange _ _)

end Step

section

variable [Link σ φ] [Clock κ]

/-- A call adds transactions that are in order by themselves, and are what the call
may send. -/
theorem perform_call (s : Session σ φ κ) (call : Call) :
    ∃ made, s.Grown (s.perform call.run).2 made ∧ Ordered made ∧
      ∀ e ∈ made, Allowed call.Aims call.asks? e.target e.request := by
  have hcall : Step.Composed call.Aims call.asks? (call.run : Step σ φ κ Answer) :=
    Step.composed_call call
  obtain ⟨made, hg, hord, hsent⟩ := (hcall.orderly s).and (hcall.sends call.aims_instrument s)
  exact ⟨made, hg, hord, hsent⟩

theorem ordered_performAll (calls : List Call) (s : Session σ φ κ)
    (h : Ordered s.journal.exchanges) :
    Ordered (s.performAll calls).journal.exchanges := by
  induction calls generalizing s with
  | nil => exact h
  | cons call calls ih =>
      obtain ⟨made, hg, hord, -⟩ := perform_call s call
      refine ih _ ?_
      rw [hg.exchanges]
      exact hord.append h

/-- What is sent while connecting, and then by any calls, is in order. A further call
sends what it may and puts it in order by its own selections. -/
theorem ordered_connected_run (link : σ) (clock : κ) (config : Config) (capacity : Nat)
    (host : HostState) (calls : List Call) (call : Call) :
    let start : Session σ φ κ := { link, clock, config, capacity, host }
    let opened := (start.perform Step.connect).2
    let s := opened.performAll calls
    let s' := (s.perform call.run).2
    (∀ e ∈ opened.journal.exchanges,
        Allowed (fun target => Probed target ∨ ∃ slot, target = .slot slot) none
          e.target e.request) ∧
      Ordered s.journal.exchanges ∧
      ∃ made, s'.journal.exchanges = made ++ s.journal.exchanges ∧ Ordered made ∧
        ∀ e ∈ made, Allowed call.Aims call.asks? e.target e.request := by
  intro start opened s s'
  have hconnect : Step.Composed (fun target => Probed target ∨ ∃ slot, target = .slot slot)
      none (Step.connect : Step σ φ κ Unit) :=
    Step.composed_connect (fun _ h => .inl h) fun slot => .inr ⟨slot, rfl⟩
  obtain ⟨made, hg, hord, hsent⟩ :=
    (hconnect.orderly start).and (hconnect.sends (.inl trivial) start)
  have hopened : opened.journal.exchanges = made := by
    rw [hg.exchanges]
    exact List.append_nil made
  refine ⟨?_, ?_, ?_⟩
  · rw [hopened]
    exact hsent
  · exact ordered_performAll calls opened (by rw [hopened]; exact hord)
  · obtain ⟨made', hg', hord', hsent'⟩ := perform_call s call
    exact ⟨made', hg'.exchanges, hord', hsent'⟩

end

end DacRack
