import DacRack.Proofs.Blame
import DacRack.Proofs.Grammar
import DacRack.Proofs.Refusals
import DacRack.Proofs.ReplyGrammar

/-!
# Words that are confirmed by reading them back

Writing a word follows a script of three requests, and one more before them where a slot has to
be active: the cursor is moved, the word stored and then read back. Each of them furthers the
writing (`Exchange.Furthers`) or is blamed for breaking it off (`Exchange.Hinders`). They differ
in what they ask of the answer. A selection and a move have to be confirmed by their number.
To the storing itself any reply will do. What is read back has to be a number of 32 bits, with or
without a sign, and to stand for the word that was stored.

So a word that was written was confirmed, by the last of the answers and by no other. Writing it
fails for nothing but the latest answer or a buffer that is too small, and where the cursor was
not confirmed nothing was stored at all (`Step.ends_write_confirmed`).
-/

namespace DacRack

variable {σ φ κ : Type}

namespace Reply

variable {raw : List Char} {letter : Char} {n : Int} {w : UInt32}

theorem word_ok_iff : word raw = .ok w ↔
    ∃ n, number raw = .ok n ∧ (-2 ^ 31 ≤ n ∧ n < 2 ^ 32) ∧ n % 2 ^ 32 = w.toNat := by
  constructor
  · intro h
    cases hnumber : number raw with
    | error cause => cases (word_of_error hnumber).symm.trans h
    | ok n =>
        by_cases hin : -2 ^ 31 ≤ n ∧ n < 2 ^ 32
        · rw [word_of_inside hnumber hin] at h
          exact ⟨n, rfl, hin, ofInt_eq_iff.mp (Except.ok.inj h)⟩
        · cases (word_of_outside hnumber hin).symm.trans h
  · rintro ⟨n, hnumber, hin, hw⟩
    rw [word_of_inside hnumber hin, ofInt_eq_iff.mpr hw]

/-- An integer that stands for no word is none, however large it is. -/
theorem Spelled.word_eq_error (h : Spelled letter n raw)
    (hout : ¬ (-2 ^ 31 ≤ n ∧ n < 2 ^ 32)) : word raw = .error .notInteger := by
  by_cases hfits : -2 ^ 63 ≤ n ∧ n < 2 ^ 63
  · exact word_of_outside (number_ok_iff_spelled.mpr ⟨⟨letter, h⟩, hfits⟩) hout
  · exact word_of_error (h.number_eq_error hfits)

theorem Spelled.word_eq (h : Spelled letter n raw) (hin : -2 ^ 31 ≤ n ∧ n < 2 ^ 32) :
    word raw = .ok (UInt32.ofInt n) :=
  word_of_inside (number_ok_iff_spelled.mpr ⟨⟨letter, h⟩, by omega⟩) hin

end Reply

namespace Bank

/-- The requests that make a bank accessible. -/
def selection : Bank → List Request
  | main => []
  | slotEeprom slot => [.commands [.selectSlot slot]]

/-- The requests that write a word and read it back. -/
def writing (bank : Bank) (address word : UInt32) : List Request :=
  bank.selection ++
    [.commands [.moveCursor address], .commands [bank.store word], .commands [bank.query]]

/-- How the requests that write a word are spelled. -/
def writingTexts (address value : Int) : Bank → List String
  | main => [s!"A{address};", s!"P{value};", "p;"]
  | slotEeprom slot =>
    let s := slot.toNat
    [s!"B{s};", s!"A{address};", s!"E{value};", "e;"]

theorem store_eq_of_mem_writing {bank bank' : Bank} {address word word' : UInt32}
    (h : .commands [bank'.store word'] ∈ bank.writing address word) :
    bank'.store word' = bank.store word := by
  cases bank with
  | main => cases bank' <;> simp_all [writing, selection, store, query]
  | slotEeprom slot => cases bank' <;> simp_all [writing, selection, store, query]

theorem wire_writing {address value : Nat} (haddress : address < 2 ^ 32)
    (hvalue : value < 2 ^ 32) (bank : Bank) :
    (bank.writing (UInt32.ofNat address) (UInt32.ofNat value)).map Request.wire =
      bank.writingTexts address value := by
  have hmove : (Form.moveCursor address).text = _ := Form.text_eq haddress
  cases bank with
  | main =>
      have hstore : (Form.writeMemory value).text = _ := Form.text_eq hvalue
      have hquery : Form.readMemory.text = _ := Form.text_eq trivial
      simp only [writing, selection, writingTexts, List.nil_append, List.map_cons, List.map_nil,
        List.cons.injEq]
      exact ⟨hmove.symm, hstore.symm, hquery.symm, trivial⟩
  | slotEeprom slot =>
      have hselect : (Form.selectSlot slot.toNat).text = _ := Form.text_eq slot.toNat_lt
      have hstore : (Form.writeSlotEeprom value).text = _ := Form.text_eq hvalue
      have hquery : Form.readSlotEeprom.text = _ := Form.text_eq trivial
      have hslot : (Form.selectSlot slot.toNat).commands = [.selectSlot slot] := by
        rw [Form.commands, UInt8.ofNat_toNat]
      rw [hslot] at hselect
      simp only [writing, selection, writingTexts, List.cons_append, List.nil_append,
        List.map_cons, List.map_nil, List.cons.injEq]
      exact ⟨hselect.symm, hmove.symm, hstore.symm, hquery.symm, trivial⟩

end Bank

namespace Exchange

/-- A transaction was answered as it should be when a word is written: a slot or the cursor is
selected, something came back when the word was stored, and what was read back stands for it. -/
inductive Furthers (bank : Bank) (address word : UInt32) (e : Exchange φ) : Prop
  | selected {slot : UInt8} (h : e.ConfirmsSlot slot)
  | moved (h : e.ConfirmsCursor address)
  | stored {reply : String} (hrequest : e.request = .commands [bank.store word])
      (houtcome : e.outcome = .ok reply)
  | readBack {reply : String} {n : Int} (hrequest : e.request = .commands [bank.query])
      (houtcome : e.outcome = .ok reply) (hnumber : Reply.number reply.toList = .ok n)
      (hin : -2 ^ 31 ≤ n ∧ n < 2 ^ 32) (hword : n % 2 ^ 32 = word.toNat)

/-- What is wrong with a transaction when a word is written. -/
inductive Hinders (bank : Bank) (address word : UInt32) (e : Exchange φ) (error : Error φ) : Prop
  | selected {slot : UInt8} (hrequest : e.request = .commands [.selectSlot slot])
      (h : Mistaken Reply.number slot.toNat (.slotNotSelected slot) e.outcome error)
  | moved (hrequest : e.request = .commands [.moveCursor address])
      (h : Mistaken Reply.number address.toNat (.cursorNotMoved address) e.outcome error)
  | stored (hrequest : e.request = .commands [bank.store word]) (h : e.outcome = .error error)
  | readBack (hrequest : e.request = .commands [bank.query])
      (h : Mistaken Reply.word word (.notWritten address word) e.outcome error)

variable {bank : Bank} {address word : UInt32} {e : Exchange φ}

theorem furthers_selection_iff {slot : UInt8}
    (hrequest : e.request = .commands [.selectSlot slot]) :
    e.Furthers bank address word ↔ e.ConfirmsSlot slot := by
  constructor
  · rintro (h | h | ⟨h, -⟩ | ⟨h, -⟩)
    · cases hrequest.symm.trans h.1
      exact h
    · cases hrequest.symm.trans h.1
    · cases bank <;> cases hrequest.symm.trans h
    · cases bank <;> cases hrequest.symm.trans h
  · exact .selected

theorem furthers_move_iff (hrequest : e.request = .commands [.moveCursor address]) :
    e.Furthers bank address word ↔ e.ConfirmsCursor address := by
  constructor
  · rintro (h | h | ⟨h, -⟩ | ⟨h, -⟩)
    · cases hrequest.symm.trans h.1
    · exact h
    · cases bank <;> cases hrequest.symm.trans h
    · cases bank <;> cases hrequest.symm.trans h
  · exact .moved

theorem furthers_store_iff (hrequest : e.request = .commands [bank.store word]) :
    e.Furthers bank address word ↔ ∃ reply, e.outcome = .ok reply := by
  constructor
  · rintro (h | h | ⟨-, h⟩ | ⟨h, -⟩)
    · cases bank <;> cases hrequest.symm.trans h.1
    · cases bank <;> cases hrequest.symm.trans h.1
    · exact ⟨_, h⟩
    · cases bank <;> cases hrequest.symm.trans h
  · rintro ⟨reply, h⟩
    exact .stored hrequest h

theorem furthers_query_iff (hrequest : e.request = .commands [bank.query]) :
    e.Furthers bank address word ↔
      ∃ reply, e.outcome = .ok reply ∧ Reply.word reply.toList = .ok word := by
  constructor
  · rintro (h | h | ⟨h, -⟩ | ⟨-, houtcome, hnumber, hin, hword⟩)
    · cases bank <;> cases hrequest.symm.trans h.1
    · cases bank <;> cases hrequest.symm.trans h.1
    · cases bank <;> cases hrequest.symm.trans h
    · exact ⟨_, houtcome, Reply.word_ok_iff.mpr ⟨_, hnumber, hin, hword⟩⟩
  · rintro ⟨reply, houtcome, hread⟩
    obtain ⟨n, hnumber, hin, hword⟩ := Reply.word_ok_iff.mp hread
    exact .readBack hrequest houtcome hnumber hin hword

end Exchange

/-- A number that stands for no word is no integer, and one that does stands for another word. -/
theorem Mistaken.of_spelled {address word : UInt32} {reply : String} {letter : Char} {n : Int}
    {error : Error φ} (h : Mistaken Reply.word word (.notWritten address word) (.ok reply) error)
    (hspelled : Reply.Spelled letter n reply.toList) :
    if -2 ^ 31 ≤ n ∧ n < 2 ^ 32 then
      n % 2 ^ 32 ≠ word.toNat ∧ error = .reply (.notWritten address word)
    else error = .reply .notInteger := by
  split
  · next hin =>
      have hread := hspelled.word_eq hin
      cases h with
      | unread h => cases hread.symm.trans h
      | other h hne =>
          cases hread.symm.trans h
          exact ⟨fun hword => hne (ofInt_eq_iff.mpr hword), rfl⟩
  · next hout =>
      have hread := hspelled.word_eq_error hout
      cases h with
      | unread h =>
          cases hread.symm.trans h
          rfl
      | other h _ => cases hread.symm.trans h

theorem Exchange.Hinders.mistaken {bank : Bank} {address word : UInt32} {e : Exchange φ}
    {error : Error φ} (h : e.Hinders bank address word error)
    (hrequest : e.request = .commands [bank.query]) :
    Mistaken Reply.word word (.notWritten address word) e.outcome error := by
  cases h with
  | selected h | moved h | stored h => cases bank <;> cases hrequest.symm.trans h
  | readBack _ h => exact h

/-! ## Where the script stands -/

section

variable {bank bank' : Bank} {address word word' : UInt32} {later earlier : List (Exchange φ)}
  {e : Exchange φ} {ok : Bool}

theorem Followed.confirmed_of_store
    (h : Followed (Exchange.Furthers bank address word) (bank.writing address word)
      (later ++ e :: earlier) ok) (he : e.request = .commands [bank'.store word']) :
    ∃ move earlier', earlier = move :: earlier' ∧ move.ConfirmsCursor address := by
  have hstore : e.request = .commands [bank.store word] := by
    have hmem : e.request ∈ bank.writing address word := h.begins.subset (by simp [sent])
    rw [he] at hmem ⊢
    rw [Bank.store_eq_of_mem_writing hmem]
  have hscript : bank.writing address word =
      (bank.selection ++ [.commands [.moveCursor address]]) ++
        e.request :: [.commands [bank.query]] := by
    rw [hstore, List.append_assoc]
    rfl
  rw [hscript] at h
  obtain ⟨hsent, -, hgranted⟩ := h.split
    (by rw [hstore]; cases bank <;> simp [Bank.selection, Bank.store])
    (by rw [hstore]; cases bank <;> simp [Bank.store, Bank.query])
  obtain ⟨move, earlier', rfl, hmove⟩ := exists_of_sent_concat hsent
  exact ⟨move, earlier', rfl,
    (Exchange.furthers_move_iff hmove).mp (hgranted move List.mem_cons_self)⟩

theorem Followed.sent_of_query
    (h : Followed (Exchange.Furthers bank address word) (bank.writing address word)
      (later ++ e :: earlier) ok) (he : e.request = .commands [bank.query]) :
    later = [] ∧ sent (e :: earlier) = bank.writing address word := by
  have hscript : bank.writing address word = (bank.selection ++ [.commands [.moveCursor address],
      .commands [bank.store word]]) ++ e.request :: [] := by
    rw [he, List.append_assoc]
    rfl
  rw [hscript] at h ⊢
  obtain ⟨hsent, hlater, -⟩ := h.split
    (by rw [he]; cases bank <;> simp [Bank.selection, Bank.store, Bank.query]) (by simp)
  have hlength := hlater.length_le
  rw [length_sent] at hlength
  refine ⟨List.eq_nil_of_length_eq_zero (Nat.le_zero.mp hlength), ?_⟩
  rw [← hsent]
  simp [sent]

theorem Followed.read_or_mistaken {capacity : Nat} {r : Except (Error φ) Unit}
    (h : Followed (Exchange.Furthers bank address word) (bank.writing address word)
      (later ++ e :: earlier) r.isOk)
    (hbroke : ∀ error, r = .error error → Broke (Exchange.Hinders bank address word) capacity
      (bank.writing address word) (later ++ e :: earlier) error)
    (he : e.request = .commands [bank.query]) :
    (r = .ok () ∧ ∃ reply, e.outcome = .ok reply ∧ Reply.word reply.toList = .ok word) ∨
      ∃ error, r = .error error ∧
        Mistaken Reply.word word (.notWritten address word) e.outcome error := by
  -- The word is asked for last, so that this is the answer that a failure is due to.
  obtain ⟨rfl, hsent⟩ := h.sent_of_query he
  rw [List.nil_append] at h hbroke
  cases r with
  | ok _ =>
      have hgranted := (h.ok_iff.mp rfl).2 e List.mem_cons_self
      exact .inl ⟨rfl, (Exchange.furthers_query_iff he).mp hgranted⟩
  | error error =>
      obtain ⟨_, _, ⟨⟩, hhinders⟩ := (hsent ▸ hbroke error rfl).of_sent
      exact .inr ⟨error, rfl, hhinders.mistaken he⟩

end

namespace Step

variable [Link σ φ]

theorem explains_selectBank (bank : Bank) (address word : UInt32) :
    Explains (Exchange.Furthers bank address word) (Exchange.Hinders bank address word)
      bank.selection (selectBank bank : Step σ φ κ Unit) := by
  cases bank with
  | main => exact explains_pure ()
  | slotEeprom slot =>
      exact explains_selectSlot (fun e => Exchange.furthers_selection_iff)
        fun e error => Exchange.Hinders.selected

theorem explains_readBack (bank : Bank) (address word : UInt32) :
    Explains (Exchange.Furthers bank address word) (Exchange.Hinders bank address word)
      [.commands [bank.query]] (do
        let found ← readCursor bank address
        ensure (.reply (.notWritten address word)) (found == word) : Step σ φ κ Unit) := by
  unfold readCursor
  rw [bind_assoc]
  exact explains_expected (fun _ => Exchange.furthers_query_iff rfl)
    fun _ _ h => Exchange.Hinders.readBack rfl h

/-- Writing once the address and the value were found valid. -/
theorem explains_writeTo (bank : Bank) (address word : UInt32) :
    Explains (Exchange.Furthers bank address word) (Exchange.Hinders bank address word)
      (bank.writing address word) (do
        selectBank bank
        moveCursor address
        let _ ← transact (.word bank address) [bank.store word]
        let found ← readCursor bank address
        ensure (.reply (.notWritten address word)) (found == word)
        note (.wordWritten word address bank) : Step σ φ κ Unit) := by
  have hstore : Explains (Exchange.Furthers bank address word)
      (Exchange.Hinders bank address word) [.commands [bank.store word]]
      (transact (.word bank address) [bank.store word] : Step σ φ κ String) := by
    refine explains_transact (fun reply => .stored rfl rfl) (fun e h => ?_) fun e => .stored rfl rfl
    obtain ⟨_, ⟨⟩⟩ := (Exchange.furthers_store_iff rfl).mp h
  refine (explains_selectBank bank address word).bind fun _ => ?_
  refine (explains_moveCursor (fun e => Exchange.furthers_move_iff)
    fun e error => Exchange.Hinders.moved).bind fun _ => hstore.bind fun _ => ?_
  have hnote : Explains (Exchange.Furthers bank address word) (Exchange.Hinders bank address word)
      [] (note (.wordWritten word address bank) : Step σ φ κ Unit) :=
    explains_note (by simp)
  have hnoted := (explains_readBack bank address word).bind fun _ => hnote
  rwa [bind_assoc] at hnoted

end Step

/-- What comes of writing a word through a buffer of so many bytes. -/
structure WrittenBack (capacity : Nat) (bank : Bank) (address value : Int)
    (made : List (Exchange φ)) (r : Except (Error φ) Unit) : Prop where
  /-- It succeeds just where everything was sent and answered as it should be. -/
  ok_iff : r = .ok () ↔ (0 ≤ address ∧ address ≤ 1107296266) ∧ (0 ≤ value ∧ value < 2 ^ 32) ∧
    (sent made).map Request.wire = bank.writingTexts address value ∧
      ∀ e ∈ made, e.Furthers bank (UInt32.ofInt address) (UInt32.ofInt value)
  /-- Nothing else is ever sent, nor anything out of order. -/
  begins : (sent made).map Request.wire <+: bank.writingTexts address value
  /-- Nothing is sent after what was not answered as it should be. -/
  stops : ∀ e ∈ made.tail, e.Furthers bank (UInt32.ofInt address) (UInt32.ofInt value)
  /-- Nothing is stored unless the cursor was confirmed to stand where it should. -/
  guarded : ∀ later e earlier bank' word, made = later ++ e :: earlier →
    e.request = .commands [Bank.store word bank'] →
      ∃ move earlier', earlier = move :: earlier' ∧ move.ConfirmsCursor (UInt32.ofInt address)
  noAddress : ¬ (0 ≤ address ∧ address ≤ 1107296266) →
    made = [] ∧ r = .error (.noSuchAddress address)
  noWord : 0 ≤ address ∧ address ≤ 1107296266 → ¬ (0 ≤ value ∧ value < 2 ^ 32) →
    made = [] ∧ r = .error (.noWord (UInt32.ofInt address) value)
  /-- It fails for the latest answer, or because there is no room for the next request. -/
  blamed : 0 ≤ address ∧ address ≤ 1107296266 → 0 ≤ value ∧ value < 2 ^ 32 →
    ∀ error, r = .error error →
      Broke (Exchange.Hinders bank (UInt32.ofInt address) (UInt32.ofInt value)) capacity
        (bank.writing (UInt32.ofInt address) (UInt32.ofInt value)) made error
  /-- The integer that was read back decides how it ends. -/
  readBack : ∀ e ∈ made, e.request = .commands [bank.query] → ∀ reply letter n,
    e.outcome = .ok reply → Reply.Spelled letter n reply.toList →
      r = if -2 ^ 31 ≤ n ∧ n < 2 ^ 32 then
        if n % 2 ^ 32 = value then .ok ()
        else .error (.reply (.notWritten (UInt32.ofInt address) (UInt32.ofInt value)))
      else .error (.reply .notInteger)

namespace WrittenBack

variable {capacity : Nat} {bank : Bank} {address value : Int} {made : List (Exchange φ)}
  {r : Except (Error φ) Unit}

theorem of_refused {error : Error φ} (hr : r = .error error)
    (hinvalid : ¬ ((0 ≤ address ∧ address ≤ 1107296266) ∧ (0 ≤ value ∧ value < 2 ^ 32)))
    (haddress : ¬ (0 ≤ address ∧ address ≤ 1107296266) → error = .noSuchAddress address)
    (hvalue : 0 ≤ address ∧ address ≤ 1107296266 → error = .noWord (UInt32.ofInt address) value) :
    WrittenBack capacity bank address value [] r where
  ok_iff := by
    rw [hr]
    exact iff_of_false nofun fun h => hinvalid ⟨h.1, h.2.1⟩
  begins := List.nil_prefix
  stops := nofun
  guarded := by simp
  noAddress h := ⟨rfl, by rw [hr, haddress h]⟩
  noWord h _ := ⟨rfl, by rw [hr, hvalue h]⟩
  blamed h h' := absurd ⟨h, h'⟩ hinvalid
  readBack _ hmem := absurd hmem List.not_mem_nil

theorem of_followed (haddress : 0 ≤ address ∧ address ≤ 1107296266)
    (hvalue : 0 ≤ value ∧ value < 2 ^ 32)
    (h : Followed (Exchange.Furthers bank (UInt32.ofInt address) (UInt32.ofInt value))
      (bank.writing (UInt32.ofInt address) (UInt32.ofInt value)) made r.isOk)
    (hbroke : ∀ error, r = .error error →
      Broke (Exchange.Hinders bank (UInt32.ofInt address) (UInt32.ofInt value)) capacity
        (bank.writing (UInt32.ofInt address) (UInt32.ofInt value)) made error) :
    WrittenBack capacity bank address value made r := by
  have hwire : (bank.writing (UInt32.ofInt address) (UInt32.ofInt value)).map Request.wire =
      bank.writingTexts address value := by
    obtain ⟨a, rfl⟩ := Int.eq_ofNat_of_zero_le haddress.1
    obtain ⟨v, rfl⟩ := Int.eq_ofNat_of_zero_le hvalue.1
    rw [ofInt_natCast, ofInt_natCast]
    exact Bank.wire_writing (by omega) (by omega) bank
  have hall : (sent made).map Request.wire = bank.writingTexts address value ↔
      sent made = bank.writing (UInt32.ofInt address) (UInt32.ofInt value) := by
    rw [← hwire]
    exact h.map_wire_eq_iff
  refine ⟨?_, ?_, h.all_but_last, ?_, absurd haddress, fun _ => absurd hvalue,
    fun _ _ => hbroke, ?_⟩
  · rw [eq_ok_iff, h.ok_iff, hall]
    exact ⟨fun hdone => ⟨haddress, hvalue, hdone⟩, fun hdone => hdone.2.2⟩
  · rw [← hwire]
    exact h.begins.map _
  · rintro later e earlier bank' word rfl he
    exact h.confirmed_of_store he
  · intro e he hrequest reply letter n houtcome hspelled
    obtain ⟨later, earlier, rfl⟩ := List.append_of_mem he
    rcases h.read_or_mistaken hbroke hrequest with
      ⟨rfl, _, houtcome', hread⟩ | ⟨error, rfl, hmistaken⟩
    · cases houtcome.symm.trans houtcome'
      by_cases hin : -2 ^ 31 ≤ n ∧ n < 2 ^ 32
      · have hword := ofInt_eq_iff.mp (Except.ok.inj ((hspelled.word_eq hin).symm.trans hread))
        rw [toNat_ofInt hvalue.1 hvalue.2] at hword
        rw [if_pos hin, if_pos hword]
      · cases (hspelled.word_eq_error hin).symm.trans hread
    · rw [houtcome] at hmistaken
      have herror := hmistaken.of_spelled hspelled
      rw [toNat_ofInt hvalue.1 hvalue.2] at herror
      split
      · next hin =>
          rw [if_pos hin] at herror
          rw [if_neg herror.1, herror.2]
      · next hout =>
          rw [if_neg hout] at herror
          rw [herror]

end WrittenBack

namespace Step

variable [Link σ φ]

/-- A word is written just where every answer was as it should be, and is otherwise not written for
what was wrong with the latest one. It is stored only where the cursor stands as it should. -/
theorem ends_write_confirmed (s : Session σ φ κ) (address value : Int) (bank : Bank) :
    Ends (write address value bank) s fun made r _ =>
      WrittenBack s.capacity bank address value made r := by
  by_cases haddress : 0 ≤ address ∧ address ≤ 1107296266
  · have hvalid := validAddress_of_le (φ := φ) haddress.1 haddress.2
    unfold write
    rw [hvalid]
    show Ends (ofExcept (validWord (UInt32.ofInt address) value) >>= _) s _
    by_cases hvalue : 0 ≤ value ∧ value < 2 ^ 32
    · rw [validWord_of_lt hvalue]
      exact (explains_writeTo bank _ _ s).mono fun made r _ _ h =>
        .of_followed haddress hvalue h.1 h.2
    · rw [validWord_eq_error hvalue]
      exact ends_throw (.of_refused rfl (fun h => hvalue h.2) (absurd haddress) fun _ => rfl)
  · unfold write
    rw [validAddress_eq_error haddress]
    exact ends_throw (.of_refused rfl (fun h => haddress h.1) (fun _ => rfl) (absurd · haddress))

end Step

/-- A connection to an instrument that answers nothing in particular when a word is stored, and
gives the word back with a sign. -/
def calibrating : Session ScriptedLink FaultKind SteppingClock :=
  { link := .ofReplies ["B3!", "A6!", "?", "e-2!"], clock := {} }

theorem written_calibrating :
    ∃ made, (calibrating.perform (Step.write 6 4294967294 (.slotEeprom 3))).2.journal.exchanges =
        made ∧
      (calibrating.perform (Step.write 6 4294967294 (.slotEeprom 3))).1 = .ok () ∧
      (sent made).map Request.wire = ["B3;", "A6;", "E4294967294;", "e;"] ∧
      ∀ e ∈ made, e.Furthers (.slotEeprom 3) 6 4294967294 := by
  have hok : (calibrating.perform (Step.write 6 4294967294 (.slotEeprom 3))).1 = .ok () :=
    eq_ok_of_toOption (by decide +kernel)
  obtain ⟨made, hg, hwritten⟩ := Step.ends_write_confirmed calibrating 6 4294967294 (.slotEeprom 3)
  obtain ⟨-, -, hsent, hfurthers⟩ := hwritten.ok_iff.mp hok
  exact ⟨made, hg.exchanges.trans (List.append_nil made), hok, hsent, hfurthers⟩

end DacRack
