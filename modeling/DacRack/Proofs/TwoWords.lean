import DacRack.Proofs.Addressing
import DacRack.Proofs.Independence
import DacRack.Proofs.Talks
import DacRack.Proofs.WriteBack

/-!
# Numbers of two words

A number of 64 bits is read as two words, the high one first. An instrument may write a word
without a sign, or with the sign that its top bit stands for, and it may do so differently for
each of the two: what is read is made of the bits, so that the low word never borrows from the
high one (`join_words`). Only the high one has the sign of the number (`toInt_eq_words`).

An answer is taken for a word where it lies between the least number with a sign and the greatest
without one. An integer beyond that ends the reading (`Step.Discards`).

Reading two words and reading one and then the next differ in what is noted, and in nothing else.
Two steps that do the same but for their notes mirror each other (`Step.Mirrors`), and a note on
one side alone makes no difference (`Step.Mirrors.noted`), so that the two readings are compared
part by part (`Step.mirrors_read_in_turn`).
-/

namespace DacRack

variable {σ φ κ α β : Type}

/-! ## Two words of a number -/

/-- The upper half of the bits. -/
def highWord (z : Int64) : UInt32 :=
  (z.toUInt64 >>> 32).toUInt32

/-- The lower half of the bits. -/
def lowWord (z : Int64) : UInt32 :=
  z.toUInt64.toUInt32

theorem toNat_highWord (z : Int64) : (highWord z).toNat = z.toUInt64.toNat / 2 ^ 32 := by
  have hlt := z.toUInt64.toNat_lt
  rw [highWord, UInt64.toNat_toUInt32, UInt64.toNat_shiftRight, Nat.shiftRight_eq_div_pow]
  show z.toUInt64.toNat / 2 ^ 32 % 2 ^ 32 = _
  omega

theorem toNat_lowWord (z : Int64) : (lowWord z).toNat = z.toUInt64.toNat % 2 ^ 32 := by
  rw [lowWord, UInt64.toNat_toUInt32]

theorem zero_shiftLeft_or (n : UInt64) : (0 : UInt64) <<< 32 ||| n = n := by
  simp

/-- The number with the bits of its two words. -/
theorem join_words (z : Int64) :
    (highWord z).toUInt64 <<< 32 ||| (lowWord z).toUInt64 = z.toUInt64 := by
  have hlt := z.toUInt64.toNat_lt
  rw [toUInt64_shiftLeft_or, toNat_highWord, toNat_lowWord, ← UInt64.toNat_inj,
    UInt64.toNat_ofNat']
  omega

theorem toInt_eq_words (z : Int64) :
    z.toInt = (highWord z).toInt32.toInt * 2 ^ 32 + (lowWord z).toNat := by
  have hz : z.toInt = if 2 * z.toUInt64.toNat < 2 ^ 64 then (z.toUInt64.toNat : Int)
      else (z.toUInt64.toNat : Int) - 2 ^ 64 := BitVec.toInt_eq_toNat_cond z.toBitVec
  have hlt := z.toUInt64.toNat_lt
  rw [hz, toInt_toInt32, toNat_highWord, toNat_lowWord]
  omega

theorem eq_zero_iff_words (z : Int64) : z = 0 ↔ highWord z = 0 ∧ lowWord z = 0 := by
  constructor
  · rintro rfl
    decide
  · rintro ⟨hhigh, hlow⟩
    have hz := toInt_eq_words z
    rw [hhigh, hlow] at hz
    exact Int64.toInt.inj hz

/-! ## What an instrument may answer -/

/-- The text carries the number after a letter, with any white space around the two. -/
def Reply.Carries (reply : String) (n : Int) : Prop :=
  ∃ letter, Reply.Spelled letter n reply.toList

/-- The bank is made accessible: where a slot has to be active, its selection is confirmed. -/
inductive BankTold : Bank → Talk → Prop
  | main : BankTold .main []
  | slotEeprom {slot : UInt8} {reply : String} (h : Reply.Carries reply slot.toNat) :
      BankTold (.slotEeprom slot) [([.selectSlot slot], reply)]

/-- A word is told: the cursor is confirmed, and then the word is written without a sign or with
the one that its top bit stands for. -/
inductive WordTold (bank : Bank) (address word : UInt32) : Talk → Prop
  | intro {moved reply : String} (hmoved : Reply.Carries moved address.toNat)
      (hword : Reply.Carries reply word.toNat ∨ Reply.Carries reply word.toInt32.toInt) :
      WordTold bank address word [([.moveCursor address], moved), ([bank.query], reply)]

/-- Both words of a number are told, the high one first. -/
inductive NumberTold (bank : Bank) (address : UInt32) (z : Int64) : Talk → Prop
  | intro {selecting high low : Talk} (hbank : BankTold bank selecting)
      (hhigh : WordTold bank address (highWord z) high)
      (hlow : WordTold bank (address + 1) (lowWord z) low) :
      NumberTold bank address z (selecting ++ (high ++ low))

theorem Reply.Carries.number_eq {reply : String} {n : Int} (h : Reply.Carries reply n)
    (hfits : -2 ^ 63 ≤ n ∧ n < 2 ^ 63) : Reply.number reply.toList = .ok n :=
  Reply.number_ok_iff_spelled.mpr ⟨h, hfits⟩

theorem Reply.Carries.room {reply : String} {n : Nat} {command : Command}
    (h : Reply.Carries reply n) (hargument : command.argument? = some (n : Int)) :
    ([command].flatMap Command.wire).length ≤ (Text.bytes reply).length := by
  obtain ⟨letter, h⟩ := h
  have hlength := h.length_le
  have hbytes := Text.length_le_bytes reply
  rw [List.flatMap_cons, List.flatMap_nil, List.append_nil, Command.wire, Command.endedBy,
    hargument, List.length_cons, List.length_append, List.length_singleton]
  show (Text.intDigits n).length + 1 + 1 ≤ _
  omega

theorem word_of_carries {reply : String} {word : UInt32}
    (h : Reply.Carries reply word.toNat ∨ Reply.Carries reply word.toInt32.toInt) :
    Reply.word reply.toList = .ok word := by
  have hlt := word.toNat_lt
  have hread {n : Int} (h : Reply.Carries reply n) (hin : -2 ^ 31 ≤ n ∧ n < 2 ^ 32)
      (hword : n % 2 ^ 32 = word.toNat) : Reply.word reply.toList = .ok word := by
    obtain ⟨letter, h⟩ := h
    rw [h.word_eq hin, ofInt_eq_iff.mpr hword]
  rcases h with h | h
  · exact hread h (by omega) (by omega)
  · obtain ⟨hword, hlo, hhi⟩ := signed_word word
    exact hread h ⟨hlo, hhi⟩ hword

theorem Reply.Carries.room_query {reply : String} {n : Int} (h : Reply.Carries reply n)
    (bank : Bank) : ([bank.query].flatMap Command.wire).length ≤ (Text.bytes reply).length := by
  obtain ⟨letter, h⟩ := h
  have hlength := h.length_le
  have hbytes := Text.length_le_bytes reply
  have hquery : ([bank.query].flatMap Command.wire).length = 2 := by cases bank <;> rfl
  omega

namespace Step

variable [Link σ φ] {bank : Bank} {address word : UInt32} {talk : Talk}

theorem obtains_selectBank (h : BankTold bank talk) :
    Obtains talk (selectBank bank : Step σ φ κ Unit) () := by
  cases h with
  | main => exact obtains_pure ()
  | @slotEeprom slot _ h =>
      have hslot := slot.toNat_lt
      have hnumber := h.number_eq (by omega)
      refine (obtains_transact (h.room rfl)).bind ((obtains_understand hnumber).bind ?_)
      exact (obtains_ensure (beq_self_eq_true _)).bind (obtains_note (by simp))

theorem obtains_moveCursor {reply : String} (h : Reply.Carries reply address.toNat) :
    Obtains [([.moveCursor address], reply)] (moveCursor address : Step σ φ κ Unit) () := by
  have haddress := address.toNat_lt
  have hnumber := h.number_eq (by omega)
  exact (obtains_transact (h.room rfl)).bind
    ((obtains_understand hnumber).bind (obtains_ensure (beq_self_eq_true _)))

theorem obtains_readWord (h : WordTold bank address word talk) :
    Obtains talk (readWord bank address : Step σ φ κ UInt32) word := by
  obtain ⟨hmoved, hword⟩ := h
  have hroom := hword.elim (·.room_query bank) (·.room_query bank)
  exact (obtains_moveCursor hmoved).bind
    ((obtains_transact hroom).bind (obtains_understand (word_of_carries hword)))

theorem obtains_readWords {z : Int64} {high low : Talk}
    (hhigh : WordTold bank address (highWord z) high)
    (hlow : WordTold bank (address + 1) (lowWord z) low) :
    Obtains (high ++ low) (readWords bank 2 address 0 : Step σ φ κ UInt64) z.toUInt64 := by
  have hvalue : ((0 : UInt64) <<< 32 ||| (highWord z).toUInt64) <<< 32 |||
      (lowWord z).toUInt64 = z.toUInt64 := by
    rw [zero_shiftLeft_or, join_words]
  rw [← hvalue]
  exact (obtains_readWord hhigh).bind ((obtains_readWord hlow).then (obtains_pure _))

theorem obtains_read {address : Int} {z : Int64} (haccepted : ReadAccepted address 2)
    (h : NumberTold bank (UInt32.ofInt address) z talk) :
    Obtains talk (read address 2 bank : Step σ φ κ UInt64) z.toUInt64 := by
  obtain ⟨hbank, hhigh, hlow⟩ := h
  rw [read_eq haccepted]
  exact ((obtains_selectBank hbank).bind (obtains_readWords hhigh hlow)).then
    ((obtains_note (by simp)).bind (obtains_pure _))

theorem obtains_slope {channel : Channel} {z : Int64}
    (h : NumberTold .main (UInt32.ofNat (Setting.slope.address channel)) z talk) :
    Obtains talk (slope channel : Step σ φ κ Int64) z := by
  rw [← ofInt_natCast] at h
  exact (obtains_read (Setting.slope.readAccepted channel) h).then (obtains_pure z)

/-! ## Single words -/

theorem lt_of_read_one {s s' : Session σ φ κ} {address : Int} {value : UInt64}
    (h : s.perform (read address 1 bank) = (.ok value, s')) : value.toNat < 2 ^ 32 := by
  obtain ⟨start, -, h⟩ := Session.perform_ofExcept_ok h
  obtain ⟨-, s₁, -, h⟩ := Session.perform_bind_ok h
  obtain ⟨read, s₂, hread, h⟩ := Session.perform_bind_ok h
  obtain ⟨word, s₃, -, hread⟩ := Session.perform_bind_ok hread
  obtain rfl : (0 : UInt64) <<< 32 ||| word.toUInt64 = read := by
    cases hread
    rfl
  obtain rfl : (0 : UInt64) <<< 32 ||| word.toUInt64 = value := by
    cases h
    rfl
  rw [zero_shiftLeft_or, UInt32.toNat_toUInt64]
  exact word.toNat_lt

end Step

/-- A word was asked for, and an integer came that stands for none. -/
def Exchange.Outside (bank : Bank) (e : Exchange φ) : Prop :=
  e.request = .commands [bank.query] ∧ ∃ reply n, e.outcome = .ok reply ∧ Reply.Carries reply n ∧
    ¬ (-2 ^ 31 ≤ n ∧ n < 2 ^ 32)

namespace Step

/-- The step does not get over an integer that stands for no word. -/
def Discards (bank : Bank) (step : Step σ φ κ α) : Prop :=
  ∀ s, Ends step s fun made r _ => (∃ e ∈ made, e.Outside bank) → r = .error (.reply .notInteger)

variable {bank : Bank}

theorem Discards.bind {step : Step σ φ κ α} {next : α → Step σ φ κ β} (h : Discards bank step)
    (hnext : ∀ a, Discards bank (next a)) : Discards bank (step >>= next) := by
  intro s
  refine (h s).bind (fun _ e _ _ hends houtside => ?_) fun made a s' _ hends => ?_
  · cases hends houtside
    rfl
  · refine (hnext a s').mono fun made' r _ _ hends' houtside => hends' ?_
    obtain ⟨e, he, houtside⟩ := houtside
    rcases List.mem_append.mp he with he | he
    · exact ⟨e, he, houtside⟩
    · cases hends ⟨e, he, houtside⟩

theorem Silent.discards {step : Step σ φ κ α} (h : Silent step) : Discards bank step := by
  intro s
  refine (h s).mono fun made _ _ _ hends => ?_
  obtain ⟨rfl, -⟩ := hends
  rintro ⟨e, ⟨⟩, -⟩

variable [Link σ φ]

theorem discards_checked {target : Target} {command : Command} {check : String → Step σ φ κ α}
    (hsilent : ∀ reply, Silent (check reply)) (hother : command ≠ bank.query) :
    Discards bank (transact target [command] >>= check) := by
  intro s
  refine (ends_checked hsilent s).mono fun made _ _ _ hends => ?_
  rintro ⟨e, he, hrequest, -⟩
  rcases hends with ⟨rfl, -⟩ | ⟨outcome, rfl, -⟩
  · cases he
  · cases List.mem_singleton.mp he
    cases hrequest
    exact absurd rfl hother

theorem discards_readCursor (address : UInt32) :
    Discards bank (readCursor bank address : Step σ φ κ UInt32) := by
  intro s
  refine Ends.bind (P := fun made (r : Except (Error φ) String) _ => made = [] ∨
    made = [⟨.word bank address, .commands [bank.query], r⟩]) ?_ ?_ ?_
  · exact ends_transact (.inl rfl) fun _ _ _ => .inr rfl
  · rintro made error s' - (rfl | rfl) ⟨e, he, -, reply, n, houtcome, -⟩
    · cases he
    · cases List.mem_singleton.mp he
      cases houtcome
  · intro made reply s' _ hmade
    refine ends_ofExcept ?_
    rintro ⟨e, he, -, _, n, houtcome, ⟨letter, hspelled⟩, hout⟩
    rcases hmade with rfl | rfl
    · cases he
    · cases List.mem_singleton.mp he
      cases houtcome
      rw [hspelled.word_eq_error hout]
      rfl

theorem discards_readWords (words : Nat) (address : UInt32) (value : UInt64) :
    Discards bank (readWords bank words address value : Step σ φ κ UInt64) := by
  induction words generalizing address value with
  | zero => exact (silent_pure value).discards
  | succ words ih =>
      have hmove : Discards bank (moveCursor address : Step σ φ κ Unit) :=
        discards_checked (fun _ => (silent_understand _).bind fun _ => silent_ensure _ _)
          (by cases bank <;> nofun)
      exact (hmove.bind fun _ => discards_readCursor address).bind fun word => ih _ _

theorem discards_selectBank : Discards bank (selectBank bank : Step σ φ κ Unit) := by
  cases bank with
  | main => exact (silent_pure ()).discards
  | slotEeprom slot =>
      exact discards_checked (fun _ => (silent_understand _).bind fun _ =>
        (silent_ensure _ _).bind fun _ => silent_note (by simp)) nofun

theorem discards_read (address : Int) (words : Nat) :
    Discards bank (read address words bank : Step σ φ κ UInt64) := by
  unfold read
  split
  · exact (silent_pure _).discards
  · split
    · exact (silent_throw _).discards
    · refine (silent_ofExcept _).discards.bind fun start => discards_selectBank.bind fun _ => ?_
      refine (discards_readWords words start 0).bind fun value => ?_
      exact ((silent_note (by simp)).bind fun _ => silent_pure value).discards

/-! ## One word after the other -/

section

omit [Link σ φ]

namespace Mirrors

variable {step step' : Step σ φ κ α}

theorem symm (h : Mirrors step step') : Mirrors step' step := by
  intro s t hst
  obtain ⟨hresult, halike⟩ := h t s hst.symm
  exact ⟨hresult.symm, halike.symm⟩

theorem noted {entry : Note φ} (hnote : ∀ e, entry ≠ .exchange e) (h : Mirrors step step') :
    Mirrors step (note entry >>= fun _ => step') := by
  intro s t hst
  obtain ⟨t', hperform, halike⟩ := yields_note hnote t
  rw [Session.perform_bind_of_ok hperform]
  exact h s t' (hst.trans halike.symm)

end Mirrors

theorem mirrors_pure (a : α) : Mirrors (pure a : Step σ φ κ α) (pure a) :=
  fun _ _ hst => ⟨rfl, hst⟩

end

theorem read_one_eq {address : Int} (h : ReadAccepted address 1) :
    (read address 1 .main : Step σ φ κ UInt64) =
      readWord .main (UInt32.ofInt address) >>= fun word =>
        note (.wordsRead word.toUInt64 (UInt32.ofInt address) 1 .main) >>= fun _ =>
          pure word.toUInt64 := by
  rw [read_eq h]
  simp only [selectBank, Bank.slot?, readWords, bind_assoc, pure_bind, zero_shiftLeft_or]

theorem read_two_eq {address : Int} (h : ReadAccepted address 2) :
    (read address 2 .main : Step σ φ κ UInt64) =
      readWord .main (UInt32.ofInt address) >>= fun high =>
        readWord .main (UInt32.ofInt address + 1) >>= fun low =>
          note (.wordsRead (high.toUInt64 <<< 32 ||| low.toUInt64) (UInt32.ofInt address) 2 .main)
            >>= fun _ => pure (high.toUInt64 <<< 32 ||| low.toUInt64) := by
  rw [read_eq h]
  simp only [selectBank, Bank.slot?, readWords, bind_assoc, pure_bind, zero_shiftLeft_or]

/-- Reading two words is reading one and then the next. -/
theorem mirrors_read_in_turn {address : Int} (hnonneg : 0 ≤ address)
    (hlast : address + 1 ≤ maxAddress) :
    Mirrors (read address 2 .main : Step σ φ κ UInt64) (do
      let high ← read address 1 .main
      let low ← read (address + 1) 1 .main
      return UInt64.ofNat (high.toNat * 2 ^ 32 + low.toNat)) := by
  have hnext : UInt32.ofInt (address + 1) = UInt32.ofInt address + 1 := by
    rw [← UInt32.toNat_inj, UInt32.toNat_add, UInt32.ofInt, UInt32.ofInt, UInt32.toNat_ofNat',
      UInt32.toNat_ofNat']
    show _ = (_ + 1) % 2 ^ 32
    omega
  have hword (address : UInt32) : Mirrors (readWord .main address : Step σ φ κ UInt32)
      (readWord .main address) :=
    ((confined_moveCursor address).bind fun _ => confined_readCursor .main address).blind
  rw [read_two_eq ⟨by decide, by decide, hnonneg, by omega⟩,
    read_one_eq ⟨by decide, by decide, hnonneg, by omega⟩,
    read_one_eq ⟨by decide, by decide, by omega, hlast⟩, hnext]
  simp only [bind_assoc, pure_bind]
  -- The notes are made at other points, and the two results are put together differently.
  refine (hword _).bind fun high => .noted (by simp) ((hword _).bind fun low => ?_)
  refine .noted (by simp) (Mirrors.symm (.noted (by simp) ?_))
  rw [toUInt64_shiftLeft_or, UInt32.toNat_toUInt64, UInt32.toNat_toUInt64]
  exact mirrors_pure _

end Step

section

variable [Link σ φ]

/-- A number that is told in two words is what reading them comes to, and a slope has its sign.
It is zero just where both of its words are. One word takes no more than 32 bits, and an integer
that stands for no word is refused. Reading two words is reading the one and then the next. -/
theorem read_two_words (s : Session σ φ κ) :
    (∀ (bank : Bank) (address : Int) (z : Int64) (talk : Talk) (last : σ),
      0 ≤ address → address + 1 ≤ maxAddress →
      NumberTold bank (UInt32.ofInt address) z talk → s.Told talk last →
        ∃ s', s.perform (Step.read address 2 bank) = (.ok z.toUInt64, s') ∧ s'.link = last) ∧
    (∀ (channel : Channel) (z : Int64) (talk : Talk) (last : σ),
      NumberTold .main (UInt32.ofNat (Setting.slope.address channel)) z talk → s.Told talk last →
        ∃ s', s.perform (Step.slope channel) = (.ok z, s') ∧ s'.link = last) ∧
    (∀ z : Int64, z.toInt = (highWord z).toInt32.toInt * 2 ^ 32 + (lowWord z).toNat ∧
      (z = 0 ↔ highWord z = 0 ∧ lowWord z = 0)) ∧
    (∀ (bank : Bank) (address : Int) (value : UInt64) (s' : Session σ φ κ),
      s.perform (Step.read address 1 bank) = (.ok value, s') → value.toNat < 2 ^ 32) ∧
    (∀ (bank : Bank) (address : Int) (words : Nat) (made : List (Exchange φ))
      (r : Except (Error φ) UInt64) (s' : Session σ φ κ),
      s.perform (Step.read address words bank) = (r, s') → s.Grown s' made →
        (∃ e ∈ made, e.Outside bank) → r = .error (.reply .notInteger)) ∧
    (∀ address : Int, 0 ≤ address → address + 1 ≤ maxAddress →
      let two := s.perform (Step.read address 2 .main)
      let turn := s.perform (do
        let high ← Step.read address 1 .main
        let low ← Step.read (address + 1) 1 .main
        return UInt64.ofNat (high.toNat * 2 ^ 32 + low.toNat))
      two.1 = turn.1 ∧ two.2.Alike turn.2) := by
  have hobtained {α : Type} {talk : Talk} {step : Step σ φ κ α} {a : α} {last : σ}
      (h : Step.Obtains talk step a) (htold : s.Told talk last) :
      ∃ s', s.perform step = (.ok a, s') ∧ s'.link = last := by
    obtain ⟨made, -, hresult, hlink⟩ := h s last htold
    exact ⟨_, Prod.ext hresult rfl, hlink⟩
  refine ⟨?read, ?slope, fun z => ⟨toInt_eq_words z, eq_zero_iff_words z⟩, ?one, ?outside, ?turn⟩
  case read =>
    intro bank address z talk last hnonneg hlast hnumber htold
    exact hobtained (Step.obtains_read ⟨by decide, by decide, hnonneg, by omega⟩ hnumber) htold
  case slope =>
    intro channel z talk last hnumber htold
    exact hobtained (Step.obtains_slope hnumber) htold
  case one => exact fun _ _ _ _ h => Step.lt_of_read_one h
  case outside =>
    rintro bank address words made r s' h hg
    have hread : Step.Discards bank (Step.read address words bank : Step σ φ κ UInt64) :=
      Step.discards_read address words
    obtain ⟨made', hg', hdiscards⟩ := hread s
    rw [h] at hg' hdiscards
    rwa [hg.unique hg']
  case turn => exact fun _ hnonneg hlast => Step.mirrors_read_in_turn hnonneg hlast s s (.refl s)

end

theorem told_storing (talk : Talk)
    (hlines : ∀ line ∈ (talk.map fun turn => Text.bytes turn.2).reverse,
      10 ∉ line ∧ line.length ≤ 64) :
    ∃ last, (storing (talk.map Prod.snd).reverse).Told talk last := by
  have hlength : (talk.map fun turn => Text.bytes turn.2).reverse.length =
      (talk.map fun turn => Request.commands turn.1).reverse.length := by simp
  obtain ⟨last, hanswered, -⟩ := ScriptedLink.answered hlength hlines {} rfl [.nothing]
  refine ⟨last, ?_⟩
  unfold Session.Told storing
  rw [List.map_reverse, List.map_map]
  exact hanswered

/-- Minus one, with its words written differently. -/
def minusOne : Talk :=
  [([.selectSlot 0], "B0!"), ([.moveCursor 5], "A5!"), ([.readSlotEeprom], "e-1!"),
    ([.moveCursor 6], " A 6 ! "), ([.readSlotEeprom], "e4294967295!")]

/-- A slope that is negative because its high word is, and its low word a small one. -/
def falling : Talk :=
  [([.moveCursor 1638], "A1638!"), ([.readMemory], "p-1!"), ([.moveCursor 1639], "A+1639!"),
    ([.readMemory], "p1!")]

/-- The least integer that is too great for a word, and the answer to the cursor before it. -/
def tooGreat : Session ScriptedLink FaultKind SteppingClock :=
  storing ["p4294967296!", "A5!"]

theorem read_two_words_minusOne :
    (NumberTold (.slotEeprom 0) (UInt32.ofInt 5) (-1) minusOne ∧ ∃ last s',
      (storing (minusOne.map Prod.snd).reverse).Told minusOne last ∧
        (storing (minusOne.map Prod.snd).reverse).perform (Step.read 5 2 (.slotEeprom 0)) =
          (.ok (-1 : Int64).toUInt64, s') ∧ s'.link = last) ∧
    (NumberTold .main (UInt32.ofNat (Setting.slope.address ⟨1, 2⟩)) (-4294967295) falling ∧
      ∃ last s', (storing (falling.map Prod.snd).reverse).Told falling last ∧
        (storing (falling.map Prod.snd).reverse).perform (Step.slope ⟨1, 2⟩) =
          (.ok (-4294967295), s') ∧ s'.link = last) ∧
    (∃ value s', (storing ["p-1!", "A5!"]).perform (Step.read 5 1 .main) = (.ok value, s') ∧
      value.toNat < 2 ^ 32) ∧
    ∃ made, tooGreat.Grown (tooGreat.perform (Step.read 5 1 .main)).2 made ∧
      (∃ e ∈ made, e.Outside .main) ∧
        (tooGreat.perform (Step.read 5 1 .main)).1 = .error (.reply .notInteger) := by
  have hcarries {reply : String} {n : Int} (h : Reply.number reply.toList = .ok n) :
      Reply.Carries reply n := (Reply.number_ok_iff_spelled.mp h).1
  refine ⟨?minusOne, ?falling, ?single, ?tooGreat⟩
  case minusOne =>
    have hnumber : NumberTold (.slotEeprom 0) (UInt32.ofInt 5) (-1) minusOne :=
      .intro (.slotEeprom (hcarries (by decide +kernel)))
        (.intro (hcarries (by decide +kernel)) (.inr (hcarries (by decide +kernel))))
        (.intro (hcarries (by decide +kernel)) (.inl (hcarries (by decide +kernel))))
    obtain ⟨last, htold⟩ := told_storing minusOne (by decide +kernel)
    obtain ⟨s', hread⟩ :=
      (read_two_words _).1 _ 5 (-1) minusOne last (by decide) (by decide) hnumber htold
    exact ⟨hnumber, last, s', htold, hread⟩
  case falling =>
    have hnumber : NumberTold .main (UInt32.ofNat (Setting.slope.address ⟨1, 2⟩)) (-4294967295)
        falling :=
      .intro .main
        (.intro (hcarries (by decide +kernel)) (.inr (hcarries (by decide +kernel))))
        (.intro (hcarries (by decide +kernel)) (.inl (hcarries (by decide +kernel))))
    obtain ⟨last, htold⟩ := told_storing falling (by decide +kernel)
    obtain ⟨s', hslope⟩ := (read_two_words _).2.1 _ _ falling last hnumber htold
    exact ⟨hnumber, last, s', htold, hslope⟩
  case single =>
    have hok : ((storing ["p-1!", "A5!"]).perform (Step.read 5 1 .main)).1 = .ok 4294967295 :=
      eq_ok_of_toOption (by decide +kernel)
    have hread : (storing ["p-1!", "A5!"]).perform (Step.read 5 1 .main) =
        (.ok 4294967295, ((storing ["p-1!", "A5!"]).perform (Step.read 5 1 .main)).2) := by
      rw [← hok]
    exact ⟨_, _, hread, (read_two_words _).2.2.2.1 .main 5 _ _ hread⟩
  case tooGreat =>
    have hheard : (.commands [.readMemory], some "p4294967296!") ∈
        (tooGreat.perform (Step.read 5 1 .main)).2.journal.exchanges.map fun e =>
          (e.request, e.outcome.toOption) := by
      decide +kernel
    obtain ⟨e, he, hequal⟩ := List.mem_map.mp hheard
    obtain ⟨hrequest, houtcome⟩ := Prod.mk.inj hequal
    have hspelled : Reply.Carries "p4294967296!" (2 ^ 32) := hcarries (by decide +kernel)
    obtain ⟨made, hg⟩ := (Step.decided_read 5 1 .main).grown tooGreat
    have hmade : (tooGreat.perform (Step.read 5 1 .main)).2.journal.exchanges = made :=
      hg.exchanges.trans (List.append_nil made)
    rw [hmade] at he
    have houtside : ∃ e ∈ made, e.Outside .main :=
      ⟨e, he, hrequest, _, _, eq_ok_of_toOption houtcome, hspelled, by omega⟩
    exact ⟨made, hg, houtside,
      (read_two_words tooGreat).2.2.2.2.1 _ 5 1 made _ _ Prod.mk.eta.symm hg houtside⟩

end DacRack
