import DacRack.Proofs.Operations
import Mathlib.Algebra.Group.Int.Defs
import Mathlib.Algebra.Group.Nat.Defs

/-!
# What is sent, and what it is meant for

Whatever the driver does comes down to transactions and steps that make none.
`Step.Built may step` says that a step is put together from these, each of its
transactions being one that `may` permits. What holds of a single transaction and carries
over to several in a row then holds of every such step, which is the one induction over
how steps are put together (`Built.ends`). That the transactions of a step satisfy `may`,
and that what they send fits in the buffer, are its first two uses; a third is that a run does
nothing to the link but ask (`link_connected_run`).

For a composed step the transactions are plain requests for what the step may act on, and
the one text (`Allowed`). What they select is what the step acts on as well: a slot that
the instrument has, or the one whose EEPROM is meant, and a word only to read or to write it
(`Selects`). So it is for a call (`Composed.built`).

The words of a block follow each other, so that reading several of them stays within
what was named takes an induction on how many are left (`built_readWords`).
-/

namespace DacRack

/-- The commands of the request fit in a buffer. -/
def Request.Fits (capacity : Nat) (request : Request) : Prop :=
  ∀ commands, request = .commands commands →
    (commands.flatMap Command.wire).length ≤ capacity

/-- A plain request for something `aims` holds of, or the one text. -/
def Allowed (aims : Target → Prop) (text? : Option (Target × String)) (target : Target)
    (request : Request) : Prop :=
  (aims target ∧ ∃ commands, request = .commands commands ∧ Plain target commands) ∨
    ∃ text, request = .text text ∧ text? = some (target, text)

/-- What the commands select is there, as far as the type of a slot says so, or is something
`aims` holds of. -/
structure Selects (aims : Target → Prop) (commands : List Command) : Prop where
  slot : ∀ slot, .selectSlot slot ∈ commands →
    slot.toNat < slotCount ∨ ∃ address, aims (.word (.slotEeprom slot) address)
  word : ∀ address, .moveCursor address ∈ commands → ∃ bank, aims (.word bank address)

/-- An allowed request that selects nothing but what it is meant for. -/
structure Aimed (aims : Target → Prop) (text? : Option (Target × String)) (target : Target)
    (request : Request) : Prop where
  allowed : Allowed aims text? target request
  selects : ∀ commands, request = .commands commands → Selects aims commands

/-- What acts on something selects nothing. -/
theorem Plain.selects {aims : Target → Prop} {target : Target} {commands : List Command}
    (h : Plain target commands) (ht : target ≠ .instrument) : Selects aims commands := by
  cases h with
  | selectSlot | selectChannel | moveCursor | askCalibration => exact absurd rfl ht
  | query bank address => cases bank <;> exact ⟨by simp [Bank.query], by simp [Bank.query]⟩
  | store bank address word => cases bank <;> exact ⟨by simp [Bank.store], by simp [Bank.store]⟩
  | _ => exact ⟨by simp, by simp⟩

variable {σ φ κ α β : Type}

theorem toNat_ofNat_slot (slot : Fin slotCount) : (UInt8.ofNat slot).toNat = slot :=
  UInt8.toNat_ofNat_of_lt' (Nat.lt_trans slot.isLt (by decide))

theorem toNat_ofInt {n : Int} (h0 : 0 ≤ n) (h : n < 2 ^ 32) :
    ((UInt32.ofInt n).toNat : Int) = n := by
  rw [UInt32.ofInt, UInt32.toNat_ofNat']
  omega

theorem ofInt_eq_iff {n : Int} {word : UInt32} :
    UInt32.ofInt n = word ↔ n % 2 ^ 32 = word.toNat := by
  have hword := word.toNat_lt
  rw [← UInt32.toNat_inj, UInt32.ofInt, UInt32.toNat_ofNat']
  omega

theorem toInt_toInt32 (word : UInt32) : word.toInt32.toInt =
    if 2 * word.toNat < 2 ^ 32 then (word.toNat : Int) else (word.toNat : Int) - 2 ^ 32 :=
  BitVec.toInt_eq_toNat_cond word.toBitVec

/-- A word with the sign that its top bit stands for. -/
theorem signed_word (word : UInt32) : word.toInt32.toInt % 2 ^ 32 = word.toNat ∧
    -2 ^ 31 ≤ word.toInt32.toInt ∧ word.toInt32.toInt < 2 ^ 32 := by
  have hlt := word.toNat_lt
  rw [toInt_toInt32]
  split <;> omega

theorem toNat_of_validAddress {a : Int} {address : UInt32}
    (h : validAddress a = (.ok address : Except (Error φ) UInt32)) :
    (address.toNat : Int) = a ∧ address.toNat ≤ maxAddress := by
  unfold validAddress address? at h
  split at h
  · next address' hsome =>
      split at hsome
      · next hin =>
          cases h
          cases hsome
          simp only [maxAddress] at hin ⊢
          have hnat := toNat_ofInt hin.1 (by omega)
          omega
      · cases hsome
  · cases h

theorem ofInt_natCast (n : Nat) : UInt32.ofInt (n : Int) = UInt32.ofNat n := by
  rw [← UInt32.toNat_inj, UInt32.ofInt, UInt32.toNat_ofNat', UInt32.toNat_ofNat']
  omega

/-- Two words, the high one before the low one. -/
theorem toUInt64_shiftLeft_or (high low : UInt32) :
    high.toUInt64 <<< 32 ||| low.toUInt64 =
      UInt64.ofNat (high.toNat * 2 ^ 32 + low.toNat) := by
  have hhigh := high.toNat_lt
  have hlow := low.toNat_lt
  have hshift : high.toNat <<< 32 % 2 ^ 64 = high.toNat <<< 32 := by
    rw [Nat.shiftLeft_eq]
    omega
  rw [← UInt64.toNat_inj, UInt64.toNat_or, UInt64.toNat_shiftLeft, UInt32.toNat_toUInt64,
    UInt32.toNat_toUInt64, UInt64.toNat_ofNat']
  show high.toNat <<< 32 % 2 ^ 64 ||| low.toNat = _
  rw [hshift, ← Nat.shiftLeft_add_eq_or_of_lt hlow, Nat.shiftLeft_eq]
  omega

theorem validAddress_of_le {address : Int} (h : 0 ≤ address) (hmax : address ≤ maxAddress) :
    validAddress address = (.ok (UInt32.ofInt address) : Except (Error φ) UInt32) := by
  rw [validAddress, address?, if_pos ⟨h, hmax⟩]

theorem validAddress_natCast {address : Nat} (h : address ≤ maxAddress) :
    validAddress (address : Int) = (.ok (UInt32.ofNat address) : Except (Error φ) UInt32) := by
  rw [validAddress_of_le (by omega) (by omega), ofInt_natCast]

theorem validWord_of_lt {target : UInt32} {value : Int} (h : 0 ≤ value ∧ value < 2 ^ 32) :
    validWord target value = (.ok (UInt32.ofInt value) : Except (Error φ) UInt32) := by
  have hlimit : (wordLimit : Int) = 2 ^ 32 := by decide
  rw [validWord, word?, hlimit, if_pos h]

/-- The settings of every channel lie in the memory. -/
theorem Setting.address_lt (setting : Setting) (channel : Channel) :
    setting.address channel + setting.words < maxAddress := by
  have hslot := channel.slot.isLt
  have hplace := channel.place.isLt
  have hend := setting.offset_add_words_le
  simp only [Setting.address, Channel.base, blockBase, blockSize, slotCount, channelsPerSlot,
    maxAddress] at *
  omega

theorem Setting.address_le (setting : Setting) (channel : Channel) :
    setting.address channel ≤ maxAddress :=
  Nat.le_of_lt (Nat.lt_of_le_of_lt (Nat.le_add_right _ _) (setting.address_lt channel))

theorem Setting.toNat_address (setting : Setting) (channel : Channel) :
    (UInt32.ofNat (setting.address channel)).toNat = setting.address channel :=
  UInt32.toNat_ofNat_of_lt' (Nat.lt_of_le_of_lt (setting.address_le channel) (by decide))

/-- Reading a setting is never refused. -/
theorem Setting.readAccepted (setting : Setting) (channel : Channel) :
    ReadAccepted (setting.address channel) setting.words where
  some_word := by cases setting <;> decide
  few := by cases setting <;> decide
  nonneg := Int.natCast_nonneg _
  le_max := Int.ofNat_le.mpr (setting.address_le channel)

theorem lt_of_validWord {target word : UInt32} {value : Int}
    (h : validWord target value = (.ok word : Except (Error φ) UInt32)) :
    0 ≤ value ∧ value < wordLimit := by
  unfold validWord word? at h
  split at h
  · next hsome =>
      split at hsome
      · next hin => exact hin
      · cases hsome
  · cases h

namespace Step

/-- Every transaction of the step satisfies `may`. -/
def Sends (may : Target → Request → Prop) (step : Step σ φ κ α) : Prop :=
  ∀ s, Ends step s fun made _ _ => ∀ e ∈ made, may e.target e.request

/-- A step that is put together from transactions that `may` permits, of commands and of
texts, and steps that make none. -/
inductive Built [Link σ φ] (may : Target → Request → Prop) :
    ∀ {α : Type}, Step σ φ κ α → Prop
  | silent {α : Type} {step : Step σ φ κ α} (h : Silent step) : Built may step
  | bind {α β : Type} {step : Step σ φ κ α} {next : α → Step σ φ κ β}
      (h : Built may step) (hnext : ∀ a, Built may (next a)) : Built may (step >>= next)
  | attempt {α : Type} {step : Step σ φ κ α} (h : Built may step) : Built may (attempt step)
  | repeatUntil {round : Step σ φ κ Bool} (draws : Draws 1 round) (h : Built may round) :
      Built may (repeatUntil round draws)
  | transact {target : Target} {commands : List Command} (h : may target (.commands commands)) :
      Built may (transact target commands)
  | text {target : Target} {text : String} (h : may target (.text text)) :
      Built may (exchange target (.text text))

section

variable {may may' : Target → Request → Prop}

theorem Sends.mono {step : Step σ φ κ α} (h : Sends may step)
    (hmay : ∀ target request, may target request → may' target request) :
    Sends may' step := by
  intro s
  refine (h s).mono ?_
  intro made r s' _ hmade e he
  exact hmay _ _ (hmade e he)

variable [Link σ φ]

/-- What is true of a step that makes no transaction and of every single transaction, and
carries over from two runs to both in a row, is true of a step that is put together from
these, wherever it breaks off. -/
theorem Built.ends {R : Session σ φ κ → List (Exchange φ) → Session σ φ κ → Prop}
    (hnone : ∀ {s s'}, s'.link = s.link → R s [] s')
    (hone : ∀ {s s'} {e : Exchange φ}, may e.target e.request → e.request.Fits s.capacity →
      Line.ask s.capacity s.config.terminator e.request.wire s.link = (e.outcome, s'.link) →
      R s [e] s')
    (happend : ∀ {s s' s'' made made'}, s.Grown s' made → R s made s' → R s' made' s'' →
      R s (made' ++ made) s'')
    {step : Step σ φ κ α} (h : Built may step) (s : Session σ φ κ) :
    Ends step s fun made _ s' => R s made s' := by
  induction h generalizing s with
  | silent h =>
      refine (h s).mono ?_
      rintro made r s' - ⟨rfl, hlink⟩
      exact hnone hlink
  | bind _ _ ih ihnext =>
      refine (ih s).bind (fun _ _ _ _ hmade => hmade) fun made a s' hg hmade => ?_
      exact (ihnext a s').mono fun made' r s'' _ hmade' => happend hg hmade hmade'
  | attempt _ ih => exact (ih s).attempt.mono fun _ _ _ _ hmade => hmade.choose_spec.2
  | repeatUntil draws _ ih =>
      exact ends_repeatUntil (P := fun s made _ s' => R s made s')
        (Q := fun s made _ s' => R s made s') ih (fun _ _ _ _ hP => hP) (fun _ _ _ hP => hP)
        (fun _ _ _ _ _ _ hg hP hQ => happend hg hP hQ) s
  | transact h =>
      refine ends_transact_ask (fun _ => hnone rfl) fun outcome s' hfits _ hask => hone h ?_ hask
      rintro commands ⟨⟩
      exact hfits
  | text h => exact ends_exchange_ask fun outcome s' _ hask => hone h nofun hask

theorem Built.sends {step : Step σ φ κ α} (h : Built may step) : Sends may step := by
  refine h.ends (R := fun _ made _ => ∀ e ∈ made, may e.target e.request) (fun _ => nofun) ?_ ?_
  · intro s s' e hmay _ _
    exact List.forall_mem_singleton.mpr hmay
  · intro s s' s'' made made' _ h h'
    exact List.forall_mem_append.mpr ⟨h', h⟩

/-- What is sent fits in the buffer. -/
theorem Built.fits {step : Step σ φ κ α} (h : Built may step) (s : Session σ φ κ) :
    Ends step s fun made _ _ => ∀ e ∈ made, e.request.Fits s.capacity := by
  refine h.ends (R := fun s made _ => ∀ e ∈ made, e.request.Fits s.capacity)
    (fun _ => nofun) ?_ ?_ s
  · intro s s' e _ hfits _
    exact List.forall_mem_singleton.mpr hfits
  · intro s s' s'' made made' hg h h'
    rw [hg.capacity] at h'
    exact List.forall_mem_append.mpr ⟨h', h⟩

theorem Silent.built {step : Step σ φ κ α} (h : Silent step) : Built may step := .silent h

/-- What follows a check that is made without asking the instrument may rely on what
the check found. -/
theorem Built.ofExcept_bind {result : Except (Error φ) α} {next : α → Step σ φ κ β}
    (hnext : ∀ a, result = .ok a → Built may (next a)) :
    Built may (ofExcept result >>= next) := by
  cases result with
  | error e => exact (silent_throw e).built
  | ok a => exact hnext a rfl

theorem Built.ensure_bind {e : Error φ} {condition : Bool}
    {next : Unit → Step σ φ κ β} (hnext : condition = true → Built may (next ())) :
    Built may (ensure e condition >>= next) := by
  refine Built.ofExcept_bind fun _ ha => ?_
  cases condition with
  | false => cases ha
  | true => exact hnext rfl

/-- A command to a channel is its selection and then the command itself. -/
theorem built_command {channel : Channel} {commands : List Command}
    (hselect : may .instrument (.commands [.selectSlot (UInt8.ofNat channel.slot),
      .selectChannel (UInt8.ofNat channel.place)]))
    (h : may (.channel channel) (.commands commands)) :
    Built may (command channel commands : Step σ φ κ Unit) := by
  have hselected : Built may (selectChannel channel : Step σ φ κ Unit) := by
    refine (Built.transact hselect).bind fun _ => silent_get.built.bind fun _ => ?_
    refine (silent_ofExcept _).built.bind fun _ => (silent_ensure _ _).built.bind fun _ => ?_
    exact (silent_note (by simp)).built
  refine Built.bind (hselected.bind fun _ => .transact h) fun _ => ?_
  exact (silent_understand _).built.bind fun _ => (silent_pure _).built

end

section

variable [Link σ φ] {aims : Target → Prop} {text? : Option (Target × String)}

theorem Built.allowed {step : Step σ φ κ α} (h : Built (Aimed aims text?) step) :
    Sends (Allowed aims text?) step :=
  h.sends.mono fun _ _ h => h.allowed

theorem built_plain {target : Target} {commands : List Command} (ht : aims target)
    (h : Plain target commands) (hselects : Selects aims commands) :
    Built (Aimed aims text?) (transact target commands : Step σ φ κ String) := by
  refine .transact ⟨.inl ⟨ht, commands, rfl, h⟩, ?_⟩
  intro commands' heq
  cases heq
  exact hselects

theorem built_text {target : Target} {text : String} (h : text? = some (target, text)) :
    Built (Aimed aims text?) (exchange target (.text text) : Step σ φ κ String) :=
  .text ⟨.inr ⟨text, rfl, h⟩, nofun⟩

theorem built_selectSlot (h : aims .instrument) {slot : UInt8}
    (hslot : slot.toNat < slotCount ∨ ∃ address, aims (.word (.slotEeprom slot) address)) :
    Built (Aimed aims text?) (selectSlot slot : Step σ φ κ Unit) := by
  have hselects : Selects aims [.selectSlot slot] := by
    refine ⟨?_, by simp⟩
    intro slot' hmem
    cases List.mem_singleton.mp hmem
    exact hslot
  refine (built_plain h (.selectSlot slot) hselects).bind fun reply => ?_
  refine (silent_understand _).built.bind fun echoed => ?_
  refine (silent_ensure _ _).built.bind fun _ => ?_
  exact (silent_note (by simp)).built

theorem built_selectOwn (h : aims .instrument) (slot : Fin slotCount) :
    Built (Aimed aims text?) (selectSlot (UInt8.ofNat slot) : Step σ φ κ Unit) := by
  refine built_selectSlot h (.inl ?_)
  rw [toNat_ofNat_slot]
  exact slot.isLt

theorem built_selectChannel (h : aims .instrument) (channel : Channel) :
    Built (Aimed aims text?) (selectChannel channel : Step σ φ κ Unit) := by
  have hselects : Selects aims [.selectSlot (UInt8.ofNat channel.slot),
      .selectChannel (UInt8.ofNat channel.place)] := by
    refine ⟨?_, by simp⟩
    intro slot hmem
    obtain rfl : slot = UInt8.ofNat channel.slot := by simpa using hmem
    rw [toNat_ofNat_slot]
    exact .inl channel.slot.isLt
  refine (built_plain h (.selectChannel channel) hselects).bind fun reply => ?_
  refine silent_get.built.bind fun s => ?_
  refine (silent_ofExcept _).built.bind fun expected => ?_
  refine (silent_ensure _ _).built.bind fun _ => ?_
  exact (silent_note (by simp)).built

theorem built_moveCursor (h : aims .instrument) {bank : Bank} {address : UInt32}
    (ht : aims (.word bank address)) :
    Built (Aimed aims text?) (moveCursor address : Step σ φ κ Unit) := by
  have hselects : Selects aims [.moveCursor address] := by
    refine ⟨by simp, ?_⟩
    intro address' hmem
    cases List.mem_singleton.mp hmem
    exact ⟨bank, ht⟩
  refine (built_plain h (.moveCursor address) hselects).bind fun reply => ?_
  refine (silent_understand _).built.bind fun echoed => ?_
  exact (silent_ensure _ _).built

theorem built_selectBank (h : aims .instrument) {bank : Bank} {address : UInt32}
    (ht : aims (.word bank address)) :
    Built (Aimed aims text?) (selectBank bank : Step σ φ κ Unit) := by
  cases bank with
  | main => exact (silent_pure ()).built
  | slotEeprom slot => exact built_selectSlot h (.inr ⟨address, ht⟩)

theorem built_transactSlot (h : aims .instrument) {slot : Fin slotCount}
    (ht : aims (.slot slot)) {commands : List Command}
    (hplain : Plain (.slot slot) commands) :
    Built (Aimed aims text?) (transactSlot slot commands : Step σ φ κ String) :=
  (built_selectOwn h slot).bind fun _ => built_plain ht hplain (hplain.selects nofun)

theorem built_transactChannel (h : aims .instrument) {channel : Channel}
    (ht : aims (.channel channel)) {commands : List Command}
    (hplain : Plain (.channel channel) commands) :
    Built (Aimed aims text?) (transactChannel channel commands : Step σ φ κ String) :=
  (built_selectChannel h channel).bind fun _ => built_plain ht hplain (hplain.selects nofun)

theorem built_readCursor {bank : Bank} {address : UInt32} (ht : aims (.word bank address)) :
    Built (Aimed aims text?) (readCursor bank address : Step σ φ κ UInt32) := by
  have hplain : Plain (.word bank address) [bank.query] := .query bank address
  exact (built_plain ht hplain (hplain.selects nofun)).bind fun _ =>
    (silent_understand _).built

theorem built_readWord (h : aims .instrument) {bank : Bank} {address : UInt32}
    (ht : aims (.word bank address)) :
    Built (Aimed aims text?) (readWord bank address : Step σ φ κ UInt32) :=
  (built_moveCursor h ht).bind fun _ => built_readCursor ht

/-- The words read are those from `first` on; addresses do not wrap, as the last
one of the memory is far from the end of a word. -/
theorem built_readWords (h : aims .instrument) {bank : Bank} (words : Nat)
    {first : UInt32} (hfirst : first.toNat + words ≤ UInt32.size)
    (ht : ∀ address : UInt32, first.toNat ≤ address.toNat →
      address.toNat < first.toNat + words → aims (.word bank address))
    (value : UInt64) :
    Built (Aimed aims text?) (readWords bank words first value : Step σ φ κ UInt64) := by
  induction words generalizing first value with
  | zero => exact (silent_pure _).built
  | succ words ih =>
      refine (built_readWord h (ht first (Nat.le_refl _) (by omega))).bind fun word => ?_
      cases words with
      | zero => exact (silent_pure _).built
      | succ words =>
          have hnext : (first + 1).toNat = first.toNat + 1 := by
            have hone : (1 : UInt32).toNat = 1 := rfl
            rw [UInt32.toNat_add, hone]
            exact Nat.mod_eq_of_lt (by simp only [UInt32.size] at hfirst; omega)
          refine ih (by omega) (fun address hlo hhi => ht address ?_ ?_) _
          · omega
          · omega

/-- Reading one word of main memory moves the cursor there and asks for the word. -/
theorem built_readOne {may : Target → Request → Prop} {address : Int}
    (hmay : ∀ a : UInt32, (a.toNat : Int) = address →
      may .instrument (.commands [.moveCursor a]) ∧
        may (.word .main a) (.commands [.readMemory])) :
    Built may (read address 1 .main : Step σ φ κ UInt64) := by
  unfold read
  rw [if_neg (by omega), if_neg (by omega)]
  refine Built.ofExcept_bind fun a ha => ?_
  obtain ⟨hmove, hword⟩ := hmay a (toNat_of_validAddress ha).1
  refine (silent_pure ()).built.bind fun _ => ?_
  have hmoved : Built may (moveCursor a : Step σ φ κ Unit) :=
    (Built.transact hmove).bind fun _ => (silent_understand _).built.bind fun _ =>
      (silent_ensure _ _).built
  have hread : Built may (readCursor .main a : Step σ φ κ UInt32) :=
    (Built.transact hword).bind fun _ => (silent_understand _).built
  refine Built.bind ?_ fun _ => (silent_note (by simp)).built.bind fun _ => (silent_pure _).built
  exact (hmoved.bind fun _ => hread).bind fun _ => (silent_pure _).built

/-- Reading looks at one or two words, the first of which lies in the memory. -/
theorem built_read (h : aims .instrument) {address : Int} {words : Nat} {bank : Bank}
    (ht : ReadAccepted address words → ∀ a : UInt32, address ≤ a.toNat →
      (a.toNat : Int) < address + words → aims (.word bank a)) :
    Built (Aimed aims text?) (read address words bank : Step σ φ κ UInt64) := by
  unfold read
  split
  · exact (silent_pure _).built
  · next hsome =>
      split
      · exact (silent_throw _).built
      · next hfew =>
          refine Built.ofExcept_bind fun start hstart => ?_
          obtain ⟨hnat, hmax⟩ := toNat_of_validAddress hstart
          have haims (a : UInt32) (hlo : start.toNat ≤ a.toNat)
              (hhi : a.toNat < start.toNat + words) : aims (.word bank a) :=
            ht ⟨by omega, by omega, by omega, by omega⟩ a (by omega) (by omega)
          refine (built_selectBank h (haims start (by omega) (by omega))).bind fun _ => ?_
          refine Built.bind (built_readWords h words ?_ haims 0) fun value =>
            (silent_note (by simp)).built.bind fun _ => (silent_pure _).built
          simp only [maxAddress, UInt32.size] at hmax ⊢
          omega

/-- What writing does once the bank is active. -/
theorem built_storeWord (h : aims .instrument) {bank : Bank} {address : UInt32}
    (ht : aims (.word bank address)) (word : UInt32) :
    Built (Aimed aims text?) (do
      moveCursor address
      let _ ← transact (.word bank address) [bank.store word]
      let found ← readCursor bank address
      ensure (.reply (.notWritten address word)) (found == word)
      note (.wordWritten word address bank) : Step σ φ κ Unit) := by
  refine (built_moveCursor h ht).bind fun _ => ?_
  have hplain : Plain (.word bank address) [bank.store word] := .store bank address word
  refine (built_plain ht hplain (hplain.selects nofun)).bind fun _ => ?_
  refine (built_readCursor ht).bind fun found => ?_
  exact (silent_ensure _ _).built.bind fun _ => (silent_note (by simp)).built

theorem built_write (h : aims .instrument) {address value : Int} {bank : Bank}
    (ht : WriteAccepted address value → ∀ a : UInt32, (a.toNat : Int) = address →
      aims (.word bank a)) :
    Built (Aimed aims text?) (write address value bank : Step σ φ κ Unit) := by
  refine Built.ofExcept_bind fun target htarget => ?_
  obtain ⟨hnat, hmax⟩ := toNat_of_validAddress htarget
  refine Built.ofExcept_bind fun word hword => ?_
  obtain ⟨hvalue, hlt⟩ := lt_of_validWord hword
  have haims := ht ⟨by omega, by omega, hvalue, hlt⟩ target hnat
  exact (built_selectBank h haims).bind fun _ => built_storeWord h haims word

theorem Composed.built (h : aims .instrument) {step : Step σ φ κ α}
    (hstep : Composed aims text? step) : Built (Aimed aims text?) step := by
  induction hstep with
  | silent h => exact h.built
  | bind _ _ ih ihnext => exact ih.bind ihnext
  | attempt _ ih => exact ih.attempt
  | repeatUntil draws _ ih => exact ih.repeatUntil draws
  | askCalibration => exact built_plain h .askCalibration ⟨by simp, by simp⟩
  | transactSlot ht hplain => exact built_transactSlot h ht hplain
  | transactChannel ht hplain => exact built_transactChannel h ht hplain
  | read ht => exact built_read h ht
  | write ht => exact built_write h ht
  | ask hask => exact built_text hask
  | askSlot hask => exact (built_selectOwn h _).bind fun _ => built_text hask
  | askChannel hask => exact (built_selectChannel h _).bind fun _ => built_text hask

theorem Composed.sends (h : aims .instrument) {step : Step σ φ κ α}
    (hstep : Composed aims text? step) : Sends (Allowed aims text?) step :=
  (hstep.built h).allowed

end

end Step

/-- What connecting sends, and every call by itself, is what a run sends. -/
theorem sends_connected_run [Link σ φ] [Clock κ] {may : Target → Request → Prop}
    (hconnect : Step.Sends may (Step.connect : Step σ φ κ Unit))
    (hcall : ∀ call : Call, Step.Sends may (call.run : Step σ φ κ Answer))
    (start : Session σ φ κ) (calls : List Call) :
    ∃ made, start.Grown ((start.perform Step.connect).2.performAll calls) made ∧
      ∀ e ∈ made, may e.target e.request := by
  obtain ⟨made, hg, hopened⟩ := hconnect start
  obtain ⟨made', hg', hcalls⟩ := ends_performAll
    (R := fun _ made _ => ∀ e ∈ made, may e.target e.request) (fun _ => nofun)
    (fun s call => hcall call s) (fun _ h h' => List.forall_mem_append.mpr ⟨h', h⟩) calls
    (start.perform Step.connect).2
  exact ⟨made' ++ made, hg.trans hg', List.forall_mem_append.mpr ⟨hcalls, hopened⟩⟩

/-- What asking does to a link, one time after the other, is all that a run does to it. -/
theorem link_connected_run [Link σ φ] [Clock κ] {R : σ → σ → Prop} (hrefl : ∀ link, R link link)
    (htrans : ∀ {link link' link''}, R link link' → R link' link'' → R link link'')
    (hask : ∀ {capacity terminator request link r link'},
      Line.ask capacity terminator request link = (r, link') → R link link')
    (start : Session σ φ κ) (calls : List Call) :
    R start.link ((start.perform Step.connect).2.performAll calls).link := by
  have hbuilt {may : Target → Request → Prop} {α : Type} {step : Step σ φ κ α}
      (h : Step.Built may step) (s : Session σ φ κ) :
      Step.Ends step s fun _ _ s' => R s.link s'.link := by
    refine h.ends (R := fun s _ s' => R s.link s'.link) (fun {s s'} hlink => ?_)
      (fun _ _ h => hask h) (fun _ h h' => htrans h h') s
    rw [hlink]
    exact hrefl s.link
  have hconnect : Step.Composed (fun _ => True) none (Step.connect : Step σ φ κ Unit) :=
    Step.composed_connect (fun _ _ => trivial) fun _ => trivial
  obtain ⟨-, -, hopened⟩ := hbuilt (hconnect.built trivial) start
  obtain ⟨-, -, hcalls⟩ := ends_performAll (R := fun s _ s' => R s.link s'.link)
    (fun s => hrefl s.link)
    (fun s call => hbuilt ((Step.composed_call call).built call.aims_instrument) s)
    (fun _ h h' => htrans h h') calls (start.perform Step.connect).2
  exact htrans hopened hcalls

end DacRack
