import DacRack.Proofs.Replies
import DacRack.Proofs.Requests
import DacRack.Proofs.Wire
import Mathlib.Logic.ExistsUnique

/-!
# The grammar of what is sent

Commands are typed by what an instrument can be told, and say little about what it ever is
told. `Form` lists the transactions there are, with their numbers as a reader of the wire
sees them, and `Form.InBounds` the bounds that all senders keep: there is no channel beyond
the fourth of a slot, no mode without a name, no update period that the instrument would not
accept and no slope that it could not hold.

Every row of commands in the repertoire is of one such form (`Plain.exists_form`), and of no
other, since the text of a form reads back as its commands (`Form.text_injective`). The
longest texts take 17 bytes (`Form.length_text_le`), so a buffer of that size has room for
all of them.
-/

namespace DacRack

theorem Text.toList_toString_nat (n : Nat) : (toString n).toList = natDigits n := by
  rw [Nat.toString_eq_repr, Nat.toList_repr, natDigits]

theorem Text.toList_toString_int (n : Int) : (toString n).toList = intDigits n := by
  cases n with
  | ofNat n => exact toList_toString_nat n
  | negSucc n =>
      show ("-" ++ toString (n + 1)).toList = _
      rw [String.toList_append, toList_toString_nat]
      rfl

/-- A transaction that is no text of a caller's, with the numbers in it. -/
inductive Form where
  | moveCursor (a : Nat)
  | readMemory
  | readSlotEeprom
  | writeMemory (v : Nat)
  | writeSlotEeprom (v : Nat)
  | selectSlot (s : Nat)
  | selectChannel (s c : Nat)
  | setSlotMode (m : Nat)
  | askSlotMode
  | askCalibration
  | jump (d : Nat)
  | upperLimit (u : Nat)
  | lowerLimit (l : Nat)
  | slope (n : Int)
  | updatePeriod (t : Nat)

namespace Form

/-- How a form is spelled. -/
def text : Form → String
  | moveCursor a => s!"A{a};"
  | readMemory => "p;"
  | readSlotEeprom => "e;"
  | writeMemory v => s!"P{v};"
  | writeSlotEeprom v => s!"E{v};"
  | selectSlot s => s!"B{s};"
  | selectChannel s c => s!"B{s};C{c};"
  | setSlotMode m => s!"M{m};"
  | askSlotMode => "m;"
  | askCalibration => "k;"
  | jump d => s!"U65535;L0;D{d};"
  | upperLimit u => s!"U{u};"
  | lowerLimit l => s!"L{l};"
  | slope n => s!"S{n};"
  | updatePeriod t => s!"T{t};"

/-- What the numbers are bounded by. -/
def InBounds : Form → Prop
  | moveCursor n | writeMemory n | writeSlotEeprom n => n < 2 ^ 32
  | selectSlot s => s < 256
  | selectChannel s c => s ≤ 4 ∧ c ≤ 3
  | setSlotMode m => m ≤ 3
  | jump n | upperLimit n | lowerLimit n => n ≤ 65535
  | slope n => n.natAbs ≤ 2 ^ 32
  | updatePeriod t => 50 ≤ t ∧ t ≤ 65535
  | readMemory | readSlotEeprom | askSlotMode | askCalibration => True

/-- The commands a form stands for. -/
def commands : Form → List Command
  | moveCursor a => [.moveCursor (UInt32.ofNat a)]
  | readMemory => [.readMemory]
  | readSlotEeprom => [.readSlotEeprom]
  | writeMemory v => [.writeMemory (UInt32.ofNat v)]
  | writeSlotEeprom v => [.writeSlotEeprom (UInt32.ofNat v)]
  | selectSlot s => [.selectSlot (UInt8.ofNat s)]
  | selectChannel s c => [.selectSlot (UInt8.ofNat s), .selectChannel (UInt8.ofNat c)]
  | setSlotMode m => [.setSlotMode (UInt8.ofNat m)]
  | askSlotMode => [.askSlotMode]
  | askCalibration => [.askCalibration]
  | jump d => [.upperLimit maxCode, .lowerLimit 0, .setOutput (UInt16.ofNat d)]
  | upperLimit u => [.upperLimit (UInt16.ofNat u)]
  | lowerLimit l => [.lowerLimit (UInt16.ofNat l)]
  | slope n => [.slope (Int64.ofInt n)]
  | updatePeriod t => [.updatePeriod (UInt16.ofNat t)]

/-- The form of some commands, whatever their numbers, if they are of one. -/
def ofCommands? : List Command → Option Form
  | [.moveCursor a] => some (moveCursor a.toNat)
  | [.readMemory] => some readMemory
  | [.readSlotEeprom] => some readSlotEeprom
  | [.writeMemory v] => some (writeMemory v.toNat)
  | [.writeSlotEeprom v] => some (writeSlotEeprom v.toNat)
  | [.selectSlot s] => some (selectSlot s.toNat)
  | [.selectSlot s, .selectChannel c] => some (selectChannel s.toNat c.toNat)
  | [.setSlotMode m] => some (setSlotMode m.toNat)
  | [.askSlotMode] => some askSlotMode
  | [.askCalibration] => some askCalibration
  | [.upperLimit _, .lowerLimit _, .setOutput d] => some (jump d.toNat)
  | [.upperLimit u] => some (upperLimit u.toNat)
  | [.lowerLimit l] => some (lowerLimit l.toNat)
  | [.slope n] => some (slope n.toInt)
  | [.updatePeriod t] => some (updatePeriod t.toNat)
  | _ => none

variable {form other : Form}

/-! The numbers of a form in bounds are those of its commands. -/

theorem toNat_byte {n : Nat} (h : n < 256) : (UInt8.ofNat n).toNat = n :=
  UInt8.toNat_ofNat_of_lt' h

theorem toNat_code {n : Nat} (h : n ≤ 65535) : (UInt16.ofNat n).toNat = n :=
  UInt16.toNat_ofNat_of_lt' (Nat.lt_succ_of_le h)

theorem toNat_word {n : Nat} (h : n < 2 ^ 32) : (UInt32.ofNat n).toNat = n :=
  UInt32.toNat_ofNat_of_lt' h

theorem toInt_slope {n : Int} (h : n.natAbs ≤ 2 ^ 32) : (Int64.ofInt n).toInt = n :=
  Int64.toInt_ofInt_of_le (by omega) (by omega)

theorem ofCommands?_commands (h : form.InBounds) : ofCommands? form.commands = some form := by
  cases form with
  | moveCursor a => exact congrArg (fun a => some (moveCursor a)) (toNat_word h)
  | writeMemory v => exact congrArg (fun v => some (writeMemory v)) (toNat_word h)
  | writeSlotEeprom v => exact congrArg (fun v => some (writeSlotEeprom v)) (toNat_word h)
  | selectSlot s => exact congrArg (fun s => some (selectSlot s)) (toNat_byte h)
  | selectChannel s c =>
      obtain ⟨hs, hc⟩ := h
      exact congrArg₂ (fun s c => some (selectChannel s c)) (toNat_byte (by omega))
        (toNat_byte (by omega))
  | setSlotMode m =>
      have hm : m ≤ 3 := h
      exact congrArg (fun m => some (setSlotMode m)) (toNat_byte (by omega))
  | jump d => exact congrArg (fun d => some (jump d)) (toNat_code h)
  | upperLimit u => exact congrArg (fun u => some (upperLimit u)) (toNat_code h)
  | lowerLimit l => exact congrArg (fun l => some (lowerLimit l)) (toNat_code h)
  | slope n => exact congrArg (fun n => some (slope n)) (toInt_slope h)
  | updatePeriod t => exact congrArg (fun t => some (updatePeriod t)) (toNat_code h.2)
  | readMemory | readSlotEeprom | askSlotMode | askCalibration => rfl

/-- A form is spelled as its commands are sent. -/
theorem toList_text (h : form.InBounds) :
    form.text.toList = form.commands.flatMap Command.wire := by
  have hstring (text : String) : toString text = text := rfl
  have htop : Text.natDigits maxCode.toNat = ['6', '5', '5', '3', '5'] := by decide
  have hbottom : Text.natDigits 0 = ['0'] := by decide
  cases form <;> simp only [InBounds] at h <;>
    simp (disch := omega) only [text, commands, List.flatMap_cons, List.flatMap_nil,
      Command.wire, Command.endedBy, Command.argument?, Option.elim_some, Option.elim_none,
      toNat_byte, toNat_code, toNat_word, toInt_slope, String.toList_append, hstring,
      Text.toList_toString_nat, Text.toList_toString_int, Text.intDigits_natCast] <;>
    simp [Command.letter, htop, hbottom]

theorem text_eq (h : form.InBounds) :
    form.text = (Request.commands form.commands).wire := by
  rw [Request.wire, ← toList_text h, String.ofList_toList]

/-- No text is of two forms. -/
theorem text_injective (h : form.InBounds) (h' : other.InBounds) (htext : form.text = other.text) :
    form = other := by
  have hcommands : form.commands = other.commands := by
    have hread := Command.readCommands?_wire form.commands
    rw [← toList_text h, htext, toList_text h', Command.readCommands?_wire] at hread
    exact (Option.some.inj hread).symm
  have hform := ofCommands?_commands h
  rw [hcommands, ofCommands?_commands h'] at hform
  exact (Option.some.inj hform).symm

/-! A number takes as many characters as its bound allows, and its letters and its mark come on
top. -/

theorem length_digits_le {n k : Nat} (hk : 0 < k) (h : n < 10 ^ k) :
    (toString n).toList.length ≤ k := by
  rw [Text.toList_toString_nat]
  exact Text.length_natDigits_le hk h

theorem length_numbered_le {letters : String} {n k : Nat} (hk : 0 < k) (h : n < 10 ^ k)
    (hfits : letters.toList.length + k < 17) :
    (toString letters ++ toString n ++ toString ";").toList.length ≤ 17 := by
  have hdigits := length_digits_le hk h
  rw [String.toList_append, String.toList_append, List.length_append, List.length_append]
  show letters.toList.length + (toString n).toList.length + 1 ≤ 17
  omega

theorem length_toList_text_le (h : form.InBounds) : form.text.toList.length ≤ 17 := by
  cases form with
  | moveCursor n | writeMemory n | writeSlotEeprom n =>
      exact length_numbered_le (k := 10) (by omega) (Nat.lt_trans h (by decide)) (by decide)
  | selectSlot n =>
      exact length_numbered_le (k := 3) (by omega) (Nat.lt_trans h (by decide)) (by decide)
  | setSlotMode n =>
      exact length_numbered_le (k := 1) (by omega) (Nat.lt_of_le_of_lt h (by decide)) (by decide)
  | jump n | upperLimit n | lowerLimit n =>
      exact length_numbered_le (k := 5) (by omega) (Nat.lt_of_le_of_lt h (by decide)) (by decide)
  | updatePeriod n =>
      exact length_numbered_le (k := 5) (by omega) (Nat.lt_of_le_of_lt h.2 (by decide))
        (by decide)
  | slope n =>
      have hn : n.natAbs ≤ 2 ^ 32 := h
      have hdigits : (toString n).toList.length ≤ 10 + 1 := by
        rw [Text.toList_toString_int]
        exact Text.length_intDigits_le (by omega) (by omega)
      rw [text, String.toList_append, String.toList_append, List.length_append,
        List.length_append]
      show 1 + (toString n).toList.length + 1 ≤ _
      omega
  | selectChannel s c =>
      obtain ⟨hs, hc⟩ := h
      have hslot : (toString s).toList.length ≤ 1 := length_digits_le (by omega) (by omega)
      have hplace : (toString c).toList.length ≤ 1 := length_digits_le (by omega) (by omega)
      rw [text, String.toList_append, String.toList_append, String.toList_append,
        String.toList_append, List.length_append, List.length_append, List.length_append,
        List.length_append]
      show 1 + (toString s).toList.length + 2 + (toString c).toList.length + 1 ≤ _
      omega
  | readMemory | readSlotEeprom | askSlotMode | askCalibration => decide

/-- No transaction is longer than 17 bytes. -/
theorem length_text_le (h : form.InBounds) : (Text.bytes form.text).length ≤ 17 := by
  have hvisible : ∀ c ∈ form.text.toList, Text.Visible c := by
    rw [toList_text h]
    intro c hc
    obtain ⟨command, -, hc⟩ := List.mem_flatMap.mp hc
    exact Command.visible_of_mem_endedBy ⟨rfl, rfl⟩ hc
  have hlength := length_toList_text_le h
  rw [← String.ofList_toList (s := form.text), Text.bytes_ofList hvisible, List.length_map]
  exact hlength

example : (Text.bytes (jump 65535).text).length = 17 := by decide

end Form

/-- Whatever is ever put together is of a form. -/
theorem Plain.exists_form {target : Target} {commands : List Command}
    (h : Plain target commands) : ∃ form : Form, form.InBounds ∧ form.commands = commands := by
  have code (v : UInt16) : v.toNat ≤ 65535 := Nat.le_of_lt_succ v.toNat_lt
  cases h with
  | selectSlot slot => exact ⟨.selectSlot slot.toNat, slot.toNat_lt, by simp [Form.commands]⟩
  | selectChannel channel =>
      exact ⟨.selectChannel channel.slot channel.place,
        ⟨Nat.le_of_lt_succ channel.slot.isLt, Nat.le_of_lt_succ channel.place.isLt⟩, rfl⟩
  | moveCursor address =>
      exact ⟨.moveCursor address.toNat, address.toNat_lt, by simp [Form.commands]⟩
  | askCalibration => exact ⟨.askCalibration, trivial, rfl⟩
  | query bank address =>
      cases bank with
      | main => exact ⟨.readMemory, trivial, rfl⟩
      | slotEeprom slot => exact ⟨.readSlotEeprom, trivial, rfl⟩
  | store bank address v =>
      cases bank with
      | main => exact ⟨.writeMemory v.toNat, v.toNat_lt, by simp [Form.commands, Bank.store]⟩
      | slotEeprom slot =>
          exact ⟨.writeSlotEeprom v.toNat, v.toNat_lt, by simp [Form.commands, Bank.store]⟩
  | setMode slot mode =>
      refine ⟨.setSlotMode mode.number.toNat, ?_, by simp [Form.commands]⟩
      show mode.number.toNat ≤ 3
      cases mode <;> decide
  | askMode slot => exact ⟨.askSlotMode, trivial, rfl⟩
  | jump channel v => exact ⟨.jump v.toNat, code v, by simp [Form.commands]⟩
  | upperLimit channel v => exact ⟨.upperLimit v.toNat, code v, by simp [Form.commands]⟩
  | lowerLimit channel v => exact ⟨.lowerLimit v.toNat, code v, by simp [Form.commands]⟩
  | @slope channel slope hfits =>
      have hle : slope.toInt.natAbs ≤ slopeLimit := of_decide_eq_true hfits
      exact ⟨.slope slope.toInt, hle, by simp [Form.commands]⟩
  | @updatePeriod channel period hmin =>
      exact ⟨.updatePeriod period.toNat, ⟨hmin, code period⟩, by simp [Form.commands]⟩

theorem Plain.existsUnique_form {target : Target} {commands : List Command}
    (h : Plain target commands) :
    ∃! form : Form, form.InBounds ∧ (Request.commands commands).wire = form.text := by
  obtain ⟨form, hbounds, rfl⟩ := h.exists_form
  refine ⟨form, ⟨hbounds, (Form.text_eq hbounds).symm⟩, ?_⟩
  rintro other ⟨hother, htext⟩
  exact Form.text_injective hother hbounds (htext.symm.trans (Form.text_eq hbounds).symm)

theorem Plain.length_wire_le {target : Target} {commands : List Command}
    (h : Plain target commands) : (commands.flatMap Command.wire).length ≤ 17 := by
  obtain ⟨form, hbounds, rfl⟩ := h.exists_form
  rw [← Form.toList_text hbounds]
  exact Form.length_toList_text_le hbounds

end DacRack
