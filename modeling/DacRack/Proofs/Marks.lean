import DacRack.Proofs.Wire
import Mathlib.Data.List.Basic

/-!
# Transactions and echoes with one meaning

A transaction and its echo differ in the mark that ends each command, and in nothing else: no
mark occurs within a command (`IsMark`), so exchanging the marks in a whole text exchanges them
where the commands end (`exchangeMark_flatMap`). What holds of one mark is therefore shown for
the semicolon, where there is a reader to appeal to (`readCommands?_wire`).

So no text is the encoding of two rows of commands, and none is the echo of two
(`eq_of_encode_eq`). The reader finds the commands without being told how many there are or how
long their arguments; that no capacity is mentioned in it is why none matters here.
-/

namespace DacRack

namespace Command

variable {mark mark' : Char} {commands others : List Command} {capacity : Nat} {text : String}

/-- No command has this character in it. -/
def IsMark (mark : Char) : Prop :=
  mark ≠ '-' ∧ mark.isAlphanum = false

theorem isMark_semicolon : IsMark ';' := ⟨by decide, rfl⟩

theorem isMark_exclamation : IsMark '!' := ⟨by decide, rfl⟩

theorem IsMark.not_mem (h : IsMark mark) (command : Command) :
    ∀ c ∈ command.letter :: command.argumentText, c ≠ mark := by
  rintro c hc rfl
  rcases mem_letter_argumentText hc with hsign | hletter
  · exact h.1 hsign
  · exact Bool.false_ne_true (h.2.symm.trans hletter)

/-- The character with one mark in place of another. -/
def exchangeMark (mark mark' c : Char) : Char :=
  if c = mark then mark' else c

theorem exchangeMark_endedBy (h : IsMark mark) (mark' : Char) (command : Command) :
    (endedBy mark command).map (exchangeMark mark mark') = endedBy mark' command := by
  have hbody : (command.letter :: command.argumentText).map (exchangeMark mark mark') =
      command.letter :: command.argumentText :=
    (List.map_congr_left fun c hc => if_neg (h.not_mem command c hc)).trans (List.map_id' _)
  rw [endedBy_eq, endedBy_eq, List.map_append, hbody, List.map_singleton, exchangeMark, if_pos rfl]

theorem exchangeMark_flatMap (h : IsMark mark) (mark' : Char) (commands : List Command) :
    (commands.flatMap (endedBy mark)).map (exchangeMark mark mark') =
      commands.flatMap (endedBy mark') := by
  rw [List.map_flatMap]
  exact List.flatMap_congr fun command _ => exchangeMark_endedBy h mark' command

/-- Whatever mark they are written with, commands read back. -/
theorem readCommands?_exchangeMark (h : IsMark mark) (commands : List Command) :
    readCommands? ((commands.flatMap (endedBy mark)).map (exchangeMark mark ';')) =
      some commands := by
  rw [exchangeMark_flatMap h]
  exact readCommands?_wire commands

theorem eq_of_flatMap_endedBy (h : IsMark mark)
    (hsame : commands.flatMap (endedBy mark) = others.flatMap (endedBy mark)) :
    commands = others := by
  have hread := readCommands?_exchangeMark h commands
  rw [hsame, readCommands?_exchangeMark h others] at hread
  exact (Option.some.inj hread).symm

theorem within_eq_some_iff {characters : List Char} :
    within capacity characters = some text ↔
      characters.length ≤ capacity ∧ String.ofList characters = text := by
  rw [within, Option.ite_none_right_eq_some, Option.some_inj]

/-- What encodes to one text, or is echoed by one, are the same commands. -/
theorem eq_of_encode_eq :
    (encode capacity commands = some text → encode capacity others = some text →
      commands = others) ∧
    (encodeEcho capacity commands = some text → encodeEcho capacity others = some text →
      commands = others) := by
  have hunique {mark : Char} (hmark : IsMark mark)
      (h : within capacity (commands.flatMap (endedBy mark)) = some text)
      (h' : within capacity (others.flatMap (endedBy mark)) = some text) :
      commands = others := by
    obtain ⟨-, rfl⟩ := within_eq_some_iff.mp h
    obtain ⟨-, hsame⟩ := within_eq_some_iff.mp h'
    exact eq_of_flatMap_endedBy hmark (String.ofList_injective hsame.symm)
  exact ⟨hunique isMark_semicolon, hunique isMark_exclamation⟩

/-- Commands with arguments, one of them negative, and without. -/
def plunge : List Command :=
  [.selectSlot 3, .selectChannel 2, .slope (-21475), .readMemory, .askCalibration]

/-- What is read from their text are the same commands, and so it is with their echo. -/
theorem eq_of_encode_eq_plunge :
    let read := (readCommands? "B3;C2;S-21475;p;k;".toList).getD []
    (encode 18 plunge = some "B3;C2;S-21475;p;k;" ∧
      encode 18 read = some "B3;C2;S-21475;p;k;" ∧ plunge = read) ∧
    (encodeEcho 18 plunge = some "B3!C2!S-21475!p!k!" ∧
      encodeEcho 18 read = some "B3!C2!S-21475!p!k!" ∧ plunge = read) := by
  intro read
  have hwire : encode 18 plunge = some "B3;C2;S-21475;p;k;" := by decide +kernel
  have hwire' : encode 18 read = some "B3;C2;S-21475;p;k;" := by decide +kernel
  have hecho : encodeEcho 18 plunge = some "B3!C2!S-21475!p!k!" := by decide +kernel
  have hecho' : encodeEcho 18 read = some "B3!C2!S-21475!p!k!" := by decide +kernel
  exact ⟨⟨hwire, hwire', eq_of_encode_eq.1 hwire hwire'⟩,
    hecho, hecho', eq_of_encode_eq.2 hecho hecho'⟩

end Command

end DacRack
