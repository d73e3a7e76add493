import DacRack.Command
import DacRack.Proofs.Decimal

/-!
# Commands read back

`readCommands?` is how an instrument may read a transaction: it gathers characters up
to a semicolon, takes the first of them for the letter and the others for the
argument, and goes on with what is left. What is sent reads back as the commands that
were meant, however many there are (`readCommands?_wire`); no argument has a
semicolon in it, so that each is read to its end and no further.
-/

namespace DacRack

namespace Command

/-- The argument of a command that takes one below `limit`. -/
def argumentBelow? (limit : Nat) (argument : List Char) : Option Nat :=
  (Text.readNat? argument).filter fun n => n < limit

/-- The command with this letter and this argument. -/
def ofParts? (letter : Char) (argument : List Char) : Option Command :=
  let byte (make : UInt8 → Command) := (argumentBelow? UInt8.size argument).map fun n =>
    make (UInt8.ofNat n)
  let code (make : UInt16 → Command) := (argumentBelow? UInt16.size argument).map fun n =>
    make (UInt16.ofNat n)
  let word (make : UInt32 → Command) := (argumentBelow? UInt32.size argument).map fun n =>
    make (UInt32.ofNat n)
  let plain (command : Command) := if argument.isEmpty then some command else none
  match letter with
  | 'B' => byte .selectSlot
  | 'C' => byte .selectChannel
  | 'A' => word .moveCursor
  | 'p' => plain .readMemory
  | 'e' => plain .readSlotEeprom
  | 'P' => word .writeMemory
  | 'E' => word .writeSlotEeprom
  | 'M' => byte .setSlotMode
  | 'm' => plain .askSlotMode
  | 'U' => code .upperLimit
  | 'L' => code .lowerLimit
  | 'S' => (Text.readInt64? argument).map fun n => .slope (Int64.ofInt n)
  | 'T' => code .updatePeriod
  | 'D' => code .setOutput
  | 'k' => plain .askCalibration
  | _ => none

/-- The text of the argument, empty where there is none. -/
def argumentText (command : Command) : List Char :=
  command.argument?.elim [] Text.intDigits

/-- Reads commands, with what was read since the last semicolon. -/
def readFrom? : List Char → List Char → Option (List Command)
  | [], [] => some []
  | _ :: _, [] => none
  | read, c :: rest =>
    if c = ';' then
      match read with
      | [] => none
      | letter :: argument => do
        let command ← ofParts? letter argument
        let commands ← readFrom? [] rest
        return command :: commands
    else readFrom? (read ++ [c]) rest

def readCommands? (text : List Char) : Option (List Command) :=
  readFrom? [] text

theorem endedBy_eq (mark : Char) (command : Command) :
    endedBy mark command = command.letter :: command.argumentText ++ [mark] := rfl

theorem argumentBelow?_natDigits {limit n : Nat} (h : n < limit) :
    argumentBelow? limit (Text.natDigits n) = some n := by
  rw [argumentBelow?, Text.readNat?_natDigits, Option.filter_some, if_pos]
  exact decide_eq_true h

theorem readInt64?_slope (slope : Int64) :
    Text.readInt64? (Text.intDigits slope.toInt) = some slope.toInt := by
  have hfits := Text.fitsInt64_iff.mpr ⟨slope.le_toInt, slope.toInt_lt⟩
  rw [Text.readInt64?, Text.readInt?_intDigits, Option.filter_some, if_pos hfits]

theorem ofParts?_letter (command : Command) :
    ofParts? command.letter command.argumentText = some command := by
  have byte (v : UInt8) : argumentBelow? UInt8.size (Text.natDigits v.toNat) = some v.toNat :=
    argumentBelow?_natDigits v.toNat_lt_size
  have code (v : UInt16) :
      argumentBelow? UInt16.size (Text.natDigits v.toNat) = some v.toNat :=
    argumentBelow?_natDigits v.toNat_lt_size
  have word (v : UInt32) :
      argumentBelow? UInt32.size (Text.natDigits v.toNat) = some v.toNat :=
    argumentBelow?_natDigits v.toNat_lt_size
  cases command <;>
    simp [letter, argumentText, argument?, ofParts?, Text.intDigits_natCast, byte, code,
      word, readInt64?_slope]

theorem mem_letter_argumentText {command : Command} {c : Char}
    (hc : c ∈ command.letter :: command.argumentText) : c = '-' ∨ c.isAlphanum = true := by
  rcases List.mem_cons.mp hc with rfl | hc
  · right
    cases command <;> rfl
  · unfold argumentText at hc
    cases harg : command.argument? with
    | none =>
        rw [harg] at hc
        cases hc
    | some n =>
        rw [harg] at hc
        rcases Text.mem_intDigits hc with hsign | hdigit
        · exact .inl hsign
        · exact .inr (Bool.or_eq_true_iff.mpr (.inr hdigit))

theorem semicolon_not_mem (command : Command) :
    ∀ c ∈ command.letter :: command.argumentText, c ≠ ';' := by
  rintro c hc rfl
  rcases mem_letter_argumentText hc with h | h <;> cases h

theorem readFrom?_append {text : List Char} (h : ∀ c ∈ text, c ≠ ';')
    (read rest : List Char) :
    readFrom? read (text ++ rest) = readFrom? (read ++ text) rest := by
  induction text generalizing read with
  | nil => rw [List.append_nil, List.nil_append]
  | cons c text ih =>
      have hc : c ≠ ';' := h c List.mem_cons_self
      have hnext : readFrom? read (c :: (text ++ rest)) =
          readFrom? (read ++ [c]) (text ++ rest) := by
        cases read with
        | nil => rw [readFrom?, if_neg hc]
        | cons r read => rw [readFrom?, if_neg hc]
      rw [List.cons_append, hnext, ih fun c hmem => h c (List.mem_cons_of_mem _ hmem)]
      rw [List.append_assoc, List.singleton_append]

theorem readFrom?_wire (command : Command) (rest : List Char) :
    readFrom? [] (command.wire ++ rest) =
      (readFrom? [] rest).map fun commands => command :: commands := by
  rw [wire, endedBy_eq, List.append_assoc]
  rw [readFrom?_append (semicolon_not_mem command), List.nil_append, List.singleton_append]
  rw [readFrom?, if_pos rfl, ofParts?_letter]
  cases readFrom? [] rest <;> rfl

/-- What is sent reads back as the commands that were meant. -/
theorem readCommands?_wire (commands : List Command) :
    readCommands? (commands.flatMap wire) = some commands := by
  induction commands with
  | nil => rfl
  | cons command commands ih =>
      rw [readCommands?] at ih ⊢
      rw [List.flatMap_cons, readFrom?_wire, ih]
      rfl

end Command

end DacRack
