import DacRack.Text

/-!
# Commands

A command is a letter, an argument where it has one, and a semicolon. A
transaction is any number of commands in a row; the instrument answers each with
its letter, a value and an exclamation mark, in the order they were sent. A
command that was accepted as it stands is answered with its own argument: its
echo.

Every character of a command is ASCII, so a text of commands has as many bytes as
characters, and `within` may count either.
-/

namespace DacRack

inductive Command where
  /-- Makes a slot the active one. -/
  | selectSlot (slot : UInt8)
  /-- Makes a channel of the active slot the active one. -/
  | selectChannel (place : UInt8)
  /-- Moves the memory cursor. -/
  | moveCursor (address : UInt32)
  /-- Reads the word of main memory under the cursor. -/
  | readMemory
  /-- Reads the word of the active slot's EEPROM under the cursor. -/
  | readSlotEeprom
  /-- Writes the word of main memory under the cursor. -/
  | writeMemory (word : UInt32)
  /-- Writes the word of the active slot's EEPROM under the cursor. -/
  | writeSlotEeprom (word : UInt32)
  /-- Puts the active slot into a mode. -/
  | setSlotMode (mode : UInt8)
  /-- Asks for the mode of the active slot. -/
  | askSlotMode
  /-- Sets where a rising ramp of the active channel stops. -/
  | upperLimit (code : UInt16)
  /-- Sets where a falling ramp of the active channel stops. -/
  | lowerLimit (code : UInt16)
  /-- Starts a ramp of the active channel. -/
  | slope (slope : Int64)
  /-- Sets the time between two updates of the active channel, in microseconds. -/
  | updatePeriod (period : UInt16)
  /-- Sets the output code of the active channel at once. -/
  | setOutput (code : UInt16)
  /-- Asks whether the instrument can be calibrated. -/
  | askCalibration
  deriving DecidableEq

namespace Command

/-- The letter a command starts with. No two commands share one. -/
def letter : Command → Char
  | selectSlot _ => 'B'
  | selectChannel _ => 'C'
  | moveCursor _ => 'A'
  | readMemory => 'p'
  | readSlotEeprom => 'e'
  | writeMemory _ => 'P'
  | writeSlotEeprom _ => 'E'
  | setSlotMode _ => 'M'
  | askSlotMode => 'm'
  | upperLimit _ => 'U'
  | lowerLimit _ => 'L'
  | slope _ => 'S'
  | updatePeriod _ => 'T'
  | setOutput _ => 'D'
  | askCalibration => 'k'

/-- The number a command carries. -/
def argument? : Command → Option Int
  | selectSlot v | selectChannel v | setSlotMode v => some v.toNat
  | moveCursor v | writeMemory v | writeSlotEeprom v => some v.toNat
  | upperLimit v | lowerLimit v | updatePeriod v | setOutput v => some v.toNat
  | slope v => some v.toInt
  | readMemory | readSlotEeprom | askSlotMode | askCalibration => none

/-- The letter, the argument and a mark that ends the command. -/
def endedBy (mark : Char) (command : Command) : List Char :=
  command.letter :: (command.argument?.elim [] Text.intDigits ++ [mark])

/-- A command as it is sent. -/
def wire : Command → List Char :=
  endedBy ';'

/-- The answer to a command that was accepted as it stands. -/
def echo : Command → List Char :=
  endedBy '!'

/-- A text that fits in a buffer of `capacity` bytes. -/
def within (capacity : Nat) (text : List Char) : Option String :=
  if text.length ≤ capacity then some (String.ofList text) else none

/-- Commands as one transaction, if they fit in the buffer. -/
def encode (capacity : Nat) (commands : List Command) : Option String :=
  within capacity (commands.flatMap wire)

/-- The echo of a transaction, if it fits in the buffer. -/
def encodeEcho (capacity : Nat) (commands : List Command) : Option String :=
  within capacity (commands.flatMap echo)

end Command

end DacRack
