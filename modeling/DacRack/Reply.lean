import DacRack.Channel
import DacRack.SlotMode
import DacRack.Text

/-!
# Replies

A reply is a letter, a payload and an exclamation mark, with any white space
around it. Of a row of replies only the first letter and the last mark are taken
off. Nothing here looks at which letter it is.
-/

namespace DacRack

/-- What can be wrong with the instrument's answer. After any of these it is not
known where the instrument's own cursors stand. -/
inductive ReplyError where
  | unterminated
  | empty
  | notInteger
  /-- The bytes are not those of a text. -/
  | notText
  | cursorNotMoved (address : UInt32)
  | notWritten (address value : UInt32)
  | slotNotSelected (slot : UInt8)
  | channelNotSelected (channel : Channel)
  | unknownMode (number : Int)
  deriving DecidableEq

def ReplyError.message : ReplyError → String
  | unterminated => "Unexpected terminator on response, should end with '!'"
  | empty => "Empty response"
  | notInteger => "Response is not an integer"
  | notText => "Response is not valid ASCII"
  | cursorNotMoved address => "Failed to set EEPROM address " ++ Text.decimal address.toNat
  | notWritten address value =>
    "Failed to write value (" ++ Text.decimal value.toNat ++ ") to address " ++
      Text.decimal address.toNat
  | slotNotSelected slot => "DAC slot " ++ Text.decimal slot.toNat ++ " may not have been set"
  | channelNotSelected channel =>
    "DAC channel " ++ Text.decimal channel.slot.val ++ "/" ++ Text.decimal channel.place.val ++
      " may not have been set"
  | unknownMode number => "Unknown slot mode " ++ Text.decimal number

namespace Reply

/-- What stands between the first character and the final mark. -/
def payload (raw : List Char) : Except ReplyError (List Char) :=
  let body := Text.trim raw
  if body.getLast? = some '!' then .ok (body.dropLast.drop 1)
  else .error .unterminated

/-- Reads a payload as a signed number of 64 bits. -/
def integer (payload : List Char) : Except ReplyError Int :=
  match Text.readInt64? (Text.trim payload) with
  | some n => .ok n
  | none => .error .notInteger

def number (raw : List Char) : Except ReplyError Int := do
  integer (← payload raw)

/-- The word a reply carries. A negative number of 32 bits stands for the word with
the same bits. -/
def word (raw : List Char) : Except ReplyError UInt32 := do
  let n ← number raw
  if Int32.minValue.toInt ≤ n ∧ n < UInt32.size then .ok (UInt32.ofInt n) else .error .notInteger

end Reply

/-- The mode with a number that the instrument gave. -/
def SlotMode.ofReply (number : Int) : Except ReplyError SlotMode :=
  match ofNumber? number with
  | some mode => .ok mode
  | none => .error (.unknownMode number)

end DacRack
