import DacRack.Link
import DacRack.MemoryMap
import DacRack.Number.Decimal
import DacRack.Reply
import DacRack.Voltage

/-!
# Errors

Why a call on a connection can fail. The cause is kept as data; `message` is the
one place where it becomes a text.
-/

namespace DacRack

/-- What an argument that is refused was for. -/
inductive Parameter where
  | wordCount
  | slotIndex
  | channelIndex
  | rampRate
  | rampSteepness
  | updatePeriod
  | slope
  deriving DecidableEq

def Parameter.reason : Parameter → String
  | wordCount => "at most 2 words can be read at once"
  | slotIndex => "slot index must be 0 - 4"
  | channelIndex => "channel index must be 0 - 3"
  | rampRate => "ramp rate must be in (0, 10] V/s"
  | rampSteepness => "ramp is too steep for the update period"
  | updatePeriod => "update period must be 50 - 65535 us"
  | slope => "slope must be within +/- 2^32"

inductive Capability where
  | calibratedMode
  | powerOnVolt
  deriving DecidableEq

/-- What a call needs that the instrument lacks. -/
def Capability.reason : Capability → String
  | calibratedMode => "FineCald mode needs calibration support"
  | powerOnVolt => "initial value needs versa EEPROM access"

inductive Error (φ : Type) where
  | link (fault : φ)
  | reply (cause : ReplyError)
  | noSuchAddress (address : Int)
  | outOfRange (cause : OutOfRange)
  /-- The value that is to go to an address does not fit in a word. -/
  | noWord (address : UInt32) (value : Int)
  | badParameter (parameter : Parameter)
  | unsupported (capability : Capability)
  | timedOut
  | cancelled
  /-- A request or a reply is too long for the buffer. -/
  | tooLong

/-- The address, which has to lie in the memory. -/
def validAddress {φ : Type} (a : Int) : Except (Error φ) UInt32 :=
  match address? a with
  | some a => .ok a
  | none => .error (.noSuchAddress a)

/-- The word that is to go to an address, which has to fit. -/
def validWord {φ : Type} (a : UInt32) (v : Int) : Except (Error φ) UInt32 :=
  match word? v with
  | some word => .ok word
  | none => .error (.noWord a v)

/-- The text, which has to fit in the buffer. -/
def fitting {φ : Type} (text? : Option String) : Except (Error φ) String :=
  match text? with
  | some text => .ok text
  | none => .error .tooLong

/-- The text of a double: the shortest that reads back. -/
def floatText (x : Float) : String :=
  String.ofList (Number.Binary64.ofFloat x).shortest

def OutOfRange.message (cause : OutOfRange) : String :=
  "Cannot convert voltage " ++ floatText cause.volt ++
    " V to a voltage code, value out of range (" ++ floatText cause.min ++ " V - " ++
    floatText cause.max ++ " V)"

def Error.message {φ : Type} : Error φ → String
  | link _ => "Serial communication error"
  | reply cause => "Protocol error: " ++ cause.message
  | noSuchAddress a => "Invalid address " ++ Text.decimal a
  | outOfRange cause => cause.message
  | noWord a v =>
    "Writing invalid value (" ++ Text.decimal v ++ ") to address " ++ Text.decimal a.toNat
  | badParameter parameter => "Invalid parameter: " ++ parameter.reason
  | unsupported capability => "Not supported by this device: " ++ capability.reason
  | timedOut => "Timed out waiting for the device"
  | cancelled => "Polling was cancelled"
  | tooLong => "Command or response does not fit in the buffer"

end DacRack
