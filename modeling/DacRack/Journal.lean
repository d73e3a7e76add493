import DacRack.Error
import DacRack.HostState

/-!
# The journal

A connection keeps a journal of what it did: every transaction with what it acted
on and how it ended, and a note wherever an operation got something done or a
check failed. A note has a level and, but for transactions that failed, a line of
text for the log.
-/

namespace DacRack

inductive Target where
  /-- No slot, channel or word in particular. Moving the instrument's own cursors
  counts as such. -/
  | instrument
  | slot (slot : Fin slotCount)
  | channel (channel : Channel)
  | word (bank : Bank) (address : UInt32)
  deriving DecidableEq

inductive Request where
  | commands (cs : List Command)
  /-- A text given by the caller, sent as it is. -/
  | text (t : String)
  deriving DecidableEq

def Request.wire : Request → String
  | commands cs => String.ofList (cs.flatMap Command.wire)
  | text t => t

/-- A transaction: a request, and its reply or the reason that there is none. -/
structure Exchange (φ : Type) where
  target : Target
  request : Request
  outcome : Except (Error φ) String

/-- A check made when connecting that can fail. -/
inductive Probe where
  | eeprom
  | slotEeprom
  | calibration
  | hardwareVersion
  | serialNumber
  deriving DecidableEq

def Probe.failure : Probe → String
  | eeprom => "EEPROM check failed"
  | slotEeprom => "versa EEPROM check failed"
  | calibration => "calibration check failed"
  | hardwareVersion => "failed to read hardware version"
  | serialNumber => "failed to read serial number"

inductive Note (φ : Type) where
  | exchange (exchange : Exchange φ)
  | slotSelected (slot : UInt8)
  | channelSelected (channel : Channel)
  | wordsRead (value : UInt64) (start : UInt32) (words : Nat) (bank : Bank)
  | wordWritten (value address : UInt32) (bank : Bank)
  | modeSet (slot : Fin slotCount) (mode : SlotMode)
  | codeSet (channel : Channel) (code : UInt16)
  | rampStarted (channel : Channel) (current target duration : Float) (slope : Int64)
  | waitingForRamps
  | probeFailed (probe : Probe) (error : Error φ)
  /-- The answer to the calibration check is not a reply. -/
  | calibrationUnclear (cause : ReplyError)
  | slotEepromRead (value : UInt64)
  | probed (features : Features) (identity : Identity)
  | connected (identity : Identity) (elapsed : UInt64)

inductive Level where
  | warn
  | info
  | debug
  | trace
  deriving DecidableEq

namespace Level

/-- Levels are ranked from those that matter most. -/
def rank : Level → Nat
  | warn => 0
  | info => 1
  | debug => 2
  | trace => 3

def label : Level → String
  | warn => "WARN"
  | info => "INFO"
  | debug => "DEBUG"
  | trace => "TRACE"

end Level

def fixedText (places : Nat) (x : Float) : String :=
  String.ofList ((Number.Binary64.ofFloat x).fixed places)

def quotedText (text : String) : String :=
  String.ofList (Text.quote text.toList)

namespace Note

variable {φ : Type}

def level : Note φ → Level
  | exchange _ | slotSelected _ | channelSelected _ => .trace
  | probeFailed _ _ | calibrationUnclear _ => .warn
  | connected _ _ => .info
  | _ => .debug

/-- What a note says, given the name of the instrument. -/
def text? (name : String) : Note φ → Option String
  | exchange ⟨_, request, .ok reply⟩ =>
    some (name ++ ": " ++ quotedText request.wire ++ " -> " ++ quotedText reply)
  | exchange ⟨_, _, .error _⟩ => none
  | slotSelected slot => some (name ++ ": selected slot " ++ Text.decimal slot.toNat)
  | channelSelected channel => some (name ++ ": selected " ++ channel.name)
  | wordsRead value start words bank =>
    some (name ++ ": read " ++ Text.decimal value.toNat ++ " from " ++
      Text.decimal start.toNat ++ " (" ++ Text.decimal words ++ " words, " ++ bank.label ++ ")")
  | wordWritten value address bank =>
    some (name ++ ": wrote " ++ Text.decimal value.toNat ++ " to " ++
      Text.decimal address.toNat ++ " (" ++ bank.label ++ ")")
  | modeSet slot mode =>
    some (name ++ ": slot " ++ Text.decimal slot.val ++ " set to " ++ mode.name)
  | codeSet channel code =>
    some (name ++ ": " ++ channel.name ++ " set to code " ++ Text.decimal code.toNat)
  | rampStarted channel current target duration slope =>
    some (name ++ ": " ++ channel.name ++ " ramping " ++ fixedText 6 current ++ " V -> " ++
      fixedText 6 target ++ " V over " ++ fixedText 3 duration ++ "s (slope " ++
      Text.decimal slope.toInt ++ ")")
  | waitingForRamps =>
    some (name ++ ": waiting for " ++ Text.decimal Channel.all.length ++ " ramps")
  | probeFailed probe error => some (name ++ ": " ++ probe.failure ++ ": " ++ error.message)
  | calibrationUnclear cause =>
    some (name ++ ": " ++ Probe.calibration.failure ++ ": " ++ cause.message)
  | slotEepromRead value =>
    some (name ++ ": versa EEPROM test read " ++ Text.decimal value.toNat ++
      ", leaving versa EEPROM disabled")
  | probed features identity =>
    some (name ++ ": " ++ features.label ++ ", " ++ identity.label)
  | connected identity elapsed =>
    some ("Connected to Harvard DecaDAC " ++ name ++ " (hw ver: " ++
      Text.decimal identity.hardwareVersion.toNat ++ ", serial: " ++
      Text.decimal identity.serialNumber.toNat ++ ") in " ++
      fixedText 2 (elapsed.toFloat / 1e6) ++ "s")

/-- The line a note puts into a log that keeps notes up to a level. -/
def line? (threshold : Level) (name : String) (note : Note φ) : Option String :=
  if note.level.rank ≤ threshold.rank then
    (note.text? name).map fun text => note.level.label ++ " " ++ text
  else none

end Note

/-- What a connection did, the latest note first. -/
abbrev Journal (φ : Type) := List (Note φ)

namespace Journal

variable {φ : Type}

/-- The transactions, the latest first. -/
def exchanges (journal : Journal φ) : List (Exchange φ) :=
  journal.filterMap fun
    | .exchange exchange => some exchange
    | _ => none

/-- The lines of a log that keeps notes up to a level, in the order they were
written. -/
def lines (threshold : Level) (name : String) (journal : Journal φ) : List String :=
  (journal.filterMap (Note.line? threshold name)).reverse

end Journal

end DacRack
