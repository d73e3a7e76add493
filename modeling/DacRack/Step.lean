import DacRack.Journal
import DacRack.Wait

/-!
# Connections and the steps on them

A connection is a link and a clock, what was settled before connecting, what the
host remembers about the instrument, and the journal of what was done so far.

Everything the host does with an instrument is a `Step`. It may fail, and it
changes the connection either way, so that a failed step leaves behind what it did
up to then. Steps in a row stop at the first that fails.
-/

namespace DacRack

/-- What is settled before connecting. -/
structure Config where
  /-- What the instrument is called in log messages. -/
  name : String := "decadac"
  /-- The output range of every channel. -/
  range : VoltageRange := default
  /-- The mode every slot is put into. -/
  slotMode : SlotMode := default
  /-- The byte that ends a reply. -/
  terminator : UInt8 := 10
  /-- How ramps are waited for. -/
  patience : Patience := {}

/-- The configuration with another output range, unless its bounds are out of
order. -/
def Config.withRange? (config : Config) (min max : Float) : Option Config :=
  (VoltageRange.ofBounds? min max).map fun range => { config with range }

structure Session (σ φ κ : Type) where
  link : σ
  clock : κ
  config : Config := {}
  /-- The longest request and the longest reply, in bytes. -/
  capacity : Nat := 64
  host : HostState := {}
  journal : Journal φ := []

abbrev Step (σ φ κ α : Type) := EStateM (Error φ) (Session σ φ κ) α

namespace Step

variable {σ φ κ α β : Type}

def range : Step σ φ κ VoltageRange :=
  return (← get).config.range

def host : Step σ φ κ HostState :=
  return (← get).host

def channelState (channel : Channel) : Step σ φ κ ChannelState :=
  return (← host).channelState channel

def modifyHost (change : HostState → HostState) : Step σ φ κ Unit :=
  modify fun s => { s with host := change s.host }

def modifyChannel (channel : Channel) (change : ChannelState → ChannelState) :
    Step σ φ κ Unit :=
  modifyHost fun host => host.updateChannel channel change

def setMotion (channel : Channel) (motion : Motion) : Step σ φ κ Unit :=
  modifyChannel channel fun state => { state with motion }

def note (entry : Note φ) : Step σ φ κ Unit :=
  modify fun s => { s with journal := entry :: s.journal }

/-- Fails with an error that was found without asking the instrument. -/
def ofExcept : Except (Error φ) α → Step σ φ κ α
  | .ok a => pure a
  | .error error => throw error

def understand (result : Except ReplyError α) : Step σ φ κ α :=
  ofExcept (result.mapError .reply)

def inRange (result : Except OutOfRange α) : Step σ φ κ α :=
  ofExcept (result.mapError .outOfRange)

/-- Fails unless there is a value. -/
def require (error : Error φ) (a? : Option α) : Step σ φ κ α :=
  ofExcept (a?.elim (.error error) .ok)

/-- Fails unless a condition holds. -/
def ensure (error : Error φ) (condition : Bool) : Step σ φ κ Unit :=
  ofExcept (if condition then .ok () else .error error)

/-- Carries on after a failure and says what it was. -/
def attempt (step : Step σ φ κ α) : Step σ φ κ (Except (Error φ) α) := fun s =>
  match step s with
  | .ok a s => .ok (.ok a) s
  | .error error s => .ok (.error error) s

def now [Clock κ] : Step σ φ κ Instant := fun s =>
  let (now, clock) := Clock.now s.clock
  .ok now { s with clock }

/-- A step followed by another goes through a connection between the two, or ends
with the failure of the first. -/
theorem bind_apply (step : Step σ φ κ α) (next : α → Step σ φ κ β) (s : Session σ φ κ) :
    (step >>= next) s = match step s with
      | .ok a s' => next a s'
      | .error e s' => .error e s' := by
  change EStateM.bind step next s = _
  unfold EStateM.bind
  cases step s <;> rfl

end Step

end DacRack
