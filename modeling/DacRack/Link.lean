/-!
# Links

A link joins the host to the instrument by a byte stream in each direction. Sending
takes all bytes or fails. Receiving gives one byte, or nothing, or a fault. While the
host waits for bytes someone may ask it to stop, which the link carries too.

What has yet to arrive is finite, and `supply` bounds it: sending never adds to
it, receiving never does either, and a byte uses some of it up. That is what ends
a wait for an instrument that never says it is done.
-/

namespace DacRack

inductive FaultKind where
  | other
  | notFound
  | permissionDenied
  | connectionReset
  | notConnected
  | brokenPipe
  | invalidData
  | timedOut
  | interrupted
  | unsupported
  | outOfMemory
  deriving DecidableEq

namespace FaultKind

def all : List FaultKind :=
  [other, notFound, permissionDenied, connectionReset, notConnected, brokenPipe, invalidData,
    timedOut, interrupted, unsupported, outOfMemory]

def name : FaultKind → String
  | other => "Other"
  | notFound => "NotFound"
  | permissionDenied => "PermissionDenied"
  | connectionReset => "ConnectionReset"
  | notConnected => "NotConnected"
  | brokenPipe => "BrokenPipe"
  | invalidData => "InvalidData"
  | timedOut => "TimedOut"
  | interrupted => "Interrupted"
  | unsupported => "Unsupported"
  | outOfMemory => "OutOfMemory"

def ofName? (text : String) : Option FaultKind :=
  all.find? fun kind => kind.name == text

/-- Whether a failure only says that no more bytes are there for now. -/
def isPause : FaultKind → Bool
  | other | timedOut => true
  | _ => false

end FaultKind

inductive Arrival (φ : Type) where
  | byte (byte : UInt8)
  /-- The stream is at its end. -/
  | nothing
  | fault (fault : φ)

/-- A byte stream in each direction. -/
class Link (σ : Type) (φ : outParam Type) where
  /-- Sends all bytes, or fails having sent some. -/
  send : List UInt8 → σ → Except φ Unit × σ
  receive : σ → Arrival φ × σ
  /-- What kind of failure a fault is. -/
  kind : φ → FaultKind
  /-- Whether the host has been asked to stop waiting. -/
  stopRequested : σ → Bool
  /-- A bound on what has yet to arrive. -/
  supply : σ → Nat
  supply_send : ∀ bytes link, supply (send bytes link).2 ≤ supply link
  supply_receive : ∀ link, supply (receive link).2 ≤ supply link
  supply_receive_byte : ∀ link byte, (receive link).1 = .byte byte →
    supply (receive link).2 < supply link

end DacRack
