import DacRack.Clock

/-!
# Bounded waiting

Waiting for the instrument means asking it again and again. `Patience` says when
to give up and how long to pause between two questions; a `Wait` is one such wait,
with its deadline fixed when it starts. Between two questions `tick` looks at the
stop request first, then at the deadline, and only then pauses.
-/

namespace DacRack

/-- How to wait. Unless told otherwise a wait has no end and no pauses. -/
structure Patience where
  /-- Gives up after this many microseconds. -/
  timeout : Option UInt64 := none
  /-- The pause between two questions, in microseconds. -/
  interval : UInt64 := 0
  /-- Whether a request to stop ends the wait, and if so, whether one was already
  made when this was set up. -/
  cancel : Option Bool := none

inductive Interruption where
  | cancelled
  | timedOut
  deriving DecidableEq

structure Wait where
  patience : Patience
  /-- Readings of the clock after this one are too late. -/
  deadline : Option Instant

namespace Wait

variable {κ : Type} [Clock κ]

/-- Starts a wait. The clock is read only where there is a timeout. -/
def start (patience : Patience) (clock : κ) : Wait × κ :=
  match patience.timeout with
  | none => (⟨patience, none⟩, clock)
  | some timeout =>
    let (now, clock) := Clock.now clock
    (⟨patience, some (now + timeout)⟩, clock)

/-- Whether the deadline has passed, by a fresh reading of the clock. -/
def isLate (wait : Wait) (clock : κ) : Bool × κ :=
  match wait.deadline with
  | none => (false, clock)
  | some deadline =>
    let (now, clock) := Clock.now clock
    (now.isAfter deadline, clock)

def pause (wait : Wait) (clock : κ) : κ :=
  if 0 < wait.patience.interval then Clock.sleep wait.patience.interval clock else clock

/-- What happens between two questions, `stop` saying whether a stop was requested. -/
def tick (wait : Wait) (stop : Bool) (clock : κ) : Option Interruption × κ :=
  if wait.patience.cancel.isSome && stop then (some .cancelled, clock)
  else
    match wait.isLate clock with
    | (true, clock) => (some .timedOut, clock)
    | (false, clock) => (none, wait.pause clock)

end Wait

end DacRack
