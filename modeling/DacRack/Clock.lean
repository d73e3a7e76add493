/-!
# Clocks

A clock is read in microseconds, in a word of 64 bits that starts again from zero
when it overflows. So of two readings the later one is the one that the other
reaches by going forward less than half way round.
-/

namespace DacRack

/-- A reading of a clock, in microseconds. -/
abbrev Instant := UInt64

namespace Instant

def halfway : UInt64 := 0x7fffffffffffffff

/-- Whether `a` is later than `b`. -/
def isAfter (a b : Instant) : Bool :=
  a != b && a - b < halfway

/-- How long `b` was before `a`, if it was not after it. -/
def since? (a b : Instant) : Option UInt64 :=
  if a = b ∨ a - b ≤ halfway then some (a - b) else none

end Instant

class Clock (κ : Type) where
  now : κ → Instant × κ
  /-- Lets this many microseconds pass. -/
  sleep : UInt64 → κ → κ

/-- A clock that moves on by a fixed step each time it is read, and keeps count of
what it was asked. -/
structure SteppingClock where
  /-- The next reading. -/
  reading : Instant := 0
  step : UInt64 := 0
  reads : Nat := 0
  slept : UInt64 := 0

instance : Clock SteppingClock where
  now clock := (clock.reading,
    { clock with reading := clock.reading + clock.step, reads := clock.reads + 1 })
  sleep duration clock :=
    { clock with reading := clock.reading + duration, slept := clock.slept + duration }

end DacRack
