import DacRack.Voltage

/-!
# Ramps

The instrument runs a ramp by itself: it is given a limit to stop at and a slope,
and moves the output by the slope at every update until it reaches the limit.
Then its slope register reads zero.
-/

namespace DacRack

/-- The slope register counts in this fraction of a code per update. -/
def slopeScale : Float := 65536

/-- The largest magnitude of a slope the instrument accepts. -/
def slopeLimit : Nat := 1 <<< 32

/-- The fastest ramp, in volts per second. -/
def maxRampRate : Float := 10

/-- Whether a channel is known to be ramping. -/
inductive Motion where
  | idle
  /-- A ramp to a voltage was started and has not been seen to end. -/
  | ramping (target : Float)

inductive Limit where
  | upper
  | lower
  deriving DecidableEq

namespace Limit

def name : Limit → String
  | upper => "Upper"
  | lower => "Lower"

end Limit

/-- Whether a ramp may run at this many volts per second. -/
def rateAllowed (rate : Float) : Bool :=
  0 < rate && rate ≤ maxRampRate

def slopeFits (slope : Int64) : Bool :=
  slope.toInt.natAbs ≤ slopeLimit

/-- A rising ramp stops at the upper limit, and any other at the lower one. -/
def limitOf (slope : Int64) : Limit :=
  if 0 < slope.toInt then .upper else .lower

/-- The slope between two codes: the steps between them, spread over the updates
of the ramp. A slope no signed word can hold is clamped. -/
def slopeBetween (current target : UInt16) (updateRate duration : Float) : Int64 :=
  let steps := target.toFloat - current.toFloat
  (Number.Binary64.ofFloat (steps / (updateRate * duration) * slopeScale)).toInt64

structure Ramp where
  currentCode : UInt16
  targetCode : UInt16
  /-- Output updates per second. -/
  updateRate : Float
  /-- How long the ramp takes, in seconds. -/
  duration : Float
  slope : Int64

/-- Plans a ramp from one voltage to another, at `rate` volts per second, on a
channel that updates its output every `period` microseconds. -/
def Ramp.between (range : VoltageRange) (current target : Float) (period : UInt32)
    (rate : Float) : Except OutOfRange Ramp := do
  let currentCode ← range.code current
  let targetCode ← range.code target
  let updateRate := 1.0 / (period.toFloat * 1e-6)
  let duration := (current - target).abs / rate
  return { currentCode, targetCode, updateRate, duration,
           slope := slopeBetween currentCode targetCode updateRate duration }

end DacRack
