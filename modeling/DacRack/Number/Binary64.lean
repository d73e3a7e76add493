import DacRack.Number.Quotient

/-!
# Doubles taken apart

A finite double is a whole number times a power of two. Everything here that
rounds or prints one works on those two numbers exactly, so that no step depends
on a second rounding: `nearestInt` sends an exact half away from zero, and
`toInt64` clamps what a signed word cannot hold.
-/

namespace DacRack.Number

inductive Binary64 where
  | nan
  | infinite (negative : Bool)
  /-- Plus or minus `significand * 2 ^ exponent`. -/
  | finite (negative : Bool) (significand : Nat) (exponent : Int)

namespace Binary64

/-- Reads the sign, the exponent and the significand off the 64 bits. -/
def ofBits (bits : Nat) : Binary64 :=
  let negative := (bits >>> 63) % 2 == 1
  let biased : Nat := (bits >>> 52) % 1 <<< 11
  let fraction : Nat := bits % 1 <<< 52
  if biased = 2047 then
    if fraction = 0 then infinite negative else nan
  else if biased = 0 then finite negative fraction (-1074)
  else finite negative (fraction + 1 <<< 52) ((biased : Int) - 1075)

def ofFloat (x : Float) : Binary64 :=
  ofBits x.toBits.toNat

/-- The numerator of `significand * 2 ^ exponent` as a fraction. -/
def numerator (significand : Nat) (exponent : Int) : Nat :=
  significand <<< exponent.toNat

/-- The denominator of `significand * 2 ^ exponent` as a fraction. -/
def denominator (exponent : Int) : Nat :=
  1 <<< (-exponent).toNat

/-- The magnitude with a sign put back on it. -/
def signed (negative : Bool) (magnitude : Nat) : Int :=
  if negative then -(magnitude : Int) else magnitude

/-- The nearest whole number, a half going away from zero; a finite value has one. -/
def nearestInt : Binary64 → Option Int
  | finite negative significand exponent =>
    some (signed negative
      (divRound .away (numerator significand exponent) (denominator exponent)))
  | _ => none

/-- The nearest signed word: clamped where it does not fit, and zero for NaN. -/
def toInt64 : Binary64 → Int64
  | nan => 0
  | infinite negative => if negative then Int64.minValue else Int64.maxValue
  | finite negative significand exponent =>
    Int64.ofIntClamp (signed negative
      (divRound .away (numerator significand exponent) (denominator exponent)))

end Binary64

end DacRack.Number
