import DacRack.Number.Binary64

/-!
# Voltages and codes

A channel's output is a code of 16 bits that spans its voltage range evenly: code
0 is the lowest voltage and code 65535 the highest. Both directions are computed
in doubles, in the order written here.
-/

namespace DacRack

def maxCode : UInt16 := 65535

/-- The number of steps between the lowest and the highest code. -/
def codeScale : Float := 65535

structure VoltageRange where
  min : Float
  max : Float
  min_lt_max : min < max

/-- A voltage that has no code. -/
structure OutOfRange where
  volt : Float
  min : Float
  max : Float

namespace VoltageRange

/-- The instrument's usual range, five volts either way. -/
instance : Inhabited VoltageRange where
  default := ⟨-5, 5, by decide⟩

/-- The range between two bounds, unless they are out of order. -/
def ofBounds? (min max : Float) : Option VoltageRange :=
  if h : min < max then some ⟨min, max, h⟩ else none

def contains (range : VoltageRange) (volt : Float) : Bool :=
  range.min ≤ volt && volt ≤ range.max

/-- The voltage between two neighbouring codes. -/
def step (range : VoltageRange) : Float :=
  (range.max - range.min) / codeScale

/-- The code nearest to a voltage, a half going up. A code past the ends is never
given out. -/
def code (range : VoltageRange) (volt : Float) : Except OutOfRange UInt16 :=
  let outside : OutOfRange := ⟨volt, range.min, range.max⟩
  if range.contains volt then
    let part := (volt - range.min) / (range.max - range.min)
    match (Number.Binary64.ofFloat (part * codeScale)).nearestInt with
    | some n => if 0 ≤ n ∧ n ≤ 65535 then .ok (UInt16.ofNat n.toNat) else .error outside
    | none => .error outside
  else .error outside

/-- The voltage of a code. The instrument keeps codes in words of 32 bits, so this
goes on beyond the highest code. -/
def volt (range : VoltageRange) (code : UInt32) : Float :=
  code.toFloat / codeScale * (range.max - range.min) + range.min

end VoltageRange

end DacRack
