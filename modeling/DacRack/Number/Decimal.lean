import DacRack.Text
import DacRack.Number.Binary64

/-!
# Decimal text of doubles

Two ways of writing a double, both positional and never with an exponent.

`fixed` writes the exact value rounded to a number of places, an exact half going
to the even last digit. `shortest` writes the fewest digits that still read back
as the same double and, among those, the ones nearest to it. It walks the decimal
grids from coarse to fine: on each, only the two grid points around the value can
lie in the interval of reals that read back as it, so the first grid with such a
point gives the digits.
-/

namespace DacRack.Number

/-- `coefficient / 10 ^ places`, as the digits before and after the point. -/
def splitAtPoint (coefficient places : Nat) : List Char × List Char :=
  let digits := Text.natDigits coefficient
  let padded := List.replicate (places + 1 - digits.length) '0' ++ digits
  (padded.take (padded.length - places), padded.drop (padded.length - places))

/-- A minus before what is negative, zero included. -/
def withSign (negative : Bool) (text : List Char) : List Char :=
  if negative then '-' :: text else text

def nanText : List Char := ['N', 'a', 'N']

/-- What is written for an infinity, before its sign. -/
def infinityText : List Char := ['i', 'n', 'f']

/-- Exactly `places` digits after the point, which is left out for none. -/
def Binary64.fixed (places : Nat) : Binary64 → List Char
  | nan => nanText
  | infinite negative => withSign negative infinityText
  | finite negative significand exponent =>
    let (whole, fraction) := splitAtPoint
      (divRound .even (numerator significand exponent * Nat.pow 10 places) (denominator exponent))
      places
    withSign negative (if places = 0 then whole else whole ++ '.' :: fraction)

/-- A positive value between the ends of the interval that reads back as it, all
over one divisor. -/
structure Neighbourhood where
  low : Nat
  value : Nat
  high : Nat
  divisor : Nat
  /-- Whether the ends themselves read back as the value. -/
  closed : Bool

namespace Neighbourhood

/-- The interval of a double reaches half-way to the doubles next to it. Below a
power of two the doubles are twice as dense, except next to the smallest ones.
An end reads back as the double with the even significand. -/
def ofBinary (significand : Nat) (exponent : Int) : Neighbourhood :=
  let dense := significand = 1 <<< 52 ∧ -1074 < exponent
  let scale := 1 <<< (exponent - 2).toNat
  { low := (4 * significand - if dense then 1 else 2) * scale
    value := 4 * significand * scale
    high := (4 * significand + 2) * scale
    divisor := 1 <<< (2 - exponent).toNat
    closed := significand % 2 = 0 }

/-- The same interval with `10 ^ grid` as the unit. -/
def onGrid (grid : Int) (n : Neighbourhood) : Neighbourhood :=
  let factor := Nat.pow 10 (-grid).toNat
  { n with
    low := n.low * factor
    value := n.value * factor
    high := n.high * factor
    divisor := n.divisor * Nat.pow 10 grid.toNat }

/-- Whether a whole number lies in the interval. -/
def holds (n : Neighbourhood) (point : Nat) : Bool :=
  let scaled := point * n.divisor
  if n.closed then n.low ≤ scaled && scaled ≤ n.high
  else n.low < scaled && scaled < n.high

/-- The whole number in the interval that is nearest to the value, the upper one
of two equally near. -/
def nearest? (n : Neighbourhood) : Option Nat :=
  let below := n.value / n.divisor
  let above := below + 1
  match n.holds below, n.holds above with
  | true, true => some (if 2 * (n.value % n.divisor) < n.divisor then below else above)
  | true, false => some below
  | false, true => some above
  | false, false => none

/-- The power of ten of the value's leading digit. The smallest double is above
`10 ^ (-324)`. -/
def leading (n : Neighbourhood) : Int :=
  (Text.natDigits (n.value * Nat.pow 10 324 / n.divisor)).length - 325

/-- Searches `steps` further grids for a point, and settles for the nearest point
below on the last. -/
def search (n : Neighbourhood) : Nat → Int → Nat × Int
  | 0, grid => ((n.onGrid grid).value / (n.onGrid grid).divisor, grid)
  | steps + 1, grid =>
    match (n.onGrid grid).nearest? with
    | some point => (point, grid)
    | none => search n steps (grid - 1)

/-- The digits and the power of ten of the shortest decimal in the interval.
Seventeen digits always suffice. -/
def shortest (n : Neighbourhood) : Nat × Int :=
  n.search 17 n.leading

end Neighbourhood

/-- `coefficient * 10 ^ exponent` in full, without zeros at the end of a fraction. -/
def positional (coefficient : Nat) (exponent : Int) : List Char :=
  match exponent with
  | .ofNat zeros => Text.natDigits coefficient ++ List.replicate zeros '0'
  | .negSucc n =>
    let (whole, fraction) := splitAtPoint coefficient (n + 1)
    let kept := (fraction.reverse.dropWhile (· == '0')).reverse
    if kept.isEmpty then whole else whole ++ '.' :: kept

/-- The fewest digits that read back as the same double. -/
def Binary64.shortest : Binary64 → List Char
  | nan => nanText
  | infinite negative => withSign negative infinityText
  | finite negative significand exponent =>
    withSign negative (
      if significand = 0 then ['0']
      else
        let (coefficient, grid) := (Neighbourhood.ofBinary significand exponent).shortest
        positional coefficient grid)

end DacRack.Number
