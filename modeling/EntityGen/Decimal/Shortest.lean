import EntityGen.Decimal.Binary

/-!
# The fewest digits that read back

Of all decimals that round to a given double, `shortest` picks one with the
fewest digits, and of those the nearest to the double.
-/

namespace EntityGen.Decimal

/-- The value `0.d₁d₂… * 10 ^ exponent`, the digits read as one natural number. -/
structure Digits where
  digits : Nat
  exponent : Int
  deriving DecidableEq, Repr

/-- The decimals that round to a double: its value and the ends of its interval,
all over one denominator. -/
structure Interval where
  low : Nat
  value : Nat
  high : Nat
  denominator : Nat
  isClosed : Bool

/-- The interval of `significand * 2 ^ exponent`. Below a power of two doubles
lie twice as close, and the ends belong to an even significand. -/
def Interval.of (significand : Nat) (exponent : Int) : Interval :=
  let below := if significand = pow2 52 ∧ exponent > -1074 then 1 else 2
  let scale := pow2 (exponent - 2).toNat
  { low := (4 * significand - below) * scale
    value := 4 * significand * scale
    high := (4 * significand + 2) * scale
    denominator := pow2 (2 - exponent).toNat
    isClosed := significand % 2 = 0 }

def Interval.contains (i : Interval) (n : Nat) (power : Int) : Bool :=
  let up := pow10 (-power).toNat
  let point := n * pow10 power.toNat * i.denominator
  if i.isClosed then i.low * up ≤ point ∧ point ≤ i.high * up
  else i.low * up < point ∧ point < i.high * up

/-- The number of digits before the point, or minus the number of zeros after it. -/
def Interval.magnitude (i : Interval) : Int :=
  -- every positive double has a digit in the first 400 places
  (Nat.repr (i.value * pow10 400 / i.denominator)).length - 400

/-- The nearest decimal of the interval on the grid of `10 ^ power`. A tie goes up. -/
def Interval.onGrid? (i : Interval) (power : Int) : Option Nat :=
  let numerator := i.value * pow10 (-power).toNat
  let denominator := i.denominator * pow10 power.toNat
  let below := numerator / denominator
  let isNearerAbove := denominator ≤ 2 * (numerator % denominator)
  match i.contains below power, i.contains (below + 1) power with
  | true, true => some (if isNearerAbove then below + 1 else below)
  | true, false => some below
  | false, true => some (below + 1)
  | false, false => none

/-- Seventeen digits always read back, so the search ends there. -/
def shortest (significand : Nat) (exponent : Int) : Digits :=
  let i := Interval.of significand exponent
  let magnitude := i.magnitude
  let found := (List.range 17).findSome? fun count =>
    let power := magnitude - ((count : Nat) + 1 : Int)
    (i.onGrid? power).map fun n => (n, power)
  match found with
  | some (n, power) => { digits := n, exponent := power + (Nat.repr n).length }
  -- a double was found before
  | none => { digits := significand, exponent := (Nat.repr significand).length }

end EntityGen.Decimal
