/-!
# Floats as exact binary fractions

A finite double is a significand times a power of two. `Binary.ofFloat` takes
a float apart, `nearest` goes from an exact fraction to the closest float, a
tie going to the even significand.
-/

namespace EntityGen.Decimal

def pow2 (n : Nat) : Nat := Nat.pow 2 n
def pow10 (n : Nat) : Nat := Nat.pow 10 n

/-- The exact value of a float. -/
inductive Binary where
  | nan
  | infinite (isNegative : Bool)
  | finite (isNegative : Bool) (significand : Nat) (exponent : Int)
  deriving DecidableEq, Repr

def Binary.ofFloat (x : Float) : Binary :=
  let bits := x.toBits.toNat
  let isNegative := decide (pow2 63 ≤ bits)
  let field : Nat := bits / pow2 52 % pow2 11
  let fraction := bits % pow2 52
  if field = 2047 then
    if fraction = 0 then .infinite isNegative else .nan
  else if field = 0 then .finite isNegative fraction (-1074)
  else .finite isNegative (fraction + pow2 52) ((field : Int) - 1075)

def scaled (significand : Nat) (exponent : Int) : Nat × Nat :=
  (significand * pow2 exponent.toNat, pow2 (-exponent).toNat)

/-- The quotient rounded to the nearest natural number, a tie to the even one. -/
def roundedQuotient (numerator denominator : Nat) : Nat :=
  let quotient := numerator / denominator
  let twice := 2 * (numerator % denominator)
  if twice > denominator ∨ (twice = denominator ∧ quotient % 2 = 1) then quotient + 1
  else quotient

/-- The binary exponent at which `numerator / denominator` has a significand of
53 bits, or the least exponent there is. -/
def binaryExponent (numerator denominator : Nat) : Int :=
  -- the quotient then has 53 or 54 bits, fewer at the least exponent
  let guess := max ((numerator.log2 : Int) - denominator.log2 - 53) (-1074)
  let (n, d) := scaled numerator (-guess)
  if n / (d * denominator) < pow2 53 then guess else guess + 1

/-- The bits of the float nearest to a fraction; too large a fraction gives infinity. -/
def nearestBits (numerator denominator : Nat) : Nat :=
  if numerator = 0 then 0 else
  let exponent := binaryExponent numerator denominator
  let (n, d) := scaled numerator (-exponent)
  -- the leading bit of a normal number adds one to the exponent field
  min ((exponent + 1074).toNat * pow2 52 + roundedQuotient n (d * denominator)) (2047 * pow2 52)

def nearest (isNegative : Bool) (numerator denominator : Nat) : Float :=
  let bits := nearestBits numerator denominator
  Float.ofBits (UInt64.ofNat (if isNegative then pow2 63 + bits else bits))

end EntityGen.Decimal
