import EntityGen.Decimal.Binary

/-!
# Reading numbers

The texts accepted as whole numbers and as floats. Nothing may stand around
a number: no blanks, no digit separators.
-/

namespace EntityGen.Decimal

def natOfDigits? (digits : List Char) : Option Nat :=
  if digits.isEmpty ∨ ¬digits.all Char.isDigit then none
  else some (digits.foldl (fun n c => 10 * n + (c.toNat - '0'.toNat)) 0)

def splitSign : List Char → Bool × List Char
  | '+' :: rest => (false, rest)
  | '-' :: rest => (true, rest)
  | text => (false, text)

/-- An integer of 64 bits: an optional sign and digits. -/
def readInt? (text : String) : Option Int := do
  let (isNegative, digits) := splitSign text.toList
  let n ← natOfDigits? digits
  let value : Int := if isNegative then -n else n
  if -(pow2 63 : Int) ≤ value ∧ value < pow2 63 then some value else none

/-- A natural number of 64 bits: an optional plus sign and digits. -/
def readNat? (text : String) : Option Nat := do
  let digits := match text.toList with
    | '+' :: rest => rest
    | digits => digits
  let n ← natOfDigits? digits
  if n < pow2 64 then some n else none

/-- The nearest float to `n * 10 ^ power`, where `n` has `count` digits. Beyond
the bounds the value is infinite or zero whatever the digits are. -/
def ofPower (isNegative : Bool) (n count : Nat) (power : Int) : Float :=
  -- the powers that are computed stay small
  if n = 0 ∨ power + count < -400 then nearest isNegative 0 1
  else if power > 400 then nearest isNegative (pow2 1024) 1
  else nearest isNegative (n * pow10 power.toNat) (pow10 (-power).toNat)

/-- The exponent after a mantissa; none written counts as zero. -/
def readExponent? : List Char → Option Int
  | [] => some 0
  | e :: rest =>
    if e = 'e' ∨ e = 'E' then
      let (isNegative, digits) := splitSign rest
      (natOfDigits? digits).map fun n => if isNegative then -(n : Int) else n
    else none

def readUnsigned? (isNegative : Bool) (text : List Char) : Option Float := do
  let whole := text.takeWhile Char.isDigit
  let afterWhole := text.dropWhile Char.isDigit
  let (fraction, rest) := match afterWhole with
    | '.' :: more => (more.takeWhile Char.isDigit, more.dropWhile Char.isDigit)
    | _ => ([], afterWhole)
  let n ← natOfDigits? (whole ++ fraction)
  let exponent ← readExponent? rest
  some (ofPower isNegative n (whole ++ fraction).length (exponent - fraction.length))

/-- A float: an optional sign, then a word for infinity or for no number in any
letter case, or a decimal. -/
def readFloat? (text : String) : Option Float :=
  let (isNegative, rest) := splitSign text.toList
  let word := rest.map Char.toLower
  if word = "inf".toList ∨ word = "infinity".toList then
    some (nearest isNegative (pow2 1024) 1)
  else if word = "nan".toList then some (Float.ofBits 0x7ff8000000000000)
  else readUnsigned? isNegative rest

end EntityGen.Decimal
