import EntityGen.Decimal.Shortest

/-!
# Positional texts of floats

Two ways to write a double without an exponent: `shortText`, the fewest digits
that read back, and `literalText`, the spelling of a literal in generated code.
-/

namespace EntityGen.Decimal

def zeros (count : Nat) : List Char := List.replicate count '0'

def trimmed (digits : List Char) : List Char :=
  (digits.reverse.dropWhile (· == '0')).reverse

/-- The point stands after `exponent` digits; a whole number has none. -/
def Digits.text (d : Digits) : String :=
  let digits := trimmed (Nat.repr d.digits).toList
  let count := d.exponent.toNat
  if d.exponent ≤ 0 then
    String.ofList ("0.".toList ++ zeros (-d.exponent).toNat ++ digits)
  else if digits.length ≤ count then
    String.ofList (digits ++ zeros (count - digits.length))
  else
    String.ofList (digits.take count ++ '.' :: digits.drop count)

def signed (isNegative : Bool) (text : String) : String :=
  if isNegative then "-" ++ text else text

/-- The shortest text that reads back, never with an exponent and without a
point for whole numbers. -/
def shortText (x : Float) : String :=
  match Binary.ofFloat x with
  | .nan => "NaN"
  | .infinite isNegative => signed isNegative "inf"
  | .finite isNegative 0 _ => signed isNegative "0"
  | .finite isNegative significand exponent =>
    signed isNegative (shortest significand exponent).text

def whole? (significand : Nat) (exponent : Int) : Option Nat :=
  let (numerator, denominator) := scaled significand exponent
  if numerator % denominator = 0 then some (numerator / denominator) else none

/-- A literal of generated code. Whole values are written out exactly with one
decimal place, others with the fewest digits that read back. -/
def literalText (x : Float) : String :=
  match Binary.ofFloat x with
  | .nan => ".nan"
  | .infinite isNegative => signed isNegative ".infinity"
  | .finite isNegative significand exponent =>
    match whole? significand exponent with
    | some n => signed isNegative (Nat.repr n ++ ".0")
    | none => signed isNegative (shortest significand exponent).text

end EntityGen.Decimal
