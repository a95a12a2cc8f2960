import EntityGen.Decimal.Positional
import EntityGen.Document.Entity
import EntityGen.Proofs.Schema.Expressible

/-!
# Texts of defaults

A default is written as the text that its type reads it from.
-/

namespace EntityGen.Document

open Schema (DefaultValue IsInt64 PropertyType)

-- ---------------------------------------------------------------------------
-- Integers
-- ---------------------------------------------------------------------------

theorem natOfDigits?_repr (n : Nat) : Decimal.natOfDigits? n.repr.toList = some n := by
  have hdigits : (Nat.toDigits 10 n).all Char.isDigit = true := by
    refine List.all_eq_true.mpr fun c hc => ?_
    exact Nat.isDigit_of_mem_toDigits (by decide) (by decide) hc
  have hsome : (Nat.toDigits 10 n).isEmpty = false := by simp
  rw [Nat.toList_repr, Decimal.natOfDigits?, if_neg (by simp [hdigits, hsome]),
    ← Nat.ofDigitChars_eq_foldl, Nat.ofDigitChars_ten_toDigits]

theorem splitSign_repr (n : Nat) :
    Decimal.splitSign n.repr.toList = (false, n.repr.toList) := by
  have hdigits : ∀ c ∈ n.repr.toList, c.isDigit = true := fun c hc =>
    Nat.isDigit_of_mem_toDigits (by decide) (by decide) (Nat.toList_repr ▸ hc)
  unfold Decimal.splitSign
  split
  · next h => exact absurd (hdigits '+' (h ▸ List.mem_cons_self)) (by decide)
  · next h => exact absurd (hdigits '-' (h ▸ List.mem_cons_self)) (by decide)
  · rfl

theorem readInt?_of_digits {text : String} {isNegative : Bool} {digits : List Char} {n : Nat}
    (hsign : Decimal.splitSign text.toList = (isNegative, digits))
    (hdigits : Decimal.natOfDigits? digits = some n)
    (h : IsInt64 (if isNegative then -(n : Int) else n)) :
    Decimal.readInt? text = some (if isNegative then -(n : Int) else n) := by
  have hbound : (Decimal.pow2 63 : Int) = 9223372036854775808 := by decide
  simp only [Decimal.readInt?, hsign, hdigits, hbound, Option.bind_eq_bind, Option.bind_some]
  exact if_pos h

theorem readInt?_repr {n : Int} (h : IsInt64 n) : Decimal.readInt? n.repr = some n := by
  cases n with
  | ofNat n => exact readInt?_of_digits (splitSign_repr n) (natOfDigits?_repr n) h
  | negSucc n =>
    have hsign : Decimal.splitSign ("-" ++ (n + 1).repr).toList = (true, (n + 1).repr.toList) := by
      rw [String.toList_append]
      rfl
    exact readInt?_of_digits hsign (natOfDigits?_repr (n + 1)) h

-- ---------------------------------------------------------------------------
-- Defaults
-- ---------------------------------------------------------------------------

def flagText (value : Bool) : String := if value then "true" else "false"

theorem readBool?_flagText (value : Bool) : Schema.readBool? (flagText value) = some value := by
  cases value <;> rfl

def defaultText : DefaultValue → String
  | .nil => "nil"
  | .bool value => flagText value
  | .int value => value.repr
  | .float value => Decimal.shortText value
  | .string text => text
  | .currentDate => "current_date"
  | .enumCase name => name

theorem defaultOfText?_defaultText {type : PropertyType} {default : DefaultValue}
    (h : default.Fits type) : defaultOfText? type (defaultText default) = some default := by
  unfold DefaultValue.Fits at h
  split at h
  case h_1 => cases type <;> rfl
  case h_2 value => cases value <;> rfl
  case h_3 value =>
    have hread := readInt?_repr h
    have hnil : value.repr ≠ "nil" := by
      intro heq
      rw [heq] at hread
      cases hread
    simp [defaultOfText?, DefaultValue.ofScalarText?, defaultText, hnil, hread]
  case h_4 => rfl
  case h_5 text => exact if_neg h
  case h_6 text => exact if_neg h
  case h_7 text => exact if_neg h
  case h_8 name => exact congrArg some (if_neg h)
  case h_9 => exact h.elim

end EntityGen.Document
