import EntityGen.Document.Endpoint
import EntityGen.Document.Entity
import EntityGen.Proofs.Schema.MappedTexts
import Mathlib.Data.List.TakeWhile

/-!
# The vocabulary of restricted values

Flags, numbers and the words for types hold none of the characters that markup
reserves. A change of texts that only concerns texts with such characters goes
unnoticed wherever a value is restricted.
-/

namespace EntityGen.Document

open Schema (DefaultValue IdentifierValue PayloadStructure PropertyType Scalar)

/-- The characters for which markup has references of its own. -/
def reserved : List Char := ['&', '<', '>', '"', '\'']

def IsUnreserved (text : String) : Prop := ∀ c ∈ text.toList, c ∉ reserved

instance : DecidablePred IsUnreserved := fun text => List.decidableBAll _ text.toList

-- ---------------------------------------------------------------------------
-- Numbers
-- ---------------------------------------------------------------------------

theorem not_reserved_of_isDigit {c : Char} (h : c.isDigit = true) : c ∉ reserved := by
  intro hmem
  simp only [reserved, List.mem_cons, List.not_mem_nil, or_false] at hmem
  rcases hmem with rfl | rfl | rfl | rfl | rfl <;> cases h

theorem not_reserved_of_toLower {c : Char} (h : c.toLower ∉ reserved) : c ∉ reserved := by
  intro hmem
  refine h ?_
  simp only [reserved, List.mem_cons, List.not_mem_nil, or_false] at hmem
  rcases hmem with rfl | rfl | rfl | rfl | rfl <;> decide

theorem natOfDigits?_unreserved {digits : List Char} {n : Nat}
    (h : Decimal.natOfDigits? digits = some n) : ∀ c ∈ digits, c ∉ reserved := by
  unfold Decimal.natOfDigits? at h
  split at h
  · cases h
  · next hdigits =>
    push Not at hdigits
    exact fun c hc => not_reserved_of_isDigit (List.all_eq_true.mp hdigits.2 c hc)

theorem splitSign_unreserved {text : List Char}
    (h : ∀ c ∈ (Decimal.splitSign text).2, c ∉ reserved) : ∀ c ∈ text, c ∉ reserved := by
  unfold Decimal.splitSign at h
  split at h
  · exact List.forall_mem_cons.mpr ⟨by decide, h⟩
  · exact List.forall_mem_cons.mpr ⟨by decide, h⟩
  · exact h

theorem readInt?_unreserved {text : String} {value : Int}
    (h : Decimal.readInt? text = some value) : IsUnreserved text := by
  obtain ⟨n, hn, -⟩ := Option.bind_eq_some_iff.mp h
  exact splitSign_unreserved (natOfDigits?_unreserved hn)

theorem readExponent?_unreserved {text : List Char} {n : Int}
    (h : Decimal.readExponent? text = some n) : ∀ c ∈ text, c ∉ reserved := by
  unfold Decimal.readExponent? at h
  split at h
  · exact nofun
  · split at h
    · next he =>
      obtain ⟨m, hm, -⟩ := Option.map_eq_some_iff.mp h
      obtain ⟨m, hm, -⟩ := Option.bind_eq_some_iff.mp hm
      refine List.forall_mem_cons.mpr ⟨?_, splitSign_unreserved (natOfDigits?_unreserved hm)⟩
      rcases he with rfl | rfl <;> decide
    · cases h

theorem readUnsigned?_unreserved {isNegative : Bool} {text : List Char} {value : Float}
    (h : Decimal.readUnsigned? isNegative text = some value) : ∀ c ∈ text, c ∉ reserved := by
  unfold Decimal.readUnsigned? at h
  dsimp only at h
  rw [← List.takeWhile_append_dropWhile (p := Char.isDigit) (l := text), List.forall_mem_append]
  refine ⟨fun c hc => not_reserved_of_isDigit (List.mem_takeWhile_imp hc), ?_⟩
  obtain ⟨n, -, h⟩ := Option.bind_eq_some_iff.mp h
  obtain ⟨exponent, hexponent, -⟩ := Option.bind_eq_some_iff.mp h
  replace hexponent := readExponent?_unreserved hexponent
  split at hexponent
  · next more hmore =>
    rw [hmore, List.forall_mem_cons, ← List.takeWhile_append_dropWhile (p := Char.isDigit) (l := more),
      List.forall_mem_append]
    exact ⟨by decide, fun c hc => not_reserved_of_isDigit (List.mem_takeWhile_imp hc), hexponent⟩
  · exact hexponent

theorem readFloat?_unreserved {text : String} {value : Float}
    (h : Decimal.readFloat? text = some value) : IsUnreserved text := by
  refine splitSign_unreserved ?_
  have hword {word : String}
      (hword : (Decimal.splitSign text.toList).2.map Char.toLower = word.toList)
      (hplain : IsUnreserved word) :
      ∀ c ∈ (Decimal.splitSign text.toList).2, c ∉ reserved := by
    intro c hc
    exact not_reserved_of_toLower (hplain _ (hword ▸ List.mem_map_of_mem hc))
  unfold Decimal.readFloat? at h
  dsimp only at h
  split at h
  · next hinf =>
    rcases hinf with hinf | hinf
    · exact hword hinf (by decide)
    · exact hword hinf (by decide)
  · split at h
    · next hnan => exact hword hnan (by decide)
    · exact readUnsigned?_unreserved h

-- ---------------------------------------------------------------------------
-- Words
-- ---------------------------------------------------------------------------

theorem readBool?_unreserved {text : String} {value : Bool}
    (h : Schema.readBool? text = some value) : IsUnreserved text := by
  unfold Schema.readBool? at h
  split at h
  · decide
  · decide
  · cases h

theorem scalar_unreserved {text : String} {scalar : Scalar}
    (h : Scalar.ofName? text = some scalar) : IsUnreserved text := by
  have hname : scalar.name = text := by simpa using List.find?_some h
  rw [← hname]
  cases scalar <;> decide

theorem identifierValue_unreserved {text : String} {value : IdentifierValue}
    (h : IdentifierValue.ofName? text = some value) : IsUnreserved text := by
  unfold IdentifierValue.ofName? at h
  split at h
  · decide
  · decide
  · cases h

theorem payloadStructure_unreserved {text : String} {layout : PayloadStructure}
    (h : PayloadStructure.ofName? text = some layout) : IsUnreserved text := by
  unfold PayloadStructure.ofName? at h
  split at h
  · decide
  · decide
  · decide
  · cases h

theorem association_unreserved {text : String} {association : Schema.Association}
    (h : readAssociation? text = some association) : IsUnreserved text := by
  unfold readAssociation? at h
  split at h
  · decide
  · decide
  · cases h

-- ---------------------------------------------------------------------------
-- Respelling
-- ---------------------------------------------------------------------------

/-- A change of texts that stay distinct, and stay the same without reserved
characters. The keys of a path change each on its own. -/
structure Respelling (f : String → String) : Prop where
  injective : Function.Injective f
  changed : ∀ text, f text = text ∨ ¬IsUnreserved text ∧ ¬IsUnreserved (f text)
  keys : ∀ text, readKeyPath (f text) = (readKeyPath text).map f

namespace Respelling

variable {f : String → String}

protected theorem id : Respelling id where
  injective := Function.injective_id
  changed _ := .inl rfl
  keys _ := (List.map_id _).symm

theorem read_eq {α : Type} {read : String → Option α} (hf : Respelling f)
    (hread : ∀ {text a}, read text = some a → IsUnreserved text) (text : String) :
    read (f text) = read text := by
  rcases hf.changed text with hsame | ⟨hbefore, hafter⟩
  · rw [hsame]
  · have hnone {text : String} (h : ¬IsUnreserved text) : read text = none :=
      Option.eq_none_iff_forall_ne_some.mpr fun _ ha => h (hread ha)
    rw [hnone hbefore, hnone hafter]

theorem eq_word_iff (hf : Respelling f) {word : String} (hword : IsUnreserved word)
    (text : String) : f text = word ↔ text = word := by
  rcases hf.changed text with hsame | ⟨hbefore, hafter⟩
  · rw [hsame]
  · refine ⟨?_, ?_⟩ <;> rintro rfl
    · exact absurd hword hafter
    · exact absurd hword hbefore

theorem apply_word (hf : Respelling f) {word : String} (hword : IsUnreserved word) :
    f word = word := (hf.eq_word_iff hword word).mpr rfl

theorem bool (hf : Respelling f) (text : String) :
    Schema.readBool? (f text) = Schema.readBool? text := hf.read_eq readBool?_unreserved text

theorem ofScalarText? (hf : Respelling f) (text : String) (scalar : Scalar) :
    DefaultValue.ofScalarText? (f text) scalar
      = (DefaultValue.ofScalarText? text scalar).map (DefaultValue.mapTexts f) := by
  have hnil : f text = "nil" ↔ text = "nil" := hf.eq_word_iff (by decide) text
  have hdate : f text = "current_date" ↔ text = "current_date" := hf.eq_word_iff (by decide) text
  unfold DefaultValue.ofScalarText?
  simp only [hnil]
  split
  · rfl
  · cases scalar with
    | bool => simp [hf.bool, Function.comp_def, DefaultValue.mapTexts]
    | int => simp [hf.read_eq readInt?_unreserved, Function.comp_def, DefaultValue.mapTexts]
    | double | float | seconds | milliseconds =>
      simp [hf.read_eq readFloat?_unreserved, Function.comp_def, DefaultValue.mapTexts]
    | date =>
      simp only [hdate]
      split <;> rfl
    | string | url | color => rfl

theorem ofCaseText (hf : Respelling f) (text : String) :
    DefaultValue.ofCaseText (f text) = (DefaultValue.ofCaseText text).mapTexts f := by
  have hnil : f text = "nil" ↔ text = "nil" := hf.eq_word_iff (by decide) text
  unfold DefaultValue.ofCaseText
  simp only [hnil]
  split <;> rfl

theorem defaultOfText? (hf : Respelling f) (type : PropertyType) (text : String) :
    Document.defaultOfText? (type.mapTexts f) (f text)
      = (Document.defaultOfText? type text).map (DefaultValue.mapTexts f) := by
  cases type with
  | scalar scalar => exact hf.ofScalarText? text scalar
  | subtype name => exact congrArg some (hf.ofCaseText text)
  | relationship r =>
    have hnil : f text = "nil" ↔ text = "nil" := hf.eq_word_iff (by decide) text
    simp only [PropertyType.mapTexts, Document.defaultOfText?, hnil]
    split <;> rfl

end Respelling
end EntityGen.Document
