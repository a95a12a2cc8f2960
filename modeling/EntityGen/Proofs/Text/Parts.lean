import EntityGen.Text.Parts

/-!
# Parting and joining

A text is parted as a list is split. Parts and the separator between them make
the text again, and parts that do not hold the separator are what their joint
text is parted into.
-/

namespace EntityGen.Text

variable {separator : Char}

theorem splitParts_eq_splitOn (text : List Char) :
    splitParts separator text = text.splitOn separator := by
  induction text with
  | nil => rfl
  | cons c rest ih =>
    rw [splitParts, List.splitOn_cons_eq_if_modifyHead, ih]
    by_cases hc : c = separator
    · simp [hc]
    · cases h : rest.splitOn separator with
      | nil => exact absurd h (List.splitOn_ne_nil _ _)
      | cons part parts => simp [hc]

theorem parts_of_not_mem {text : String} (h : separator ∉ text.toList) :
    parts separator text = [text] := by
  rw [parts, splitParts_eq_splitOn, List.splitOn_eq_singleton h, List.map_singleton,
    String.ofList_toList]

theorem parts_append (before after : String) :
    parts separator (before ++ String.singleton separator ++ after)
      = parts separator before ++ parts separator after := by
  simp [parts, splitParts_eq_splitOn, List.splitOn_append_cons_self]

theorem parts_ne_nil (text : String) : parts separator text ≠ [] := by
  simp [parts, splitParts_eq_splitOn]

theorem exists_eq_append {text : String} (h : separator ∈ text.toList) :
    ∃ before after, text = before ++ String.singleton separator ++ after := by
  obtain ⟨before, after, htext⟩ := List.append_of_mem h
  refine ⟨String.ofList before, String.ofList after, ?_⟩
  rw [← String.toList_inj, htext]
  simp

theorem parts_intercalate {texts : List String} (hne : texts ≠ [])
    (h : ∀ text ∈ texts, separator ∉ text.toList) :
    parts separator ((String.singleton separator).intercalate texts) = texts := by
  have hsplit : ([separator].intercalate (texts.map String.toList)).splitOn separator
      = texts.map String.toList := by
    refine List.splitOn_intercalate separator ?_ (by simpa using hne)
    simpa using h
  rw [parts, splitParts_eq_splitOn, String.toList_intercalate, String.toList_singleton, hsplit]
  simp

theorem intercalate_parts (text : String) :
    (String.singleton separator).intercalate (parts separator text) = text := by
  rw [← String.toList_inj, String.toList_intercalate, parts, splitParts_eq_splitOn]
  simp [List.intercalate_splitOn]

/-- The parts hold all characters of the text but the separators. -/
theorem exists_mem_parts {text : String} {c : Char} (hc : c ≠ separator) :
    (∃ part ∈ parts separator text, c ∈ part.toList) ↔ c ∈ text.toList := by
  have hsplit (text : List Char) : (∃ part ∈ splitParts separator text, c ∈ part) ↔ c ∈ text := by
    induction text with
    | nil => simp [splitParts]
    | cons x rest ih =>
      rw [List.mem_cons, ← ih, splitParts]
      split
      · next hx => simp [hx, hc]
      · split <;> simp_all [or_assoc]
  rw [← hsplit]
  constructor
  · rintro ⟨_, hmap, hmem⟩
    obtain ⟨part, hpart, rfl⟩ := List.mem_map.mp hmap
    rw [String.toList_ofList] at hmem
    exact ⟨part, hpart, hmem⟩
  · rintro ⟨part, hpart, hmem⟩
    refine ⟨_, List.mem_map_of_mem hpart, ?_⟩
    rwa [String.toList_ofList]

end EntityGen.Text
