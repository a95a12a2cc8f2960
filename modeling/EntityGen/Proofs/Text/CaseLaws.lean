import EntityGen.Proofs.Text.Conventions
import EntityGen.Proofs.Text.Parts
import EntityGen.Proofs.Text.Separators

/-!
# Laws of the case conversions

The names that are derived from one name stay in step: a name is brought into
Pascal case and into camel case from either of the two as from itself. Back in
snake case, a run of capitals is one word, so a word of a single letter is not
told apart from the word after it, unless camel case wrote it small.
-/

namespace EntityGen.Text

-- ---------------------------------------------------------------------------
-- Pascal and camel case
-- ---------------------------------------------------------------------------

/-- In ASCII a capital is its own capital and that of its small letter, and neither of the
two is a separator without the other. -/
theorem ascii_capital {c : Char} (hc : c.toNat < 128) :
    toUppercase c = [c.toUpper] ∧ toUppercase c.toUpper = [c.toUpper] ∧
      toLowercase c.toUpper = [c.toUpper.toLower] ∧
      toUppercase c.toUpper.toLower = [c.toUpper] ∧
      isSeparator c.toUpper.toLower = isSeparator c.toUpper := by
  have htable : ∀ n < 128, toUppercase (Char.ofNat n) = [(Char.ofNat n).toUpper] ∧
      toUppercase (Char.ofNat n).toUpper = [(Char.ofNat n).toUpper] ∧
      toLowercase (Char.ofNat n).toUpper = [(Char.ofNat n).toUpper.toLower] ∧
      toUppercase (Char.ofNat n).toUpper.toLower = [(Char.ofNat n).toUpper] ∧
      isSeparator (Char.ofNat n).toUpper.toLower = isSeparator (Char.ofNat n).toUpper := by
    decide +kernel
  exact ascii_forall (p := fun c => toUppercase c = [c.toUpper] ∧
    toUppercase c.toUpper = [c.toUpper] ∧ toLowercase c.toUpper = [c.toUpper.toLower] ∧
    toUppercase c.toUpper.toLower = [c.toUpper] ∧
    isSeparator c.toUpper.toLower = isSeparator c.toUpper) htable hc

theorem pascalChars_eq_capital {name : List Char} (h : ∀ c ∈ name, c.toNat < 128) :
    pascalChars true name = [] ∨
      ∃ (c : Char) (rest : List Char), c.toNat < 128 ∧
        pascalChars true name = c.toUpper :: rest := by
  induction name with
  | nil => exact .inl rfl
  | cons c name ih =>
    obtain ⟨hc, hname⟩ := List.forall_mem_cons.mp h
    rw [pascalChars]
    split
    · exact ih hname
    · rw [if_pos rfl, (ascii_capital hc).1]
      exact .inr ⟨c, pascalChars false name, hc, rfl⟩

theorem pascalChars_start {c : Char} {rest : List Char}
    (h : ∀ d ∈ c :: rest, isSeparator d = false) :
    pascalChars true (c :: rest) = toUppercase c ++ rest := by
  obtain ⟨hc, hrest⟩ := List.forall_mem_cons.mp h
  simp [pascalChars, hc, pascalChars_of_no_separator hrest]

/-- Neither a name in Pascal case nor the same name in camel case is changed by Pascal case. -/
theorem pascalChars_fixed {name : List Char} (h : ∀ c ∈ name, c.toNat < 128) :
    pascalChars true (pascalChars true name) = pascalChars true name ∧
      pascalChars true (decapitalized (pascalChars true name)) = pascalChars true name := by
  have hplain : ∀ d ∈ pascalChars true name, isSeparator d = false := fun d hd =>
    Bool.eq_false_iff.mpr fun hs => pascalChars_no_separator (isSeparator_iff.mp hs) true name hd
  rcases pascalChars_eq_capital h with hnil | ⟨c, rest, hc, hcapital⟩
  · simp [hnil, decapitalized, pascalChars]
  · obtain ⟨-, hupper, hlower, hsmall, hseparator⟩ := ascii_capital hc
    rw [hcapital] at hplain ⊢
    obtain ⟨hfirst, hrest⟩ := List.forall_mem_cons.mp hplain
    constructor
    · rw [pascalChars_start hplain, hupper, List.singleton_append]
    · have hplainSmall : ∀ d ∈ c.toUpper.toLower :: rest, isSeparator d = false :=
        List.forall_mem_cons.mpr ⟨hseparator.trans hfirst, hrest⟩
      rw [decapitalized, hlower, List.singleton_append, pascalChars_start hplainSmall, hsmall,
        List.singleton_append]

/-- Each case conversion undoes the other and leaves its own results alone. No separator is
left in either. -/
theorem cases_inStep {name : String} (h : ∀ c ∈ name.toList, c.toNat < 128) :
    pascalCase (pascalCase name) = pascalCase name ∧
      camelCase (camelCase name) = camelCase name ∧
      pascalCase (camelCase name) = pascalCase name ∧
      camelCase (pascalCase name) = camelCase name ∧
      ∀ s ∈ separators, s ∉ (pascalCase name).toList ∧ s ∉ (camelCase name).toList := by
  obtain ⟨hpascal, hcamel⟩ := pascalChars_fixed h
  refine ⟨?_, ?_, ?_, ?_, fun s hs => ⟨pascalCase_no_separator hs name,
    camelCase_no_separator hs name⟩⟩
  all_goals simp only [pascalCase, camelCase, String.toList_ofList, hpascal, hcamel]

theorem cases_inStep_scattered :
    (∀ c ∈ "__movie-2 HTTPGenre_".toList, c.toNat < 128) ∧
      pascalCase (camelCase "__movie-2 HTTPGenre_") = "Movie2HTTPGenre" ∧
      camelCase (pascalCase "__movie-2 HTTPGenre_") = "movie2HTTPGenre" := by
  have hascii : ∀ c ∈ "__movie-2 HTTPGenre_".toList, c.toNat < 128 := by simp
  obtain ⟨-, -, hpascal, hcamel, -⟩ := cases_inStep hascii
  exact ⟨hascii, hpascal.trans (by decide +kernel), hcamel.trans (by decide +kernel)⟩

-- ---------------------------------------------------------------------------
-- Words of snake case
-- ---------------------------------------------------------------------------

def isWord : List Char → Bool
  | [] => false
  | c :: rest => c.isLower && rest.all fun c => c.isLower || c.isDigit

/-- The parts of a name in snake case are its words, and nothing else has such parts. -/
theorem exists_words (name : List Char) : ∃ w ws, splitParts '_' name = w :: ws ∧
    name = w ++ ws.flatMap ('_' :: ·) ∧
    (isSnake false name = true ↔
      (∀ c ∈ w, c.isLower = true ∨ c.isDigit = true) ∧ ∀ v ∈ ws, isWord v = true) ∧
    (isSnake true name = true ↔ ∀ v ∈ w :: ws, isWord v = true) := by
  induction name with
  | nil => exact ⟨[], [], rfl, rfl, by simp [isSnake], by simp [isSnake, isWord]⟩
  | cons c rest ih =>
    obtain ⟨w, ws, hsplit, hjoin, hinside, hstart⟩ := ih
    rw [List.forall_mem_cons] at hstart
    by_cases hc : c = '_'
    · subst hc
      refine ⟨[], w :: ws, by simp [splitParts, hsplit], by simp [← hjoin], ?_, ?_⟩
      · simp [isSnake, hstart]
      · simp [isSnake, isWord]
    · refine ⟨c :: w, ws, by simp [splitParts, hc, hsplit], by simp [← hjoin], ?_, ?_⟩
      · simp [isSnake, hc, hinside, and_assoc]
      · simp [isSnake, isWord, hinside, and_assoc]

-- ---------------------------------------------------------------------------
-- Back to snake case
-- ---------------------------------------------------------------------------

def capitalized : List Char → List Char
  | [] => []
  | c :: rest => c.toUpper :: rest

section
variable {c : Char} {w rest : List Char} {ws : List (List Char)}

theorem isWord_cons (h : isWord (c :: w) = true) :
    c.isLower = true ∧ ∀ d ∈ w, d.isLower = true ∨ d.isDigit = true := by
  simpa [isWord] using h

theorem pascalChars_word (h : ∀ d ∈ w, d.isLower = true ∨ d.isDigit = true) (rest : List Char) :
    pascalChars false (w ++ rest) = w ++ pascalChars false rest := by
  induction w with
  | nil => rfl
  | cons d w ih =>
    obtain ⟨hd, hw⟩ := List.forall_mem_cons.mp h
    simp [pascalChars, (word_plain hd).2, ih hw]

theorem pascalChars_cons_word (h : isWord (c :: w) = true) (rest : List Char) :
    pascalChars true (c :: w ++ rest) = capitalized (c :: w) ++ pascalChars false rest := by
  obtain ⟨hc, hw⟩ := isWord_cons h
  simp [pascalChars, (word_plain (.inl hc)).2, (lower_capital hc).1, capitalized,
    pascalChars_word hw]

theorem pascalChars_words (h : ∀ w ∈ ws, isWord w = true) :
    pascalChars false (ws.flatMap ('_' :: ·)) = ws.flatMap capitalized := by
  induction ws with
  | nil => rfl
  | cons w ws ih =>
    obtain ⟨hw, hws⟩ := List.forall_mem_cons.mp h
    cases w with
    | nil => cases hw
    | cons c w =>
      rw [List.flatMap_cons, List.flatMap_cons, List.cons_append, pascalChars,
        if_pos (by decide : isSeparator '_' = true), pascalChars_cons_word hw, ih hws]

/-- Small letters and digits stay, and a capital after them starts a word. -/
theorem snakeChars_word (h : ∀ d ∈ w, d.isLower = true ∨ d.isDigit = true) (afterLower : Bool)
    (rest : List Char) :
    snakeChars afterLower (w ++ rest) = w ++ snakeChars (afterLower || !w.isEmpty) rest := by
  have hplain {d : Char} (hd : d.isLower = true ∨ d.isDigit = true) :
      ¬(d = '-' ∨ d = ' ') ∧ isUppercase d = false ∧ (isLowercase d || d.isDigit) = true := by
    have hseparator := (word_plain hd).2
    simp only [isSeparator, Bool.or_eq_false_iff, decide_eq_false_iff_not] at hseparator
    have hascii := ascii_of_word hd
    refine ⟨not_or.mpr ⟨hseparator.1.2, hseparator.2⟩, ?_, ?_⟩
    · rw [isUppercase, if_pos hascii, (word_plain hd).1]
    · rw [isLowercase, if_pos hascii, Bool.or_eq_true]
      exact hd
  induction w generalizing afterLower with
  | nil => simp
  | cons d w ih =>
    obtain ⟨hd, hw⟩ := List.forall_mem_cons.mp h
    obtain ⟨hmark, hupper, hlower⟩ := hplain hd
    simp [snakeChars, hmark, hupper, hlower, ih hw]

/-- After a capital that stands alone, the next capital starts no word. -/
theorem snakeChars_capitalized (h : isWord (c :: w) = true) (afterLower : Bool)
    (rest : List Char) :
    snakeChars afterLower (capitalized (c :: w) ++ rest)
      = (if afterLower then ['_'] else []) ++ c :: w ++ snakeChars (!w.isEmpty) rest := by
  obtain ⟨hc, hw⟩ := isWord_cons h
  have htable : ∀ n < 128, (Char.ofNat n).isLower = true →
      ¬((Char.ofNat n).toUpper = '-' ∨ (Char.ofNat n).toUpper = ' ') ∧
        isUppercase (Char.ofNat n).toUpper = true := by
    decide +kernel
  obtain ⟨hmark, hupper⟩ := ascii_forall (p := fun c => c.isLower = true →
    ¬(c.toUpper = '-' ∨ c.toUpper = ' ') ∧ isUppercase c.toUpper = true)
    htable (ascii_of_word (.inl hc)) hc
  rw [capitalized, List.cons_append, snakeChars, if_neg (by simpa using hmark), if_pos hupper,
    (lower_capital hc).2.1, snakeChars_word hw]
  simp

theorem not_isEmpty_iff : (!w.isEmpty) = true ↔ 1 < (c :: w).length := by
  cases w <;> simp

theorem forall_mem_dropLast_cons {α : Type} {p : α → Prop} {a : α} {as : List α} :
    (∀ b ∈ (a :: as).dropLast, p b) ↔ (as = [] ∨ p a) ∧ ∀ b ∈ as.dropLast, p b := by
  cases as <;> simp

/-- Words are read back from their capitals if only the last may be a single letter. -/
theorem snakeChars_words_eq_iff (h : ∀ w ∈ ws, isWord w = true) (afterLower : Bool) :
    snakeChars afterLower (ws.flatMap capitalized) = ws.flatMap ('_' :: ·) ↔
      (ws = [] ∨ afterLower = true) ∧ ∀ w ∈ ws.dropLast, 1 < w.length := by
  induction ws generalizing afterLower with
  | nil => simp [snakeChars]
  | cons w ws ih =>
    obtain ⟨hw, hws⟩ := List.forall_mem_cons.mp h
    cases w with
    | nil => cases hw
    | cons c w =>
      rw [List.flatMap_cons, List.flatMap_cons, snakeChars_capitalized hw]
      cases afterLower with
      | false =>
        -- the text goes on with the letter where the name has the underscore
        have hc : c ≠ '_' := by
          rintro rfl
          exact absurd (isWord_cons hw).1 (by decide)
        simp [hc]
      | true =>
        rw [forall_mem_dropLast_cons, ← not_isEmpty_iff, ← ih hws]
        simp

end

/-- A name in snake case comes back from camel case exactly if every word between its first
and its last has several characters, and from Pascal case if the first has as well. -/
theorem snakeCase_restores_iff {name : String} (h : IsSnakeCase name) :
    (snakeCase (camelCase name) = name ↔ ∀ w ∈ (parts '_' name).tail.dropLast, 1 < w.length) ∧
      (snakeCase (pascalCase name) = name ↔ ∀ w ∈ (parts '_' name).dropLast, 1 < w.length) := by
  obtain ⟨w, ws, hsplit, hname, -, hstart⟩ := exists_words name.toList
  obtain ⟨hw, hws⟩ := List.forall_mem_cons.mp (hstart.mp h)
  cases w with
  | nil => cases hw
  | cons c w =>
    obtain ⟨hc, hrest⟩ := isWord_cons hw
    have hpascal : pascalChars true name.toList
        = capitalized (c :: w) ++ ws.flatMap capitalized := by
      rw [hname, pascalChars_cons_word hw, pascalChars_words hws]
    have hcamel : decapitalized (pascalChars true name.toList)
        = (c :: w) ++ ws.flatMap capitalized := by
      rw [hpascal, capitalized, List.cons_append, decapitalized, (lower_capital hc).2.1]
      rfl
    have hword : ∀ d ∈ c :: w, d.isLower = true ∨ d.isDigit = true :=
      List.forall_mem_cons.mpr ⟨.inl hc, hrest⟩
    constructor
    · rw [← String.toList_inj, snakeCase, camelCase, String.toList_ofList, String.toList_ofList,
        hcamel, snakeChars_word hword, hname, List.append_cancel_left_eq,
        snakeChars_words_eq_iff hws, parts, hsplit, List.map_cons, List.tail_cons,
        ← List.map_dropLast, List.forall_mem_map]
      simp
    · rw [← String.toList_inj, snakeCase, pascalCase, String.toList_ofList, String.toList_ofList,
        hpascal, snakeChars_capitalized hw, hname, if_neg (by simp), List.nil_append,
        List.append_cancel_left_eq, snakeChars_words_eq_iff hws, parts, hsplit,
        ← List.map_dropLast, List.forall_mem_map, forall_mem_dropLast_cons,
        not_isEmpty_iff (c := c)]
      simp only [String.length_ofList]

theorem snakeCase_restores_iff_letters :
    IsSnakeCase "a_movie2_genre_x" ∧
      snakeCase (camelCase "a_movie2_genre_x") = "a_movie2_genre_x" ∧
      snakeCase (pascalCase "a_movie2_genre_x") ≠ "a_movie2_genre_x" := by
  have hname : IsSnakeCase "a_movie2_genre_x" := by decide
  obtain ⟨hcamel, hpascal⟩ := snakeCase_restores_iff hname
  exact ⟨hname, hcamel.mpr (by decide), mt hpascal.mp (by decide)⟩

/-- The capitals of `aBC` and of `AB` are read as one word. -/
theorem snakeCase_singleLetters :
    (IsSnakeCase "a_b_c" ∧ camelCase "a_b_c" = "aBC" ∧ snakeCase "aBC" ≠ "a_b_c") ∧
      IsSnakeCase "a_b" ∧ pascalCase "a_b" = "AB" ∧ snakeCase "AB" ≠ "a_b" := by
  decide +kernel

end EntityGen.Text
