import EntityGen.Text.NameCase

/-!
# Names of one convention

A name in snake case is read back from its camel case, where a capital stands
for each underscore, and a name in camel case is emitted as it is. Names of one
convention are therefore told apart. Names of the two are not: `user_name` and
`userName` are emitted alike.
-/

namespace EntityGen.Text

-- ---------------------------------------------------------------------------
-- Conventions
-- ---------------------------------------------------------------------------

/-- Words of small letters and digits, a letter first, between single underscores. -/
def isSnake (atStart : Bool) : List Char → Bool
  | [] => !atStart
  | c :: rest =>
    if atStart then c.isLower && isSnake false rest
    else if c = '_' then isSnake true rest
    else (c.isLower || c.isDigit) && isSnake false rest

/-- A small letter, and nothing after it that separates words. -/
def isCamel : List Char → Bool
  | [] => false
  | c :: rest => c.isLower && rest.all fun c => !isSeparator c

def IsSnakeCase (name : String) : Prop := isSnake true name.toList = true

def IsCamelCase (name : String) : Prop := isCamel name.toList = true

instance : DecidablePred IsSnakeCase := fun _ => inferInstanceAs (Decidable (_ = true))

instance : DecidablePred IsCamelCase := fun _ => inferInstanceAs (Decidable (_ = true))

-- ---------------------------------------------------------------------------
-- Letters and digits
-- ---------------------------------------------------------------------------

theorem ascii_forall {p : Char → Prop} (h : ∀ n < 128, p (Char.ofNat n)) {c : Char}
    (hc : c.toNat < 128) : p c := by
  rw [← Char.ofNat_toNat c]
  exact h c.toNat hc

theorem ascii_of_word {c : Char} (hc : c.isLower = true ∨ c.isDigit = true) : c.toNat < 128 := by
  have hbound : c.val ≤ 'z'.val := by
    rcases hc with hlower | hdigit
    · exact of_decide_eq_true ((Bool.and_eq_true _ _).mp hlower).2
    · have hnine : c.val ≤ '9'.val := of_decide_eq_true ((Bool.and_eq_true _ _).mp hdigit).2
      exact UInt32.le_trans hnine (by decide)
  exact Nat.lt_of_le_of_lt hbound (by decide)

theorem word_plain {c : Char} (hc : c.isLower = true ∨ c.isDigit = true) :
    c.isUpper = false ∧ isSeparator c = false := by
  have htable : ∀ n < 128, (Char.ofNat n).isLower = true ∨ (Char.ofNat n).isDigit = true →
      (Char.ofNat n).isUpper = false ∧ isSeparator (Char.ofNat n) = false := by
    decide +kernel
  exact ascii_forall (p := fun c => c.isLower = true ∨ c.isDigit = true →
    c.isUpper = false ∧ isSeparator c = false) htable (ascii_of_word hc) hc

theorem lower_capital {c : Char} (hc : c.isLower = true) :
    toUppercase c = [c.toUpper] ∧ toLowercase c.toUpper = [c] ∧
      c.toUpper.isUpper = true ∧ c.toUpper.toLower = c := by
  have htable : ∀ n < 128, (Char.ofNat n).isLower = true →
      toUppercase (Char.ofNat n) = [(Char.ofNat n).toUpper] ∧
        toLowercase (Char.ofNat n).toUpper = [Char.ofNat n] ∧
        (Char.ofNat n).toUpper.isUpper = true ∧ (Char.ofNat n).toUpper.toLower = Char.ofNat n := by
    decide +kernel
  exact ascii_forall (p := fun c => c.isLower = true → toUppercase c = [c.toUpper] ∧
    toLowercase c.toUpper = [c] ∧ c.toUpper.isUpper = true ∧ c.toUpper.toLower = c)
    htable (ascii_of_word (.inl hc)) hc

/-- A small letter at the start is emitted as it is in camel case. -/
theorem decapitalized_pascalChars {c : Char} (hc : c.isLower = true) (rest : List Char) :
    decapitalized (pascalChars true (c :: rest)) = c :: pascalChars false rest := by
  obtain ⟨hcapital, hsmall, -, -⟩ := lower_capital hc
  simp [pascalChars, (word_plain (.inl hc)).2, hcapital, decapitalized, hsmall]

-- ---------------------------------------------------------------------------
-- Snake case
-- ---------------------------------------------------------------------------

def readCapitals (name : List Char) : List Char :=
  name.flatMap fun c => if c.isUpper then ['_', c.toLower] else [c]

theorem readCapitals_pascalChars {atStart : Bool} {name : List Char}
    (h : isSnake atStart name = true) :
    readCapitals (pascalChars atStart name) = (if atStart then ['_'] else []) ++ name := by
  induction name generalizing atStart with
  | nil =>
    obtain rfl : atStart = false := by simpa [isSnake] using h
    rfl
  | cons c rest ih =>
    cases atStart with
    | true =>
      obtain ⟨hc, hrest⟩ : c.isLower = true ∧ isSnake false rest = true := by
        simpa [isSnake] using h
      obtain ⟨hcapital, -, hupper, hlower⟩ := lower_capital hc
      have hseparator := (word_plain (.inl hc)).2
      simpa [pascalChars, hseparator, hcapital, readCapitals, hupper, hlower] using ih hrest
    | false =>
      by_cases hc : c = '_'
      · subst hc
        have hrest : isSnake true rest = true := by simpa [isSnake] using h
        simpa [pascalChars, isSeparator] using ih hrest
      · obtain ⟨hword, hrest⟩ :
            (c.isLower = true ∨ c.isDigit = true) ∧ isSnake false rest = true := by
          simpa [isSnake, hc] using h
        obtain ⟨hupper, hseparator⟩ := word_plain hword
        simpa [pascalChars, hseparator, readCapitals, hupper] using ih hrest

theorem readCapitals_camelCase {name : String} (h : IsSnakeCase name) :
    readCapitals (camelCase name).toList = name.toList := by
  unfold IsSnakeCase at h
  rw [camelCase, String.toList_ofList]
  cases hname : name.toList with
  | nil => rfl
  | cons c rest =>
    rw [hname] at h
    obtain ⟨hc, hrest⟩ : c.isLower = true ∧ isSnake false rest = true := by
      simpa [isSnake] using h
    rw [decapitalized_pascalChars hc]
    simpa [readCapitals, (word_plain (.inl hc)).1] using readCapitals_pascalChars hrest

/-- No two names in snake case are emitted alike. -/
theorem camelCase_inj_of_isSnakeCase {a b : String} (ha : IsSnakeCase a) (hb : IsSnakeCase b)
    (h : camelCase a = camelCase b) : a = b := by
  have hread := congrArg (fun name => readCapitals name.toList) h
  simp only [readCapitals_camelCase ha, readCapitals_camelCase hb] at hread
  exact String.toList_inj.mp hread

-- ---------------------------------------------------------------------------
-- Camel case
-- ---------------------------------------------------------------------------

theorem pascalChars_of_no_separator {name : List Char} (h : ∀ c ∈ name, isSeparator c = false) :
    pascalChars false name = name := by
  induction name with
  | nil => rfl
  | cons c rest ih =>
    obtain ⟨hc, hrest⟩ := List.forall_mem_cons.mp h
    simp [pascalChars, hc, ih hrest]

theorem camelCase_eq_self {name : String} (h : IsCamelCase name) : camelCase name = name := by
  unfold IsCamelCase at h
  rw [← String.toList_inj, camelCase, String.toList_ofList]
  cases hname : name.toList with
  | nil => rfl
  | cons c rest =>
    rw [hname] at h
    obtain ⟨hc, hrest⟩ : c.isLower = true ∧ ∀ c ∈ rest, isSeparator c = false := by
      simpa [isCamel] using h
    rw [decapitalized_pascalChars hc, pascalChars_of_no_separator hrest]

/-- Names of one convention, be it snake case or camel case, are emitted apart. -/
theorem camelCase_injOn {names : List String}
    (h : (∀ name ∈ names, IsSnakeCase name) ∨ ∀ name ∈ names, IsCamelCase name) {a b : String}
    (ha : a ∈ names) (hb : b ∈ names) (hab : camelCase a = camelCase b) : a = b := by
  rcases h with hsnake | hcamel
  · exact camelCase_inj_of_isSnakeCase (hsnake a ha) (hsnake b hb) hab
  · rwa [camelCase_eq_self (hcamel a ha), camelCase_eq_self (hcamel b hb)] at hab

end EntityGen.Text
