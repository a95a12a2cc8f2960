import EntityGen.Text.NameCase

/-!
# Names without separators

No letter case of a character is a separator unless the character is one, so
names in camel or Pascal case hold no underscore. Keys that put underscores
around such names can be told apart. A slash stays where it is in any case.
-/

namespace EntityGen.Text

def separators : List Char := ['_', '-', ' ']

theorem isSeparator_iff {s : Char} : isSeparator s = true ↔ s ∈ separators := by
  simp [isSeparator, separators, or_assoc]

/-- Characters that are the letter case of no other. -/
def caseless : List Char := '/' :: separators

theorem mem_caseless {s : Char} (hs : s ∈ separators) : s ∈ caseless := List.mem_cons_of_mem _ hs

-- ---------------------------------------------------------------------------
-- Letter case
-- ---------------------------------------------------------------------------

theorem toNat_eq_of_ofNat_eq {n : Nat} {s : Char} (hs : s.toNat ≠ 0) (h : Char.ofNat n = s) :
    n = s.toNat := by
  by_cases hn : n.isValidChar
  · have hvalid : Char.ofNat n = Char.ofNatAux n hn := dif_pos hn
    rw [← h, hvalid]
    rfl
  -- an invalid code stands for the character of code zero
  · have hinvalid : Char.ofNat n = '\x00' := dif_neg hn
    rw [← h, hinvalid] at hs
    exact absurd rfl hs

def Avoids (expansions : List (Nat × List Nat)) (shifts : List Shift) (code : Nat) : Prop :=
  (∀ entry ∈ expansions, code ∉ entry.2) ∧
    ∀ shift ∈ shifts, (code : Int) < shift.run.first + shift.offset ∨
      shift.run.last + shift.offset < (code : Int)

instance (expansions : List (Nat × List Nat)) (shifts : List Shift) (code : Nat) :
    Decidable (Avoids expansions shifts code) :=
  inferInstanceAs (Decidable (_ ∧ _))

theorem not_mem_mapped {expansions : List (Nat × List Nat)} {shifts : List Shift} {c s : Char}
    (hs : s.toNat ≠ 0) (hc : c ≠ s) (h : Avoids expansions shifts s.toNat) :
    s ∉ mapped expansions shifts c := by
  obtain ⟨hexpansions, hshifts⟩ := h
  unfold mapped
  split
  · next codes hlookup =>
    intro hmem
    obtain ⟨code, hcode, hofNat⟩ := List.mem_map.mp hmem
    obtain rfl := toNat_eq_of_ofNat_eq hs hofNat
    obtain ⟨before, after, rfl, -⟩ := List.lookup_eq_some_iff.mp hlookup
    exact hexpansions (c.toNat, codes) (by simp) hcode
  split
  · next shift hfind =>
    have hrun := List.find?_some hfind
    have hshift := hshifts shift (List.mem_of_find?_eq_some hfind)
    simp only [Run.contains, Bool.and_eq_true, decide_eq_true_eq] at hrun
    intro hmem
    have hcode := toNat_eq_of_ofNat_eq hs (List.mem_singleton.mp hmem).symm
    omega
  · simpa using hc.symm

theorem ne_of_ascii {f : Char → Char}
    (hf : ∀ n < 128, ∀ code ∈ caseless.map Char.toNat, n ≠ code →
      (f (Char.ofNat n)).toNat ≠ code)
    {c s : Char} (hc : c.toNat < 128) (hs : s ∈ caseless) (hne : c ≠ s) : f c ≠ s := by
  have h := hf c.toNat hc s.toNat (List.mem_map_of_mem hs) fun heq => hne (Char.toNat_inj.mp heq)
  rw [Char.ofNat_toNat] at h
  exact fun heq => h (congrArg Char.toNat heq)

theorem not_mem_toUppercase {c s : Char} (hs : s ∈ caseless) (hc : c ≠ s) :
    s ∉ toUppercase c := by
  have htable : ∀ code ∈ caseless.map Char.toNat,
      code ≠ 0 ∧ Avoids toUppercaseExpansions toUppercaseShifts code := by
    decide +kernel
  obtain ⟨hzero, havoids⟩ := htable s.toNat (List.mem_map_of_mem hs)
  unfold toUppercase
  split
  · next hascii =>
    have hne := ne_of_ascii (f := Char.toUpper) (by decide +kernel) hascii hs hc
    simpa using hne.symm
  · exact not_mem_mapped hzero hc havoids

theorem not_mem_toLowercase {c s : Char} (hs : s ∈ caseless) (hc : c ≠ s) :
    s ∉ toLowercase c := by
  have htable : ∀ code ∈ caseless.map Char.toNat,
      code ≠ 0 ∧ Avoids toLowercaseExpansions toLowercaseShifts code := by
    decide +kernel
  obtain ⟨hzero, havoids⟩ := htable s.toNat (List.mem_map_of_mem hs)
  unfold toLowercase
  split
  · next hascii =>
    have hne := ne_of_ascii (f := Char.toLower) (by decide +kernel) hascii hs hc
    simpa using hne.symm
  · exact not_mem_mapped hzero hc havoids

-- ---------------------------------------------------------------------------
-- Names
-- ---------------------------------------------------------------------------

theorem pascalChars_no_separator {s : Char} (hs : s ∈ separators) (atStart : Bool)
    (name : List Char) : s ∉ pascalChars atStart name := by
  induction name generalizing atStart with
  | nil => simp [pascalChars]
  | cons c rest ih =>
    rw [pascalChars]
    split
    · exact ih true
    · next hc =>
      have hne : c ≠ s := by
        rintro rfl
        exact hc (isSeparator_iff.mpr hs)
      rw [List.mem_append, not_or]
      refine ⟨?_, ih false⟩
      split
      · exact not_mem_toUppercase (mem_caseless hs) hne
      · simpa using hne.symm

theorem pascalCase_no_separator {s : Char} (hs : s ∈ separators) (name : String) :
    s ∉ (pascalCase name).toList := by
  simpa [pascalCase] using pascalChars_no_separator hs true name.toList

theorem camelCase_no_separator {s : Char} (hs : s ∈ separators) (name : String) :
    s ∉ (camelCase name).toList := by
  have h := pascalChars_no_separator hs true name.toList
  rw [camelCase, String.toList_ofList]
  cases hp : pascalChars true name.toList with
  | nil => simp [decapitalized]
  | cons c rest =>
    rw [hp, List.mem_cons, not_or] at h
    obtain ⟨hc, hrest⟩ := h
    rw [decapitalized, List.mem_append, not_or]
    exact ⟨not_mem_toLowercase (mem_caseless hs) (Ne.symm hc), hrest⟩

theorem slash_mem_toUppercase {c : Char} : '/' ∈ toUppercase c ↔ c = '/' := by
  constructor
  · intro h
    exact Decidable.byContradiction fun hc => not_mem_toUppercase List.mem_cons_self hc h
  · rintro rfl
    exact List.mem_singleton_self _

theorem slash_mem_pascalChars {atStart : Bool} {name : List Char} :
    '/' ∈ pascalChars atStart name ↔ '/' ∈ name := by
  induction name generalizing atStart with
  | nil => simp [pascalChars]
  | cons c rest ih =>
    rw [pascalChars, List.mem_cons]
    split
    · next hc =>
      have hne : '/' ≠ c := by
        rintro rfl
        exact absurd hc (by simp [isSeparator])
      rw [ih, or_iff_right hne]
    · rw [List.mem_append, ih]
      refine or_congr_left ?_
      split
      · rw [slash_mem_toUppercase, eq_comm]
      · exact List.mem_singleton

/-- Emitting a name neither adds a slash to it nor takes one away. -/
theorem slash_mem_pascalCase {name : String} :
    '/' ∈ (pascalCase name).toList ↔ '/' ∈ name.toList := by
  rw [pascalCase, String.toList_ofList, slash_mem_pascalChars]

end EntityGen.Text
