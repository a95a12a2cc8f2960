import EntityGen.Proofs.Text.Parts

/-!
# Indented text

A text stands one level deeper with four spaces before each of its lines that
is not empty. A text that is read piece by piece is moved deeper in the same
way, if it is known for each piece whether it starts a line.
-/

namespace EntityGen.Text

def indentedLine (line : String) : String :=
  if line = "" then "" else "    " ++ line

def indented (text : String) : String :=
  "\n".intercalate ((parts '\n' text).map indentedLine)

/-- The characters one level deeper, at the start of a line or inside of one. -/
def deeper (atStart : Bool) : List Char → List Char
  | [] => []
  | c :: rest =>
    if c = '\n' then '\n' :: deeper true rest
    else (if atStart then "    ".toList else []) ++ c :: deeper false rest

def startsLine (atStart : Bool) : List Char → Bool
  | [] => atStart
  | c :: rest => startsLine (c = '\n') rest

variable {atStart : Bool} {xs ys : List Char}

theorem deeper_append :
    deeper atStart (xs ++ ys) = deeper atStart xs ++ deeper (startsLine atStart xs) ys := by
  induction xs generalizing atStart with
  | nil => rfl
  | cons c xs ih =>
    by_cases hc : c = '\n'
    · simp [deeper, startsLine, hc, ih]
    · simp [deeper, startsLine, hc, ih]

theorem startsLine_append :
    startsLine atStart (xs ++ ys) = startsLine (startsLine atStart xs) ys := by
  induction xs generalizing atStart with
  | nil => rfl
  | cons c xs ih => simp only [List.cons_append, startsLine, ih]

theorem deeper_inside (h : '\n' ∉ xs) : deeper false xs = xs := by
  induction xs with
  | nil => rfl
  | cons c xs ih =>
    obtain ⟨hc, hxs⟩ := List.ne_and_not_mem_of_not_mem_cons h
    simp [deeper, Ne.symm hc, ih hxs]

theorem deeper_start (h : '\n' ∉ xs) (hne : xs ≠ []) :
    deeper true xs = "    ".toList ++ xs := by
  cases xs with
  | nil => exact absurd rfl hne
  | cons c xs =>
    obtain ⟨hc, hxs⟩ := List.ne_and_not_mem_of_not_mem_cons h
    simp [deeper, Ne.symm hc, deeper_inside hxs]

theorem startsLine_of_not_mem (h : '\n' ∉ xs) (hne : xs ≠ []) : startsLine atStart xs = false := by
  induction xs generalizing atStart with
  | nil => exact absurd rfl hne
  | cons c xs ih =>
    obtain ⟨hc, hxs⟩ := List.ne_and_not_mem_of_not_mem_cons h
    have hc : decide (c = '\n') = false := by simp [Ne.symm hc]
    rw [startsLine, hc]
    cases xs with
    | nil => rfl
    | cons d xs => exact ih hxs (List.cons_ne_nil d xs)

-- ---------------------------------------------------------------------------
-- Lines and pieces
-- ---------------------------------------------------------------------------

theorem intercalate_cons_head (c : Char) (xs : List Char) (lines : List (List Char)) :
    ['\n'].intercalate ((c :: xs) :: lines) = c :: ['\n'].intercalate (xs :: lines) := by
  cases lines <;> simp [List.intercalate]

/-- Inside of a line, the first part is the rest of that line. -/
theorem deeper_eq_intercalate (xs : List Char) : ∃ line lines, splitParts '\n' xs = line :: lines ∧
    deeper false xs
      = ['\n'].intercalate (line :: lines.map fun l => (indentedLine (String.ofList l)).toList) ∧
    deeper true xs
      = ['\n'].intercalate ((line :: lines).map fun l => (indentedLine (String.ofList l)).toList) := by
  induction xs with
  | nil => exact ⟨[], [], rfl, rfl, rfl⟩
  | cons c xs ih =>
    obtain ⟨line, lines, hsplit, hinside, hstart⟩ := ih
    by_cases hc : c = '\n'
    · refine ⟨[], line :: lines, by simp [splitParts, hc, hsplit], ?_, ?_⟩
      · simp [deeper, hc, hstart, List.intercalate]
      · simp [deeper, hc, hstart, List.intercalate, indentedLine]
    · refine ⟨c :: line, lines, by simp [splitParts, hc, hsplit], ?_, ?_⟩
      · rw [intercalate_cons_head, ← hinside]
        simp [deeper, hc]
      · have hline : (indentedLine (String.ofList (c :: line))).toList
            = ' ' :: ' ' :: ' ' :: ' ' :: c :: line := by
          simp [indentedLine, ← String.toList_inj]
        rw [List.map_cons, hline]
        simp only [intercalate_cons_head, ← hinside]
        simp [deeper, hc]

theorem toList_indented (text : String) : (indented text).toList = deeper true text.toList := by
  obtain ⟨line, lines, hsplit, -, hstart⟩ := deeper_eq_intercalate text.toList
  rw [hstart, indented, parts, hsplit, String.toList_intercalate, List.map_map, List.map_map]
  rfl

end EntityGen.Text
