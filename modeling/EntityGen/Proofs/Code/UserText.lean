import EntityGen.Proofs.Code.LineText

/-!
# User text in literals and comments

A string literal is read back as the text that it was written for, up to its
closing quote, unless the text holds a carriage return: that character is
written as it stands, and no literal goes over a line break. For the same
reason a carriage return inside of a line of a comment starts a line of the
program that nothing marks as comment.
-/

namespace EntityGen.Code

-- ---------------------------------------------------------------------------
-- Reading a literal
-- ---------------------------------------------------------------------------

/-- The character that a backslash and one letter stand for. A parenthesis opens an
interpolation, and no other character may follow. -/
def escapedChar? : Char → Option Char
  | '0' => some '\x00'
  | '\\' => some '\\'
  | 't' => some '\t'
  | 'n' => some '\n'
  | 'r' => some '\r'
  | '"' => some '"'
  | '\x27' => some '\x27'
  | _ => none

def hexDigit? (c : Char) : Option Nat :=
  if c.isDigit then some (c.toNat - '0'.toNat)
  else if 'a' ≤ c ∧ c ≤ 'f' then some (c.toNat - 'a'.toNat + 10)
  else if 'A' ≤ c ∧ c ≤ 'F' then some (c.toNat - 'A'.toNat + 10)
  else none

def scalarChar? (code count : Nat) : Option Char :=
  if 0 < count ∧ count ≤ 8 ∧ code.isValidChar then some (Char.ofNat code) else none

inductive LiteralPlace where
  | between
  | afterBackslash
  | beforeCode
  | inCode (code count : Nat)

namespace LiteralPlace

def withChar (c : Char) (read : List Char × List Char) : List Char × List Char :=
  (c :: read.1, read.2)

/-- The text of a literal from a place on, and what comes after its closing quote. -/
def read : LiteralPlace → List Char → Option (List Char × List Char)
  | _, [] => none
  | .between, c :: rest =>
    if c = '"' then some ([], rest)
    else if c = '\\' then read .afterBackslash rest
    else if endsLine true c then none
    else (read .between rest).map (withChar c)
  | .afterBackslash, c :: rest =>
    if c = 'u' then read .beforeCode rest
    else (escapedChar? c).bind fun d => (read .between rest).map (withChar d)
  | .beforeCode, c :: rest => if c = '\x7b' then read (.inCode 0 0) rest else none
  | .inCode code count, c :: rest =>
    if c = '\x7d' then
      (scalarChar? code count).bind fun d => (read .between rest).map (withChar d)
    else (hexDigit? c).bind fun digit => read (.inCode (16 * code + digit) (count + 1)) rest

theorem read_escapeChar {c : Char} (hc : c ≠ '\r') (rest : List Char) :
    between.read (escapeChar c ++ rest) = (between.read rest).map (withChar c) := by
  fun_cases escapeChar c with
  | case5 c hquote hbackslash hlineFeed htab =>
    have hbreak : endsLine true c = false := by simpa [endsLine] using ⟨hlineFeed, hc⟩
    simp only [List.cons_append, List.nil_append, read, if_neg hquote, if_neg hbackslash, hbreak,
      Bool.false_eq_true, if_false]
  | _ => simp [read, escapedChar?]

theorem read_escaped (text rest : List Char) :
    between.read (text.flatMap escapeChar ++ '"' :: rest)
      = if '\r' ∈ text then none else some (text, rest) := by
  induction text with
  | nil => simp [read]
  | cons c text ih =>
    rw [List.flatMap_cons, List.append_assoc]
    by_cases hc : c = '\r'
    · subst hc
      simp [escapeChar, read, endsLine]
    · rw [read_escapeChar hc, ih]
      by_cases hreturn : '\r' ∈ text
      · simp [hreturn]
      · simp [hreturn, Ne.symm hc, withChar]

end LiteralPlace

def readLiteral? : List Char → Option (String × List Char)
  | [] => none
  | c :: rest =>
    if c = '"' then
      (LiteralPlace.between.read rest).map fun (text, rest) => (String.ofList text, rest)
    else none

theorem readLiteral?_quoted (text : String) (rest : List Char) :
    readLiteral? ((quoted text).toList ++ rest)
      = if '\r' ∈ text.toList then none else some (text, rest) := by
  have hread := LiteralPlace.read_escaped text.toList rest
  by_cases hreturn : '\r' ∈ text.toList
  · simp [quoted, readLiteral?, hread, hreturn]
  · simp [quoted, readLiteral?, hread, hreturn]

-- ---------------------------------------------------------------------------
-- Lines of a program
-- ---------------------------------------------------------------------------

/-- The lines of a program. A line feed, a carriage return or both, in this order, end a line. -/
def programLines : List Char → List (List Char)
  | [] => []
  | '\n' :: rest => [] :: programLines rest
  | '\r' :: '\n' :: rest => [] :: programLines rest
  | '\r' :: rest => [] :: programLines rest
  | c :: rest =>
    match programLines rest with
    | [] => [[c]]
    | line :: lines => (c :: line) :: lines

theorem programLines_cons {c : Char} (hc : endsLine true c = false) (rest : List Char) :
    programLines (c :: rest)
      = (c :: (programLines rest).headD []) :: (programLines rest).tail := by
  obtain ⟨hlineFeed, hreturn⟩ : c ≠ '\n' ∧ c ≠ '\r' := by simpa [endsLine] using hc
  rw [programLines]
  · cases programLines rest <;> rfl
  · exact hlineFeed
  · exact fun _ h => absurd h hreturn
  · exact hreturn

theorem programLines_return {c : Char} (hc : c ≠ '\n') (rest : List Char) :
    programLines ('\r' :: c :: rest) = [] :: programLines (c :: rest) := by
  rw [programLines]
  intro _ h
  exact hc (List.cons.inj h).1

theorem programLines_ne_nil {text : List Char} (hne : text ≠ []) : programLines text ≠ [] := by
  fun_cases programLines text with
  | case1 => exact absurd rfl hne
  | _ => exact List.cons_ne_nil _ _

theorem programLines_append_lineFeed {text : List Char} (hne : text ≠ []) (h : '\n' ∉ text)
    (rest : List Char) :
    programLines (text ++ '\n' :: rest) = programLines text ++ programLines rest := by
  induction text with
  | nil => exact absurd rfl hne
  | cons c text ih =>
    obtain ⟨hc, htext⟩ := List.ne_and_not_mem_of_not_mem_cons h
    cases text with
    | nil =>
      by_cases hreturn : c = '\r'
      · subst hreturn
        rfl
      · have hbreak : endsLine true c = false := by simpa [endsLine] using ⟨Ne.symm hc, hreturn⟩
        simp [programLines_cons hbreak, programLines]
    | cons d text =>
      have hrest := ih (List.cons_ne_nil d text) htext
      have hd := (List.ne_and_not_mem_of_not_mem_cons htext).1
      by_cases hreturn : c = '\r'
      · subst hreturn
        simp only [List.cons_append] at hrest ⊢
        rw [programLines_return hd.symm, programLines_return hd.symm, hrest, List.cons_append]
      · have hbreak : endsLine true c = false := by simpa [endsLine] using ⟨Ne.symm hc, hreturn⟩
        obtain ⟨line, lines, hlines⟩ := List.exists_cons_of_ne_nil 
          (programLines_ne_nil (List.cons_ne_nil d text))
        simp only [List.cons_append] at hrest ⊢
        rw [programLines_cons hbreak, programLines_cons hbreak, hrest, hlines]
        rfl

/-- What stands in front of a text without a line break of its own stands in front of the
first line. -/
theorem programLines_append {front : List Char} (hne : front ≠ [])
    (h : ∀ c ∈ front, endsLine true c = false) (rest : List Char) :
    programLines (front ++ rest)
      = (front ++ (programLines rest).headD []) :: (programLines rest).tail := by
  induction front with
  | nil => exact absurd rfl hne
  | cons c front ih =>
    obtain ⟨hc, hfront⟩ := List.forall_mem_cons.mp h
    rw [List.cons_append, programLines_cons hc]
    cases front with
    | nil => rfl
    | cons d front =>
      rw [ih (List.cons_ne_nil d front) hfront]
      rfl

-- ---------------------------------------------------------------------------
-- Lines of a comment
-- ---------------------------------------------------------------------------

def Comment.front (level : Nat) (c : Comment) (line : String) : String :=
  indent level ++ if line.isEmpty then c.marker else c.marker ++ " "

namespace Comment

theorem front_append (level : Nat) (c : Comment) (line : String) :
    fullLine level (if line.isEmpty then c.marker else c.marker ++ " " ++ line)
      = c.front level line ++ line ++ "\n" := by
  by_cases hline : line.isEmpty
  · rw [front, fullLine, if_pos hline, if_pos hline, String.isEmpty_iff.mp hline,
      String.append_empty]
  · rw [front, fullLine, if_neg hline, if_neg hline]
    simp only [String.append_assoc]

theorem front_chars (level : Nat) (c : Comment) (line : String) :
    (indent level ++ "//").toList <+: (c.front level line).toList ∧
      ∀ x ∈ (c.front level line).toList, endsLine true x = false := by
  obtain ⟨hmarks, hmarker⟩ := c.marker_chars
  have hindent : ∀ x ∈ (indent level).toList, endsLine true x = false := by
    intro x hx
    rw [indent, String.toList_ofList] at hx
    rw [List.eq_of_mem_replicate hx]
    decide
  simp only [front, String.toList_append, List.prefix_append_right_inj, List.forall_mem_append]
  refine ⟨?_, hindent, ?_⟩
  · split
    · exact hmarks
    · rw [String.toList_append]
      exact hmarks.trans (List.prefix_append _ _)
  · split
    · exact hmarker
    · rw [String.toList_append]
      exact List.forall_mem_append.mpr ⟨hmarker, by simp [endsLine]⟩

theorem front_ne_nil (level : Nat) (c : Comment) (line : String) :
    (c.front level line).toList ≠ [] := by
  intro h
  have hmarks := (c.front_chars level line).1
  rw [h, List.prefix_nil, String.toList_append] at hmarks
  exact absurd (List.append_eq_nil_iff.mp hmarks).2 (by decide)

/-- Each line of the text begins a line of the program with what stands in front of it. Any
further ones are those that the line holds itself. -/
theorem programLines_line (level : Nat) (c : Comment) (line : String) :
    programLines (c.front level line ++ line).toList
      = ((c.front level line).toList ++ (programLines line.toList).headD [])
        :: (programLines line.toList).tail := by
  rw [String.toList_append]
  exact programLines_append (c.front_ne_nil level line) (c.front_chars level line).2 _

theorem programLines_render (level : Nat) (c : Comment) :
    programLines (c.render level).toList
      = (Text.lines c.text).flatMap fun line =>
          programLines (c.front level line ++ line).toList := by
  rw [render]
  have hlines : ∀ line ∈ Text.lines c.text, IsFlat line := isFlat_of_mem_lines
  generalize Text.lines c.text = lines at hlines
  induction lines with
  | nil => rfl
  | cons line lines ih =>
    obtain ⟨hline, hlines⟩ := List.forall_mem_cons.mp hlines
    have hfront : '\n' ∉ (c.front level line).toList := fun h =>
      absurd ((c.front_chars level line).2 _ h) (by decide)
    have hnone : '\n' ∉ (c.front level line ++ line).toList := by
      rw [String.toList_append, List.mem_append]
      exact not_or.mpr ⟨hfront, hline⟩
    have hne : (c.front level line ++ line).toList ≠ [] := by
      rw [String.toList_append]
      exact List.append_ne_nil_of_left_ne_nil (c.front_ne_nil level line) _
    rw [List.map_cons, String.join_cons, front_append, String.append_assoc, String.toList_append,
      List.flatMap_cons, ← ih hlines, ← programLines_append_lineFeed hne hnone]
    simp only [String.toList_append, List.append_assoc]
    rfl

/-- The lines of a comment are marked as comment exactly if those are that a line of its text
goes on with after a carriage return. -/
theorem marked_iff (level : Nat) (c : Comment) :
    (∀ line ∈ programLines (c.render level).toList, (indent level ++ "//").toList <+: line) ↔
      ∀ line ∈ Text.lines c.text, ∀ more ∈ (programLines line.toList).tail,
        (indent level ++ "//").toList <+: more := by
  simp only [programLines_render, List.forall_mem_flatMap, programLines_line,
    List.forall_mem_cons]
  constructor
  · intro h line hline
    exact (h line hline).2
  · intro h line hline
    exact ⟨(c.front_chars level line).1.trans (List.prefix_append _ _), h line hline⟩

end Comment

/-- User text stays in its literal or comment but for carriage returns. A literal reads back as
its text, and what follows it is left, exactly if the text has none. The lines of a comment are
marked as comment exactly if those are that a line of its text goes on with after one. -/
theorem userText_kept_iff (level : Nat) (t : String) (rest : List Char) (c : Comment) :
    readLiteral? (((Expr.string t).render level).toList ++ rest)
      = (if '\r' ∈ t.toList then none else some (t, rest)) ∧
    ((∀ line ∈ programLines (c.render level).toList, (indent level ++ "//").toList <+: line) ↔
      ∀ line ∈ Text.lines c.text, ∀ more ∈ (programLines line.toList).tail,
        (indent level ++ "//").toList <+: more) := by
  refine ⟨?_, c.marked_iff level⟩
  rw [Expr.render]
  exact readLiteral?_quoted t rest

theorem userText_lost_return :
    readLiteral? ((Expr.string "a\rb").render 0).toList = none ∧
      ¬∀ line ∈ programLines ((Comment.line "a\rb").render 0).toList, "//".toList <+: line := by
  decide

end EntityGen.Code
