import EntityGen.Proofs.Code.WrittenCode

/-!
# Balanced files

What is left of a file without its string literals and comments has balanced
parentheses, square brackets and braces. Literals and comments may hold
anything; a name or an operator has no bracket, no quote and no slash.
-/

namespace EntityGen.Code

-- ---------------------------------------------------------------------------
-- Literals and comments left out
-- ---------------------------------------------------------------------------

inductive Region where
  | code
  | literal
  | escaped
  | comment

/-- The text from a place on without literals and comments. A literal goes on to the next
quote without a backslash before it, a comment to the end of its line. -/
def stripped (returns : Bool) : Region → List Char → List Char
  | _, [] => []
  | .code, c :: rest =>
    if c = '"' then stripped returns .literal rest
    else if c = '/' ∧ rest.head? = some '/' then stripped returns .comment rest
    else c :: stripped returns .code rest
  | .literal, c :: rest =>
    if c = '"' then stripped returns .code rest
    else if c = '\\' then stripped returns .escaped rest
    else stripped returns .literal rest
  | .escaped, _ :: rest => stripped returns .literal rest
  | .comment, c :: rest =>
    if endsLine returns c then c :: stripped returns .code rest
    else stripped returns .comment rest

def Bracket.opened? : Char → Option Bracket
  | '(' => some .parenthesis
  | '[' => some .square
  | '\x7b' => some .brace
  | _ => none

def Bracket.closed? : Char → Option Bracket
  | ')' => some .parenthesis
  | ']' => some .square
  | '\x7d' => some .brace
  | _ => none

/-- The brackets that are open after the character, the innermost first. A bracket closes
the innermost only, and one of its own kind. -/
def bracketStep (stack : List Bracket) (c : Char) : Option (List Bracket) :=
  match Bracket.opened? c, Bracket.closed? c with
  | some b, _ => some (b :: stack)
  | none, some b => if stack.head? = some b then some stack.tail else none
  | none, none => some stack

/-- The brackets outside of literals and comments are nested, and all are closed. -/
def IsBalanced (returns : Bool) (text : String) : Prop :=
  (stripped returns .code text.toList).foldlM bracketStep [] = some []

section
variable {returns : Bool} {stack : List Bracket}

theorem bracketStep_of_not_mem {c : Char} (hc : c ∉ delimiters) :
    bracketStep stack c = some stack := by
  have hopened : Bracket.opened? c = none := by
    unfold Bracket.opened?
    split <;> simp [delimiters] at hc ⊢
  have hclosed : Bracket.closed? c = none := by
    unfold Bracket.closed?
    split <;> simp [delimiters] at hc ⊢
  simp only [bracketStep, hopened, hclosed]

theorem foldlM_stripped_plain {chars : List Char} (h : ∀ c ∈ chars, c ∉ delimiters)
    (rest : List Char) :
    (stripped returns .code (chars ++ rest)).foldlM bracketStep stack
      = (stripped returns .code rest).foldlM bracketStep stack := by
  induction chars with
  | nil => rfl
  | cons c chars ih =>
    obtain ⟨hc, hchars⟩ := List.forall_mem_cons.mp h
    have hquote : c ≠ '"' := by
      rintro rfl
      exact hc (by decide)
    have hslash : c ≠ '/' := by
      rintro rfl
      exact hc (by decide)
    simp [stripped, hquote, hslash, bracketStep_of_not_mem hc, ih hchars]

theorem stripped_escapeChar (c : Char) (rest : List Char) :
    stripped returns .literal (escapeChar c ++ rest) = stripped returns .literal rest := by
  fun_cases escapeChar c with
  | case5 c hquote hbackslash _ _ =>
    simp only [List.cons_append, List.nil_append, stripped, if_neg hquote, if_neg hbackslash]
  | _ => simp [stripped]

theorem stripped_quoted (text : String) (rest : List Char) :
    stripped returns .code ((quoted text).toList ++ rest) = stripped returns .code rest := by
  have hinside (chars : List Char) :
      stripped returns .literal (chars.flatMap escapeChar ++ '"' :: rest)
        = stripped returns .code rest := by
    induction chars with
    | nil => simp [stripped]
    | cons c chars ih => rw [List.flatMap_cons, List.append_assoc, stripped_escapeChar, ih]
  simp [quoted, stripped, hinside]

theorem stripped_comment {chars : List Char} (hmarks : "//".toList <+: chars)
    (h : ∀ c ∈ chars, endsLine returns c = false) (rest : List Char) :
    stripped returns .code (chars ++ '\n' :: rest) = '\n' :: stripped returns .code rest := by
  have hinside {chars : List Char} (h : ∀ c ∈ chars, endsLine returns c = false) :
      stripped returns .comment (chars ++ '\n' :: rest) = '\n' :: stripped returns .code rest := by
    induction chars with
    | nil => simp [stripped, endsLine]
    | cons c chars ih =>
      obtain ⟨hc, hchars⟩ := List.forall_mem_cons.mp h
      simp [stripped, hc, ih hchars]
  obtain ⟨chars, rfl⟩ := hmarks
  exact hinside (List.forall_mem_cons.mp h).2

/-- Text that is put together with paired brackets opens and closes what the pairs say,
whatever comes after it. -/
theorem Written.foldlM_stripped {before after : List Bracket} {x : String}
    (h : Written IsPlain returns before after x) (rest : List Char) :
    (stripped returns .code (x.toList ++ rest)).foldlM bracketStep before
      = (stripped returns .code rest).foldlM bracketStep after := by
  induction h generalizing rest with
  | plain hx => exact foldlM_stripped_plain hx rest
  | name hx => exact foldlM_stripped_plain hx rest
  | literal text => rw [stripped_quoted]
  | comment hmarks hends =>
    rw [String.toList_append, List.append_assoc]
    change (stripped returns .code (_ ++ '\n' :: rest)).foldlM bracketStep _ = _
    rw [stripped_comment hmarks hends]
    have hlineFeed : ∀ c ∈ ['\n'], c ∉ delimiters := List.forall_mem_singleton.mpr (by decide)
    exact foldlM_stripped_plain hlineFeed rest
  | opening b => cases b <;> simp [Bracket.opening, stripped, bracketStep, Bracket.opened?]
  | closing b =>
    cases b <;> simp [Bracket.closing, stripped, bracketStep, Bracket.opened?, Bracket.closed?]
  | append _ _ hx hy => rw [String.toList_append, List.append_assoc, hx, hy]

theorem Paired.isBalanced {x : String} (h : Paired IsPlain returns x) : IsBalanced returns x := by
  have hstripped := (h []).foldlM_stripped []
  rw [List.append_nil] at hstripped
  exact hstripped

end

-- ---------------------------------------------------------------------------
-- Files
-- ---------------------------------------------------------------------------

theorem isPlain_of_nameChars {x : String} (h : ∀ c ∈ x.toList, isNameChar c) : IsPlain x := by
  intro c hc hdelimiter
  have hname := h c hc
  simp only [delimiters, List.mem_cons, List.not_mem_nil, or_false] at hdelimiter
  rcases hdelimiter with rfl | rfl | rfl | rfl | rfl | rfl | rfl | rfl <;>
    exact absurd hname (by decide)

/-- No name, label, binding, operator or type name in the part has a delimiter. -/
def Part.PlainlyNamed (part : Part) : Prop :=
  (∀ x ∈ part.words, IsPlain x) ∧ part.MentionsOnly IsPlain

namespace SourceFile

/-- No name in the file has a delimiter. What literals and comments hold does not matter. -/
structure PlainlyNamed (file : SourceFile) : Prop where
  imports : ∀ m ∈ file.imports, IsPlain m
  testableImports : ∀ m ∈ file.testableImports, IsPlain m
  body : ∀ part ∈ Item.partsOf file.body, part.PlainlyNamed

def comments (file : SourceFile) : List Comment :=
  file.header ++ (Item.partsOf file.body).filterMap fun
    | .item (.comment c) => some c
    | _ => none

theorem paired_render {file : SourceFile} {returns : Bool} (h : file.PlainlyNamed)
    (hcomments : ∀ c ∈ file.comments, ∀ line ∈ Text.lines c.text,
      ∀ d ∈ line.toList, endsLine returns d = false) : Paired IsPlain returns file.render := by
  obtain ⟨hheader, hbody⟩ := List.forall_mem_append.mp hcomments
  have hlines : Paired IsPlain returns (String.join (file.header.map (Comment.render 0))) :=
    .join (List.forall_mem_map.mpr fun c hc => .comment (hheader c hc))
  have himport (word : String) (hword : IsPlain word) {modules : List String}
      (h : ∀ m ∈ modules, IsPlain m) : Paired IsPlain returns
        (String.join (modules.map fun m => fullLine 0 (word ++ m))) := by
    refine .join (List.forall_mem_map.mpr fun m hm => ?_)
    exact ((Paired.plain hword).append (.plain (h m hm))).fullLine 0
  have hbreak (condition : Bool) : Paired IsPlain returns (if condition then "" else "\n") := by
    cases condition with
    | false => exact .plain (by decide)
    | true => exact .empty
  have hwritable : ∀ part ∈ Item.partsOf file.body, part.Writable IsPlain returns := by
    intro part hpart
    obtain ⟨hwords, htypes⟩ := h.body part hpart
    refine ⟨hwords, fun t ht => t.paired_text (htypes t ht), ?_⟩
    rintro c rfl
    exact hbody c (List.mem_filterMap.mpr ⟨_, hpart, rfl⟩)
  have hitems := Item.paired_renderAll file.body (Item.forall_mem_partsOf.mp hwritable) 0
  have hfront := ((hlines.append (hbreak file.header.isEmpty)).append
    (himport "import " (by decide) h.imports)).append
    (himport "@testable import " (by decide) h.testableImports)
  exact (hfront.append (hbreak _)).append hitems

/-- Rendered files are balanced: without literals and comments every bracket is closed by its
own kind, the innermost first. Carriage returns may end lines as well, if no line of a comment
holds one. -/
theorem render_balanced {file : SourceFile} (h : file.PlainlyNamed) :
    IsBalanced false file.render ∧
      ((∀ c ∈ file.comments, ∀ line ∈ Text.lines c.text, '\r' ∉ line.toList) →
        IsBalanced true file.render) := by
  constructor
  · refine (paired_render h fun c _ line hline d hd => ?_).isBalanced
    have hlineFeed : d ≠ '\n' := ne_of_mem_of_not_mem hd (isFlat_of_mem_lines line hline)
    simpa [endsLine] using hlineFeed
  · intro hreturns
    refine (paired_render h fun c hc line hline d hd => ?_).isBalanced
    have hlineFeed : d ≠ '\n' := ne_of_mem_of_not_mem hd (isFlat_of_mem_lines line hline)
    have hreturn : d ≠ '\r' := ne_of_mem_of_not_mem hd (hreturns c hc line hline)
    simpa [endsLine] using ⟨hlineFeed, hreturn⟩

theorem render_balanced_closures : ∃ file : SourceFile, file.PlainlyNamed ∧
    file.render
      = "// Entries ) of \"this\n\nimport Foundation\n\n"
        ++ "let names: [String?] = entries.map(\")\\\"(\") \x7b $0.name \x7d\n" ∧
    IsBalanced false file.render ∧ IsBalanced true file.render := by
  let closure : Expr := .closure [] [.expr (.member (.name "$0") "name")]
  let file : SourceFile :=
    { name := "Names", header := [.line "Entries ) of \"this"], imports := ["Foundation"]
      body := [.property
        { var := { name := "names", type := some TypeName.string.optional.array }
          value := some (.call (.member (.name "entries") "map")
            [{ value := .string ")\"(" }, { value := closure }]) }] }
  have hnamed : file.PlainlyNamed := by
    refine ⟨?_, nofun, ?_⟩
    · exact List.forall_mem_singleton.mpr (isPlain_of_nameChars (by simp [isNameChar]))
    · simp [file, closure, Part.PlainlyNamed, Part.words, Part.MentionsOnly, Part.types,
        TypeName.string]
      decide
  have hreturns : ∀ c ∈ file.comments, ∀ line ∈ Text.lines c.text, '\r' ∉ line.toList := by
    simp [file, closure, comments]
    decide
  obtain ⟨hbalanced, hcomments⟩ := render_balanced hnamed
  exact ⟨file, hnamed, by decide +kernel, hbalanced, hcomments hreturns⟩

end SourceFile
end EntityGen.Code
