import EntityGen.Proofs.Code.LineText

/-!
# What text is made of

The text of code is put together from names, literals, comments, brackets and
pieces that have none of the characters of these. The brackets come in pairs:
whatever code is written, after its text those are open that were before it.
-/

namespace EntityGen.Code

-- ---------------------------------------------------------------------------
-- Pieces
-- ---------------------------------------------------------------------------

inductive Bracket where
  | parenthesis
  | square
  | brace
  deriving DecidableEq

def Bracket.opening : Bracket → String
  | .parenthesis => "("
  | .square => "["
  | .brace => "\x7b"

def Bracket.closing : Bracket → String
  | .parenthesis => ")"
  | .square => "]"
  | .brace => "\x7d"

def delimiters : List Char := ['(', ')', '[', ']', '\x7b', '\x7d', '"', '/']

def IsPlain (text : String) : Prop := ∀ c ∈ text.toList, c ∉ delimiters

instance : DecidablePred IsPlain := fun text => List.decidableBAll _ text.toList

/-- The text is put together from such pieces and leads from the one stack of open
brackets, the innermost first, to the other. -/
inductive Written (isName : String → Prop) (returns : Bool) :
    List Bracket → List Bracket → String → Prop
  | plain {stack : List Bracket} {x : String} (h : IsPlain x) : Written isName returns stack stack x
  | name {stack : List Bracket} {x : String} (h : isName x) : Written isName returns stack stack x
  | literal {stack : List Bracket} (text : String) :
      Written isName returns stack stack (quoted text)
  | comment {stack : List Bracket} {x : String} (hmarks : "//".toList <+: x.toList)
      (h : ∀ c ∈ x.toList, endsLine returns c = false) :
      Written isName returns stack stack (x ++ "\n")
  | opening {stack : List Bracket} (b : Bracket) :
      Written isName returns stack (b :: stack) b.opening
  | closing {stack : List Bracket} (b : Bracket) :
      Written isName returns (b :: stack) stack b.closing
  | append {first second third : List Bracket} {x y : String}
      (hx : Written isName returns first second x) (hy : Written isName returns second third y) :
      Written isName returns first third (x ++ y)

/-- In the text brackets are paired, whatever is open around it. -/
def Paired (isName : String → Prop) (returns : Bool) (text : String) : Prop :=
  ∀ stack, Written isName returns stack stack text

section
variable {isName : String → Prop} {returns : Bool} {stack : List Bracket} {level : Nat}
  {x y : String}

namespace Paired

theorem plain (h : IsPlain x) : Paired isName returns x := fun _ => .plain h

theorem name (h : isName x) : Paired isName returns x := fun _ => .name h

theorem empty : Paired isName returns "" := plain (by decide)

theorem append (hx : Paired isName returns x) (hy : Paired isName returns y) :
    Paired isName returns (x ++ y) := fun stack => (hx stack).append (hy stack)

theorem enclosed {a b : String} (ha : IsPlain a) (h : Paired isName returns x) (hb : IsPlain b) :
    Paired isName returns (a ++ x ++ b) :=
  ((plain ha).append h).append (plain hb)

theorem bracketed (b : Bracket) (h : Paired isName returns x) :
    Paired isName returns (b.opening ++ x ++ b.closing) := fun stack =>
  ((Written.opening b).append (h (b :: stack))).append (.closing b)

theorem wordIf (condition : Bool) (h : Paired isName returns x) :
    Paired isName returns (wordIf condition x) := by
  cases condition with
  | false => exact empty
  | true => exact h

theorem indent (level : Nat) : Paired isName returns (indent level) := by
  apply plain
  intro c hc
  rw [Code.indent, String.toList_ofList] at hc
  rw [List.eq_of_mem_replicate hc]
  decide

theorem fullLine (h : Paired isName returns x) (level : Nat) :
    Paired isName returns (fullLine level x) :=
  ((indent level).append h).append (plain (by decide))

theorem parenthesizedIf (condition : Bool) (h : Paired isName returns x) :
    Paired isName returns (parenthesizedIf condition x) := by
  cases condition with
  | false => exact h
  | true => exact bracketed .parenthesis h

theorem commaSeparated {texts : List String} (h : ∀ x ∈ texts, Paired isName returns x) :
    Paired isName returns (commaSeparated texts) := by
  induction texts with
  | nil => exact empty
  | cons x texts ih =>
    obtain ⟨hx, htexts⟩ := List.forall_mem_cons.mp h
    cases texts with
    | nil => simpa [Code.commaSeparated] using hx
    | cons y texts =>
      rw [Code.commaSeparated, String.intercalate_cons_cons]
      exact (hx.append (plain (by decide))).append (ih htexts)

theorem commaSeparated_map {α : Type} {items : List α} {text : α → String}
    (h : ∀ a ∈ items, Paired isName returns (text a)) :
    Paired isName returns (Code.commaSeparated (items.map text)) :=
  commaSeparated (List.forall_mem_map.mpr h)

theorem join {texts : List String} (h : ∀ x ∈ texts, Paired isName returns x) :
    Paired isName returns (String.join texts) := by
  induction texts with
  | nil => exact empty
  | cons x texts ih =>
    obtain ⟨hx, htexts⟩ := List.forall_mem_cons.mp h
    rw [String.join_cons]
    exact hx.append (ih htexts)

end Paired

-- ---------------------------------------------------------------------------
-- Bodies
-- ---------------------------------------------------------------------------

theorem Written.openingLine (h : Paired isName returns x) (level : Nat) :
    Written isName returns stack (.brace :: stack) (fullLine level (x ++ " \x7b")) := by
  have hopen : Written isName returns stack (.brace :: stack) (" " ++ "\x7b") :=
    (Paired.plain (by decide) stack).append (.opening .brace)
  exact ((Paired.indent level stack).append ((h stack).append hopen)).append (.plain (by decide))

theorem Written.closingLine (level : Nat) :
    Written isName returns (.brace :: stack) stack (fullLine level "\x7d") :=
  ((Paired.indent level (.brace :: stack)).append (.closing .brace)).append (.plain (by decide))

theorem Paired.braced (isEmpty : Bool) (h : Paired isName returns x) :
    Paired isName returns (braced level isEmpty x) := by
  intro stack
  have hopen : Written isName returns stack (.brace :: stack) (" " ++ "\x7b") :=
    (Paired.plain (by decide) stack).append (.opening .brace)
  cases isEmpty with
  | true => exact (hopen.append (.closing .brace)).append (.plain (by decide : IsPlain "\n"))
  | false =>
    have hstart := hopen.append (.plain (by decide : IsPlain "\n"))
    exact (hstart.append (h (.brace :: stack))).append (.closingLine level)

namespace Paired

-- ---------------------------------------------------------------------------
-- Literals and comments
-- ---------------------------------------------------------------------------

theorem numeric (h : ∀ c ∈ x.toList, isNumeric c) : Paired isName returns x := by
  apply plain
  intro c hc hbracket
  have hnumeric := h c hc
  simp only [delimiters, List.mem_cons, List.not_mem_nil, or_false] at hbracket
  rcases hbracket with rfl | rfl | rfl | rfl | rfl | rfl | rfl | rfl <;>
    exact absurd hnumeric (by decide)

theorem signed (isNegative : Bool) (h : Paired isName returns x) :
    Paired isName returns (Decimal.signed isNegative x) := by
  cases isNegative with
  | false => exact h
  | true => exact (plain (by decide)).append h

theorem float (x : Float) : Paired isName returns (Decimal.literalText x) := by
  unfold Decimal.literalText
  split
  · exact plain (by decide)
  · exact signed _ (plain (by decide))
  · split
    · exact signed _ ((numeric fun _ hc => isNumeric_of_mem_repr hc).append (plain (by decide)))
    · exact signed _ (numeric fun _ hc => isNumeric_of_mem_text hc)

theorem comment {c : Comment}
    (h : ∀ line ∈ Text.lines c.text, ∀ d ∈ line.toList, endsLine returns d = false) :
    Paired isName returns (c.render level) := by
  refine join fun x hx => ?_
  obtain ⟨line, hline, rfl⟩ := List.mem_map.mp hx
  obtain ⟨hmarks, hmarker⟩ := c.marker_chars
  have hends : ∀ d ∈ c.marker.toList, endsLine returns d = false := fun d hd =>
    endsLine_of_strict (hmarker d hd)
  intro stack
  rw [Code.fullLine, String.append_assoc]
  refine (indent level stack).append ?_
  split
  · exact .comment hmarks hends
  · refine .comment ?_ ?_
    · simp only [String.toList_append, List.append_assoc]
      exact hmarks.trans (List.prefix_append _ _)
    · simp only [String.toList_append, List.forall_mem_append]
      exact ⟨⟨hends, by simp [endsLine]⟩, h line hline⟩

-- ---------------------------------------------------------------------------
-- Types
-- ---------------------------------------------------------------------------

theorem applied {name : String} {arguments : List String} (hname : isName name)
    (h : ∀ a ∈ arguments, Paired isName returns a) :
    Paired isName returns (TypeName.applied name arguments) := by
  have hopen : Paired isName returns (name ++ "<") := (Paired.name hname).append (plain (by decide))
  unfold TypeName.applied
  split
  · exact .name hname
  · next key value =>
    obtain ⟨hkey, hvalue, -⟩ :
        Paired isName returns key ∧ Paired isName returns value ∧ True := by simpa using h
    split
    · have hpair := (hkey.append (plain (by decide : IsPlain ": "))).append hvalue
      have hbrackets : Paired isName returns ("[" ++ (key ++ ": " ++ value) ++ "]") :=
        bracketed .square hpair
      simpa only [String.append_assoc] using hbrackets
    · have hpair := ((hopen.append hkey).append (plain (by decide : IsPlain ", "))).append hvalue
      exact hpair.append (plain (by decide))
  · exact (hopen.append (.commaSeparated h)).append (plain (by decide))

theorem wrapped (wrappers : List Wrapper) (h : Paired isName returns x) :
    Paired isName returns (wrappers.foldl Wrapper.wrap x) := by
  induction wrappers generalizing x with
  | nil => exact h
  | cons w wrappers ih =>
    apply ih
    cases w with
    | optional => exact h.append (plain (by decide))
    | array => exact bracketed .square h

end Paired

mutual
theorem TypeName.paired_text (t : TypeName) (h : t.Each isName) : Paired isName returns t.text := by
  match t with
  | .mk name parameters wrappers isMetatype =>
    obtain ⟨hname, hparameters⟩ := each_mk.mp h
    have hwrapped := Paired.wrapped wrappers
      (Paired.applied hname (TypeName.paired_texts parameters hparameters))
    rw [text]
    cases isMetatype with
    | false => exact hwrapped
    | true => exact hwrapped.append (.plain (by decide))

theorem TypeName.paired_texts (ts : List TypeName) (h : ∀ t ∈ ts, t.Each isName) :
    ∀ x ∈ texts ts, Paired isName returns x := by
  match ts with
  | [] => exact nofun
  | t :: ts =>
    obtain ⟨ht, hts⟩ := List.forall_mem_cons.mp h
    exact List.forall_mem_cons.mpr ⟨TypeName.paired_text t ht, TypeName.paired_texts ts hts⟩
end

-- ---------------------------------------------------------------------------
-- Words of declarations
-- ---------------------------------------------------------------------------

theorem PrefixOp.plain_symbol (op : PrefixOp) : IsPlain op.symbol := by
  cases op <;> decide

theorem InfixOp.plain_symbol (op : InfixOp) : IsPlain op.symbol := by
  cases op <;> decide

theorem TypeKind.plain_keyword (kind : TypeKind) : IsPlain kind.keyword := by
  cases kind with
  | classType isFinal => cases isFinal <;> decide
  | enumType isIndirect => cases isIndirect <;> decide
  | structType | protocolType => decide

theorem Access.plain_render (a : Access) : IsPlain a.render := by
  cases a <;> decide

theorem Paired.setterWord (access : Option Access) :
    Paired isName returns (setterWord access) := by
  have hset : Paired isName returns ("(" ++ "set" ++ ")" ++ " ") :=
    (bracketed .parenthesis (plain (by decide))).append (plain (by decide))
  unfold Code.setterWord
  split
  · exact empty
  · next keyword hkeyword =>
    have hplain : IsPlain keyword := by
      obtain ⟨a, -, ha⟩ := Option.bind_eq_some_iff.mp hkeyword
      cases a <;> cases ha <;> decide
    exact (plain hplain).append hset

namespace Paired

variable {types : List TypeName}

theorem inherited (h : ∀ t ∈ types, Paired isName returns t.text) :
    Paired isName returns (renderInherited types) := by
  unfold renderInherited
  split
  · exact empty
  · exact (plain (by decide)).append (commaSeparated_map h)

theorem genericParameters (h : ∀ t ∈ types, Paired isName returns t.text) :
    Paired isName returns (renderGenericParameters types) := by
  unfold renderGenericParameters
  split
  · exact empty
  · exact enclosed (by decide) (commaSeparated_map h) (by decide)

theorem associated (h : ∀ t ∈ types, Paired isName returns t.text) :
    Paired isName returns (renderAssociated types) := by
  unfold renderAssociated
  split
  · exact empty
  · exact bracketed .parenthesis (commaSeparated_map h)

theorem constraint {c : Constraint} (h : ∀ t ∈ c.types, Paired isName returns t.text) :
    Paired isName returns c.render := by
  cases c with
  | conforms subject requirement | equals subject requirement =>
    obtain ⟨hsubject, hrequirement⟩ :
        Paired isName returns subject.text ∧ Paired isName returns requirement.text := by
      simpa [Constraint.types] using h
    exact (hsubject.append (plain (by decide))).append hrequirement

theorem constraints {constraints : List Constraint}
    (h : ∀ c ∈ constraints, ∀ t ∈ c.types, Paired isName returns t.text) :
    Paired isName returns (renderConstraints constraints) := by
  unfold renderConstraints
  split
  · exact empty
  · exact (plain (by decide)).append (commaSeparated_map fun c hc => constraint (h c hc))

theorem declaredName (h : isName x) : Paired isName returns (declaredName x) := by
  unfold Code.declaredName
  split
  · exact enclosed (by decide) (.name h) (by decide)
  · exact .name h

theorem labelText {label : Option String} (h : ∀ x ∈ label.toList, isName x) :
    Paired isName returns (labelText label) := by
  cases label with
  | none => exact empty
  | some x => exact (name (h x (by simp))).append (plain (by decide))

theorem closureHead {parameters : List String} (h : ∀ x ∈ parameters, isName x) :
    ∃ rest, closureHead parameters = "\x7b" ++ rest ∧ Paired isName returns rest := by
  unfold Code.closureHead
  split
  · exact ⟨"", rfl, empty⟩
  · have hparameters : Paired isName returns (Code.commaSeparated parameters) :=
      commaSeparated fun x hx => name (h x hx)
    exact ⟨_, rfl, enclosed (a := " ") (by decide) hparameters (by decide)⟩

theorem callTail {texts : List String} (endsInClosure : Bool)
    (h : ∀ x ∈ texts, Paired isName returns x) :
    Paired isName returns (callTail endsInClosure texts) := by
  have hlast : Paired isName returns (texts.getLastD "") := by
    rw [List.getLastD_eq_getLast?]
    cases hx : texts.getLast? with
    | none => exact empty
    | some x => exact h x (List.mem_of_getLast? hx)
  have hfirst : ∀ x ∈ texts.dropLast, Paired isName returns x := fun x hx =>
    h x (List.dropLast_subset _ hx)
  unfold Code.callTail
  split
  · refine append (append ?_ (plain (by decide))) hlast
    split
    · exact empty
    · exact bracketed .parenthesis (commaSeparated hfirst)
  · exact bracketed .parenthesis (commaSeparated h)

theorem declaredVariable {v : Variable} (hname : isName v.name)
    (htype : ∀ t ∈ v.type, Paired isName returns t.text) : Paired isName returns v.render := by
  obtain ⟨name, type, isImmutable, isStatic, isLazy, isWeak⟩ := v
  have hwords : IsPlain (Code.wordIf isStatic "static " ++ Code.wordIf isLazy "lazy "
      ++ Code.wordIf isWeak "weak " ++ if isImmutable then "let " else "var ") := by
    cases isStatic <;> cases isLazy <;> cases isWeak <;> cases isImmutable <;> decide
  unfold Variable.render
  refine ((plain hwords).append (.name hname)).append ?_
  cases type with
  | none => exact empty
  | some t => exact (plain (by decide)).append (htype t rfl)

theorem functionKind {kind : FunctionKind} (h : ∀ x ∈ kind.words, isName x) :
    Paired isName returns kind.render := by
  cases kind with
  | named x => exact (plain (by decide)).append (name (h x (List.mem_singleton_self x)))
  | operator x => exact enclosed (by decide) (name (h x (List.mem_singleton_self x))) (by decide)
  | initializer isConvenience isFailable =>
    cases isConvenience <;> cases isFailable <;> exact plain (by decide)
  | subscript => exact plain (by decide)

end Paired

end

end EntityGen.Code
