import EntityGen.Proofs.Code.ThrowScan
import EntityGen.Proofs.Code.TypeNames

/-!
# Texts within a line

Where no name has a line feed, none of the pieces that a line is put together
from has one: a string literal escapes its own, and a comment is cut at them.
Where no name is empty, neither is a type, a literal or a word of a declaration.
-/

namespace EntityGen.Code

/-- The text ends no line. -/
def IsFlat (text : String) : Prop := '\n' ∉ text.toList

/-- The text is a piece of a line that is not empty. -/
def IsSolid (text : String) : Prop := text ≠ "" ∧ IsFlat text

instance : DecidablePred IsFlat := fun text => inferInstanceAs (Decidable ('\n' ∉ text.toList))

instance : DecidablePred IsSolid := fun _ => instDecidableAnd

variable {a b x : String}

theorem IsSolid.flat (h : IsSolid x) : IsFlat x := h.2

@[simp] theorem isFlat_append : IsFlat (a ++ b) ↔ IsFlat a ∧ IsFlat b := by
  simp [IsFlat, String.toList_append, not_or]

theorem IsSolid.append (ha : IsSolid a) (hb : IsFlat b) : IsSolid (a ++ b) :=
  ⟨fun h => ha.1 (String.append_eq_empty_iff.mp h).1, isFlat_append.mpr ⟨ha.2, hb⟩⟩

theorem IsFlat.append_solid (ha : IsFlat a) (hb : IsSolid b) : IsSolid (a ++ b) :=
  ⟨fun h => hb.1 (String.append_eq_empty_iff.mp h).2, isFlat_append.mpr ⟨ha, hb.2⟩⟩

theorem IsFlat.wordIf (condition : Bool) (h : IsFlat x) : IsFlat (wordIf condition x) := by
  cases condition with
  | false => exact (by decide : IsFlat "")
  | true => exact h

theorem isFlat_commaSeparated {texts : List String} :
    IsFlat (commaSeparated texts) ↔ ∀ x ∈ texts, IsFlat x := by
  induction texts with
  | nil => exact iff_of_true (by decide) nofun
  | cons x texts ih =>
    cases texts with
    | nil => simp [commaSeparated]
    | cons y texts =>
      rw [commaSeparated] at ih
      rw [commaSeparated, String.intercalate_cons_cons, List.forall_mem_cons, isFlat_append,
        isFlat_append, ih, and_iff_left (by decide : IsFlat ", ")]

theorem IsFlat.commaSeparated {texts : List String} (h : ∀ x ∈ texts, IsFlat x) :
    IsFlat (commaSeparated texts) :=
  isFlat_commaSeparated.mpr h

theorem IsFlat.commaSeparated_map {α : Type} {items : List α} {text : α → String}
    (h : ∀ a ∈ items, IsFlat (text a)) : IsFlat (Code.commaSeparated (items.map text)) :=
  commaSeparated (List.forall_mem_map.mpr h)

-- ---------------------------------------------------------------------------
-- Types
-- ---------------------------------------------------------------------------

namespace TypeName

theorem flat_applied {name : String} {arguments : List String} (hname : IsFlat name)
    (harguments : ∀ a ∈ arguments, IsFlat a) : IsFlat (applied name arguments) := by
  unfold applied
  split
  · exact hname
  · next key value =>
    obtain ⟨hkey, hvalue, -⟩ : IsFlat key ∧ IsFlat value ∧ True := by simpa using harguments
    split
    · simpa [hkey, hvalue, and_assoc] using (by decide : IsFlat "[" ∧ IsFlat ": " ∧ IsFlat "]")
    · simpa [hname, hkey, hvalue, and_assoc] using (by decide : IsFlat "<" ∧ IsFlat ", " ∧ IsFlat ">")
  · have hlist : IsFlat (", ".intercalate arguments) := IsFlat.commaSeparated harguments
    simpa [hname, hlist] using (by decide : IsFlat "<" ∧ IsFlat ">")

theorem applied_ne_empty {name : String} (hname : name ≠ "") (arguments : List String) :
    applied name arguments ≠ "" := by
  unfold applied
  split
  · exact hname
  · split <;> simp
  · simp

end TypeName

theorem Wrapper.flat_wrapAll (wrappers : List Wrapper) (h : IsFlat x) :
    IsFlat (wrappers.foldl Wrapper.wrap x) := by
  have hwrap (w : Wrapper) {x : String} (h : IsFlat x) : IsFlat (w.wrap x) := by
    cases w with
    | optional => exact isFlat_append.mpr ⟨h, by decide⟩
    | array => simpa [wrap, h] using (by decide : IsFlat "[" ∧ IsFlat "]")
  induction wrappers generalizing x with
  | nil => exact h
  | cons w wrappers ih => exact ih (hwrap w h)

theorem Wrapper.wrapAll_ne_empty (wrappers : List Wrapper) (h : x ≠ "") :
    wrappers.foldl Wrapper.wrap x ≠ "" := by
  induction wrappers generalizing x with
  | nil => exact h
  | cons w wrappers ih => exact ih (by cases w <;> simp [wrap])

mutual
theorem TypeName.flat_text (t : TypeName) (h : t.Each IsFlat) : IsFlat t.text := by
  match t with
  | .mk name parameters wrappers isMetatype =>
    obtain ⟨hname, hparameters⟩ := each_mk.mp h
    have hwrapped := Wrapper.flat_wrapAll wrappers
      (flat_applied hname (flat_texts parameters hparameters))
    rw [text]
    cases isMetatype with
    | false => exact hwrapped
    | true => exact isFlat_append.mpr ⟨hwrapped, by decide⟩

theorem TypeName.flat_texts (ts : List TypeName) (h : ∀ t ∈ ts, t.Each IsFlat) :
    ∀ x ∈ texts ts, IsFlat x := by
  match ts with
  | [] => exact nofun
  | t :: ts =>
    obtain ⟨ht, hts⟩ := List.forall_mem_cons.mp h
    exact List.forall_mem_cons.mpr ⟨TypeName.flat_text t ht, TypeName.flat_texts ts hts⟩
end

theorem TypeName.text_ne_empty {t : TypeName} (h : t.name ≠ "") : t.text ≠ "" := by
  obtain ⟨name, parameters, wrappers, isMetatype⟩ := t
  rw [text]
  cases isMetatype with
  | false => exact Wrapper.wrapAll_ne_empty wrappers (applied_ne_empty h _)
  | true => simp

theorem TypeName.solid_text (t : TypeName) (h : t.Each IsSolid) : IsSolid t.text :=
  ⟨text_ne_empty (each_iff.mp h).1.1, t.flat_text fun name hname => (h name hname).flat⟩

-- ---------------------------------------------------------------------------
-- Literals and comments
-- ---------------------------------------------------------------------------

theorem IsFlat.of_numeric (h : ∀ c ∈ x.toList, isNumeric c) : IsFlat x :=
  fun hc => absurd (h _ hc) (by decide)

theorem isSolid_repr (n : Nat) : IsSolid (Nat.repr n) :=
  ⟨by simp, .of_numeric fun _ hc => isNumeric_of_mem_repr hc⟩

theorem isSolid_int (n : Int) : IsSolid n.repr := by
  cases n with
  | ofNat n => exact isSolid_repr n
  | negSucc n => exact (by decide : IsSolid "-").append (isSolid_repr (n + 1)).flat

theorem IsSolid.signed (isNegative : Bool) (h : IsSolid x) :
    IsSolid (Decimal.signed isNegative x) := by
  cases isNegative with
  | false => exact h
  | true => exact (by decide : IsSolid "-").append h.flat

/-- A number below one has a zero before its point, and a whole number has as
many digits as stand before its point. -/
theorem isSolid_digits (d : Decimal.Digits) : IsSolid d.text := by
  refine ⟨?_, .of_numeric fun _ hc => isNumeric_of_mem_text hc⟩
  unfold Decimal.Digits.text
  dsimp only
  intro hempty
  split at hempty
  · simp at hempty
  · next hpositive =>
    split at hempty
    · next hlength =>
      obtain ⟨hdigits, hzeros⟩ : Decimal.trimmed (Nat.repr d.digits).toList = [] ∧
          Decimal.zeros (d.exponent.toNat - (Decimal.trimmed (Nat.repr d.digits).toList).length)
            = [] := by
        simpa using hempty
      rw [hdigits, Decimal.zeros, List.replicate_eq_nil_iff, List.length_nil] at hzeros
      omega
    · simp at hempty

theorem isSolid_float (x : Float) : IsSolid (Decimal.literalText x) := by
  unfold Decimal.literalText
  split
  · decide
  · exact .signed _ (by decide)
  · split
    · exact .signed _ ((isSolid_repr _).append (by decide))
    · exact .signed _ (isSolid_digits _)

theorem lineFeed_not_mem_escapeChar (c : Char) : '\n' ∉ escapeChar c := by
  unfold escapeChar
  split
  · decide
  · decide
  · decide
  · decide
  · next hfeed _ => simpa using Ne.symm hfeed

theorem isSolid_quoted (text : String) : IsSolid (quoted text) := by
  have hescaped : IsFlat (String.ofList (text.toList.flatMap escapeChar)) := by
    simp [IsFlat, lineFeed_not_mem_escapeChar]
  exact ((by decide : IsSolid "\"").append hescaped).append (by decide)

theorem lineFeed_not_mem_splitLines (cs : List Char) :
    ∀ line ∈ Text.splitLines cs, '\n' ∉ line := by
  fun_induction Text.splitLines cs with
  | case1 => simp
  | case2 rest ih => simpa using ih
  | case3 rest ih => simpa using ih
  | case4 c rest hc _ hnil ih => simpa using Ne.symm hc
  | case5 c rest hc _ line lines hcons ih =>
    rw [hcons] at ih
    obtain ⟨hline, hlines⟩ := List.forall_mem_cons.mp ih
    refine List.forall_mem_cons.mpr ⟨?_, hlines⟩
    simpa [hline] using Ne.symm hc

theorem isFlat_of_mem_lines {text : String} : ∀ line ∈ Text.lines text, IsFlat line := by
  intro line hline
  obtain ⟨chars, hchars, rfl⟩ := List.mem_map.mp hline
  rw [IsFlat, String.toList_ofList]
  exact lineFeed_not_mem_splitLines _ chars hchars

/-- The character ends a line: a line feed does, and a carriage return where those do as well. -/
def endsLine (returns : Bool) (c : Char) : Bool := c = '\n' || (returns && c = '\r')

theorem endsLine_of_strict {returns : Bool} {c : Char} (h : endsLine true c = false) :
    endsLine returns c = false := by
  cases returns with
  | true => exact h
  | false =>
    obtain ⟨hlineFeed, -⟩ : c ≠ '\n' ∧ c ≠ '\r' := by simpa [endsLine] using h
    simp [endsLine, hlineFeed]

theorem Comment.marker_chars (c : Comment) :
    "//".toList <+: c.marker.toList ∧ ∀ d ∈ c.marker.toList, endsLine true d = false := by
  cases c <;> simp [marker, endsLine]

theorem Comment.solid_marker (c : Comment) : IsSolid c.marker := by
  cases c <;> (rw [marker]; decide)

-- ---------------------------------------------------------------------------
-- Words of declarations
-- ---------------------------------------------------------------------------

theorem PrefixOp.solid_symbol (op : PrefixOp) : IsSolid op.symbol := by
  cases op <;> decide

theorem InfixOp.solid_symbol (op : InfixOp) : IsSolid op.symbol := by
  cases op <;> decide

theorem TypeKind.solid_keyword (kind : TypeKind) : IsSolid kind.keyword := by
  cases kind with
  | classType isFinal => cases isFinal <;> decide
  | enumType isIndirect => cases isIndirect <;> decide
  | structType | protocolType => decide

theorem Access.flat_render (a : Access) : IsFlat a.render := by
  cases a <;> decide

theorem isFlat_setterWord (access : Option Access) : IsFlat (setterWord access) := by
  cases access with
  | none => decide
  | some a => cases a <;> decide

theorem isFlat_labelText {label : Option String} (h : ∀ x ∈ label, IsFlat x) :
    IsFlat (labelText label) := by
  cases label with
  | none => exact (by decide : IsFlat "")
  | some x => exact isFlat_append.mpr ⟨h x rfl, by decide⟩

theorem IsSolid.declaredName (h : IsSolid x) : IsSolid (declaredName x) := by
  unfold Code.declaredName
  split
  · exact ((by decide : IsSolid "`").append h.flat).append (by decide)
  · exact h

theorem isSolid_closureHead {parameters : List String} (h : ∀ x ∈ parameters, IsFlat x) :
    IsSolid (closureHead parameters) := by
  unfold closureHead
  split
  · decide
  · have hlist := IsFlat.commaSeparated h
    exact ((by decide : IsSolid "\x7b ").append hlist).append (by decide)

section
variable {types : List TypeName}

theorem flat_typeTexts (h : ∀ t ∈ types, t.Each IsSolid) :
    IsFlat (commaSeparated (types.map TypeName.text)) :=
  .commaSeparated_map fun t ht => (t.solid_text (h t ht)).flat

theorem isFlat_inherited (h : ∀ t ∈ types, t.Each IsSolid) : IsFlat (renderInherited types) := by
  unfold renderInherited
  split
  · decide
  · exact isFlat_append.mpr ⟨by decide, flat_typeTexts h⟩

theorem isFlat_genericParameters (h : ∀ t ∈ types, t.Each IsSolid) :
    IsFlat (renderGenericParameters types) := by
  unfold renderGenericParameters
  split
  · decide
  · simpa [flat_typeTexts h] using (by decide : IsFlat "<" ∧ IsFlat ">")

theorem isFlat_associated (h : ∀ t ∈ types, t.Each IsSolid) : IsFlat (renderAssociated types) := by
  unfold renderAssociated
  split
  · decide
  · simpa [flat_typeTexts h] using (by decide : IsFlat "(" ∧ IsFlat ")")

end

theorem Constraint.flat_render {c : Constraint} (h : ∀ t ∈ c.types, t.Each IsSolid) :
    IsFlat c.render := by
  cases c with
  | conforms subject requirement | equals subject requirement =>
    obtain ⟨hsubject, hrequirement⟩ : subject.Each IsSolid ∧ requirement.Each IsSolid := by
      simpa [types] using h
    exact ((subject.solid_text hsubject).append (by decide)).append
      (requirement.solid_text hrequirement).flat |>.flat

theorem isFlat_constraints {constraints : List Constraint}
    (h : ∀ c ∈ constraints, ∀ t ∈ c.types, t.Each IsSolid) :
    IsFlat (renderConstraints constraints) := by
  unfold renderConstraints
  split
  · decide
  · have hlist : IsFlat (commaSeparated (constraints.map Constraint.render)) :=
      .commaSeparated_map fun c hc => Constraint.flat_render (h c hc)
    exact isFlat_append.mpr ⟨by decide, hlist⟩

theorem Variable.solid_render {v : Variable} (hname : IsSolid v.name)
    (htype : ∀ t ∈ v.type, t.Each IsSolid) : IsSolid v.render := by
  obtain ⟨name, type, isImmutable, isStatic, isLazy, isWeak⟩ := v
  have hwords : IsFlat (wordIf isStatic "static " ++ wordIf isLazy "lazy " ++ wordIf isWeak "weak "
      ++ if isImmutable then "let " else "var ") := by
    cases isStatic <;> cases isLazy <;> cases isWeak <;> cases isImmutable <;> decide
  unfold render
  refine (hwords.append_solid hname).append ?_
  cases type with
  | none => exact (by decide : IsFlat "")
  | some t => exact isFlat_append.mpr ⟨by decide, (t.solid_text (htype t rfl)).flat⟩

def FunctionKind.words : FunctionKind → List String
  | .named name => [name]
  | .operator symbol => [symbol]
  | .initializer .. | .subscript => []

theorem FunctionKind.solid_render {kind : FunctionKind} (h : ∀ x ∈ kind.words, IsSolid x) :
    IsSolid kind.render := by
  cases kind with
  | named name =>
    exact (by decide : IsSolid "func ").append (h name (by simp [words])).flat
  | operator symbol =>
    have hsymbol := (h symbol (by simp [words])).flat
    exact ((by decide : IsSolid "func ").append hsymbol).append (by decide)
  | initializer isConvenience isFailable => cases isConvenience <;> cases isFailable <;> decide
  | subscript => decide

-- ---------------------------------------------------------------------------
-- Well-named code
-- ---------------------------------------------------------------------------

def Parameter.words (p : Parameter) : List String := p.label.toList ++ [p.name]

def Condition.words : Condition → List String
  | .test _ => []
  | .binding name _ => [name]

def Pattern.words : Pattern → List String
  | .default | .value _ => []
  | .tag name => [name]
  | .bindings name bound => name :: bound

/-- The names, labels and bindings written in a part itself, not in the parts of it. -/
def Part.words : Part → List String
  | .expr (.name x) | .expr (.member _ x) => [x]
  | .expr (.closure parameters _) => parameters
  | .expr (.call _ arguments) | .expr (.tuple arguments) => arguments.flatMap (·.label.toList)
  | .item (.property decl) => [decl.var.name]
  | .item (.function f) => f.kind.words ++ f.parameters.flatMap Parameter.words
  | .item (.enumCase decl) => [decl.name]
  | .item (.branch conditions _ _) | .item (.guard conditions _) =>
    conditions.flatMap Condition.words
  | .item (.switch _ cases) => cases.flatMap (·.pattern.words)
  | _ => []

/-- No name, label, binding or type name in the part is empty or has a line feed. -/
def Part.WellNamed (part : Part) : Prop :=
  (∀ x ∈ part.words, IsSolid x) ∧ part.MentionsOnly IsSolid

abbrev Item.WellNamed (i : Item) : Prop := i.Each Part.WellNamed

end EntityGen.Code
