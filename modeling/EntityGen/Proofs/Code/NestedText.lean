import EntityGen.Proofs.Code.LineText
import EntityGen.Proofs.Text.Indentation
import Mathlib.Data.List.Forall2

/-!
# Texts of nested code

Code in a body is written as it is outside of it, one level deeper. The two
texts are read side by side, piece by piece, and the indentation of a line is
the only piece that differs: no expression begins a line with nothing, so a line
that is indented is not empty.
-/

namespace EntityGen.Code

open Text (deeper startsLine)

-- ---------------------------------------------------------------------------
-- Two texts side by side
-- ---------------------------------------------------------------------------

/-- Where a text has come to: to the start of a line, past the indentation of a
line that will not be empty, or past its first character. -/
inductive Place where
  | start
  | margin
  | inside

/-- The texts have come to the place, the second being the first one level deeper. -/
def Reached : Place → String → String → Prop
  | .start, a, b => startsLine true a.toList = true ∧ b.toList = deeper true a.toList
  | .inside, a, b => startsLine true a.toList = false ∧ b.toList = deeper true a.toList
  | .margin, a, b =>
    (startsLine true a.toList = false ∧ b.toList = deeper true a.toList) ∨
      (startsLine true a.toList = true ∧ b.toList = deeper true a.toList ++ "    ".toList)

/-- After texts at the one place, these two lead to the other. -/
def Nests (p q : Place) (x y : String) : Prop :=
  ∀ a b, Reached p a b → Reached q (a ++ x) (b ++ y)

namespace Nests

variable {p q r : Place} {level : Nat} {x y x' y' : String}

theorem append (h : Nests p q x y) (h' : Nests q r x' y') : Nests p r (x ++ x') (y ++ y') := by
  intro a b hab
  rw [← String.append_assoc, ← String.append_assoc]
  exact h' _ _ (h _ _ hab)

theorem empty : Nests p p "" "" := by
  intro a b hab
  rwa [String.append_empty, String.append_empty]

theorem ofInside (h : Nests .margin q x y) : Nests .inside q x y :=
  fun a b hab => h a b (.inl hab)

theorem toMargin (h : Nests p .inside x y) : Nests p .margin x y :=
  fun a b hab => .inl (h a b hab)

theorem flat (h : IsFlat x) : Nests .inside .inside x x := by
  rintro a b ⟨hplace, hb⟩
  refine ⟨?_, ?_⟩
  · rw [String.toList_append, Text.startsLine_append, hplace]
    by_cases hx : x.toList = []
    · rw [hx]
      rfl
    · exact Text.startsLine_of_not_mem h hx
  · rw [String.toList_append, String.toList_append, Text.deeper_append, hplace, hb,
      Text.deeper_inside h]

theorem solid (h : IsSolid x) : Nests .margin .inside x x := by
  rintro a b (hinside | ⟨hplace, hb⟩)
  · exact flat h.flat a b hinside
  · have hne : x.toList ≠ [] := fun hx => h.1 (String.toList_eq_nil_iff.mp hx)
    refine ⟨?_, ?_⟩
    · rw [String.toList_append, Text.startsLine_append]
      exact Text.startsLine_of_not_mem h.flat hne
    · rw [String.toList_append, String.toList_append, Text.deeper_append, hplace, hb,
        Text.deeper_start h.flat hne, List.append_assoc]

theorem flatMargin (h : IsFlat x) : Nests .margin .margin x x := by
  by_cases hx : x = ""
  · rw [hx]
    exact empty
  · exact toMargin (solid ⟨hx, h⟩)

theorem lineFeed : Nests .inside .start "\n" "\n" := by
  rintro a b ⟨hplace, hb⟩
  rw [Reached, String.toList_append, String.toList_append, Text.deeper_append,
    Text.startsLine_append, hplace, hb]
  exact ⟨rfl, rfl⟩

theorem wordIf (condition : Bool) (h : Nests p p x y) :
    Nests p p (wordIf condition x) (Code.wordIf condition y) := by
  cases condition with
  | false => exact empty
  | true => exact h

theorem blank : Nests .start .start "\n" "\n" := by
  rintro a b ⟨hplace, hb⟩
  rw [Reached, String.toList_append, String.toList_append, Text.deeper_append,
    Text.startsLine_append, hplace, hb]
  exact ⟨rfl, rfl⟩

theorem spaces : Nests .start .margin "" "    " := by
  rintro a b ⟨hplace, hb⟩
  rw [String.append_empty]
  exact .inr ⟨hplace, by rw [String.toList_append, hb]⟩

-- ---------------------------------------------------------------------------
-- Lines
-- ---------------------------------------------------------------------------

theorem indent (level : Nat) : Nests .start .margin (indent level) (Code.indent (level + 1)) := by
  have hflat : IsFlat (Code.indent level) := by simp [IsFlat, Code.indent]
  have hspaces : "    " ++ Code.indent level = Code.indent (level + 1) := by
    rw [Code.indent, Code.indent, Nat.mul_succ, Nat.add_comm (4 * level),
      ← List.replicate_append_replicate, String.ofList_append]
    rfl
  rw [← hspaces]
  simpa using spaces.append (flatMargin hflat)

theorem fullLine (h : Nests .margin .inside x y) (level : Nat) :
    Nests .start .start (fullLine level x) (Code.fullLine (level + 1) y) :=
  ((indent level).append h).append lineFeed

theorem solidLine (h : IsSolid x) (level : Nat) :
    Nests .start .start (Code.fullLine level x) (Code.fullLine (level + 1) x) :=
  fullLine (solid h) level

theorem braced (isEmpty : Bool) (h : Nests .start .start x y) :
    Nests .inside .start (braced level isEmpty x) (Code.braced (level + 1) isEmpty y) := by
  have hempty : Nests .inside .start (" \x7b\x7d" ++ "\n") (" \x7b\x7d" ++ "\n") :=
    (flat (by decide)).append lineFeed
  have hopen : Nests .inside .start (" \x7b" ++ "\n") (" \x7b" ++ "\n") :=
    (flat (by decide)).append lineFeed
  cases isEmpty with
  | true => exact hempty
  | false => exact (hopen.append h).append (solidLine (by decide) level)

theorem openingLine (h : Nests .margin .inside x y) (level : Nat) :
    Nests .start .start (Code.fullLine level (x ++ " \x7b"))
      (Code.fullLine (level + 1) (y ++ " \x7b")) :=
  fullLine (h.append (flat (by decide))) level

-- ---------------------------------------------------------------------------
-- Pieces of expressions
-- ---------------------------------------------------------------------------

theorem parenthesizedIf (condition : Bool) (h : Nests .margin .inside x y) :
    Nests .margin .inside (parenthesizedIf condition x) (Code.parenthesizedIf condition y) := by
  cases condition with
  | false => exact h
  | true => exact ((solid (by decide)).append h.ofInside).append (flat (by decide))

variable {xs ys : List String}

theorem commaSeparated (h : List.Forall₂ (Nests .margin .inside) xs ys) :
    Nests .inside .inside (commaSeparated xs) (Code.commaSeparated ys) := by
  induction h with
  | nil => exact empty
  | @cons x y xs ys hxy hall ih =>
    cases hall with
    | nil => simpa [Code.commaSeparated] using hxy.ofInside
    | cons _ _ =>
      rw [Code.commaSeparated, Code.commaSeparated, String.intercalate_cons_cons,
        String.intercalate_cons_cons]
      exact (hxy.ofInside.append (flat (by decide))).append ih

theorem bracketed (hx : IsSolid x) (h : List.Forall₂ (Nests .margin .inside) xs ys)
    (hy : IsFlat y) :
    Nests .margin .inside (x ++ Code.commaSeparated xs ++ y) (x ++ Code.commaSeparated ys ++ y) :=
  ((solid hx).append (commaSeparated h)).append (flat hy)

theorem closureLines (h : Nests .start .start x y) :
    Nests .inside .inside (closureLines level x) (Code.closureLines (level + 1) y) :=
  ((lineFeed.append h).append (indent level)).append (solid (by decide))

theorem getLastD (h : List.Forall₂ (Nests p q) xs ys) (h' : Nests p q x y) :
    Nests p q (xs.getLastD x) (ys.getLastD y) := by
  induction h generalizing x y with
  | nil => exact h'
  | cons hxy _ ih =>
    rw [List.getLastD_cons, List.getLastD_cons]
    exact ih hxy

theorem callTail (endsInClosure : Bool) (h : List.Forall₂ (Nests .margin .inside) xs ys) :
    Nests .inside .inside (callTail endsInClosure xs) (Code.callTail endsInClosure ys) := by
  have hfirst : List.Forall₂ (Nests .margin .inside) xs.dropLast ys.dropLast := by
    rw [List.dropLast_eq_take, List.dropLast_eq_take, h.length_eq]
    exact List.forall₂_take _ h
  have hlast : Nests .inside .inside (xs.getLastD "") (ys.getLastD "") :=
    getLastD (h.imp fun _ _ hxy => hxy.ofInside) empty
  have hempty {xs ys : List String} (h : List.Forall₂ (Nests .margin .inside) xs ys) :
      xs.isEmpty = ys.isEmpty := by
    cases h <;> rfl
  cases endsInClosure with
  | false => exact (bracketed (by decide) h (by decide)).ofInside
  | true =>
    refine (append ?_ (flat (by decide : IsFlat " "))).append hlast
    rw [hempty hfirst]
    split
    · exact empty
    · exact (bracketed (by decide) hfirst (by decide)).ofInside

theorem join {xs ys : List String} (h : List.Forall₂ (Nests p p) xs ys) :
    Nests p p (String.join xs) (String.join ys) := by
  induction h with
  | nil => exact empty
  | cons hxy _ ih =>
    rw [String.join_cons, String.join_cons]
    exact hxy.append ih

theorem comment (c : Comment) : Nests .start .start (c.render level) (c.render (level + 1)) := by
  refine join ?_
  rw [List.forall₂_map_left_iff, List.forall₂_map_right_iff, List.forall₂_same]
  intro line hline
  refine solidLine ?_ level
  split
  · exact c.solid_marker
  · exact (c.solid_marker.append (by decide)).append (isFlat_of_mem_lines line hline)

end Nests

-- ---------------------------------------------------------------------------
-- Expressions and items
-- ---------------------------------------------------------------------------

abbrev Expr.NestsAt (e : Expr) (level : Nat) : Prop :=
  Nests .margin .inside (e.render level) (e.render (level + 1))

abbrev Item.NestsAt (i : Item) (level : Nat) : Prop :=
  Nests .start .start (i.render level) (i.render (level + 1))

abbrev Item.AllNestAt (items : List Item) (level : Nat) : Prop :=
  Nests .start .start (Item.renderAll level items) (Item.renderAll (level + 1) items)

abbrev TextsNest (xs ys : List String) : Prop := List.Forall₂ (Nests .margin .inside) xs ys

section
variable {level : Nat}

namespace Expr

variable {base operand left right value : Expr}

theorem nests_array {elements : List Expr}
    (h : TextsNest (renderAll level elements) (renderAll (level + 1) elements)) :
    (array elements).NestsAt level := by
  simp only [NestsAt, render]
  exact .bracketed (by decide) h (by decide)

theorem nests_dictionary {entries : List Entry}
    (h : TextsNest (Entry.renderAll level entries) (Entry.renderAll (level + 1) entries)) :
    (dictionary entries).NestsAt level := by
  cases entries with
  | nil =>
    simp only [NestsAt, render]
    exact .solid (by decide)
  | cons a entries =>
    simp only [NestsAt, render]
    exact .bracketed (by decide) h (by decide)

theorem nests_closure {parameters : List String} {body : List Item}
    (hparameters : ∀ x ∈ parameters, IsSolid x)
    (hbody : Nests .inside .inside (Item.renderClosure level body)
      (Item.renderClosure (level + 1) body)) : (closure parameters body).NestsAt level := by
  simp only [NestsAt, render]
  exact (Nests.solid (isSolid_closureHead fun x hx => (hparameters x hx).flat)).append hbody

theorem nests_member {x : String} (h : base.NestsAt level) (hx : IsSolid x) :
    (member base x).NestsAt level := by
  simp only [NestsAt, render]
  exact ((h.parenthesizedIf _).append (.flat (by decide))).append (.flat hx.flat)

theorem nests_call {callee : Expr} {arguments : List Argument} (h : callee.NestsAt level)
    (harguments : TextsNest (Argument.renderAll level arguments)
      (Argument.renderAll (level + 1) arguments)) : (call callee arguments).NestsAt level := by
  simp only [NestsAt, render]
  exact (h.parenthesizedIf _).append (.callTail _ harguments)

theorem nests_index {position : Expr} (h : base.NestsAt level)
    (hposition : position.NestsAt level) : (index base position).NestsAt level := by
  simp only [NestsAt, render]
  exact (((h.parenthesizedIf _).append (.flat (by decide))).append hposition.ofInside).append
    (.flat (by decide))

theorem nests_prefixed {op : PrefixOp} (h : operand.NestsAt level) :
    (prefixed op operand).NestsAt level := by
  simp only [NestsAt, render]
  exact (Nests.solid op.solid_symbol).append (h.parenthesizedIf _).ofInside

theorem nests_infixed {op : InfixOp} (hleft : left.NestsAt level) (hright : right.NestsAt level) :
    (infixed left op right).NestsAt level := by
  simp only [NestsAt, render]
  have hspace := (hleft.parenthesizedIf left.needsParensAsOperand).append
    (.flat (by decide : IsFlat " "))
  have hop := (hspace.append (.flat op.solid_symbol.flat)).append (.flat (by decide : IsFlat " "))
  exact hop.append (hright.parenthesizedIf _).ofInside

theorem nests_optionalChain (h : base.NestsAt level) : (optionalChain base).NestsAt level := by
  simp only [NestsAt, render]
  exact (h.parenthesizedIf _).append (.flat (by decide))

theorem nests_forceUnwrap (h : base.NestsAt level) : (forceUnwrap base).NestsAt level := by
  simp only [NestsAt, render]
  exact (h.parenthesizedIf _).append (.flat (by decide))

theorem nests_tuple {elements : List Argument}
    (h : TextsNest (Argument.renderAll level elements) (Argument.renderAll (level + 1) elements)) :
    (tuple elements).NestsAt level := by
  simp only [NestsAt, render]
  exact .bracketed (by decide) h (by decide)

end Expr

namespace Item

theorem nests_typeAlias {decl : TypeAlias} (hname : IsSolid decl.name.text)
    (hvalue : IsSolid decl.value.text) : (typeAlias decl).NestsAt level := by
  simp only [NestsAt, render]
  have hword := decl.access.flat_render.append_solid (by decide : IsSolid "typealias ")
  exact .solidLine (((hword.append hname.flat).append (by decide)).append hvalue.flat) level

theorem nests_branch {conditions : List Condition} {body : List Item}
    {orElse : Option (List Item)}
    (hconditions : TextsNest (Condition.renderAll level conditions)
      (Condition.renderAll (level + 1) conditions))
    (hbody : AllNestAt body (level + 1)) (horElse : ∀ items ∈ orElse, AllNestAt items (level + 1)) :
    (branch conditions body orElse).NestsAt level := by
  have hif := (Nests.solid (by decide : IsSolid "if ")).append (.commaSeparated hconditions)
  have hbranch := (hif.openingLine level).append hbody
  cases orElse with
  | none =>
    simp only [NestsAt, render]
    exact hbranch.append (.solidLine (by decide) level)
  | some items =>
    simp only [NestsAt, render]
    have helse := hbranch.append (.solidLine (by decide : IsSolid "\x7d else \x7b") level)
    exact (helse.append (horElse items rfl)).append (.solidLine (by decide) level)

theorem nests_guard {conditions : List Condition} {orElse : List Item}
    (hconditions : TextsNest (Condition.renderAll level conditions)
      (Condition.renderAll (level + 1) conditions))
    (horElse : Nests .inside .start (renderElse level orElse) (renderElse (level + 1) orElse)) :
    (guard conditions orElse).NestsAt level := by
  simp only [NestsAt, render]
  have hguard := (Nests.indent level).append (.solid (by decide : IsSolid "guard "))
  exact ((hguard.append (.commaSeparated hconditions)).append (.flat (by decide))).append horElse

theorem nests_switch {subject : Expr} {cases : List SwitchCase} (hsubject : subject.NestsAt level)
    (hcases : Nests .start .start (SwitchCase.renderAll level cases)
      (SwitchCase.renderAll (level + 1) cases)) : (switch subject cases).NestsAt level := by
  simp only [NestsAt, render]
  have hswitch := (Nests.solid (by decide : IsSolid "switch ")).append hsubject.ofInside
  exact ((hswitch.openingLine level).append hcases).append (.solidLine (by decide) level)

theorem nests_doCatch {body : List Item} {catches : List Catch}
    (hbody : AllNestAt body (level + 1))
    (hcatches : Nests .start .start (Catch.renderAll level catches)
      (Catch.renderAll (level + 1) catches)) : (doCatch body catches).NestsAt level := by
  simp only [NestsAt, render]
  have hdo := (Nests.solidLine (by decide : IsSolid "do \x7b") level).append hbody
  exact (hdo.append hcatches).append (.solidLine (by decide) level)

theorem nests_assign {target value : Expr} (htarget : target.NestsAt level)
    (hvalue : value.NestsAt level) : (assign target value).NestsAt level := by
  simp only [NestsAt, render]
  exact Nests.fullLine ((htarget.append (.flat (by decide))).append hvalue.ofInside) level

theorem nests_returns {value : Expr} (h : value.NestsAt level) :
    (returns (some value)).NestsAt level := by
  simp only [NestsAt, render]
  exact Nests.fullLine ((Nests.solid (by decide)).append h.ofInside) level

end Item

theorem TypeDecl.nests_body {decl : TypeDecl} (h : (Part.item (.type decl)).WellNamed)
    (hbody : Item.AllNestAt decl.body (level + 1)) :
    Nests .start .start (decl.render level) (decl.render (level + 1)) := by
  obtain ⟨-, htypes⟩ := h
  obtain ⟨hname, hinherited⟩ := List.forall_mem_cons.mp htypes
  obtain ⟨name, kind, access, inherited, body, isObjC⟩ := decl
  simp only [render]
  have hmark := (Nests.solidLine (by decide : IsSolid "@objc") level).wordIf isObjC
  have hkeyword := ((hmark.append (.indent level)).append (.flatMargin access.flat_render)).append
    (.solid kind.solid_keyword)
  have hnamed := (hkeyword.append (.flat (by decide : IsFlat " "))).append
    (.flat (name.solid_text hname).flat)
  exact (hnamed.append (.flat (isFlat_inherited hinherited))).append (.braced _ hbody)

theorem Extension.nests_body {decl : Extension} (h : (Part.item (.extension decl)).WellNamed)
    (hbody : Item.AllNestAt decl.body (level + 1)) :
    Nests .start .start (decl.render level) (decl.render (level + 1)) := by
  obtain ⟨-, htypes⟩ := h
  obtain ⟨hname, hrest⟩ := List.forall_mem_cons.mp htypes
  obtain ⟨hinherited, hconstraints⟩ := List.forall_mem_append.mp hrest
  rw [List.forall_mem_flatMap] at hconstraints
  obtain ⟨name, access, inherited, constraints, body⟩ := decl
  simp only [render]
  have hkeyword := ((Nests.indent level).append (.flatMargin access.flat_render)).append
    (.solid (by decide : IsSolid "extension "))
  have hnamed := (hkeyword.append (.flat (name.solid_text hname).flat)).append
    (.flat (isFlat_inherited hinherited))
  exact (hnamed.append (.flat (isFlat_constraints hconstraints))).append (.braced _ hbody)

theorem Property.nests_body {decl : Property} (h : (Part.item (.property decl)).WellNamed)
    (hvalue : ∀ value ∈ decl.value, value.NestsAt level)
    (hbody : ∀ body ∈ decl.body, Item.AllNestAt body (level + 1)) :
    Nests .start .start (decl.render level) (decl.render (level + 1)) := by
  obtain ⟨hwords, htypes⟩ := h
  have hvar : IsSolid decl.var.render :=
    Variable.solid_render (hwords decl.var.name (by simp [Part.words]))
      fun t ht => htypes t (by simpa [Part.types] using ht)
  obtain ⟨var, access, setterAccess, value, body, isObjC⟩ := decl
  unfold Property.render
  have hmark := (Nests.indent level).append
    (.wordIf isObjC (.flatMargin (by decide : IsFlat "@objc ")))
  have hvariable := ((hmark.append (.flatMargin access.flat_render)).append
    (.flatMargin (isFlat_setterWord setterAccess))).append (.solid hvar)
  refine Nests.append (q := .inside) (Nests.append (q := .inside) hvariable ?value) ?body
  case value =>
    cases value with
    | none => exact .empty
    | some value => exact (Nests.flat (by decide)).append (hvalue value rfl).ofInside
  case body =>
    cases body with
    | none => exact .lineFeed
    | some body => exact .braced _ (hbody body rfl)

theorem Parameter.nests_default {p : Parameter} (hwords : ∀ x ∈ p.words, IsSolid x)
    (htype : p.type.Each IsSolid) (hdefault : ∀ value ∈ p.default, value.NestsAt level) :
    Nests .margin .inside (p.render level) (p.render (level + 1)) := by
  obtain ⟨hlabel, hname⟩ := List.forall_mem_append.mp hwords
  rw [List.forall_mem_singleton] at hname
  obtain ⟨label, name, type, default, isInOut, isEscaping⟩ := p
  have hdeclared {first : String} (h : IsFlat first) : IsSolid (first ++ name ++ ": "
      ++ wordIf isInOut "inout " ++ wordIf isEscaping "@escaping " ++ type.text) := by
    have hcolon := (h.append_solid hname).append (by decide : IsFlat ": ")
    have hinOut := hcolon.append (.wordIf isInOut (by decide : IsFlat "inout "))
    have hescaping := hinOut.append (.wordIf isEscaping (by decide : IsFlat "@escaping "))
    exact hescaping.append (type.solid_text htype).flat
  unfold Parameter.render
  refine Nests.append (q := .inside) (.solid (hdeclared ?label)) ?default
  case label =>
    cases label with
    | none => exact (by decide : IsFlat "")
    | some label =>
      dsimp only
      split
      · exact (by decide : IsFlat "")
      · exact isFlat_append.mpr ⟨(hlabel label (by simp)).flat, by decide⟩
  case default =>
    cases default with
    | none => exact .empty
    | some value => exact (Nests.flat (by decide)).append (hdefault value rfl).ofInside

theorem Function.nests_body {f : Function} (h : (Part.item (.function f)).WellNamed)
    (hparameters : TextsNest (Parameter.renderAll level f.parameters)
      (Parameter.renderAll (level + 1) f.parameters))
    (hbody : Item.AllNestAt f.body (level + 1)) :
    Nests .start .start (f.render level) (f.render (level + 1)) := by
  obtain ⟨hwords, htypes⟩ := h
  obtain ⟨hkind, -⟩ := List.forall_mem_append.mp hwords
  obtain ⟨htypes, hresult⟩ := List.forall_mem_append.mp htypes
  obtain ⟨htypes, hconstraints⟩ := List.forall_mem_append.mp htypes
  obtain ⟨-, hgeneric⟩ := List.forall_mem_append.mp htypes
  rw [List.forall_mem_flatMap] at hconstraints
  obtain ⟨kind, access, parameters, genericParameters, constraints, isThrowing, isAsync, isStatic,
    isOverride, isMutating, hasDiscardableResult, result, body⟩ := f
  unfold Function.render
  have hmark := (Nests.solidLine (by decide : IsSolid "@discardableResult") level).wordIf
    hasDiscardableResult
  have haccess := (hmark.append (.indent level)).append (.flatMargin access.flat_render)
  have hoverride := haccess.append
    (.wordIf isOverride (.flatMargin (by decide : IsFlat "override ")))
  have hstatic := hoverride.append (.wordIf isStatic (.flatMargin (by decide : IsFlat "static ")))
  have hmutating := hstatic.append
    (.wordIf isMutating (.flatMargin (by decide : IsFlat "mutating ")))
  have hnamed := (hmutating.append (.solid (kind.solid_render hkind))).append
    (.flat (isFlat_genericParameters hgeneric))
  have hlist := ((hnamed.append (.flat (by decide : IsFlat "("))).append
    (.commaSeparated hparameters)).append (.flat (by decide : IsFlat ")"))
  have heffects := (hlist.append (.wordIf isAsync (.flat (by decide : IsFlat " async")))).append
    (.wordIf isThrowing (.flat (by decide : IsFlat " throws")))
  refine ((Nests.append (q := .inside) heffects (.flat ?result)).append
    (.flat (isFlat_constraints hconstraints))).append (.braced _ hbody)
  case result =>
    cases result with
    | none => exact (by decide : IsFlat "")
    | some type =>
      exact isFlat_append.mpr ⟨by decide, (type.solid_text (hresult type (by simp))).flat⟩

theorem EnumCase.nests_rawValue {decl : EnumCase} (h : (Part.item (.enumCase decl)).WellNamed)
    (hrawValue : ∀ value ∈ decl.rawValue, value.NestsAt level) :
    Nests .start .start (decl.render level) (decl.render (level + 1)) := by
  obtain ⟨hwords, hassociated⟩ := h
  have hname : IsSolid decl.name := hwords decl.name (by simp [Part.words])
  obtain ⟨name, associated, rawValue⟩ := decl
  unfold EnumCase.render
  have hcase := ((Nests.indent level).append (.solid (by decide : IsSolid "case "))).append
    (.flat hname.declaredName.flat)
  refine (hcase.append (.flat (isFlat_associated hassociated))).append ?_
  cases rawValue with
  | none => exact .lineFeed
  | some value =>
    exact ((Nests.flat (by decide)).append (hrawValue value rfl).ofInside).append .lineFeed

theorem Condition.nests_value {c : Condition} (hc : ∀ x ∈ c.words, IsSolid x)
    (hvalue : (match c with | .test value | .binding _ value => value).NestsAt level) :
    Nests .margin .inside (c.render level) (c.render (level + 1)) := by
  cases c with
  | test value =>
    simp only [render]
    exact hvalue
  | binding x value =>
    have hx : IsSolid x := hc x (List.mem_singleton_self x)
    simp only [render]
    have hlet := ((by decide : IsSolid "let ").append hx.flat).append (by decide : IsFlat " = ")
    exact (Nests.solid hlet).append hvalue.ofInside

theorem Pattern.nests_value {p : Pattern} (hp : ∀ x ∈ p.words, IsSolid x)
    (hvalue : ∀ value, p = .value value → value.NestsAt level) :
    Nests .margin .inside (p.render level) (p.render (level + 1)) := by
  cases p with
  | default =>
    simp only [render]
    exact .solid (by decide)
  | tag x =>
    have hx : IsSolid x := hp x (List.mem_singleton_self x)
    simp only [render]
    exact .solid (((by decide : IsSolid "case .").append hx.flat).append (by decide))
  | bindings x bound =>
    obtain ⟨hx, hbound⟩ := List.forall_mem_cons.mp hp
    have hlet : IsFlat (commaSeparated (bound.map fun v => "let " ++ v)) :=
      .commaSeparated_map fun v hv => isFlat_append.mpr ⟨by decide, (hbound v hv).flat⟩
    simp only [render]
    have hcase := ((by decide : IsSolid "case .").append hx.flat).append (by decide : IsFlat "(")
    exact .solid ((hcase.append hlet).append (by decide))
  | value value =>
    simp only [render]
    exact ((Nests.solid (by decide)).append (hvalue value rfl).ofInside).append (.flat (by decide))

theorem SwitchCase.nests_body {pattern : Pattern} {body : List Item} {cases : List SwitchCase}
    (hpattern : Nests .margin .inside (pattern.render level) (pattern.render (level + 1)))
    (hbody : Item.AllNestAt body (level + 1))
    (hcases : Nests .start .start (renderAll level cases) (renderAll (level + 1) cases)) :
    Nests .start .start (renderAll level ({ pattern, body } :: cases))
      (renderAll (level + 1) ({ pattern, body } :: cases)) := by
  simp only [renderAll]
  refine (Nests.append (q := .start) (hpattern.fullLine level) ?_).append hcases
  split
  · exact .solidLine (by decide) (level + 1)
  · exact hbody

theorem Catch.nests_body {pattern : Option Expr} {body : List Item} {catches : List Catch}
    (hpattern : ∀ e ∈ pattern, e.NestsAt level) (hbody : Item.AllNestAt body (level + 1))
    (hcatches : Nests .start .start (renderAll level catches) (renderAll (level + 1) catches)) :
    Nests .start .start (renderAll level ({ pattern, body } :: catches))
      (renderAll (level + 1) ({ pattern, body } :: catches)) := by
  unfold renderAll
  have hcatch := Nests.solid (by decide : IsSolid "\x7d catch")
  refine ((Nests.openingLine (hcatch.append ?_) level).append hbody).append hcatches
  cases pattern with
  | none => exact .empty
  | some e => exact (Nests.flat (by decide)).append (hpattern e rfl).ofInside

end

end EntityGen.Code
