import EntityGen.Proofs.Code.WrittenText

/-!
# Brackets in code

In the text of every expression and every item brackets are paired, if its
names are names, whatever literals and comments hold.
-/

namespace EntityGen.Code

/-- The names in a part are names, in its types brackets are paired, and in a comment
no line of a program ends that is no line of the comment. -/
structure Part.Writable (isName : String → Prop) (returns : Bool) (part : Part) : Prop where
  words : ∀ x ∈ part.words, isName x
  types : ∀ t ∈ part.types, Paired isName returns t.text
  comment : ∀ c, part = .item (.comment c) →
    ∀ line ∈ Text.lines c.text, ∀ d ∈ line.toList, endsLine returns d = false

-- ---------------------------------------------------------------------------
-- Expressions and items
-- ---------------------------------------------------------------------------

section
variable {isName : String → Prop} {returns : Bool} {stack : List Bracket} {level : Nat}

namespace Expr

theorem paired_array {elements : List Expr}
    (h : ∀ x ∈ renderAll level elements, Paired isName returns x) :
    Paired isName returns ((array elements).render level) := by
  rw [render]
  exact .bracketed .square (.commaSeparated h)

theorem paired_dictionary {entries : List Entry}
    (h : ∀ x ∈ Entry.renderAll level entries, Paired isName returns x) :
    Paired isName returns ((dictionary entries).render level) := by
  cases entries with
  | nil =>
    rw [render]
    exact .bracketed .square (.plain (by decide : IsPlain ":"))
  | cons a entries =>
    rw [render]
    · exact .bracketed .square (.commaSeparated h)
    · exact List.cons_ne_nil a entries

theorem paired_closure {parameters : List String} {body : List Item}
    (hparameters : ∀ x ∈ parameters, isName x)
    (hbody : ∃ inner, Item.renderClosure level body = inner ++ "\x7d" ∧
      Paired isName returns inner) :
    Paired isName returns ((closure parameters body).render level) := by
  obtain ⟨rest, hhead, hrest⟩ :
      ∃ rest, closureHead parameters = "\x7b" ++ rest ∧ Paired isName returns rest :=
    Paired.closureHead hparameters
  obtain ⟨inner, htail, hinner⟩ := hbody
  have hclosure : Paired isName returns ("\x7b" ++ (rest ++ inner) ++ "\x7d") :=
    .bracketed .brace (hrest.append hinner)
  rw [render, hhead, htail]
  simpa only [String.append_assoc] using hclosure

theorem paired_member {base : Expr} {x : String} (h : Paired isName returns (base.render level))
    (hx : isName x) : Paired isName returns ((member base x).render level) := by
  rw [render]
  exact ((h.parenthesizedIf _).append (.plain (by decide))).append (.name hx)

theorem paired_call {callee : Expr} {arguments : List Argument}
    (h : Paired isName returns (callee.render level))
    (harguments : ∀ x ∈ Argument.renderAll level arguments, Paired isName returns x) :
    Paired isName returns ((call callee arguments).render level) := by
  rw [render]
  exact (h.parenthesizedIf _).append (.callTail _ harguments)

theorem paired_index {base position : Expr} (h : Paired isName returns (base.render level))
    (hposition : Paired isName returns (position.render level)) :
    Paired isName returns ((index base position).render level) := by
  have hbrackets : Paired isName returns ("[" ++ position.render level ++ "]") :=
    .bracketed .square hposition
  have hindex := (h.parenthesizedIf base.needsParensAsReceiver).append hbrackets
  rw [render]
  simpa only [String.append_assoc] using hindex

theorem paired_prefixed {op : PrefixOp} {operand : Expr}
    (h : Paired isName returns (operand.render level)) :
    Paired isName returns ((prefixed op operand).render level) := by
  rw [render]
  exact (Paired.plain op.plain_symbol).append (h.parenthesizedIf _)

theorem paired_infixed {left right : Expr} {op : InfixOp}
    (hleft : Paired isName returns (left.render level))
    (hright : Paired isName returns (right.render level)) :
    Paired isName returns ((infixed left op right).render level) := by
  have hspace := (hleft.parenthesizedIf left.needsParensAsOperand).append
    (.plain (by decide : IsPlain " "))
  have hop := (hspace.append (.plain op.plain_symbol)).append (.plain (by decide : IsPlain " "))
  rw [render]
  exact hop.append (hright.parenthesizedIf _)

theorem paired_optionalChain {base : Expr} (h : Paired isName returns (base.render level)) :
    Paired isName returns ((optionalChain base).render level) := by
  rw [render]
  exact (h.parenthesizedIf _).append (.plain (by decide))

theorem paired_forceUnwrap {base : Expr} (h : Paired isName returns (base.render level)) :
    Paired isName returns ((forceUnwrap base).render level) := by
  rw [render]
  exact (h.parenthesizedIf _).append (.plain (by decide))

theorem paired_tuple {elements : List Argument}
    (h : ∀ x ∈ Argument.renderAll level elements, Paired isName returns x) :
    Paired isName returns ((tuple elements).render level) := by
  rw [render]
  exact .bracketed .parenthesis (.commaSeparated h)

end Expr

namespace Item

theorem paired_typeAlias {decl : TypeAlias} (hname : Paired isName returns decl.name.text)
    (hvalue : Paired isName returns decl.value.text) :
    Paired isName returns ((typeAlias decl).render level) := by
  rw [render]
  have hword : Paired isName returns (decl.access.render ++ "typealias ") :=
    (Paired.plain decl.access.plain_render).append (.plain (by decide))
  exact (((hword.append hname).append (.plain (by decide))).append hvalue).fullLine _

theorem paired_branch {conditions : List Condition} {body : List Item}
    {orElse : Option (List Item)}
    (hconditions : ∀ x ∈ Condition.renderAll level conditions, Paired isName returns x)
    (hbody : Paired isName returns (renderAll (level + 1) body))
    (horElse : ∀ items ∈ orElse, Paired isName returns (renderAll (level + 1) items)) :
    Paired isName returns ((branch conditions body orElse).render level) := by
  intro stack
  have hif := (Paired.plain (by decide : IsPlain "if ")).append (.commaSeparated hconditions)
  have hbranch := (Written.openingLine hif level).append (hbody (.brace :: stack))
  cases orElse with
  | none =>
    rw [render]
    exact hbranch.append (.closingLine level)
  | some items =>
    have hbetween : Written isName returns (.brace :: stack) (.brace :: stack)
        ("\x7d" ++ " else " ++ "\x7b") :=
      ((Written.closing .brace).append (.plain (by decide))).append (.opening .brace)
    have helse : Written isName returns (.brace :: stack) (.brace :: stack)
        (fullLine level "\x7d else \x7b") :=
      ((Paired.indent level _).append hbetween).append (.plain (by decide))
    rw [render]
    exact ((hbranch.append helse).append (horElse items rfl _)).append (.closingLine level)

theorem paired_guard {conditions : List Condition} {orElse : List Item}
    (hconditions : ∀ x ∈ Condition.renderAll level conditions, Paired isName returns x)
    (horElse : Paired isName returns (renderElse level orElse)) :
    Paired isName returns ((guard conditions orElse).render level) := by
  rw [render]
  have hguard : Paired isName returns (indent level ++ "guard ") :=
    (Paired.indent level).append (.plain (by decide))
  exact ((hguard.append (.commaSeparated hconditions)).append (.plain (by decide))).append horElse

theorem paired_switch {subject : Expr} {cases : List SwitchCase}
    (hsubject : Paired isName returns (subject.render level))
    (hcases : Paired isName returns (SwitchCase.renderAll level cases)) :
    Paired isName returns ((switch subject cases).render level) := by
  rw [render]
  intro stack
  have hswitch := (Paired.plain (by decide : IsPlain "switch ")).append hsubject
  exact ((Written.openingLine hswitch level).append (hcases _)).append (.closingLine level)

theorem paired_doCatch {body : List Item} {catches : List Catch}
    (hbody : Paired isName returns (renderAll (level + 1) body))
    (hcatches : ∀ stack, Written isName returns (.brace :: stack) (.brace :: stack)
      (Catch.renderAll level catches)) :
    Paired isName returns ((doCatch body catches).render level) := by
  rw [render]
  intro stack
  have hdo : Written isName returns stack (.brace :: stack) (fullLine level "do \x7b") :=
    Written.openingLine (x := "do") (.plain (by decide)) level
  exact ((hdo.append (hbody _)).append (hcatches stack)).append (.closingLine level)

theorem paired_assign {target value : Expr} (htarget : Paired isName returns (target.render level))
    (hvalue : Paired isName returns (value.render level)) :
    Paired isName returns ((assign target value).render level) := by
  rw [render]
  exact ((htarget.append (.plain (by decide))).append hvalue).fullLine _

theorem paired_returns {value : Expr} (h : Paired isName returns (value.render level)) :
    Paired isName returns ((Item.returns (some value)).render level) := by
  rw [render]
  exact ((Paired.plain (by decide)).append h).fullLine _

end Item

theorem TypeDecl.paired_body {decl : TypeDecl}
    (h : (Part.item (.type decl)).Writable isName returns)
    (hbody : Paired isName returns (Item.renderAll (level + 1) decl.body)) :
    Paired isName returns (decl.render level) := by
  obtain ⟨hname, hinherited⟩ := List.forall_mem_cons.mp h.types
  obtain ⟨name, kind, access, inherited, body, isObjC⟩ := decl
  rw [render]
  have hmark : Paired isName returns (wordIf isObjC (fullLine level "@objc")) :=
    .wordIf isObjC (.fullLine (.plain (by decide)) level)
  have hkeyword := ((hmark.append (.indent level)).append (.plain access.plain_render)).append
    (.plain kind.plain_keyword)
  have hnamed := (hkeyword.append (.plain (by decide : IsPlain " "))).append hname
  exact (hnamed.append (.inherited hinherited)).append (.braced _ hbody)

theorem Extension.paired_body {decl : Extension}
    (h : (Part.item (.extension decl)).Writable isName returns)
    (hbody : Paired isName returns (Item.renderAll (level + 1) decl.body)) :
    Paired isName returns (decl.render level) := by
  obtain ⟨hname, hrest⟩ := List.forall_mem_cons.mp h.types
  obtain ⟨hinherited, hconstraints⟩ := List.forall_mem_append.mp hrest
  rw [List.forall_mem_flatMap] at hconstraints
  obtain ⟨name, access, inherited, constraints, body⟩ := decl
  rw [render]
  have hkeyword : Paired isName returns (indent level ++ access.render ++ "extension ") :=
    ((Paired.indent level).append (.plain access.plain_render)).append (.plain (by decide))
  have hnamed := (hkeyword.append hname).append (.inherited hinherited)
  exact (hnamed.append (.constraints hconstraints)).append (.braced _ hbody)

theorem Property.paired_body {decl : Property}
    (h : (Part.item (.property decl)).Writable isName returns)
    (hvalue : ∀ value ∈ decl.value, Paired isName returns (value.render level))
    (hbody : ∀ body ∈ decl.body, Paired isName returns (Item.renderAll (level + 1) body)) :
    Paired isName returns (decl.render level) := by
  have hvar : Paired isName returns decl.var.render :=
    .declaredVariable (h.words decl.var.name (List.mem_singleton_self _))
      fun t ht => h.types t (by simpa [Part.types] using ht)
  obtain ⟨var, access, setterAccess, value, body, isObjC⟩ := decl
  unfold Property.render
  have hmark : Paired isName returns (indent level ++ wordIf isObjC "@objc ") :=
    (Paired.indent level).append (.wordIf isObjC (.plain (by decide)))
  have hwords := (hmark.append (.plain access.plain_render)).append (.setterWord setterAccess)
  have hvariable := hwords.append hvar
  refine (hvariable.append ?value).append ?body
  case value =>
    cases value with
    | none => exact .empty
    | some value => exact (Paired.plain (by decide)).append (hvalue value rfl)
  case body =>
    cases body with
    | none => exact .plain (by decide : IsPlain "\n")
    | some body => exact .braced _ (hbody body rfl)

theorem Parameter.paired_default {p : Parameter} (hwords : ∀ x ∈ p.words, isName x)
    (htype : Paired isName returns p.type.text)
    (hdefault : ∀ value ∈ p.default, Paired isName returns (value.render level)) :
    Paired isName returns (p.render level) := by
  obtain ⟨hlabel, hname⟩ := List.forall_mem_append.mp hwords
  rw [List.forall_mem_singleton] at hname
  obtain ⟨label, name, type, default, isInOut, isEscaping⟩ := p
  have hdeclared {first : String} (h : Paired isName returns first) :
      Paired isName returns (first ++ name ++ ": " ++ wordIf isInOut "inout "
        ++ wordIf isEscaping "@escaping " ++ type.text) := by
    have hcolon := (h.append (.name hname)).append (.plain (by decide : IsPlain ": "))
    have hinOut := hcolon.append (.wordIf isInOut (.plain (by decide : IsPlain "inout ")))
    have hescaping := hinOut.append
      (.wordIf isEscaping (.plain (by decide : IsPlain "@escaping ")))
    exact hescaping.append htype
  unfold Parameter.render
  refine (hdeclared ?label).append ?default
  case label =>
    cases label with
    | none => exact .empty
    | some label =>
      dsimp only
      split
      · exact .empty
      · exact (Paired.name (hlabel label (by simp))).append (.plain (by decide))
  case default =>
    cases default with
    | none => exact .empty
    | some value => exact (Paired.plain (by decide)).append (hdefault value rfl)

theorem Function.paired_body {f : Function} (h : (Part.item (.function f)).Writable isName returns)
    (hparameters : ∀ x ∈ Parameter.renderAll level f.parameters, Paired isName returns x)
    (hbody : Paired isName returns (Item.renderAll (level + 1) f.body)) :
    Paired isName returns (f.render level) := by
  obtain ⟨hkind, -⟩ := List.forall_mem_append.mp h.words
  obtain ⟨htypes, hresult⟩ := List.forall_mem_append.mp h.types
  obtain ⟨htypes, hconstraints⟩ := List.forall_mem_append.mp htypes
  obtain ⟨-, hgeneric⟩ := List.forall_mem_append.mp htypes
  rw [List.forall_mem_flatMap] at hconstraints
  obtain ⟨kind, access, parameters, genericParameters, constraints, isThrowing, isAsync, isStatic,
    isOverride, isMutating, hasDiscardableResult, result, body⟩ := f
  unfold Function.render
  have hmark : Paired isName returns
      (wordIf hasDiscardableResult (fullLine level "@discardableResult")) :=
    .wordIf hasDiscardableResult (.fullLine (.plain (by decide)) level)
  have haccess := (hmark.append (.indent level)).append (.plain access.plain_render)
  have hoverride := haccess.append (.wordIf isOverride (.plain (by decide : IsPlain "override ")))
  have hstatic := hoverride.append (.wordIf isStatic (.plain (by decide : IsPlain "static ")))
  have hmutating := hstatic.append
    (.wordIf isMutating (.plain (by decide : IsPlain "mutating ")))
  have hnamed := (hmutating.append (.functionKind hkind)).append (.genericParameters hgeneric)
  intro stack
  have hlist := (((hnamed stack).append (.opening .parenthesis)).append
    (Paired.commaSeparated hparameters _)).append (.closing .parenthesis)
  have hasync := hlist.append (Paired.wordIf isAsync (.plain (by decide : IsPlain " async")) _)
  have heffects := hasync.append
    (Paired.wordIf isThrowing (.plain (by decide : IsPlain " throws")) _)
  refine ((heffects.append ?result).append (Paired.constraints hconstraints _)).append
    (Paired.braced _ hbody _)
  case result =>
    cases result with
    | none => exact Paired.empty stack
    | some type => exact ((Paired.plain (by decide)).append (hresult type (by simp))) stack

theorem EnumCase.paired_rawValue {decl : EnumCase}
    (h : (Part.item (.enumCase decl)).Writable isName returns)
    (hrawValue : ∀ value ∈ decl.rawValue, Paired isName returns (value.render level)) :
    Paired isName returns (decl.render level) := by
  have hname := h.words decl.name (List.mem_singleton_self _)
  have hassociated := h.types
  obtain ⟨name, associated, rawValue⟩ := decl
  unfold EnumCase.render
  have hcase : Paired isName returns (indent level ++ "case " ++ declaredName name) :=
    ((Paired.indent level).append (.plain (by decide))).append (.declaredName hname)
  refine (hcase.append (.associated hassociated)).append ?_
  cases rawValue with
  | none => exact .plain (by decide : IsPlain "\n")
  | some value => exact .enclosed (by decide) (hrawValue value rfl) (by decide)

theorem Condition.paired_value {c : Condition} (hc : ∀ x ∈ c.words, isName x)
    (hvalue : Paired isName returns
      (match c with | .test value | .binding _ value => value.render level)) :
    Paired isName returns (c.render level) := by
  cases c with
  | test value =>
    rw [render]
    exact hvalue
  | binding x value =>
    have hname : Paired isName returns x := .name (hc x (List.mem_singleton_self x))
    rw [render]
    exact (hname.enclosed (a := "let ") (b := " = ") (by decide) (by decide)).append hvalue

theorem Pattern.paired_value {p : Pattern} (hp : ∀ x ∈ p.words, isName x)
    (hvalue : ∀ value, p = .value value → Paired isName returns (value.render level)) :
    Paired isName returns (p.render level) := by
  cases p with
  | default =>
    rw [render]
    exact .plain (by decide)
  | tag x =>
    rw [render]
    exact .enclosed (by decide) (.name (hp x (List.mem_singleton_self x))) (by decide)
  | bindings x bound =>
    obtain ⟨hx, hbound⟩ := List.forall_mem_cons.mp hp
    have hlet : Paired isName returns (commaSeparated (bound.map fun v => "let " ++ v)) :=
      .commaSeparated_map fun v hv => (Paired.plain (by decide)).append (.name (hbound v hv))
    have hcase : Paired isName returns ("case ." ++ x) :=
      (Paired.plain (by decide)).append (.name hx)
    rw [render]
    intro stack
    have hopen := (hcase stack).append (.opening .parenthesis)
    have hclose : Written isName returns (.parenthesis :: stack) stack (")" ++ ":") :=
      (Written.closing .parenthesis).append (.plain (by decide))
    exact (hopen.append (hlet _)).append hclose
  | value value =>
    rw [render]
    exact .enclosed (by decide) (hvalue value rfl) (by decide)

theorem SwitchCase.paired_body {pattern : Pattern} {body : List Item} {cases : List SwitchCase}
    (hpattern : Paired isName returns (pattern.render level))
    (hbody : Paired isName returns (Item.renderAll (level + 1) body))
    (hcases : Paired isName returns (SwitchCase.renderAll level cases)) :
    Paired isName returns (SwitchCase.renderAll level ({ pattern, body } :: cases)) := by
  rw [renderAll]
  refine ((hpattern.fullLine level).append ?_).append hcases
  split
  · exact .fullLine (.plain (by decide : IsPlain "break")) _
  · exact hbody

theorem Catch.written_body {pattern : Option Expr} {body : List Item} {catches : List Catch}
    (hpattern : ∀ e ∈ pattern, Paired isName returns (e.render level))
    (hbody : Paired isName returns (Item.renderAll (level + 1) body))
    (hcatches : Written isName returns (.brace :: stack) (.brace :: stack)
      (Catch.renderAll level catches)) :
    Written isName returns (.brace :: stack) (.brace :: stack)
      (Catch.renderAll level ({ pattern, body } :: catches)) := by
  have hclose : Written isName returns (.brace :: stack) stack ("\x7d" ++ " catch") :=
    (Written.closing .brace).append (.plain (by decide))
  have hopen : Written isName returns stack (.brace :: stack) (" " ++ "\x7b") :=
    (Written.plain (by decide)).append (.opening .brace)
  have hline {text : String} (h : Paired isName returns text) :
      Written isName returns (.brace :: stack) (.brace :: stack)
        (fullLine level ("\x7d" ++ " catch" ++ text ++ (" " ++ "\x7b"))) :=
    ((Paired.indent level _).append ((hclose.append (h stack)).append hopen)).append
      (.plain (by decide))
  cases pattern with
  | none =>
    rw [renderAll]
    exact ((hline .empty).append (hbody _)).append hcatches
  | some e =>
    have hspace := (Paired.plain (by decide : IsPlain " ")).append (hpattern e rfl)
    rw [renderAll]
    exact ((hline hspace).append (hbody _)).append hcatches

end

-- ---------------------------------------------------------------------------
-- Code
-- ---------------------------------------------------------------------------

section
variable {isName : String → Prop} {returns : Bool}

mutual
/-- Brackets are paired in the text of an expression, and in that of everything in it. -/
theorem Expr.paired (e : Expr) (h : e.Each (Part.Writable isName returns)) (level : Nat) :
    Paired isName returns (e.render level) := by
  match e with
  | .name x =>
    rw [Expr.render]
    exact .name ((Expr.each_name.mp h).words x (List.mem_singleton_self x))
  | .type t =>
    rw [Expr.render]
    exact (Expr.each_type.mp h).types t (List.mem_singleton_self t)
  | .nil =>
    rw [Expr.render]
    exact .plain (by decide)
  | .bool value =>
    rw [Expr.render]
    cases value <;> exact .plain (by decide)
  | .int value =>
    rw [Expr.render]
    exact .numeric fun _ hc => isNumeric_of_mem_int hc
  | .float value =>
    rw [Expr.render]
    exact .float value
  | .string value =>
    rw [Expr.render]
    exact fun _ => .literal value
  | .array elements =>
    obtain ⟨-, h⟩ := Expr.each_array.mp h
    exact Expr.paired_array (Expr.paired_renderAll elements h level)
  | .dictionary entries =>
    obtain ⟨-, h⟩ := Expr.each_dictionary.mp h
    exact Expr.paired_dictionary (Entry.paired_renderAll entries h level)
  | .closure parameters body =>
    obtain ⟨hpart, h⟩ := Expr.each_closure.mp h
    exact Expr.paired_closure hpart.words (Item.paired_renderClosure body h level)
  | .member base x =>
    obtain ⟨hpart, h⟩ := Expr.each_member.mp h
    exact Expr.paired_member (Expr.paired base h level) (hpart.words x (List.mem_singleton_self x))
  | .call callee arguments =>
    obtain ⟨hpart, h, harguments⟩ := Expr.each_call.mp h
    have hlabels := List.forall_mem_flatMap.mp hpart.words
    exact Expr.paired_call (Expr.paired callee h level)
      (Argument.paired_renderAll arguments hlabels harguments level)
  | .index base position =>
    obtain ⟨-, h, hposition⟩ := Expr.each_index.mp h
    exact Expr.paired_index (Expr.paired base h level) (Expr.paired position hposition level)
  | .prefixed op operand =>
    obtain ⟨-, h⟩ := Expr.each_prefixed.mp h
    exact Expr.paired_prefixed (Expr.paired operand h level)
  | .infixed left op right =>
    obtain ⟨-, hleft, hright⟩ := Expr.each_infixed.mp h
    exact Expr.paired_infixed (Expr.paired left hleft level) (Expr.paired right hright level)
  | .optionalChain base =>
    obtain ⟨-, h⟩ := Expr.each_optionalChain.mp h
    exact Expr.paired_optionalChain (Expr.paired base h level)
  | .forceUnwrap base =>
    obtain ⟨-, h⟩ := Expr.each_forceUnwrap.mp h
    exact Expr.paired_forceUnwrap (Expr.paired base h level)
  | .tuple elements =>
    obtain ⟨hpart, h⟩ := Expr.each_tuple.mp h
    exact Expr.paired_tuple
      (Argument.paired_renderAll elements (List.forall_mem_flatMap.mp hpart.words) h level)

theorem Expr.paired_renderAll (es : List Expr)
    (h : ∀ e ∈ es, e.Each (Part.Writable isName returns)) (level : Nat) :
    ∀ x ∈ Expr.renderAll level es, Paired isName returns x := by
  match es with
  | [] => exact nofun
  | e :: es =>
    obtain ⟨he, hes⟩ := List.forall_mem_cons.mp h
    exact List.forall_mem_cons.mpr ⟨Expr.paired e he level, Expr.paired_renderAll es hes level⟩

theorem Entry.paired_renderAll (entries : List Entry)
    (h : ∀ a ∈ entries, a.key.Each (Part.Writable isName returns) ∧
      a.value.Each (Part.Writable isName returns)) (level : Nat) :
    ∀ x ∈ Entry.renderAll level entries, Paired isName returns x := by
  match entries with
  | [] => exact nofun
  | .mk key value :: entries =>
    obtain ⟨⟨hkey, hvalue⟩, hentries⟩ := List.forall_mem_cons.mp h
    have hcolon := (Expr.paired key hkey level).append (.plain (by decide : IsPlain ": "))
    exact List.forall_mem_cons.mpr ⟨hcolon.append (Expr.paired value hvalue level),
      Entry.paired_renderAll entries hentries level⟩

theorem Argument.paired_renderAll (arguments : List Argument)
    (hlabels : ∀ a ∈ arguments, ∀ x ∈ a.label.toList, isName x)
    (h : ∀ a ∈ arguments, a.value.Each (Part.Writable isName returns)) (level : Nat) :
    ∀ x ∈ Argument.renderAll level arguments, Paired isName returns x := by
  match arguments with
  | [] => exact nofun
  | .mk label value :: arguments =>
    obtain ⟨hlabel, hlabels⟩ := List.forall_mem_cons.mp hlabels
    obtain ⟨hvalue, h⟩ := List.forall_mem_cons.mp h
    exact List.forall_mem_cons.mpr
      ⟨(Paired.labelText hlabel).append (Expr.paired value hvalue level),
        Argument.paired_renderAll arguments hlabels h level⟩

theorem Item.paired_renderClosure (items : List Item)
    (h : ∀ i ∈ items, i.Each (Part.Writable isName returns)) (level : Nat) :
    ∃ inner, Item.renderClosure level items = inner ++ "\x7d" ∧ Paired isName returns inner := by
  have hlines {text : String} (htext : Paired isName returns text) :
      Paired isName returns ("\n" ++ text ++ indent level) :=
    ((Paired.plain (by decide)).append htext).append (.indent level)
  match items with
  | [] => exact ⟨" ", rfl, .plain (by decide)⟩
  | [item] =>
    obtain ⟨hitem, -⟩ := List.forall_mem_cons.mp h
    rw [Item.renderClosure]
    split
    · next text htext =>
      have hinline := Item.paired_renderInline item hitem htext
      refine ⟨" " ++ text ++ " ", ?_, .enclosed (by decide) hinline (by decide)⟩
      simp only [String.append_assoc]
      rfl
    · exact ⟨_, rfl, hlines (Item.paired item hitem (level + 1))⟩
  | item :: next :: items =>
    obtain ⟨hitem, hitems⟩ := List.forall_mem_cons.mp h
    have htexts := (Item.paired item hitem (level + 1)).append
      (Item.paired_renderAll (next :: items) hitems (level + 1))
    exact ⟨_, rfl, hlines htexts⟩

theorem Item.paired_renderInline (item : Item) (h : item.Each (Part.Writable isName returns))
    {level : Nat} {text : String} (htext : item.renderInline? level = some text) :
    Paired isName returns text := by
  match item with
  | .expr value =>
    obtain ⟨-, h⟩ := Item.each_expr.mp h
    obtain ⟨-, rfl⟩ : value.spansLines = false ∧ value.render level = text := by
      simpa [Item.renderInline?] using htext
    exact Expr.paired value h level
  | .returns (some value) =>
    obtain ⟨-, h⟩ := Item.each_returns.mp h
    obtain ⟨-, rfl⟩ : value.spansLines = false ∧ value.render level = text := by
      simpa [Item.renderInline?] using htext
    exact Expr.paired value (h value rfl) level
  | .returns none | .type _ | .extension _ | .property _ | .function _ | .typeAlias _
  | .enumCase _ | .comment _ | .blank | .branch .. | .guard .. | .switch .. | .doCatch ..
  | .assign .. => cases htext

theorem Item.paired (item : Item) (h : item.Each (Part.Writable isName returns)) (level : Nat) :
    Paired isName returns (item.render level) := by
  match item with
  | .type decl =>
    obtain ⟨hpart, hbody⟩ := Item.each_type.mp h
    rw [Item.render]
    exact TypeDecl.paired decl hpart hbody level
  | .extension decl =>
    obtain ⟨hpart, hbody⟩ := Item.each_extension.mp h
    rw [Item.render]
    exact Extension.paired decl hpart hbody level
  | .property decl =>
    obtain ⟨hpart, hvalue, hbody⟩ := Item.each_property.mp h
    rw [Item.render]
    exact Property.paired decl hpart hvalue hbody level
  | .function decl =>
    obtain ⟨hpart, hparameters, hbody⟩ := Item.each_function.mp h
    rw [Item.render]
    exact Function.paired decl hpart hparameters hbody level
  | .typeAlias decl =>
    have hpart := Item.each_typeAlias.mp h
    obtain ⟨hname, hvalue⟩ := List.forall_mem_cons.mp hpart.types
    exact Item.paired_typeAlias hname (hvalue _ (List.mem_singleton_self _))
  | .enumCase decl =>
    obtain ⟨hpart, hrawValue⟩ := Item.each_enumCase.mp h
    rw [Item.render]
    exact EnumCase.paired decl hpart hrawValue level
  | .comment c =>
    have hpart := Item.each_comment.mp h
    rw [Item.render]
    exact .comment (hpart.comment c rfl)
  | .blank =>
    rw [Item.render]
    exact .plain (by decide)
  | .branch conditions body none =>
    obtain ⟨hpart, hconditions, hbody, -⟩ := Item.each_branch.mp h
    have hwords := List.forall_mem_flatMap.mp hpart.words
    exact Item.paired_branch (Condition.paired_renderAll conditions hwords hconditions level)
      (Item.paired_renderAll body hbody (level + 1)) nofun
  | .branch conditions body (some orElse) =>
    obtain ⟨hpart, hconditions, hbody, horElse⟩ := Item.each_branch.mp h
    have hwords := List.forall_mem_flatMap.mp hpart.words
    refine Item.paired_branch (Condition.paired_renderAll conditions hwords hconditions level)
      (Item.paired_renderAll body hbody (level + 1)) ?_
    rintro _ ⟨⟩
    exact Item.paired_renderAll orElse (horElse orElse rfl) (level + 1)
  | .guard conditions orElse =>
    obtain ⟨hpart, hconditions, horElse⟩ := Item.each_guard.mp h
    have hwords := List.forall_mem_flatMap.mp hpart.words
    exact Item.paired_guard (Condition.paired_renderAll conditions hwords hconditions level)
      (Item.paired_renderElse orElse horElse level)
  | .switch subject cases =>
    obtain ⟨hpart, hsubject, hcases⟩ := Item.each_switch.mp h
    have hwords := List.forall_mem_flatMap.mp hpart.words
    exact Item.paired_switch (Expr.paired subject hsubject level)
      (SwitchCase.paired_renderAll cases hwords hcases level)
  | .doCatch body catches =>
    obtain ⟨-, hbody, hcatches⟩ := Item.each_doCatch.mp h
    exact Item.paired_doCatch (Item.paired_renderAll body hbody (level + 1))
      (Catch.written_renderAll catches hcatches level)
  | .assign target value =>
    obtain ⟨-, htarget, hvalue⟩ := Item.each_assign.mp h
    exact Item.paired_assign (Expr.paired target htarget level) (Expr.paired value hvalue level)
  | .returns none =>
    rw [Item.render]
    exact (Paired.plain (by decide)).fullLine _
  | .returns (some value) =>
    obtain ⟨-, h⟩ := Item.each_returns.mp h
    exact Item.paired_returns (Expr.paired value (h value rfl) level)
  | .expr value =>
    obtain ⟨-, h⟩ := Item.each_expr.mp h
    rw [Item.render]
    exact (Expr.paired value h level).fullLine _

theorem Item.paired_renderAll (items : List Item)
    (h : ∀ i ∈ items, i.Each (Part.Writable isName returns)) (level : Nat) :
    Paired isName returns (Item.renderAll level items) := by
  match items with
  | [] => exact .empty
  | item :: items =>
    obtain ⟨hitem, hitems⟩ := List.forall_mem_cons.mp h
    exact (Item.paired item hitem level).append (Item.paired_renderAll items hitems level)

theorem Item.paired_renderElse (items : List Item)
    (h : ∀ i ∈ items, i.Each (Part.Writable isName returns)) (level : Nat) :
    Paired isName returns (Item.renderElse level items) := by
  match items with
  | [] => exact .braced true .empty
  | [item] =>
    obtain ⟨hitem, -⟩ := List.forall_mem_cons.mp h
    rw [Item.renderElse]
    split
    · next text htext =>
      intro stack
      have hopen : Written isName returns stack (.brace :: stack) (" " ++ "\x7b" ++ " ") :=
        ((Written.plain (by decide)).append (.opening .brace)).append (.plain (by decide))
      have hclose : Written isName returns (.brace :: stack) stack (" " ++ "\x7d" ++ "\n") :=
        ((Written.plain (by decide)).append (.closing .brace)).append (.plain (by decide))
      exact (hopen.append (Item.paired_renderReturn item hitem htext _)).append hclose
    · exact .braced false (Item.paired item hitem (level + 1))
  | item :: next :: items =>
    obtain ⟨hitem, hitems⟩ := List.forall_mem_cons.mp h
    have htexts := (Item.paired item hitem (level + 1)).append
      (Item.paired_renderAll (next :: items) hitems (level + 1))
    exact .braced false htexts

theorem Item.paired_renderReturn (item : Item) (h : item.Each (Part.Writable isName returns))
    {level : Nat} {text : String} (htext : item.renderReturn? level = some text) :
    Paired isName returns text := by
  match item with
  | .returns none =>
    cases htext
    exact .plain (by decide)
  | .returns (some value) =>
    obtain ⟨-, h⟩ := Item.each_returns.mp h
    cases htext
    exact (Paired.plain (by decide)).append (Expr.paired value (h value rfl) level)
  | .expr _ | .type _ | .extension _ | .property _ | .function _ | .typeAlias _
  | .enumCase _ | .comment _ | .blank | .branch .. | .guard .. | .switch .. | .doCatch ..
  | .assign .. => cases htext

theorem TypeDecl.paired (decl : TypeDecl)
    (h : (Part.item (.type decl)).Writable isName returns)
    (hbody : ∀ i ∈ decl.body, i.Each (Part.Writable isName returns)) (level : Nat) :
    Paired isName returns (decl.render level) := by
  match decl with
  | .mk _ _ _ _ body _ =>
    exact TypeDecl.paired_body h (Item.paired_renderAll body hbody (level + 1))

theorem Extension.paired (decl : Extension)
    (h : (Part.item (.extension decl)).Writable isName returns)
    (hbody : ∀ i ∈ decl.body, i.Each (Part.Writable isName returns)) (level : Nat) :
    Paired isName returns (decl.render level) := by
  match decl with
  | .mk _ _ _ _ body =>
    exact Extension.paired_body h (Item.paired_renderAll body hbody (level + 1))

theorem Property.paired (decl : Property)
    (h : (Part.item (.property decl)).Writable isName returns)
    (hvalue : ∀ value, decl.value = some value → value.Each (Part.Writable isName returns))
    (hbody : ∀ body, decl.body = some body →
      ∀ i ∈ body, i.Each (Part.Writable isName returns)) (level : Nat) :
    Paired isName returns (decl.render level) := by
  match decl with
  | .mk _ _ _ value body _ =>
    refine Property.paired_body h ?_ ?_
    · match value with
      | none => exact nofun
      | some value =>
        rintro _ ⟨⟩
        exact Expr.paired value (hvalue value rfl) level
    · match body with
      | none => exact nofun
      | some body =>
        rintro _ ⟨⟩
        exact Item.paired_renderAll body (hbody body rfl) (level + 1)

theorem Parameter.paired_renderAll (parameters : List Parameter)
    (hwords : ∀ p ∈ parameters, ∀ x ∈ p.words, isName x)
    (htypes : ∀ p ∈ parameters, Paired isName returns p.type.text)
    (h : ∀ p ∈ parameters, p.Each (Part.Writable isName returns)) (level : Nat) :
    ∀ x ∈ Parameter.renderAll level parameters, Paired isName returns x := by
  match parameters with
  | [] => exact nofun
  | .mk label name type none isInOut isEscaping :: parameters =>
    obtain ⟨hword, hwords⟩ := List.forall_mem_cons.mp hwords
    obtain ⟨htype, htypes⟩ := List.forall_mem_cons.mp htypes
    obtain ⟨-, h⟩ := List.forall_mem_cons.mp h
    exact List.forall_mem_cons.mpr ⟨Parameter.paired_default hword htype nofun,
      Parameter.paired_renderAll parameters hwords htypes h level⟩
  | .mk label name type (some value) isInOut isEscaping :: parameters =>
    obtain ⟨hword, hwords⟩ := List.forall_mem_cons.mp hwords
    obtain ⟨htype, htypes⟩ := List.forall_mem_cons.mp htypes
    obtain ⟨hvalue, h⟩ := List.forall_mem_cons.mp h
    refine List.forall_mem_cons.mpr ⟨Parameter.paired_default hword htype ?_,
      Parameter.paired_renderAll parameters hwords htypes h level⟩
    rintro _ ⟨⟩
    exact Expr.paired value (hvalue value rfl) level

theorem Function.paired (f : Function) (h : (Part.item (.function f)).Writable isName returns)
    (hparameters : ∀ p ∈ f.parameters, p.Each (Part.Writable isName returns))
    (hbody : ∀ i ∈ f.body, i.Each (Part.Writable isName returns)) (level : Nat) :
    Paired isName returns (f.render level) := by
  match f with
  | .mk _ _ parameters _ _ _ _ _ _ _ _ _ body =>
    refine Function.paired_body h ?_ (Item.paired_renderAll body hbody (level + 1))
    refine Parameter.paired_renderAll parameters (fun p hp x hx => ?_) (fun p hp => ?_)
      hparameters level
    · exact h.words x (List.mem_append_right _ (List.mem_flatMap_of_mem hp hx))
    · exact h.types p.type (by simp [Part.types, List.mem_map_of_mem hp])

theorem EnumCase.paired (decl : EnumCase)
    (h : (Part.item (.enumCase decl)).Writable isName returns)
    (hrawValue : ∀ value, decl.rawValue = some value → value.Each (Part.Writable isName returns))
    (level : Nat) : Paired isName returns (decl.render level) := by
  match decl with
  | .mk _ _ none => exact EnumCase.paired_rawValue h nofun
  | .mk _ _ (some value) =>
    refine EnumCase.paired_rawValue h ?_
    rintro _ ⟨⟩
    exact Expr.paired value (hrawValue value rfl) level

theorem Condition.paired_renderAll (conditions : List Condition)
    (hwords : ∀ c ∈ conditions, ∀ x ∈ c.words, isName x)
    (h : ∀ c ∈ conditions, c.Each (Part.Writable isName returns)) (level : Nat) :
    ∀ x ∈ Condition.renderAll level conditions, Paired isName returns x := by
  match conditions with
  | [] => exact nofun
  | .test value :: conditions =>
    obtain ⟨hc, hwords⟩ := List.forall_mem_cons.mp hwords
    obtain ⟨hvalue, h⟩ := List.forall_mem_cons.mp h
    exact List.forall_mem_cons.mpr ⟨Condition.paired_value hc (Expr.paired value hvalue level),
      Condition.paired_renderAll conditions hwords h level⟩
  | .binding x value :: conditions =>
    obtain ⟨hc, hwords⟩ := List.forall_mem_cons.mp hwords
    obtain ⟨hvalue, h⟩ := List.forall_mem_cons.mp h
    exact List.forall_mem_cons.mpr ⟨Condition.paired_value hc (Expr.paired value hvalue level),
      Condition.paired_renderAll conditions hwords h level⟩

theorem Pattern.paired (p : Pattern) (hp : ∀ x ∈ p.words, isName x)
    (h : p.Each (Part.Writable isName returns)) (level : Nat) :
    Paired isName returns (p.render level) := by
  match p with
  | .default | .tag _ | .bindings _ _ => exact Pattern.paired_value hp nofun
  | .value value =>
    refine Pattern.paired_value hp ?_
    rintro _ ⟨⟩
    exact Expr.paired value h level

theorem SwitchCase.paired_renderAll (cases : List SwitchCase)
    (hwords : ∀ c ∈ cases, ∀ x ∈ c.pattern.words, isName x)
    (h : ∀ c ∈ cases, c.pattern.Each (Part.Writable isName returns) ∧
      ∀ i ∈ c.body, i.Each (Part.Writable isName returns)) (level : Nat) :
    Paired isName returns (SwitchCase.renderAll level cases) := by
  match cases with
  | [] => exact .empty
  | .mk pattern body :: cases =>
    obtain ⟨hc, hwords⟩ := List.forall_mem_cons.mp hwords
    obtain ⟨⟨hpattern, hbody⟩, h⟩ := List.forall_mem_cons.mp h
    exact SwitchCase.paired_body (Pattern.paired pattern hc hpattern level)
      (Item.paired_renderAll body hbody (level + 1))
      (SwitchCase.paired_renderAll cases hwords h level)

theorem Catch.written_renderAll (catches : List Catch)
    (h : ∀ c ∈ catches, (∀ e, c.pattern = some e → e.Each (Part.Writable isName returns)) ∧
      ∀ i ∈ c.body, i.Each (Part.Writable isName returns)) (level : Nat) (stack : List Bracket) :
    Written isName returns (.brace :: stack) (.brace :: stack) (Catch.renderAll level catches) := by
  match catches with
  | [] => exact Paired.empty _
  | .mk none body :: catches =>
    obtain ⟨⟨-, hbody⟩, h⟩ := List.forall_mem_cons.mp h
    exact Catch.written_body nofun (Item.paired_renderAll body hbody (level + 1))
      (Catch.written_renderAll catches h level stack)
  | .mk (some pattern) body :: catches =>
    obtain ⟨⟨hpattern, hbody⟩, h⟩ := List.forall_mem_cons.mp h
    refine Catch.written_body ?_ (Item.paired_renderAll body hbody (level + 1))
      (Catch.written_renderAll catches h level stack)
    rintro _ ⟨⟩
    exact Expr.paired pattern (hpattern pattern rfl) level
end

end

end EntityGen.Code
