import EntityGen.Proofs.Code.ClosureText
import EntityGen.Proofs.Code.Effects

/-!
# Failures and texts

Whether an expression throws is asked of the tree, and a compiler reads the text.
Both agree where `try?` and `try!` absorb in the tree what they absorb in the
text: where nothing is written after them but their operand.
-/

namespace EntityGen.Code

-- ---------------------------------------------------------------------------
-- Absorbed failures
-- ---------------------------------------------------------------------------

/-- The text ends in the operand of a `try?` or `try!`, which would absorb what was
written after it. -/
def Expr.absorbs : Expr → Bool
  | .prefixed .tryOptional _ | .prefixed .tryForced _ => true
  | .prefixed op operand => !(op.groupsOperand && operand.needsParensAsOperand) && operand.absorbs
  | .infixed _ _ right => !right.needsParensAsOperand && right.absorbs
  | _ => false

/-- As a receiver the expression absorbs nothing that is written after it. -/
def Expr.ClosesAsReceiver (e : Expr) : Prop := (!e.needsParensAsReceiver && e.absorbs) = false

def Expr.ClosesAsOperand (e : Expr) : Prop := (!e.needsParensAsOperand && e.absorbs) = false

/-- All names are words, and what would absorb what is written after it stands last
or in parentheses. A closure may hold anything. -/
inductive Expr.Grouped : Expr → Prop
  | name {x : String} (hx : IsWord x) : Grouped (.name x)
  | type {t : TypeName} (ht : t.Named) : Grouped (.type t)
  | nil : Grouped .nil
  | bool (value : Bool) : Grouped (.bool value)
  | int (value : Int) : Grouped (.int value)
  | float (value : Float) : Grouped (.float value)
  | string (value : String) : Grouped (.string value)
  | array {elements : List Expr} (h : ∀ e ∈ elements, Grouped e) : Grouped (.array elements)
  | dictionary {entries : List Entry} (hkey : ∀ a ∈ entries, Grouped a.key)
      (hvalue : ∀ a ∈ entries, Grouped a.value) : Grouped (.dictionary entries)
  | closure {parameters : List String} {body : List Item}
      (h : (Expr.closure parameters body).Each Part.Tame) : Grouped (.closure parameters body)
  | member {base : Expr} {x : String} (h : Grouped base) (hcloses : base.ClosesAsReceiver)
      (hx : IsWord x) : Grouped (.member base x)
  | call {callee : Expr} {arguments : List Argument} (h : Grouped callee)
      (hcloses : callee.ClosesAsReceiver) (hlabel : ∀ a ∈ arguments, ∀ x ∈ a.label, IsWord x)
      (hvalue : ∀ a ∈ arguments, Grouped a.value) : Grouped (.call callee arguments)
  | index {base position : Expr} (h : Grouped base) (hcloses : base.ClosesAsReceiver)
      (hposition : Grouped position) : Grouped (.index base position)
  | prefixed {op : PrefixOp} {operand : Expr} (h : Grouped operand) :
      Grouped (.prefixed op operand)
  | infixed {left right : Expr} {op : InfixOp} (hleft : Grouped left)
      (hcloses : left.ClosesAsOperand) (hright : Grouped right) : Grouped (.infixed left op right)
  | optionalChain {base : Expr} (h : Grouped base) (hcloses : base.ClosesAsReceiver) :
      Grouped (.optionalChain base)
  | forceUnwrap {base : Expr} (h : Grouped base) (hcloses : base.ClosesAsReceiver) :
      Grouped (.forceUnwrap base)
  | tuple {elements : List Argument} (hlabel : ∀ a ∈ elements, ∀ x ∈ a.label, IsWord x)
      (hvalue : ∀ a ∈ elements, Grouped a.value) : Grouped (.tuple elements)

-- ---------------------------------------------------------------------------
-- What texts convey
-- ---------------------------------------------------------------------------

/-- The text throws or not, and absorbs what follows or not, and ends in a word that
conveys nothing. -/
def Conveys (text : String) (throws absorbs : Bool) : Prop :=
  ∃ word, IsQuiet word ∧ Tells text throws absorbs word

namespace Conveys

variable {a b : String} {throws throws' absorbs absorbs' : Bool}

theorem of_tells (h : Tells a throws absorbs []) : Conveys a throws absorbs := ⟨[], by decide, h⟩

theorem of_passes (h : ∃ word, IsQuiet word ∧ Passes a word) : Conveys a false false := by
  obtain ⟨word, hword, h⟩ := h
  exact ⟨word, hword, h.tells⟩

theorem ofWord (h : IsWord a) : Conveys a false false :=
  of_passes ⟨_, h.quiet, .nameChars h.chars⟩

theorem inside (h : Conveys a throws absorbs) : TellsInside a throws := by
  obtain ⟨word, hword, h⟩ := h
  exact .of_tells h hword

theorem append (ha : Conveys a throws false) (hstart : StartsApart b)
    (hb : Conveys b throws' absorbs) : Conveys (a ++ b) (throws || throws') absorbs := by
  obtain ⟨word, hword, ha⟩ := ha
  obtain ⟨word', hword', hb⟩ := hb
  exact ⟨word', hword', by simpa using ha.append hword hstart hb⟩

theorem append_of_closed (ha : Tells a throws absorbs []) (hb : Conveys b throws' absorbs') :
    Conveys (a ++ b) (throws || (!absorbs && throws')) (absorbs || absorbs') := by
  obtain ⟨word, hword, hb⟩ := hb
  exact ⟨word, hword, ha.append_of_closed hb⟩

theorem parenthesizedIf (condition : Bool) (h : Conveys a throws absorbs) :
    Conveys (parenthesizedIf condition a) throws (!condition && absorbs) := by
  cases condition with
  | false => exact h
  | true => exact of_tells h.inside.parentheses

end Conveys

namespace TellsInside

variable {level : Nat}

theorem elements {elements : List Expr}
    (h : ∀ e ∈ elements, Conveys (e.render level) e.mayThrow e.absorbs) :
    TellsInside (Code.commaSeparated (Expr.renderAll level elements))
      (Expr.anyMayThrow elements) := by
  rw [Expr.renderAll_eq_map, Expr.anyMayThrow_eq]
  exact commaSeparated fun e he => (h e he).inside

theorem entries {entries : List Entry}
    (hkey : ∀ a ∈ entries, Conveys (a.key.render level) a.key.mayThrow a.key.absorbs)
    (hvalue : ∀ a ∈ entries, Conveys (a.value.render level) a.value.mayThrow a.value.absorbs) :
    TellsInside (Code.commaSeparated (Entry.renderAll level entries))
      (Entry.anyMayThrow entries) := by
  rw [Entry.renderAll_eq_map, Entry.anyMayThrow_eq]
  exact commaSeparated fun a ha => separated (.inr rfl) (hkey a ha).inside (hvalue a ha).inside

theorem arguments {arguments : List Argument} (hlabel : ∀ a ∈ arguments, ∀ x ∈ a.label, IsWord x)
    (hvalue : ∀ a ∈ arguments, Conveys (a.value.render level) a.value.mayThrow a.value.absorbs) :
    TellsInside (Code.commaSeparated (Argument.renderAll level arguments))
      (Argument.anyMayThrow arguments) := by
  have h : ∀ a ∈ arguments, TellsInside (a.text level) a.value.mayThrow := by
    intro a ha
    have hinside := (hvalue a ha).inside
    obtain ⟨label, value⟩ := a
    cases label with
    | none => simpa [Argument.text, labelText] using hinside
    | some x =>
      have hword : TellsInside x false := (Conveys.ofWord (hlabel _ ha x rfl)).inside
      exact separated (.inr rfl) hword hinside
  rw [Argument.renderAll_eq_map, Argument.anyMayThrow_eq]
  exact commaSeparated h

end TellsInside

-- ---------------------------------------------------------------------------
-- Closures
-- ---------------------------------------------------------------------------

theorem Expr.conveys_closure {parameters : List String} {body : List Item}
    (h : (Expr.closure parameters body).Each Part.Tame) (level : Nat) :
    Conveys ((Expr.closure parameters body).render level) false false := by
  obtain ⟨hparameters, hbody⟩ := Expr.each_closure.mp h
  obtain ⟨rest, hhead, hrest⟩ := Leads.closureHead hparameters
  have htail := Item.leads_renderClosure body hbody level
  rw [Expr.render, hhead]
  refine ⟨[], by decide, fun q t stack => ?_⟩
  let outside := Scan.mk [] q t stack 0 (.code 0)
  have hopen : outside.read "\x7b" = outside.within 1 := by cases q <;> cases t <;> rfl
  rw [Scan.read_append, Scan.read_append, hopen, hrest outside 0, htail outside 0]
  cases q <;> cases t <;> rfl

theorem Argument.exists_of_isClosure {a : Argument} (h : a.isClosure) :
    ∃ parameters body, a = { value := .closure parameters body } := by
  unfold isClosure at h
  split at h
  · exact ⟨_, _, rfl⟩
  · cases h

theorem Argument.conveys_callTail {arguments : List Argument} {level : Nat}
    (hlabel : ∀ a ∈ arguments, ∀ x ∈ a.label, IsWord x)
    (hvalue : ∀ a ∈ arguments, Conveys (a.value.render level) a.value.mayThrow a.value.absorbs) :
    StartsApart (callTail (endInClosure arguments) (renderAll level arguments)) ∧
      Conveys (callTail (endInClosure arguments) (renderAll level arguments))
        (anyMayThrow arguments) false := by
  cases hends : endInClosure arguments with
  | false =>
    have hstart : StartsApart ("(" ++ commaSeparated (renderAll level arguments) ++ ")") :=
      StartsApart.append (.append (by decide) _) _
    exact ⟨hstart, .of_tells (TellsInside.arguments hlabel hvalue).parentheses⟩
  | true =>
    obtain ⟨a, hlast, hclosure⟩ := (Option.any_eq_true _ _).mp hends
    -- The closure throws nothing itself, so the arguments in parentheses decide.
    obtain ⟨first, rfl⟩ := List.getLast?_eq_some_iff.mp hlast
    obtain ⟨parameters, body, rfl⟩ := exists_of_isClosure hclosure
    obtain ⟨hlabel, -⟩ := List.forall_mem_append.mp hlabel
    obtain ⟨hfirst, hvalue⟩ := List.forall_mem_append.mp hvalue
    rw [List.forall_mem_singleton] at hvalue
    have htail : Conveys (" " ++ (Expr.closure parameters body).render level) false false := by
      simpa [Expr.absorbs] using Conveys.append_of_closed Tells.space hvalue
    have hstart : StartsApart (" " ++ (Expr.closure parameters body).render level) :=
      .append (by decide) _
    have htexts : renderAll level (first ++ [{ value := .closure parameters body }])
        = renderAll level first ++ [(Expr.closure parameters body).render level] := by
      simp [renderAll_eq_map, text, labelText]
    have hthrows : anyMayThrow (first ++ [{ value := .closure parameters body }])
        = anyMayThrow first := by
      simp
    rw [htexts, hthrows, callTail, if_pos rfl, List.dropLast_concat, List.getLastD_concat,
      String.append_assoc]
    cases first with
    | nil => exact ⟨hstart, htail⟩
    | cons a first =>
      have hparentheses := (TellsInside.arguments hlabel hfirst).parentheses
      have hopen : StartsApart ("(" ++ commaSeparated (renderAll level (a :: first)) ++ ")") :=
        .append (.append (by decide) _) _
      have hsome : (renderAll level (a :: first)).isEmpty = false := by simp [renderAll_eq_map]
      have hboth := (Conveys.of_tells hparentheses).append hstart htail
      rw [hsome, if_neg Bool.false_ne_true]
      exact ⟨hopen.append _, by rwa [Bool.or_false] at hboth⟩

-- ---------------------------------------------------------------------------
-- Expressions
-- ---------------------------------------------------------------------------

namespace Expr.Grouped

theorem conveys {e : Expr} (h : e.Grouped) (level : Nat) :
    Conveys (e.render level) e.mayThrow e.absorbs := by
  induction h with
  | name hx =>
    rw [render]
    exact .ofWord hx
  | type ht =>
    rw [render]
    exact .of_passes ht.passes
  | nil =>
    rw [render]
    exact .ofWord (by decide)
  | bool value =>
    rw [render]
    cases value <;> exact .ofWord (by decide)
  | int value =>
    rw [render]
    exact .of_passes (Passes.int value)
  | float value =>
    rw [render]
    exact .of_passes (Passes.float value)
  | string value =>
    rw [render]
    exact .of_passes ⟨[], by decide, .quoted value⟩
  | array _ ih =>
    rw [render]
    exact .of_tells (TellsInside.elements ih).squareBrackets
  | @dictionary entries _ _ ihkey ihvalue =>
    cases entries with
    | nil =>
      rw [render]
      exact .of_tells fun q t stack => by cases q <;> cases t <;> rfl
    | cons a entries =>
      rw [render]
      · exact .of_tells (TellsInside.entries ihkey ihvalue).squareBrackets
      · exact List.cons_ne_nil a entries
  | closure h => exact conveys_closure h level
  | @member base x _ hcloses hx ih =>
    -- Here and below `hcloses` says that what follows the receiver is not absorbed.
    have hbase := ih.parenthesizedIf base.needsParensAsReceiver
    rw [hcloses] at hbase
    have hdot : Conveys ("." ++ x) false false :=
      .append_of_closed (Tells.prefixOp .dot) (.ofWord hx)
    have hstart : StartsApart ("." ++ x) := .append (by decide) x
    rw [render, mayThrow, String.append_assoc]
    simpa [absorbs] using hbase.append hstart hdot
  | @call callee arguments _ hcloses hlabel _ ih ihvalue =>
    have hcallee := ih.parenthesizedIf callee.needsParensAsReceiver
    rw [hcloses] at hcallee
    obtain ⟨hstart, htail⟩ := Argument.conveys_callTail hlabel ihvalue
    rw [render, mayThrow]
    exact hcallee.append hstart htail
  | @index base position _ hcloses _ ih ihposition =>
    have hbase := ih.parenthesizedIf base.needsParensAsReceiver
    rw [hcloses] at hbase
    have hposition := Conveys.of_tells ihposition.inside.squareBrackets
    have hstart : StartsApart ("[" ++ position.render level ++ "]") :=
      .append (.append (by decide) _) _
    rw [render, mayThrow]
    simpa [absorbs, String.append_assoc] using hbase.append hstart hposition
  | @prefixed op operand _ ih =>
    have hoperand := ih.parenthesizedIf (op.groupsOperand && operand.needsParensAsOperand)
    have h := Conveys.append_of_closed (Tells.prefixOp op) hoperand
    rw [render]
    cases op <;> simpa [mayThrow, absorbs] using h
  | @infixed left right op _ hcloses _ ihleft ihright =>
    have hleft := ihleft.parenthesizedIf left.needsParensAsOperand
    rw [hcloses] at hleft
    have hright := Conveys.append_of_closed (Tells.infixOp op)
      (ihright.parenthesizedIf right.needsParensAsOperand)
    have hstart : StartsApart (" " ++ op.symbol ++ " ") := .append (.append (by decide) _) _
    have h := hleft.append (hstart.append _) hright
    rw [render]
    simpa [mayThrow, absorbs, String.append_assoc] using h
  | @optionalChain base _ hcloses ih =>
    have hbase := ih.parenthesizedIf base.needsParensAsReceiver
    rw [hcloses] at hbase
    have hmark : Conveys "?" false false :=
      .of_tells fun q t stack => by cases q <;> cases t <;> rfl
    rw [render, mayThrow]
    simpa [absorbs] using hbase.append (by decide) hmark
  | @forceUnwrap base _ hcloses ih =>
    have hbase := ih.parenthesizedIf base.needsParensAsReceiver
    rw [hcloses] at hbase
    have hmark : Conveys "!" false false := .of_tells (Tells.prefixOp .not)
    rw [render, mayThrow]
    simpa [absorbs] using hbase.append (by decide) hmark
  | tuple hlabel _ ihvalue =>
    rw [render]
    exact .of_tells (TellsInside.arguments hlabel ihvalue).parentheses

end Expr.Grouped

/-- The scan of the text of such an expression finds out whether it throws. -/
theorem Expr.Grouped.throwsByText {e : Expr} (h : e.Grouped) :
    throwsByText e.text = e.mayThrow := by
  obtain ⟨word, -, htells⟩ := h.conveys 0
  simp [Code.throwsByText, Expr.text, htells false false []]

/-- Of one text, expressions throw alike. -/
theorem mayThrow_eq_of_text_eq {e e' : Expr} (h : e.Grouped) (h' : e'.Grouped)
    (htext : e.text = e'.text) : e.mayThrow = e'.mayThrow := by
  rw [← h.throwsByText, ← h'.throwsByText, htext]

theorem mayThrow_eq_of_text_eq_try :
    let inside := Expr.infixed (.prefixed .tryThrowing (.name "a")) .plus (.name "b")
    let around := Expr.prefixed .tryThrowing (.infixed (.name "a") .plus (.name "b"))
    inside.Grouped ∧ around.Grouped ∧ inside.text = around.text ∧
      inside.mayThrow = around.mayThrow := by
  intro inside around
  have ha : (Expr.name "a").Grouped := .name (by decide)
  have hb : (Expr.name "b").Grouped := .name (by decide)
  have hinside : inside.Grouped := .infixed (.prefixed ha) rfl hb
  have haround : around.Grouped := .prefixed (.infixed ha rfl hb)
  exact ⟨hinside, haround, rfl, mayThrow_eq_of_text_eq hinside haround rfl⟩

def alternativeThatThrows (a : Expr) : Expr :=
  a.orElse (.call (.name "f") [.unlabelled (.tryThrowing (.call (.name "b") []))])

/-- In the text `try?` absorbs the whole alternative, in the tree its first operand. -/
theorem mayThrow_ne_of_text_eq :
    let inside := alternativeThatThrows (.prefixed .tryOptional (.name "a"))
    let around := Expr.prefixed .tryOptional (alternativeThatThrows (.name "a"))
    inside.text = around.text ∧ inside.mayThrow = true ∧ around.mayThrow = false :=
  ⟨rfl, rfl, rfl⟩

end EntityGen.Code
