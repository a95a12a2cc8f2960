import EntityGen.Proofs.Code.Parts

/-!
# Names that declarations introduce

Cases of enumerations, properties, functions, bindings of optionals and bindings
of patterns introduce names. Wherever code introduces one, at any depth, its text
has the name after the word that introduces it. Only the name of a case is
written in backquotes if it is a keyword.
-/

namespace EntityGen.Code

-- ---------------------------------------------------------------------------
-- Introductions
-- ---------------------------------------------------------------------------

inductive IntroductionKind where
  | enumCase
  | property (isImmutable : Bool)
  | function
  | optionalBinding
  | patternBinding
  deriving DecidableEq

def IntroductionKind.word : IntroductionKind → String
  | .enumCase => "case "
  | .property isImmutable => if isImmutable then "let " else "var "
  | .function => "func "
  | .optionalBinding | .patternBinding => "let "

structure Introduction where
  kind : IntroductionKind
  name : String
  deriving DecidableEq

namespace Introduction

def written (i : Introduction) : String :=
  match i.kind with
  | .enumCase => declaredName i.name
  | _ => i.name

def text (i : Introduction) : String := i.kind.word ++ i.written

/-- No keyword is written in the place of the name. -/
def IsValid (i : Introduction) : Prop := i.written ∉ keywords

instance : DecidablePred IsValid := fun _ => inferInstanceAs (Decidable (¬_))

end Introduction

theorem declaredName_not_mem_keywords (name : String) : declaredName name ∉ keywords := by
  have hquoted : ∀ name ∈ keywords, declaredName name ∉ keywords := by decide +kernel
  by_cases hname : name ∈ keywords
  · exact hquoted name hname
  · rw [declaredName, if_neg hname]
    exact hname

theorem Introduction.isValid_iff (i : Introduction) :
    i.IsValid ↔ i.kind = .enumCase ∨ i.name ∉ keywords := by
  obtain ⟨kind, name⟩ := i
  cases kind with
  | enumCase => simpa [IsValid, written] using declaredName_not_mem_keywords name
  | property | function | optionalBinding | patternBinding => simp [IsValid, written]

def Condition.introductions : Condition → List Introduction
  | .test _ => []
  | .binding name _ => [{ kind := .optionalBinding, name }]

def Pattern.introductions : Pattern → List Introduction
  | .default | .tag _ | .value _ => []
  | .bindings _ bound => bound.map fun name => { kind := .patternBinding, name }

/-- What a part introduces itself, not the parts of it. -/
def Part.introductions : Part → List Introduction
  | .item (.enumCase decl) => [{ kind := .enumCase, name := decl.name }]
  | .item (.property decl) => [{ kind := .property decl.var.isImmutable, name := decl.var.name }]
  | .item (.function decl) =>
    match decl.kind with
    | .named name => [{ kind := .function, name }]
    | _ => []
  | .item (.branch conditions _ _) | .item (.guard conditions _) =>
    conditions.flatMap Condition.introductions
  | .item (.switch _ cases) => cases.flatMap fun c => c.pattern.introductions
  | _ => []

def Part.introductionsOf (parts : List Part) : List Introduction := parts.flatMap introductions

-- ---------------------------------------------------------------------------
-- Texts with introductions
-- ---------------------------------------------------------------------------

def Introduction.In (i : Introduction) (x : String) : Prop := i.text.toList <:+: x.toList

def Shows (introduced : List Introduction) (x : String) : Prop := ∀ i ∈ introduced, i.In x

/-- Each of the introductions stands in one of the texts. -/
def ShownAmong (introduced : List Introduction) (texts : List String) : Prop :=
  ∀ i ∈ introduced, ∃ x ∈ texts, i.In x

section
variable {i : Introduction} {introduced more : List Introduction} {x : String} {texts : List String}

namespace Introduction.In

theorem self (i : Introduction) : i.In i.text := List.infix_rfl

theorem left (h : i.In x) (y : String) : i.In (x ++ y) := by
  rw [In, String.toList_append]
  exact h.trans (List.prefix_append _ _).isInfix

theorem right (h : i.In x) (y : String) : i.In (y ++ x) := by
  rw [In, String.toList_append]
  exact h.trans (List.suffix_append _ _).isInfix

theorem commaSeparated (hx : x ∈ texts) (h : i.In x) : i.In (commaSeparated texts) := by
  induction texts with
  | nil => cases hx
  | cons y texts ih =>
    cases texts with
    | nil =>
      obtain rfl := List.mem_singleton.mp hx
      simpa [Code.commaSeparated] using h
    | cons z texts =>
      rw [Code.commaSeparated, String.intercalate_cons_cons]
      rcases List.mem_cons.mp hx with rfl | hx
      · exact (h.left _).left _
      · exact (ih hx).right _

end Introduction.In

namespace Shows

theorem nil : Shows [] x := nofun

theorem singleton (h : i.In x) : Shows [i] x := List.forall_mem_singleton.mpr h

theorem append (h : Shows introduced x) (hmore : Shows more x) : Shows (introduced ++ more) x :=
  List.forall_mem_append.mpr ⟨h, hmore⟩

theorem left (h : Shows introduced x) (y : String) : Shows introduced (x ++ y) :=
  fun i hi => (h i hi).left y

theorem right (h : Shows introduced x) (y : String) : Shows introduced (y ++ x) :=
  fun i hi => (h i hi).right y

theorem inside (h : Shows introduced x) (a b : String) : Shows introduced (a ++ x ++ b) :=
  (h.right a).left b

theorem fullLine (h : Shows introduced x) (level : Nat) : Shows introduced (fullLine level x) :=
  h.inside _ _

theorem parenthesizedIf (condition : Bool) (h : Shows introduced x) :
    Shows introduced (parenthesizedIf condition x) := by
  cases condition with
  | false => exact h
  | true => exact h.inside "(" ")"

section
open EntityGen.Code.Part (introductionsOf)
variable {parts rest : List Part}

theorem parts_cons {part : Part} (h : Shows part.introductions x)
    (hparts : Shows (introductionsOf parts) x) : Shows (introductionsOf (part :: parts)) x := by
  rw [introductionsOf, List.flatMap_cons]
  exact h.append hparts

theorem parts_append (h : Shows (introductionsOf parts) x)
    (hrest : Shows (introductionsOf rest) x) : Shows (introductionsOf (parts ++ rest)) x := by
  rw [introductionsOf, List.flatMap_append]
  exact h.append hrest

theorem expr {e : Expr} (h : Shows (introductionsOf parts) x) :
    Shows (introductionsOf (.expr e :: parts)) x :=
  parts_cons nil h

/-- An empty body leaves nothing between the braces, and introduces nothing. -/
theorem braced {level : Nat} {items : List Item}
    (h : Shows (introductionsOf (Item.partsOf items)) x) :
    Shows (introductionsOf (Item.partsOf items)) (braced level items.isEmpty x) := by
  cases items with
  | nil => exact nil
  | cons item items => exact h.inside _ _

end

end Shows

namespace ShownAmong

theorem nil : ShownAmong [] texts := nofun

theorem head (h : Shows introduced x) : ShownAmong introduced (x :: texts) :=
  fun i hi => ⟨x, List.mem_cons_self, h i hi⟩

theorem tail (h : ShownAmong introduced texts) : ShownAmong introduced (x :: texts) := by
  intro i hi
  obtain ⟨y, hy, hin⟩ := h i hi
  exact ⟨y, List.mem_cons_of_mem x hy, hin⟩

theorem append (h : ShownAmong introduced texts) (hmore : ShownAmong more texts) :
    ShownAmong (introduced ++ more) texts :=
  List.forall_mem_append.mpr ⟨h, hmore⟩

theorem parts_cons {parts rest : List Part} (h : Shows (Part.introductionsOf parts) x)
    (hrest : ShownAmong (Part.introductionsOf rest) texts) :
    ShownAmong (Part.introductionsOf (parts ++ rest)) (x :: texts) := by
  rw [Part.introductionsOf, List.flatMap_append]
  exact (head h).append hrest.tail

theorem commaSeparated (h : ShownAmong introduced texts) :
    Shows introduced (commaSeparated texts) := by
  intro i hi
  obtain ⟨x, hx, hin⟩ := h i hi
  exact hin.commaSeparated hx

theorem callTail (endsInClosure : Bool) (h : ShownAmong introduced texts) :
    Shows introduced (callTail endsInClosure texts) := by
  intro i hi
  obtain ⟨x, hx, hin⟩ := h i hi
  unfold Code.callTail
  split
  · rcases List.eq_nil_or_concat texts with rfl | ⟨first, last, rfl⟩
    · cases hx
    · rw [List.concat_eq_append] at hx ⊢
      rw [List.dropLast_concat, List.getLastD_concat]
      rw [List.mem_append, List.mem_singleton] at hx
      rcases hx with hx | rfl
      · refine Introduction.In.left (Introduction.In.left ?_ _) _
        rw [if_neg]
        · exact ((hin.commaSeparated hx).right _).left _
        · intro hnil
          rw [List.isEmpty_iff.mp hnil] at hx
          cases hx
      · exact hin.right _
  · exact ((hin.commaSeparated hx).right _).left _

end ShownAmong

end

-- ---------------------------------------------------------------------------
-- What a declaration, a condition and a pattern introduce themselves
-- ---------------------------------------------------------------------------

section
variable {level : Nat}

theorem Variable.introduction_in (v : Variable) :
    ({ kind := .property v.isImmutable, name := v.name } : Introduction).In v.render := by
  have hname : ({ kind := .property v.isImmutable, name := v.name } : Introduction).In
      ((if v.isImmutable then "let " else "var ") ++ v.name) := .self _
  unfold Variable.render
  simpa only [String.append_assoc] using (((hname.right _).right _).right _).left _

theorem Property.shows_introductions (decl : Property) :
    Shows (Part.introductions (.item (.property decl))) (decl.render level) := by
  obtain ⟨var, access, setterAccess, value, body, isObjC⟩ := decl
  refine .singleton ?_
  unfold Property.render
  exact ((var.introduction_in.right _).left _).left _

theorem Function.shows_introductions (f : Function) :
    Shows (Part.introductions (.item (.function f))) (f.render level) := by
  obtain ⟨kind, access, parameters, genericParameters, constraints, isThrowing, isAsync, isStatic,
    isOverride, isMutating, hasDiscardableResult, result, body⟩ := f
  cases kind with
  | initializer | operator | subscript => exact .nil
  | named name =>
    refine .singleton ?_
    have hname : ({ kind := .function, name } : Introduction).In (FunctionKind.named name).render :=
      .self _
    unfold Function.render
    iterate 9 apply Introduction.In.left
    exact hname.right _

theorem EnumCase.shows_introductions (decl : EnumCase) :
    Shows (Part.introductions (.item (.enumCase decl))) (decl.render level) := by
  obtain ⟨name, associated, rawValue⟩ := decl
  refine .singleton ?_
  have hname : ({ kind := .enumCase, name } : Introduction).In ("case " ++ declaredName name) :=
    .self _
  have hcase : ({ kind := .enumCase, name } : Introduction).In
      (indent level ++ "case " ++ declaredName name) := by
    rw [String.append_assoc]
    exact hname.right _
  unfold EnumCase.render
  exact (hcase.left _).left _

theorem Condition.shows_introductions (c : Condition) :
    Shows c.introductions (c.render level) := by
  cases c with
  | test value => exact .nil
  | binding name value =>
    refine .singleton ?_
    have hname : ({ kind := .optionalBinding, name } : Introduction).In ("let " ++ name) := .self _
    exact (hname.left _).left _

theorem Condition.shown_introductions (conditions : List Condition) (level : Nat) :
    ShownAmong (conditions.flatMap Condition.introductions)
      (Condition.renderAll level conditions) := by
  induction conditions with
  | nil => exact .nil
  | cons c conditions ih =>
    rw [List.flatMap_cons]
    exact (ShownAmong.head c.shows_introductions).append ih.tail

theorem Pattern.shows_introductions (p : Pattern) : Shows p.introductions (p.render level) := by
  cases p with
  | default | tag | value => exact .nil
  | bindings name bound =>
    have hbound : ShownAmong (Pattern.bindings name bound).introductions
        (bound.map fun v => "let " ++ v) := by
      rintro i hi
      obtain ⟨v, hv, rfl⟩ := List.mem_map.mp hi
      exact ⟨_, List.mem_map_of_mem hv, .self _⟩
    rw [Pattern.render]
    exact hbound.commaSeparated.inside _ _

theorem SwitchCase.shows_introductions (cases : List SwitchCase) :
    Shows (cases.flatMap fun c => c.pattern.introductions)
      (SwitchCase.renderAll level cases) := by
  induction cases with
  | nil => exact .nil
  | cons c cases ih =>
    obtain ⟨pattern, body⟩ := c
    rw [List.flatMap_cons, SwitchCase.renderAll]
    exact (((pattern.shows_introductions.fullLine level).left _).left _).append (ih.right _)

end

-- ---------------------------------------------------------------------------
-- Code
-- ---------------------------------------------------------------------------

section
open EntityGen.Code.Part (introductionsOf)

mutual
/-- Whatever is introduced in an expression stands in its text. -/
theorem Expr.shows (e : Expr) (level : Nat) :
    Shows (introductionsOf e.parts) (e.render level) := by
  match e with
  | .name _ | .type _ | .nil | .bool _ | .int _ | .float _ | .string _ | .dictionary [] =>
    exact .expr .nil
  | .array elements =>
    rw [Expr.parts, Expr.render]
    exact .expr ((Expr.shown_renderAll elements level).commaSeparated.inside _ _)
  | .dictionary (entry :: entries) =>
    rw [Expr.parts, Expr.render]
    · exact .expr ((Entry.shown_renderAll (entry :: entries) level).commaSeparated.inside _ _)
    · exact List.cons_ne_nil entry entries
  | .closure parameters body =>
    rw [Expr.parts, Expr.render]
    exact .expr ((Item.shows_renderClosure body level).right _)
  | .member base name =>
    rw [Expr.parts, Expr.render]
    exact .expr ((((Expr.shows base level).parenthesizedIf _).left _).left _)
  | .call callee arguments =>
    rw [Expr.parts, Expr.render]
    refine .expr (.parts_append ?_ ?_)
    · exact ((Expr.shows callee level).parenthesizedIf _).left _
    · exact ((Argument.shown_renderAll arguments level).callTail _).right _
  | .index base position =>
    rw [Expr.parts, Expr.render]
    refine .expr (.parts_append ?_ ?_)
    · exact ((((Expr.shows base level).parenthesizedIf _).left _).left _).left _
    · exact ((Expr.shows position level).right _).left _
  | .prefixed op operand =>
    rw [Expr.parts, Expr.render]
    exact .expr (((Expr.shows operand level).parenthesizedIf _).right _)
  | .infixed left op right =>
    rw [Expr.parts, Expr.render]
    refine .expr (.parts_append ?_ ?_)
    · exact (((((Expr.shows left level).parenthesizedIf _).left _).left _).left _).left _
    · exact ((Expr.shows right level).parenthesizedIf _).right _
  | .optionalChain base | .forceUnwrap base =>
    rw [Expr.parts, Expr.render]
    exact .expr (((Expr.shows base level).parenthesizedIf _).left _)
  | .tuple elements =>
    rw [Expr.parts, Expr.render]
    exact .expr ((Argument.shown_renderAll elements level).commaSeparated.inside _ _)

theorem Expr.shown_renderAll (es : List Expr) (level : Nat) :
    ShownAmong (introductionsOf (Expr.partsOf es)) (Expr.renderAll level es) := by
  match es with
  | [] => exact .nil
  | e :: es => exact .parts_cons (Expr.shows e level) (Expr.shown_renderAll es level)

theorem Entry.shown_renderAll (entries : List Entry) (level : Nat) :
    ShownAmong (introductionsOf (Entry.partsOf entries)) (Entry.renderAll level entries) := by
  match entries with
  | [] => exact .nil
  | .mk key value :: entries =>
    rw [Entry.partsOf, ← List.append_assoc]
    exact .parts_cons (.parts_append (((Expr.shows key level).left _).left _)
      ((Expr.shows value level).right _)) (Entry.shown_renderAll entries level)

theorem Argument.shown_renderAll (arguments : List Argument) (level : Nat) :
    ShownAmong (introductionsOf (Argument.partsOf arguments))
      (Argument.renderAll level arguments) := by
  match arguments with
  | [] => exact .nil
  | .mk label value :: arguments =>
    exact .parts_cons ((Expr.shows value level).right _) (Argument.shown_renderAll arguments level)

theorem Item.shows_renderClosure (items : List Item) (level : Nat) :
    Shows (introductionsOf (Item.partsOf items)) (Item.renderClosure level items) := by
  match items with
  | [] => exact .nil
  | [item] =>
    rw [Item.partsOf, Item.renderClosure]
    refine .parts_append ?_ .nil
    split
    · next text htext => exact (Item.shows_renderInline item htext).inside _ _
    · exact (((Item.shows item (level + 1)).right _).left _).left _
  | item :: next :: items =>
    rw [Item.partsOf, Item.renderClosure]
    · have hitems := (Item.shows_renderAll (next :: items) (level + 1)).right
        (item.render (level + 1))
      have htexts := Shows.parts_append ((Item.shows item (level + 1)).left _) hitems
      exact ((htexts.right _).left _).left _
    · rintro ⟨⟩

theorem Item.shows_renderInline (item : Item) {level : Nat} {text : String}
    (htext : item.renderInline? level = some text) :
    Shows (introductionsOf item.parts) text := by
  match item with
  | .expr value | .returns (some value) =>
    obtain ⟨-, rfl⟩ : value.spansLines = false ∧ value.render level = text := by
      simpa [Item.renderInline?] using htext
    rw [Item.parts]
    exact .parts_cons .nil (Expr.shows value level)
  | .returns none | .type _ | .extension _ | .property _ | .function _ | .typeAlias _
  | .enumCase _ | .comment _ | .blank | .branch .. | .guard .. | .switch .. | .doCatch ..
  | .assign .. => cases htext

theorem Item.shows (item : Item) (level : Nat) :
    Shows (introductionsOf item.parts) (item.render level) := by
  match item with
  | .typeAlias _ | .comment _ | .blank | .returns none => exact .parts_cons .nil .nil
  | .type decl =>
    rw [Item.parts, Item.render]
    exact .parts_cons .nil (TypeDecl.shows decl level)
  | .extension decl =>
    rw [Item.parts, Item.render]
    exact .parts_cons .nil (Extension.shows decl level)
  | .property decl =>
    rw [Item.parts, Item.render]
    exact .parts_cons decl.shows_introductions (Property.shows decl level)
  | .function decl =>
    rw [Item.parts, Item.render]
    exact .parts_cons decl.shows_introductions (Function.shows decl level)
  | .enumCase decl =>
    rw [Item.parts, Item.render]
    exact .parts_cons decl.shows_introductions (EnumCase.shows decl level)
  | .branch conditions body none =>
    have hown := (Condition.shown_introductions conditions level).commaSeparated
    have hconditions := (Condition.shown_renderAll conditions level).commaSeparated
    rw [Item.parts, Item.render]
    refine .parts_cons ?_ (.parts_append ?_ ?_)
    · exact (((hown.inside _ _).fullLine level).left _).left _
    · exact (((hconditions.inside _ _).fullLine level).left _).left _
    · exact ((Item.shows_renderAll body (level + 1)).right _).left _
  | .branch conditions body (some orElse) =>
    have hown := (Condition.shown_introductions conditions level).commaSeparated
    have hconditions := (Condition.shown_renderAll conditions level).commaSeparated
    rw [Item.parts, Item.render]
    refine .parts_cons ?_ (.parts_append ?_ (.parts_append ?_ ?_))
    · exact (((((hown.inside _ _).fullLine level).left _).left _).left _).left _
    · exact (((((hconditions.inside _ _).fullLine level).left _).left _).left _).left _
    · exact ((((Item.shows_renderAll body (level + 1)).right _).left _).left _).left _
    · exact ((Item.shows_renderAll orElse (level + 1)).right _).left _
  | .guard conditions orElse =>
    have hown := (Condition.shown_introductions conditions level).commaSeparated
    have hconditions := (Condition.shown_renderAll conditions level).commaSeparated
    rw [Item.parts, Item.render]
    refine .parts_cons ?_ (.parts_append ?_ ?_)
    · exact ((hown.right _).left _).left _
    · exact ((hconditions.right _).left _).left _
    · exact (Item.shows_renderElse orElse level).right _
  | .switch subject cases =>
    rw [Item.parts, Item.render]
    refine .parts_cons ?_ (.parts_append ?_ ?_)
    · exact ((SwitchCase.shows_introductions cases).right _).left _
    · exact ((((Expr.shows subject level).inside _ _).fullLine level).left _).left _
    · exact ((SwitchCase.shows_renderAll cases level).right _).left _
  | .doCatch body catches =>
    rw [Item.parts, Item.render]
    refine .parts_cons .nil (.parts_append ?_ ?_)
    · exact (((Item.shows_renderAll body (level + 1)).right _).left _).left _
    · exact ((Catch.shows_renderAll catches level).right _).left _
  | .assign target value =>
    rw [Item.parts, Item.render]
    refine .parts_cons .nil (Shows.fullLine (.parts_append ?_ ?_) level)
    · exact ((Expr.shows target level).left _).left _
    · exact (Expr.shows value level).right _
  | .returns (some value) =>
    rw [Item.parts, Item.render]
    exact .parts_cons .nil (((Expr.shows value level).right _).fullLine level)
  | .expr value =>
    rw [Item.parts, Item.render]
    exact .parts_cons .nil ((Expr.shows value level).fullLine level)

theorem Item.shows_renderAll (items : List Item) (level : Nat) :
    Shows (introductionsOf (Item.partsOf items)) (Item.renderAll level items) := by
  match items with
  | [] => exact .nil
  | item :: items =>
    exact .parts_append ((Item.shows item level).left _)
      ((Item.shows_renderAll items level).right _)

theorem Item.shows_renderElse (items : List Item) (level : Nat) :
    Shows (introductionsOf (Item.partsOf items)) (Item.renderElse level items) := by
  match items with
  | [] => exact .nil
  | [item] =>
    rw [Item.partsOf, Item.renderElse]
    refine .parts_append ?_ .nil
    split
    · next text htext => exact (Item.shows_renderReturn item htext).inside _ _
    · exact (Item.shows item (level + 1)).inside _ _
  | item :: next :: items =>
    rw [Item.partsOf, Item.renderElse]
    · have hitems := (Item.shows_renderAll (next :: items) (level + 1)).right
        (item.render (level + 1))
      exact (Shows.parts_append ((Item.shows item (level + 1)).left _) hitems).inside _ _
    · rintro ⟨⟩

theorem Item.shows_renderReturn (item : Item) {level : Nat} {text : String}
    (htext : item.renderReturn? level = some text) :
    Shows (introductionsOf item.parts) text := by
  match item with
  | .returns none => exact .parts_cons .nil .nil
  | .returns (some value) =>
    cases htext
    rw [Item.parts]
    exact .parts_cons .nil ((Expr.shows value level).right _)
  | .expr _ | .type _ | .extension _ | .property _ | .function _ | .typeAlias _
  | .enumCase _ | .comment _ | .blank | .branch .. | .guard .. | .switch .. | .doCatch ..
  | .assign .. => cases htext

theorem TypeDecl.shows (decl : TypeDecl) (level : Nat) :
    Shows (introductionsOf decl.parts) (decl.render level) := by
  match decl with
  | .mk _ _ _ _ body _ => exact (Item.shows_renderAll body (level + 1)).braced.right _

theorem Extension.shows (decl : Extension) (level : Nat) :
    Shows (introductionsOf decl.parts) (decl.render level) := by
  match decl with
  | .mk _ _ _ _ body => exact (Item.shows_renderAll body (level + 1)).braced.right _

theorem Property.shows (decl : Property) (level : Nat) :
    Shows (introductionsOf decl.parts) (decl.render level) := by
  match decl with
  | .mk _ _ _ value body _ =>
    unfold Property.parts Property.render
    refine .parts_append ?_ ?_
    · match value with
      | none => exact .nil
      | some value => exact (((Expr.shows value level).right _).right _).left _
    · match body with
      | none => exact .nil
      | some body => exact (Item.shows_renderAll body (level + 1)).braced.right _

theorem Parameter.shown_renderAll (parameters : List Parameter) (level : Nat) :
    ShownAmong (introductionsOf (Parameter.partsOf parameters))
      (Parameter.renderAll level parameters) := by
  match parameters with
  | [] => exact .nil
  | .mk _ _ _ none _ _ :: parameters =>
    rw [Parameter.partsOf, Parameter.renderAll]
    exact (Parameter.shown_renderAll parameters level).tail
  | .mk _ _ _ (some value) _ _ :: parameters =>
    rw [Parameter.partsOf, Parameter.renderAll]
    refine .parts_cons ?_ (Parameter.shown_renderAll parameters level)
    unfold Parameter.render
    exact ((Expr.shows value level).right _).right _

theorem Function.shows (f : Function) (level : Nat) :
    Shows (introductionsOf f.parts) (f.render level) := by
  match f with
  | .mk _ _ parameters _ _ _ _ _ _ _ _ _ body =>
    have hparameters := (Parameter.shown_renderAll parameters level).commaSeparated
    unfold Function.parts Function.render
    refine .parts_append ?_ ?_
    · exact (((((((hparameters.right _).left _).left _).left _).left _).left _).left _)
    · exact (Item.shows_renderAll body (level + 1)).braced.right _

theorem EnumCase.shows (decl : EnumCase) (level : Nat) :
    Shows (introductionsOf decl.parts) (decl.render level) := by
  match decl with
  | .mk _ _ none => exact .nil
  | .mk _ _ (some value) =>
    rw [EnumCase.parts, EnumCase.render]
    exact ((Expr.shows value level).inside _ _).right _

theorem Condition.shown_renderAll (conditions : List Condition) (level : Nat) :
    ShownAmong (introductionsOf (Condition.partsOf conditions))
      (Condition.renderAll level conditions) := by
  match conditions with
  | [] => exact .nil
  | .test value :: conditions =>
    exact .parts_cons (Expr.shows value level) (Condition.shown_renderAll conditions level)
  | .binding _ value :: conditions =>
    exact .parts_cons ((Expr.shows value level).right _)
      (Condition.shown_renderAll conditions level)

theorem Pattern.shows (p : Pattern) (level : Nat) :
    Shows (introductionsOf p.parts) (p.render level) := by
  match p with
  | .default | .tag _ | .bindings .. => exact .nil
  | .value value => exact (Expr.shows value level).inside _ _

theorem SwitchCase.shows_renderAll (cases : List SwitchCase) (level : Nat) :
    Shows (introductionsOf (SwitchCase.partsOf cases)) (SwitchCase.renderAll level cases) := by
  match cases with
  | [] => exact .nil
  | .mk pattern [] :: cases =>
    rw [SwitchCase.partsOf, SwitchCase.renderAll]
    refine .parts_append ?_ (.parts_append .nil ?_)
    · exact (((Pattern.shows pattern level).fullLine level).left _).left _
    · exact (SwitchCase.shows_renderAll cases level).right _
  | .mk pattern (item :: items) :: cases =>
    rw [SwitchCase.partsOf, SwitchCase.renderAll]
    refine .parts_append ?_ (.parts_append ?_ ?_)
    · exact (((Pattern.shows pattern level).fullLine level).left _).left _
    · exact ((Item.shows_renderAll (item :: items) (level + 1)).right _).left _
    · exact (SwitchCase.shows_renderAll cases level).right _

theorem Catch.shows_renderAll (catches : List Catch) (level : Nat) :
    Shows (introductionsOf (Catch.partsOf catches)) (Catch.renderAll level catches) := by
  match catches with
  | [] => exact .nil
  | .mk none body :: catches =>
    rw [Catch.partsOf, Catch.renderAll]
    refine .parts_append ?_ ?_
    · exact ((Item.shows_renderAll body (level + 1)).right _).left _
    · exact (Catch.shows_renderAll catches level).right _
  | .mk (some pattern) body :: catches =>
    have hpattern := ((Expr.shows pattern level).right " ").inside "\x7d catch" " \x7b"
    rw [Catch.partsOf, Catch.renderAll]
    refine .parts_append ?_ (.parts_append ?_ ?_)
    · exact ((hpattern.fullLine level).left _).left _
    · exact ((Item.shows_renderAll body (level + 1)).right _).left _
    · exact (Catch.shows_renderAll catches level).right _
end

end

-- ---------------------------------------------------------------------------
-- Files
-- ---------------------------------------------------------------------------

namespace SourceFile

def introductions (file : SourceFile) : List Introduction :=
  Part.introductionsOf (Item.partsOf file.body)

variable {file : SourceFile} {i : Introduction}

theorem introduction_in (h : i ∈ file.introductions) : i.In file.render :=
  (Item.shows_renderAll file.body 0 i h).right _

theorem mem_introductions {decl : TypeDecl} {item : Item} (hdecl : .type decl ∈ file.body)
    (hitem : item ∈ decl.body) (hi : i ∈ Part.introductions (.item item)) :
    i ∈ file.introductions := by
  obtain ⟨_, _, _, _, body, _⟩ := decl
  have hpart : .item item ∈ Item.partsOf body := Item.mem_partsOf.mpr ⟨item, hitem, item.mem_parts⟩
  refine List.mem_flatMap.mpr ⟨.item item, Item.mem_partsOf.mpr ⟨_, hdecl, ?_⟩, hi⟩
  exact List.mem_cons_of_mem _ hpart

end SourceFile

end EntityGen.Code
