import EntityGen.Code.Effects
import EntityGen.Code.SourceFile

/-!
# The parts of code

`parts` lists every expression and every item of a piece of code at any depth,
the piece itself first: bodies, nested declarations, defaults of parameters and
closures included. What emitted code refers to, calls, assigns or declares is
read off this list.
-/

namespace EntityGen.Code

theorem forall_mem_nil_iff {α : Type} {p : α → Prop} : (∀ a ∈ ([] : List α), p a) ↔ True := by
  simp

inductive Part where
  | expr (e : Expr)
  | item (i : Item)

mutual
def Expr.parts : Expr → List Part
  | e@(.name _) | e@(.type _) | e@.nil | e@(.bool _) | e@(.int _) | e@(.float _)
  | e@(.string _) => [.expr e]
  | e@(.array elements) => .expr e :: Expr.partsOf elements
  | e@(.dictionary entries) => .expr e :: Entry.partsOf entries
  | e@(.closure _ body) => .expr e :: Item.partsOf body
  | e@(.member base _) | e@(.optionalChain base) | e@(.forceUnwrap base) => .expr e :: base.parts
  | e@(.call callee arguments) => .expr e :: (callee.parts ++ Argument.partsOf arguments)
  | e@(.index base position) => .expr e :: (base.parts ++ position.parts)
  | e@(.prefixed _ operand) => .expr e :: operand.parts
  | e@(.infixed left _ right) => .expr e :: (left.parts ++ right.parts)
  | e@(.tuple elements) => .expr e :: Argument.partsOf elements

def Expr.partsOf : List Expr → List Part
  | [] => []
  | e :: es => e.parts ++ Expr.partsOf es

def Entry.partsOf : List Entry → List Part
  | [] => []
  | .mk key value :: entries => key.parts ++ (value.parts ++ Entry.partsOf entries)

def Argument.partsOf : List Argument → List Part
  | [] => []
  | .mk _ value :: arguments => value.parts ++ Argument.partsOf arguments

def Item.parts : Item → List Part
  | i@(.typeAlias _) | i@(.comment _) | i@.blank | i@(.returns none) => [.item i]
  | i@(.type decl) => .item i :: decl.parts
  | i@(.extension decl) => .item i :: decl.parts
  | i@(.property decl) => .item i :: decl.parts
  | i@(.function decl) => .item i :: decl.parts
  | i@(.enumCase decl) => .item i :: decl.parts
  | i@(.branch conditions body none) =>
    .item i :: (Condition.partsOf conditions ++ Item.partsOf body)
  | i@(.branch conditions body (some orElse)) =>
    .item i :: (Condition.partsOf conditions ++ (Item.partsOf body ++ Item.partsOf orElse))
  | i@(.guard conditions orElse) =>
    .item i :: (Condition.partsOf conditions ++ Item.partsOf orElse)
  | i@(.switch subject cases) => .item i :: (subject.parts ++ SwitchCase.partsOf cases)
  | i@(.doCatch body catches) => .item i :: (Item.partsOf body ++ Catch.partsOf catches)
  | i@(.assign target value) => .item i :: (target.parts ++ value.parts)
  | i@(.returns (some value)) => .item i :: value.parts
  | i@(.expr value) => .item i :: value.parts

def Item.partsOf : List Item → List Part
  | [] => []
  | i :: is => i.parts ++ Item.partsOf is

def TypeDecl.parts : TypeDecl → List Part
  | .mk _ _ _ _ body _ => Item.partsOf body

def Extension.parts : Extension → List Part
  | .mk _ _ _ _ body => Item.partsOf body

def Property.parts : Property → List Part
  | .mk _ _ _ value body _ =>
    (match value with
     | none => []
     | some value => value.parts)
    ++ (match body with
        | none => []
        | some body => Item.partsOf body)

def Parameter.partsOf : List Parameter → List Part
  | [] => []
  | .mk _ _ _ none _ _ :: parameters => Parameter.partsOf parameters
  | .mk _ _ _ (some value) _ _ :: parameters => value.parts ++ Parameter.partsOf parameters

def Function.parts : Function → List Part
  | .mk _ _ parameters _ _ _ _ _ _ _ _ _ body =>
    Parameter.partsOf parameters ++ Item.partsOf body

def EnumCase.parts : EnumCase → List Part
  | .mk _ _ none => []
  | .mk _ _ (some value) => value.parts

def Condition.partsOf : List Condition → List Part
  | [] => []
  | .test value :: conditions => value.parts ++ Condition.partsOf conditions
  | .binding _ value :: conditions => value.parts ++ Condition.partsOf conditions

def Pattern.parts : Pattern → List Part
  | .default | .tag _ | .bindings _ _ => []
  | .value value => value.parts

def SwitchCase.partsOf : List SwitchCase → List Part
  | [] => []
  | .mk pattern body :: cases => pattern.parts ++ (Item.partsOf body ++ SwitchCase.partsOf cases)

def Catch.partsOf : List Catch → List Part
  | [] => []
  | .mk none body :: catches => Item.partsOf body ++ Catch.partsOf catches
  | .mk (some pattern) body :: catches =>
    pattern.parts ++ (Item.partsOf body ++ Catch.partsOf catches)
end

attribute [simp] Expr.parts Expr.partsOf Entry.partsOf Argument.partsOf Item.parts Item.partsOf
  TypeDecl.parts Extension.parts Property.parts Parameter.partsOf Function.parts EnumCase.parts
  Condition.partsOf Pattern.parts SwitchCase.partsOf Catch.partsOf

def Assigns (parts : List Part) (target value : Expr) : Prop := .item (.assign target value) ∈ parts

def Calls (parts : List Part) (method : String) : Prop :=
  ∃ base arguments, .expr (.call (.member base method) arguments) ∈ parts

-- Short forms are read as what they stand for.

attribute [simp] Argument.unlabelled Argument.labelled Expr.dot Expr.absent Expr.selfRef
  Expr.callEmpty Expr.method Expr.callClosure Expr.equals Expr.notEquals Expr.and Expr.or
  Expr.orElse Expr.tryThrowing Expr.tryOptional Expr.throwing Expr.awaiting Expr.addressOf
  Expr.negated TypeName.construct Item.constant Item.returning Item.assignOwn Property.withBody
  Function.named Function.initializer Function.operator

-- ---------------------------------------------------------------------------
-- Lists of parts
-- ---------------------------------------------------------------------------

section
variable {part : Part}

theorem Expr.mem_partsOf {es : List Expr} :
    part ∈ Expr.partsOf es ↔ ∃ e ∈ es, part ∈ e.parts := by
  induction es with
  | nil => simp [Expr.partsOf]
  | cons e es ih => simp [Expr.partsOf, ih]

theorem Argument.mem_partsOf {arguments : List Argument} :
    part ∈ Argument.partsOf arguments ↔ ∃ a ∈ arguments, part ∈ a.value.parts := by
  induction arguments with
  | nil => simp [Argument.partsOf]
  | cons a arguments ih =>
    obtain ⟨label, value⟩ := a
    simp [Argument.partsOf, ih]

theorem Item.mem_partsOf {items : List Item} :
    part ∈ Item.partsOf items ↔ ∃ i ∈ items, part ∈ i.parts := by
  induction items with
  | nil => simp [Item.partsOf]
  | cons i items ih => simp [Item.partsOf, ih]

theorem Item.mem_parts (i : Item) : .item i ∈ i.parts := by
  cases i with
  | branch _ _ orElse => cases orElse <;> exact List.mem_cons_self
  | returns value => cases value <;> exact List.mem_cons_self
  | type | extension | property | function | typeAlias | enumCase | comment | blank | guard
  | switch | doCatch | assign | expr => exact List.mem_cons_self

theorem Argument.partsOf_append (arguments arguments' : List Argument) :
    Argument.partsOf (arguments ++ arguments')
      = Argument.partsOf arguments ++ Argument.partsOf arguments' := by
  induction arguments with
  | nil => rfl
  | cons a arguments ih =>
    obtain ⟨label, value⟩ := a
    simp [Argument.partsOf, ih]

theorem Item.partsOf_append (items items' : List Item) :
    Item.partsOf (items ++ items') = Item.partsOf items ++ Item.partsOf items' := by
  induction items with
  | nil => rfl
  | cons i items ih => simp [Item.partsOf, ih]

end

-- ---------------------------------------------------------------------------
-- What holds of every part
-- ---------------------------------------------------------------------------

def Expr.Each (p : Part → Prop) (e : Expr) : Prop := ∀ part ∈ e.parts, p part

def Item.Each (p : Part → Prop) (i : Item) : Prop := ∀ part ∈ i.parts, p part

def Parameter.Each (p : Part → Prop) (parameter : Parameter) : Prop :=
  ∀ value, parameter.default = some value → value.Each p

def Condition.Each (p : Part → Prop) : Condition → Prop
  | .test value | .binding _ value => value.Each p

def Pattern.Each (p : Part → Prop) : Pattern → Prop
  | .default | .tag _ | .bindings _ _ => True
  | .value e => e.Each p


section
variable {p : Part → Prop} {e : Expr}

@[simp] theorem Parameter.each_mk {label : Option String} {name : String} {type : TypeName}
    {default : Option Expr} {isInOut isEscaping : Bool} :
    Parameter.Each p (.mk label name type default isInOut isEscaping) ↔
      ∀ value, default = some value → value.Each p := Iff.rfl

@[simp] theorem Condition.each_test : Condition.Each p (.test e) ↔ e.Each p := Iff.rfl

@[simp] theorem Condition.each_binding {name : String} :
    Condition.Each p (.binding name e) ↔ e.Each p := Iff.rfl

@[simp] theorem Pattern.each_default : Pattern.Each p .default := trivial

@[simp] theorem Pattern.each_tag {name : String} : Pattern.Each p (.tag name) := trivial

@[simp] theorem Pattern.each_bindings {name : String} {bound : List String} :
    Pattern.Each p (.bindings name bound) := trivial

@[simp] theorem Pattern.each_value : Pattern.Each p (.value e) ↔ e.Each p := Iff.rfl

theorem Expr.forall_mem_partsOf {es : List Expr} :
    (∀ part ∈ Expr.partsOf es, p part) ↔ ∀ e ∈ es, e.Each p := by
  simp only [Expr.mem_partsOf, Expr.Each]
  grind

theorem Argument.forall_mem_partsOf {arguments : List Argument} :
    (∀ part ∈ Argument.partsOf arguments, p part) ↔ ∀ a ∈ arguments, a.value.Each p := by
  simp only [Argument.mem_partsOf, Expr.Each]
  grind

theorem Entry.forall_mem_partsOf {entries : List Entry} :
    (∀ part ∈ Entry.partsOf entries, p part) ↔
      ∀ a ∈ entries, a.key.Each p ∧ a.value.Each p := by
  induction entries with
  | nil => simp [Entry.partsOf]
  | cons a entries ih =>
    obtain ⟨key, value⟩ := a
    simp only [Entry.partsOf, List.forall_mem_append, ih, List.forall_mem_cons, and_assoc,
      Expr.Each]

theorem Item.forall_mem_partsOf {items : List Item} :
    (∀ part ∈ Item.partsOf items, p part) ↔ ∀ i ∈ items, i.Each p := by
  simp only [Item.mem_partsOf, Item.Each]
  grind

theorem Parameter.forall_mem_partsOf {parameters : List Parameter} :
    (∀ part ∈ Parameter.partsOf parameters, p part) ↔
      ∀ parameter ∈ parameters, parameter.Each p := by
  induction parameters with
  | nil => simp [Parameter.partsOf]
  | cons parameter parameters ih =>
    obtain ⟨_, _, _, default, _, _⟩ := parameter
    cases default <;>
      simp [Parameter.partsOf, Parameter.Each, Expr.Each, ih, or_imp, forall_and]

theorem Condition.forall_mem_partsOf {conditions : List Condition} :
    (∀ part ∈ Condition.partsOf conditions, p part) ↔ ∀ c ∈ conditions, c.Each p := by
  induction conditions with
  | nil => simp [Condition.partsOf]
  | cons c conditions ih =>
    cases c <;> simp [Condition.partsOf, Condition.Each, Expr.Each, ih, or_imp, forall_and]

theorem SwitchCase.forall_mem_partsOf {cases : List SwitchCase} :
    (∀ part ∈ SwitchCase.partsOf cases, p part) ↔
      ∀ c ∈ cases, c.pattern.Each p ∧ ∀ i ∈ c.body, i.Each p := by
  induction cases with
  | nil => simp [SwitchCase.partsOf]
  | cons c cases ih =>
    obtain ⟨pattern, body⟩ := c
    simp only [SwitchCase.partsOf, List.forall_mem_append, Item.forall_mem_partsOf, ih,
      List.forall_mem_cons, and_assoc]
    cases pattern <;> simp [Pattern.parts, Pattern.Each, Expr.Each]

theorem Catch.forall_mem_partsOf {catches : List Catch} :
    (∀ part ∈ Catch.partsOf catches, p part) ↔
      ∀ c ∈ catches, (∀ e, c.pattern = some e → e.Each p) ∧ ∀ i ∈ c.body, i.Each p := by
  induction catches with
  | nil => simp [Catch.partsOf]
  | cons c catches ih =>
    obtain ⟨pattern, body⟩ := c
    rw [List.forall_mem_cons, ← ih]
    cases pattern with
    | none => simp only [Catch.partsOf, List.forall_mem_append, Item.forall_mem_partsOf,
        reduceCtorEq, false_imp_iff, implies_true, true_and]
    | some e =>
      simp only [Catch.partsOf, List.forall_mem_append, Item.forall_mem_partsOf, and_assoc,
        Option.some.injEq, forall_eq', Expr.Each]

namespace Expr

@[simp] theorem each_name {x : String} : (name x).Each p ↔ p (.expr (name x)) := by
  simp [Each, parts]

@[simp] theorem each_type {t : TypeName} : (type t).Each p ↔ p (.expr (type t)) := by
  simp [Each, parts]

@[simp] theorem each_nil : nil.Each p ↔ p (.expr nil) := by
  simp [Each, parts]

@[simp] theorem each_bool {b : Bool} : (bool b).Each p ↔ p (.expr (bool b)) := by
  simp [Each, parts]

@[simp] theorem each_int {n : Int} : (int n).Each p ↔ p (.expr (int n)) := by
  simp [Each, parts]

@[simp] theorem each_float {x : Float} : (float x).Each p ↔ p (.expr (float x)) := by
  simp [Each, parts]

@[simp] theorem each_string {s : String} : (string s).Each p ↔ p (.expr (string s)) := by
  simp [Each, parts]

@[simp] theorem each_array {es : List Expr} :
    (array es).Each p ↔ p (.expr (array es)) ∧ ∀ e ∈ es, e.Each p := by
  rw [← forall_mem_partsOf]
  simp [Each, parts]

@[simp] theorem each_dictionary {entries : List Entry} :
    (dictionary entries).Each p ↔
      p (.expr (dictionary entries)) ∧ ∀ a ∈ entries, a.key.Each p ∧ a.value.Each p := by
  rw [← Entry.forall_mem_partsOf]
  simp [Each, parts]

@[simp] theorem each_closure {parameters : List String} {body : List Item} :
    (closure parameters body).Each p ↔
      p (.expr (closure parameters body)) ∧ ∀ i ∈ body, i.Each p := by
  rw [← Item.forall_mem_partsOf]
  simp [Each, parts]

@[simp] theorem each_member {base : Expr} {x : String} :
    (member base x).Each p ↔ p (.expr (member base x)) ∧ base.Each p := by
  simp [Each, parts]

@[simp] theorem each_call {callee : Expr} {arguments : List Argument} :
    (call callee arguments).Each p ↔
      p (.expr (call callee arguments)) ∧ callee.Each p ∧ ∀ a ∈ arguments, a.value.Each p := by
  rw [← Argument.forall_mem_partsOf]
  simp [Each, parts, or_imp, forall_and]

@[simp] theorem each_index {base position : Expr} :
    (index base position).Each p ↔
      p (.expr (index base position)) ∧ base.Each p ∧ position.Each p := by
  simp [Each, parts, or_imp, forall_and]

@[simp] theorem each_prefixed {op : PrefixOp} {operand : Expr} :
    (prefixed op operand).Each p ↔ p (.expr (prefixed op operand)) ∧ operand.Each p := by
  simp [Each, parts]

@[simp] theorem each_infixed {left right : Expr} {op : InfixOp} :
    (infixed left op right).Each p ↔
      p (.expr (infixed left op right)) ∧ left.Each p ∧ right.Each p := by
  simp [Each, parts, or_imp, forall_and]

@[simp] theorem each_optionalChain {base : Expr} :
    (optionalChain base).Each p ↔ p (.expr (optionalChain base)) ∧ base.Each p := by
  simp [Each, parts]

@[simp] theorem each_forceUnwrap {base : Expr} :
    (forceUnwrap base).Each p ↔ p (.expr (forceUnwrap base)) ∧ base.Each p := by
  simp [Each, parts]

@[simp] theorem each_tuple {elements : List Argument} :
    (tuple elements).Each p ↔
      p (.expr (tuple elements)) ∧ ∀ a ∈ elements, a.value.Each p := by
  rw [← Argument.forall_mem_partsOf]
  simp [Each, parts]

end Expr

namespace Item

@[simp] theorem each_type {t : TypeDecl} :
    (type t).Each p ↔ p (.item (type t)) ∧ ∀ i ∈ t.body, i.Each p := by
  obtain ⟨_, _, _, _, _, _⟩ := t
  rw [← forall_mem_partsOf]
  simp only [Each, parts, TypeDecl.parts, List.forall_mem_cons]

@[simp] theorem each_extension {e : Extension} :
    (extension e).Each p ↔ p (.item (extension e)) ∧ ∀ i ∈ e.body, i.Each p := by
  obtain ⟨_, _, _, _, _⟩ := e
  rw [← forall_mem_partsOf]
  simp only [Each, parts, Extension.parts, List.forall_mem_cons]

@[simp] theorem each_property {decl : Property} :
    (property decl).Each p ↔ p (.item (property decl)) ∧
      (∀ value, decl.value = some value → value.Each p) ∧
      ∀ body, decl.body = some body → ∀ i ∈ body, i.Each p := by
  obtain ⟨_, _, _, value, body, _⟩ := decl
  cases value <;> cases body <;>
    simp only [Each, parts, Property.parts, List.forall_mem_cons, List.forall_mem_append,
      List.not_mem_nil, forall_mem_partsOf, Expr.Each, Option.some.injEq, forall_eq',
      reduceCtorEq, false_imp_iff, implies_true, and_true, true_and]

@[simp] theorem each_function {f : Function} :
    (function f).Each p ↔ p (.item (function f)) ∧
      (∀ parameter ∈ f.parameters, parameter.Each p) ∧ ∀ i ∈ f.body, i.Each p := by
  obtain ⟨_, _, _, _, _, _, _, _, _, _, _, _, _⟩ := f
  rw [← forall_mem_partsOf, ← Parameter.forall_mem_partsOf]
  simp only [Each, parts, Function.parts, List.forall_mem_cons, List.forall_mem_append]

@[simp] theorem each_typeAlias {decl : TypeAlias} :
    (typeAlias decl).Each p ↔ p (.item (typeAlias decl)) := by
  simp [Each, parts]

@[simp] theorem each_enumCase {decl : EnumCase} :
    (enumCase decl).Each p ↔ p (.item (enumCase decl)) ∧
      ∀ value, decl.rawValue = some value → value.Each p := by
  obtain ⟨_, _, rawValue⟩ := decl
  cases rawValue <;> simp [Each, parts, EnumCase.parts, Expr.Each]

@[simp] theorem each_comment {c : Comment} : (comment c).Each p ↔ p (.item (comment c)) := by
  simp [Each, parts]

@[simp] theorem each_blank : blank.Each p ↔ p (.item blank) := by
  simp [Each, parts]

@[simp] theorem each_branch {conditions : List Condition} {body : List Item}
    {orElse : Option (List Item)} :
    (branch conditions body orElse).Each p ↔ p (.item (branch conditions body orElse)) ∧
      (∀ c ∈ conditions, c.Each p) ∧ (∀ i ∈ body, i.Each p) ∧
      ∀ items, orElse = some items → ∀ i ∈ items, i.Each p := by
  rw [← Condition.forall_mem_partsOf, ← forall_mem_partsOf]
  cases orElse with
  | none =>
    simp only [Each, parts, List.forall_mem_cons, List.forall_mem_append, reduceCtorEq,
      false_imp_iff, implies_true, and_true]
  | some items =>
    simp only [Each, parts, List.forall_mem_cons, List.forall_mem_append, forall_mem_partsOf,
      Option.some.injEq, forall_eq']

@[simp] theorem each_guard {conditions : List Condition} {orElse : List Item} :
    (guard conditions orElse).Each p ↔ p (.item (guard conditions orElse)) ∧
      (∀ c ∈ conditions, c.Each p) ∧ ∀ i ∈ orElse, i.Each p := by
  rw [← forall_mem_partsOf, ← Condition.forall_mem_partsOf]
  simp only [Each, parts, List.forall_mem_cons, List.forall_mem_append]

@[simp] theorem each_switch {subject : Expr} {cases : List SwitchCase} :
    (switch subject cases).Each p ↔ p (.item (switch subject cases)) ∧ subject.Each p ∧
      ∀ c ∈ cases, c.pattern.Each p ∧ ∀ i ∈ c.body, i.Each p := by
  rw [← SwitchCase.forall_mem_partsOf]
  simp only [Each, parts, Expr.Each, List.forall_mem_cons, List.forall_mem_append]

@[simp] theorem each_doCatch {body : List Item} {catches : List Catch} :
    (doCatch body catches).Each p ↔ p (.item (doCatch body catches)) ∧ (∀ i ∈ body, i.Each p) ∧
      ∀ c ∈ catches, (∀ e, c.pattern = some e → e.Each p) ∧ ∀ i ∈ c.body, i.Each p := by
  rw [← forall_mem_partsOf, ← Catch.forall_mem_partsOf]
  simp only [Each, parts, List.forall_mem_cons, List.forall_mem_append]

@[simp] theorem each_assign {target value : Expr} :
    (assign target value).Each p ↔
      p (.item (assign target value)) ∧ target.Each p ∧ value.Each p := by
  simp only [Each, parts, Expr.Each, List.forall_mem_cons, List.forall_mem_append]

@[simp] theorem each_returns {value : Option Expr} :
    (returns value).Each p ↔
      p (.item (returns value)) ∧ ∀ e, value = some e → e.Each p := by
  cases value <;> simp [Each, parts, Expr.Each]

@[simp] theorem each_expr {value : Expr} :
    (expr value).Each p ↔ p (.item (expr value)) ∧ value.Each p := by
  simp [Each, parts, Expr.Each]

theorem grouped_cons_cons (g g' : List Item) (groups : List (List Item)) :
    grouped (g :: g' :: groups) = g ++ .blank :: grouped (g' :: groups) := by
  simp [grouped, List.intercalate]

theorem forall_mem_grouped {q : Item → Prop} {groups : List (List Item)} (hb : q .blank) :
    (∀ i ∈ grouped groups, q i) ↔ ∀ g ∈ groups, ∀ i ∈ g, q i := by
  induction groups with
  | nil => simp [grouped]
  | cons g groups ih =>
    cases groups with
    | nil => simp [grouped]
    | cons g' groups =>
      rw [grouped_cons_cons, List.forall_mem_append, List.forall_mem_cons, ih,
        List.forall_mem_cons (l := g' :: _)]
      simp [hb]

theorem mem_grouped {groups : List (List Item)} {g : List Item} {item : Item} (hg : g ∈ groups)
    (h : item ∈ g) (hitem : item ≠ .blank) : item ∈ grouped groups := by
  have hmem : ∀ g ∈ groups, ∀ i ∈ g, i ∈ grouped groups ∨ i = .blank :=
    (forall_mem_grouped (.inr rfl)).mp fun i hi => .inl hi
  exact (hmem g hg item h).resolve_right hitem

end Item
end

-- ---------------------------------------------------------------------------
-- Files
-- ---------------------------------------------------------------------------

namespace SourceFile

variable {file : SourceFile}

@[simp] theorem importing_body {modules : List String} :
    (file.importing modules).body = file.body := rfl

@[simp] theorem importingForTests_body {modules : List String} :
    (file.importingForTests modules).body = file.body := rfl

@[simp] theorem adding_body {items : List Item} : (file.adding items).body = file.body ++ items :=
  rfl

theorem forall_mem_addingSeparated {q : Item → Prop} {items : List Item} (hb : q .blank) :
    (∀ i ∈ (file.addingSeparated items).body, q i) ↔
      (∀ i ∈ file.body, q i) ∧ ∀ i ∈ items, q i := by
  unfold addingSeparated
  induction items generalizing file with
  | nil => simp
  | cons item items ih =>
    rw [List.foldl_cons, ih, List.forall_mem_cons, adding_body, List.forall_mem_append, and_assoc]
    split <;> simp [hb]

theorem mem_addingSeparated {items : List Item} {item : Item} (h : item ∈ items)
    (hitem : item ≠ .blank) : item ∈ (file.addingSeparated items).body := by
  have hmem : (∀ i ∈ file.body, i ∈ (file.addingSeparated items).body ∨ i = .blank) ∧
      ∀ i ∈ items, i ∈ (file.addingSeparated items).body ∨ i = .blank :=
    (forall_mem_addingSeparated (.inr rfl)).mp fun i hi => .inl hi
  exact (hmem.2 item h).resolve_right hitem

end SourceFile

end EntityGen.Code
