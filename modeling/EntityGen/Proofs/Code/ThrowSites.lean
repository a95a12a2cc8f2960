import EntityGen.Proofs.Code.Effects
import Mathlib.Logic.Relation

/-!
# Sites of failures

Statements throw at a `try` or `throw` that they evaluate in their own context:
not in a closure, which throws on its own, nor below what absorbs the failure.
The check for failures finds all of these sites but those in the target of an
assignment and in the patterns of cases and of `catch` clauses.
-/

namespace EntityGen.Code

open Relation (ReflTransGen)

-- ---------------------------------------------------------------------------
-- Parts in the same context
-- ---------------------------------------------------------------------------

/-- What the operator's operand throws goes no further. -/
def PrefixOp.absorbs : PrefixOp → Bool
  | .tryOptional | .tryForced => true
  | _ => false

/-- The expressions that are evaluated with the expression and whose failures are its own. -/
def Expr.operands : Expr → List Expr
  | .name _ | .type _ | .nil | .bool _ | .int _ | .float _ | .string _ | .closure _ _ => []
  | .array elements => elements
  | .dictionary entries => entries.flatMap fun a => [a.key, a.value]
  | .member base _ | .optionalChain base | .forceUnwrap base => [base]
  | .call callee arguments => callee :: arguments.map (·.value)
  | .index base position => [base, position]
  | .prefixed op operand => if op.absorbs then [] else [operand]
  | .infixed left _ right => [left, right]
  | .tuple elements => elements.map (·.value)

def Expr.isThrowSite : Expr → Bool
  | .prefixed .tryThrowing _ | .prefixed .throwing _ => true
  | _ => false

/-- The statements that are run with the item and whose failures are its own. A `do` with a
`catch` that takes everything keeps the failures of its body. -/
def Item.statements : Item → List Item
  | .branch _ body orElse => body ++ orElse.getD []
  | .guard _ orElse => orElse
  | .switch _ cases => cases.flatMap (·.body)
  | .doCatch body catches =>
    (if catches.any (·.pattern.isNone) then [] else body) ++ catches.flatMap (·.body)
  | .type _ | .extension _ | .property _ | .function _ | .typeAlias _ | .enumCase _ | .comment _
  | .blank | .assign _ _ | .returns _ | .expr _ => []

/-- Where a statement has an expression of its own. -/
inductive Position where
  | statement
  | result
  | initialValue
  | target
  | assigned
  | condition
  | subject
  | casePattern
  | catchPattern
  deriving DecidableEq

def Condition.value : Condition → Expr
  | .test value | .binding _ value => value

def Pattern.value? : Pattern → Option Expr
  | .value e => some e
  | _ => none

/-- The expressions that running the item evaluates, those of its statements apart. -/
def Item.expressions : Item → List (Position × Expr)
  | .expr e => [(.statement, e)]
  | .returns result => result.toList.map fun e => (.result, e)
  | .property p => p.value.toList.map fun e => (.initialValue, e)
  | .assign target value => [(.target, target), (.assigned, value)]
  | .branch conditions _ _ | .guard conditions _ => conditions.map fun c => (.condition, c.value)
  | .switch subject cases =>
    (.subject, subject) :: cases.filterMap fun c => c.pattern.value?.map fun e => (.casePattern, e)
  | .doCatch _ catches => catches.filterMap fun c => c.pattern.map fun e => (.catchPattern, e)
  | .type _ | .extension _ | .function _ | .typeAlias _ | .enumCase _ | .comment _ | .blank => []

def Expr.Evaluates (e part : Expr) : Prop := part ∈ e.operands

def Item.Runs (i statement : Item) : Prop := statement ∈ i.statements

/-- Running the items comes to a `try` or `throw` in one of the positions. -/
def Item.ThrowsAt (positions : Position → Bool) (items : List Item) : Prop :=
  ∃ i ∈ items, ∃ j, ReflTransGen Item.Runs i j ∧
    ∃ place e, (place, e) ∈ j.expressions ∧ positions place = true ∧
      ∃ site, ReflTransGen Expr.Evaluates e site ∧ site.isThrowSite = true

/-- The check for failures looks at expressions in the position. -/
def Position.isScanned : Position → Bool
  | .target | .casePattern | .catchPattern => false
  | .statement | .result | .initialValue | .assigned | .condition | .subject => true

-- ---------------------------------------------------------------------------
-- From one step to all
-- ---------------------------------------------------------------------------

/-- What something has by itself or through a part is had by something that it leads to. -/
theorem exists_reached_iff {α : Type} {part : α → α → Prop} {p site : α → Prop} (size : α → Nat)
    (hsize : ∀ a b, part a b → size b < size a) (hp : ∀ a, p a ↔ site a ∨ ∃ b, part a b ∧ p b)
    (a : α) : p a ↔ ∃ b, ReflTransGen part a b ∧ site b := by
  constructor
  · -- Parts are smaller, so following them comes to an end.
    induction h : size a using Nat.strongRecOn generalizing a with
    | ind n ih =>
      intro ha
      rcases (hp a).mp ha with hsite | ⟨b, hpart, hb⟩
      · exact ⟨a, .refl, hsite⟩
      · obtain ⟨c, hreach, hsite⟩ := ih (size b) (h ▸ hsize a b hpart) b rfl hb
        exact ⟨c, .head hpart hreach, hsite⟩
  · rintro ⟨c, hreach, hsite⟩
    induction hreach using ReflTransGen.head_induction_on with
    | refl => exact (hp c).mpr (.inl hsite)
    | head hpart _ ih => exact (hp _).mpr (.inr ⟨_, hpart, ih⟩)

-- ---------------------------------------------------------------------------
-- Expressions
-- ---------------------------------------------------------------------------

theorem Argument.sizeOf_value_lt {a : Argument} {arguments : List Argument} (h : a ∈ arguments) :
    sizeOf a.value < sizeOf arguments := by
  have ha := List.sizeOf_lt_of_mem h
  obtain ⟨label, value⟩ := a
  simp only [Argument.mk.sizeOf_spec] at ha ⊢
  omega

namespace Expr

theorem Evaluates.sizeOf_lt {e part : Expr} (h : e.Evaluates part) : sizeOf part < sizeOf e := by
  unfold Evaluates at h
  cases e with
  | array elements =>
    have hsize : sizeOf part < sizeOf elements := List.sizeOf_lt_of_mem h
    simp only [array.sizeOf_spec]
    omega
  | dictionary entries =>
    obtain ⟨⟨key, value⟩, ha, hpart⟩ := List.mem_flatMap.mp h
    have hsize := List.sizeOf_lt_of_mem ha
    simp only [Entry.mk.sizeOf_spec] at hsize
    simp only [List.mem_cons, List.not_mem_nil, or_false] at hpart
    simp only [dictionary.sizeOf_spec]
    rcases hpart with rfl | rfl <;> omega
  | call callee arguments =>
    simp only [call.sizeOf_spec]
    rcases List.mem_cons.mp h with rfl | hpart
    · omega
    · obtain ⟨a, ha, rfl⟩ := List.mem_map.mp hpart
      have hsize := Argument.sizeOf_value_lt ha
      omega
  | tuple elements =>
    obtain ⟨a, ha, rfl⟩ := List.mem_map.mp h
    have hsize := Argument.sizeOf_value_lt ha
    simp only [tuple.sizeOf_spec]
    omega
  | prefixed op operand =>
    simp only [operands] at h
    split at h
    · cases h
    · obtain rfl := List.mem_singleton.mp h
      simp only [prefixed.sizeOf_spec]
      omega
  | member base x | optionalChain base | forceUnwrap base =>
    obtain rfl : part = base := List.mem_singleton.mp h
    simp only [member.sizeOf_spec, optionalChain.sizeOf_spec, forceUnwrap.sizeOf_spec]
    omega
  | index base position =>
    simp only [operands, List.mem_cons, List.not_mem_nil, or_false] at h
    simp only [index.sizeOf_spec]
    rcases h with rfl | rfl <;> omega
  | infixed left op right =>
    simp only [operands, List.mem_cons, List.not_mem_nil, or_false] at h
    simp only [infixed.sizeOf_spec]
    rcases h with rfl | rfl <;> omega
  | name | type | nil | bool | int | float | string | closure => cases h

theorem mayThrow_eq (e : Expr) :
    e.mayThrow = (e.isThrowSite || e.operands.any mayThrow) := by
  cases e with
  | prefixed op operand => cases op <;> simp [isThrowSite, operands, PrefixOp.absorbs]
  | _ => simp [isThrowSite, operands, List.any_flatMap, Function.comp_def]

/-- An expression may throw exactly if it evaluates a `try` or `throw`. -/
theorem mayThrow_iff (e : Expr) :
    e.mayThrow = true ↔ ∃ site, ReflTransGen Evaluates e site ∧ site.isThrowSite = true := by
  refine exists_reached_iff (p := fun e => e.mayThrow = true) sizeOf
    (fun _ _ => Evaluates.sizeOf_lt) (fun e => ?_) e
  rw [mayThrow_eq, Bool.or_eq_true, List.any_eq_true]
  rfl

end Expr

-- ---------------------------------------------------------------------------
-- Statements
-- ---------------------------------------------------------------------------

namespace Item

theorem Runs.sizeOf_lt {i statement : Item} (h : i.Runs statement) :
    sizeOf statement < sizeOf i := by
  unfold Runs at h
  cases i with
  | branch conditions body orElse =>
    simp only [branch.sizeOf_spec]
    rcases List.mem_append.mp h with h | h
    · have hsize := List.sizeOf_lt_of_mem h
      omega
    · cases orElse with
      | none => cases h
      | some orElse =>
        have hsize : sizeOf statement < sizeOf orElse := List.sizeOf_lt_of_mem h
        simp only [Option.some.sizeOf_spec]
        omega
  | guard conditions orElse =>
    have hsize : sizeOf statement < sizeOf orElse := List.sizeOf_lt_of_mem h
    simp only [guard.sizeOf_spec]
    omega
  | switch subject cases =>
    obtain ⟨⟨pattern, body⟩, hc, hbody⟩ := List.mem_flatMap.mp h
    have hcase := List.sizeOf_lt_of_mem hc
    have hsize : sizeOf statement < sizeOf body := List.sizeOf_lt_of_mem hbody
    simp only [SwitchCase.mk.sizeOf_spec] at hcase
    simp only [switch.sizeOf_spec]
    omega
  | doCatch body catches =>
    simp only [doCatch.sizeOf_spec]
    rcases List.mem_append.mp h with h | h
    · split at h
      · cases h
      · have hsize := List.sizeOf_lt_of_mem h
        omega
    · obtain ⟨⟨pattern, handler⟩, hc, hbody⟩ := List.mem_flatMap.mp h
      have hcatch := List.sizeOf_lt_of_mem hc
      have hsize : sizeOf statement < sizeOf handler := List.sizeOf_lt_of_mem hbody
      simp only [Catch.mk.sizeOf_spec] at hcatch
      omega
  | type | extension | property | function | typeAlias | enumCase | comment | blank | assign
  | returns | expr => cases h

def isCaught (entry : Position × Expr) : Bool := entry.1.isScanned && entry.2.mayThrow

theorem any_isCaught_patterns {α : Type} {place : Position} (h : place.isScanned = false)
    (clauses : List α) (pattern? : α → Option Expr) :
    (clauses.filterMap fun c => (pattern? c).map fun e => (place, e)).any isCaught = false := by
  refine List.any_eq_false.mpr fun entry hentry => ?_
  obtain ⟨c, -, hc⟩ := List.mem_filterMap.mp hentry
  obtain ⟨e, -, rfl⟩ := Option.map_eq_some_iff.mp hc
  simp [isCaught, h]

theorem mayThrow_eq (i : Item) :
    i.mayThrow = (i.expressions.any isCaught || i.statements.any mayThrow) := by
  have hconditions (conditions : List Condition) :
      (conditions.map fun c => (Position.condition, c.value)).any isCaught
        = conditions.any Condition.mayThrow := by
    have hvalue (c : Condition) : isCaught (.condition, c.value) = c.mayThrow := by
      cases c <;> rfl
    simp only [List.any_map, Function.comp_def, hvalue]
  cases i with
  | property p =>
    obtain ⟨var, access, setterAccess, value, body, isObjC⟩ := p
    cases value <;> simp [expressions, statements, isCaught, Position.isScanned]
  | returns result =>
    cases result <;> simp [expressions, statements, isCaught, Position.isScanned]
  | branch conditions body orElse =>
    cases orElse <;> simp [expressions, statements, hconditions, Bool.or_assoc]
  | guard conditions orElse => simp [expressions, statements, hconditions]
  | switch subject cases =>
    rw [expressions, List.any_cons, any_isCaught_patterns rfl]
    simp [statements, isCaught, Position.isScanned, List.any_flatMap]
  | doCatch body catches =>
    rw [expressions, any_isCaught_patterns rfl]
    cases h : catches.any (·.pattern.isNone) <;> simp [statements, h, List.any_flatMap]
  | type | extension | function | typeAlias | enumCase | comment | blank | assign | expr =>
    simp [expressions, statements, isCaught, Position.isScanned]

theorem mayThrow_iff (i : Item) :
    i.mayThrow = true ↔
      ∃ j, ReflTransGen Runs i j ∧ j.expressions.any isCaught = true := by
  refine exists_reached_iff (p := fun i => i.mayThrow = true) sizeOf
    (fun _ _ => Runs.sizeOf_lt) (fun i => ?_) i
  rw [mayThrow_eq, Bool.or_eq_true, List.any_eq_true (l := i.statements)]
  rfl

theorem anyMayThrow_iff (items : List Item) :
    anyMayThrow items = true ↔ ThrowsAt Position.isScanned items := by
  simp only [anyMayThrow_eq, List.any_eq_true, mayThrow_iff, isCaught, Bool.and_eq_true,
    Expr.mayThrow_iff, Prod.exists, ThrowsAt]

theorem ThrowsAt.of_expression {positions : Position → Bool} {items : List Item} {i : Item}
    {place : Position} {e : Expr} (hi : i ∈ items) (he : (place, e) ∈ i.expressions)
    (hplace : positions place = true) (hthrows : e.mayThrow = true) : ThrowsAt positions items :=
  ⟨i, hi, i, .refl, place, e, he, hplace, e.mayThrow_iff.mp hthrows⟩

theorem throwsAt_iff_or (positions : Position → Bool) (items : List Item) :
    ThrowsAt (fun _ => true) items ↔
      ThrowsAt positions items ∨ ThrowsAt (fun place => !positions place) items := by
  constructor
  · rintro ⟨i, hi, j, hj, place, e, he, -, hsite⟩
    cases h : positions place with
    | true => exact .inl ⟨i, hi, j, hj, place, e, he, h, hsite⟩
    | false => exact .inr ⟨i, hi, j, hj, place, e, he, by simp [h], hsite⟩
  · rintro (⟨i, hi, j, hj, place, e, he, -, hsite⟩ | ⟨i, hi, j, hj, place, e, he, -, hsite⟩) <;>
      exact ⟨i, hi, j, hj, place, e, he, rfl, hsite⟩

/-- The check finds exactly the sites in the positions that it looks at, so statements throw
exactly if it finds a site or one stands in a position that it passes over. -/
theorem anyMayThrow_exact (items : List Item) :
    (anyMayThrow items = true ↔ ThrowsAt Position.isScanned items) ∧
    (ThrowsAt (fun _ => true) items ↔
      anyMayThrow items = true ∨ ThrowsAt (fun place => !place.isScanned) items) := by
  refine ⟨anyMayThrow_iff items, ?_⟩
  rw [anyMayThrow_iff]
  exact throwsAt_iff_or Position.isScanned items

def failingCall : Expr := .tryThrowing (.callEmpty (.name "f"))

/-- A `try` in the target of an assignment, in the pattern of a case and in that of a `catch`. -/
def unscannedSites : List Item :=
  [.assign (.index (.name "a") failingCall) (.int 1),
   .switch (.name "r") [{ pattern := .value failingCall }],
   .doCatch [] [{ pattern := some failingCall }]]

theorem unscannedSites_throw :
    ThrowsAt (· == .target) unscannedSites ∧ ThrowsAt (· == .casePattern) unscannedSites ∧
      ThrowsAt (· == .catchPattern) unscannedSites ∧ ThrowsAt (fun _ => true) unscannedSites ∧
      anyMayThrow unscannedSites = false := by
  have htarget (positions : Position → Bool) (h : positions .target = true) :
      ThrowsAt positions unscannedSites :=
    .of_expression (.head _) (.head _) h rfl
  exact ⟨htarget _ rfl, .of_expression (.tail _ (.head _)) (.tail _ (.head _)) rfl rfl,
    .of_expression (.tail _ (.tail _ (.head _))) (.head _) rfl rfl, htarget _ rfl, rfl⟩

end Item
end EntityGen.Code
