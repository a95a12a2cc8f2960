import EntityGen.Proofs.Code.Declarations

/-!
# Running statements

Bodies that assign, return, throw and switch, run on texts and on cases of
enumerations. A switch takes its first case that matches. There is no result
where a body does anything else, and none where no case of a switch matches.
-/

namespace EntityGen.Code

/-- A text, or a case of an enumeration with what it carries. -/
inductive Value where
  | text (text : String)
  | case (type : TypeName) (name : String) (carried : List Value)

mutual
/-- The value of an expression. A dot names a case of the type at hand. -/
def Expr.eval? (own : TypeName) (scope : List (String × Value)) : Expr → Option Value
  | .name x => scope.lookup x
  | .string text => some (.text text)
  | .prefixed .dot (.name x) => some (.case own x [])
  | .call (.member (.type t) x) arguments =>
    (Argument.evalAll? own scope arguments).map (.case t x)
  | _ => none

def Argument.evalAll? (own : TypeName) (scope : List (String × Value)) :
    List Argument → Option (List Value)
  | [] => some []
  | .mk _ value :: arguments =>
    match value.eval? own scope, Argument.evalAll? own scope arguments with
    | some v, some vs => some (v :: vs)
    | _, _ => none
end

/-- How a body ends: with its variables, the latest value of each first, or early. -/
inductive Ending where
  | finished (scope : List (String × Value))
  | returned (value : Value)
  | thrown (error : Value)

def Pattern.matches? (own : TypeName) (scope : List (String × Value)) (subject : Value) :
    Pattern → Option Bool
  | .default => some true
  | .tag x =>
    match subject with
    | .case _ name _ => some (x == name)
    | .text _ => none
  | .value e =>
    match subject, e.eval? own scope with
    | .text t, some (.text t') => some (t' == t)
    | _, _ => none
  | .bindings _ _ => none

mutual
def Item.run? (own : TypeName) (scope : List (String × Value)) : Item → Option Ending
  | .assign (.name x) value => do return .finished ((x, ← value.eval? own scope) :: scope)
  | .returns (some value) => do return .returned (← value.eval? own scope)
  | .expr (.prefixed .throwing error) => do return .thrown (← error.eval? own scope)
  | .switch subject cases => do
    SwitchCase.runFirst? own scope (← subject.eval? own scope) cases
  | _ => none

def Item.runAll? (own : TypeName) (scope : List (String × Value)) :
    List Item → Option Ending
  | [] => some (.finished scope)
  | i :: is => do
    match ← i.run? own scope with
    | .finished scope => Item.runAll? own scope is
    | ending => some ending

def SwitchCase.runFirst? (own : TypeName) (scope : List (String × Value)) (subject : Value) :
    List SwitchCase → Option Ending
  | [] => none
  | .mk pattern body :: cases => do
    if ← pattern.matches? own scope subject then Item.runAll? own scope body
    else SwitchCase.runFirst? own scope subject cases
end

def Function.construct? (own : TypeName) (f : Function) (arguments : List Value) :
    Option (Except Value Value) := do
  match ← Item.runAll? own ((f.parameters.map (·.name)).zip arguments) f.body with
  | .finished scope => (scope.lookup "self").map .ok
  | .thrown error => some (.error error)
  | .returned _ => none

def Property.compute? (own : TypeName) (p : Property) (self : Value) : Option Value := do
  match ← Item.runAll? own [("self", self)] (← p.body) with
  | .returned value => some value
  | _ => none

section
variable {own : TypeName} {scope : List (String × Value)} {subject : Value}

theorem Item.runAll?_singleton (i : Item) :
    Item.runAll? own scope [i] = i.run? own scope := by
  rw [Item.runAll?]
  cases i.run? own scope with
  | none => rfl
  | some ending => cases ending <;> rfl

theorem Item.runAll?_switch {e : Expr} (h : e.eval? own scope = some subject)
    (cases : List SwitchCase) :
    Item.runAll? own scope [.switch e cases] = SwitchCase.runFirst? own scope subject cases := by
  rw [runAll?_singleton, run?, h]
  rfl

/-- Where each case is decided, a switch runs the first that is chosen, or what comes after. -/
theorem SwitchCase.runFirst?_map {α : Type} {branch : α → SwitchCase} {chosen : α → Bool}
    (choices : List α)
    (h : ∀ a, (branch a).pattern.matches? own scope subject = some (chosen a))
    (rest : List SwitchCase) :
    runFirst? own scope subject (choices.map branch ++ rest) =
      match choices.find? chosen with
      | some a => Item.runAll? own scope (branch a).body
      | none => runFirst? own scope subject rest := by
  induction choices with
  | nil => rfl
  | cons a choices ih =>
    have ha := h a
    rw [List.map_cons, List.cons_append, List.find?_cons]
    cases hbranch : branch a with
    | mk pattern body =>
      rw [hbranch] at ha
      rw [runFirst?, ha]
      cases chosen a with
      | true => simp [hbranch]
      | false => exact ih

end
end EntityGen.Code
