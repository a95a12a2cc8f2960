import EntityGen.Code.Build
import EntityGen.Code.Effects

/-!
# Control paths

The ways in which control goes through a body: what it decides at each branch,
which statements it performs, and how it leaves. A statement that throws is
not performed. Closures run on paths of their own.
-/

namespace EntityGen.Code

/-- What is decided at a branch: that the conditions hold or fail, the case of
a switch, that the body of a `do` runs to its end or which `catch` takes over. -/
inductive Decision where
  | holds
  | fails
  | case (pattern : Pattern)
  | completes
  | catches (pattern : Option Expr)

inductive Leaving where
  | finished
  | returned
  | thrown
  deriving DecidableEq

structure Path where
  decisions : List Decision := []
  steps : List Item := []
  leaving : Leaving := .finished

namespace Path

def after (decision : Decision) (p : Path) : Path := { p with decisions := decision :: p.decisions }

def andThen (p q : Path) : Path :=
  { decisions := p.decisions ++ q.decisions, steps := p.steps ++ q.steps, leaving := q.leaving }

/-- Goes on with each of the other paths, unless it has left already. -/
def followedBy (p : Path) (others : List Path) : List Path :=
  match p.leaving with
  | .finished => others.map p.andThen
  | _ => [p]

def throwingIf (condition : Bool) : List Path :=
  if condition then [{ leaving := .thrown }] else []

end Path

mutual
def Item.paths : Item → List Path
  | .type _ | .extension _ | .function _ | .typeAlias _ | .enumCase _ | .comment _ | .blank => [{}]
  | .branch conditions body none =>
    Path.throwingIf (conditions.any Condition.mayThrow)
      ++ (Item.pathsOf body).map (Path.after .holds) ++ [Path.after .fails {}]
  | .branch conditions body (some orElse) =>
    Path.throwingIf (conditions.any Condition.mayThrow)
      ++ (Item.pathsOf body).map (Path.after .holds)
      ++ (Item.pathsOf orElse).map (Path.after .fails)
  | .guard conditions orElse =>
    Path.throwingIf (conditions.any Condition.mayThrow)
      ++ Path.after .holds {} :: (Item.pathsOf orElse).map (Path.after .fails)
  | .switch subject cases => Path.throwingIf subject.mayThrow ++ SwitchCase.pathsOf cases
  | .doCatch body catches =>
    (Item.pathsOf body).flatMap fun p =>
      if p.leaving = .thrown then
        (Catch.pathsOf catches).map p.andThen
          -- no clause need match
          ++ (if catches.any (·.pattern.isNone) then [] else [p])
      else [{ p with decisions := p.decisions ++ [.completes] }]
  | .property (.mk var access setterAccess value body isObjC) =>
    Path.throwingIf (Expr.optionMayThrow value)
      ++ [{ steps := [.property (.mk var access setterAccess value body isObjC)] }]
  | .assign target value =>
    Path.throwingIf value.mayThrow ++ [{ steps := [.assign target value] }]
  | .returns value =>
    Path.throwingIf (Expr.optionMayThrow value)
      ++ [{ steps := [.returns value], leaving := .returned }]
  | .expr value => Path.throwingIf value.mayThrow ++ [{ steps := [.expr value] }]

def Item.pathsOf : List Item → List Path
  | [] => [{}]
  | i :: is => i.paths.flatMap fun p => p.followedBy (Item.pathsOf is)

def SwitchCase.pathsOf : List SwitchCase → List Path
  | [] => []
  | .mk pattern body :: cases =>
    (Item.pathsOf body).map (Path.after (.case pattern)) ++ SwitchCase.pathsOf cases

def Catch.pathsOf : List Catch → List Path
  | [] => []
  | .mk pattern body :: catches =>
    (Item.pathsOf body).map (Path.after (.catches pattern)) ++ Catch.pathsOf catches
end

abbrev Function.paths (f : Function) : List Path := Item.pathsOf f.body

-- ---------------------------------------------------------------------------
-- Statements in a row
-- ---------------------------------------------------------------------------

/-- The statement is performed and control goes on after it. -/
def Item.Straight (i : Item) : Prop := i.paths = [{ steps := [i] }]

theorem Item.straight_expr {e : Expr} (h : e.mayThrow = false) : (Item.expr e).Straight := by
  simp [Straight, paths, Path.throwingIf, h]

theorem Item.straight_constant {x : String} {value : Expr} (h : value.mayThrow = false) :
    (Item.constant x value).Straight := by
  simp [Straight, Item.constant, paths, Path.throwingIf, Expr.optionMayThrow, h]

theorem Path.empty_andThen : Path.andThen {} = id := rfl

theorem Path.followedBy_empty (p : Path) : p.followedBy [{}] = [p] := by
  obtain ⟨decisions, steps, leaving⟩ := p
  cases leaving <;> simp [followedBy, andThen]

theorem Item.pathsOf_singleton (i : Item) : Item.pathsOf [i] = i.paths := by
  simp [Item.pathsOf, Path.followedBy_empty]

theorem Item.pathsOf_append_of_straight {items rest : List Item} (h : ∀ i ∈ items, i.Straight) :
    Item.pathsOf (items ++ rest) = (Item.pathsOf rest).map (Path.andThen { steps := items }) := by
  induction items with
  | nil => simp [Path.empty_andThen]
  | cons i items ih =>
    obtain ⟨hi, hitems⟩ := List.forall_mem_cons.mp h
    rw [List.cons_append, Item.pathsOf, hi, ih hitems]
    simp [Path.followedBy, Path.andThen]

theorem Item.pathsOf_of_straight {items : List Item} (h : ∀ i ∈ items, i.Straight) :
    Item.pathsOf items = [{ steps := items }] := by
  have happend : Item.pathsOf (items ++ []) = _ := pathsOf_append_of_straight h
  simpa [Item.pathsOf, Path.andThen] using happend

-- ---------------------------------------------------------------------------
-- Branches
-- ---------------------------------------------------------------------------

theorem SwitchCase.pathsOf_eq (cases : List SwitchCase) :
    SwitchCase.pathsOf cases =
      cases.flatMap fun c => (Item.pathsOf c.body).map (Path.after (.case c.pattern)) := by
  induction cases with
  | nil => simp [SwitchCase.pathsOf]
  | cons c cases ih =>
    obtain ⟨pattern, body⟩ := c
    simp [SwitchCase.pathsOf, ih]

theorem Item.paths_switch {subject : Expr} {cases : List SwitchCase}
    (h : subject.mayThrow = false) :
    (Item.switch subject cases).paths =
      cases.flatMap fun c => (Item.pathsOf c.body).map (Path.after (.case c.pattern)) := by
  simp [Item.paths, Path.throwingIf, h, SwitchCase.pathsOf_eq]

end EntityGen.Code
