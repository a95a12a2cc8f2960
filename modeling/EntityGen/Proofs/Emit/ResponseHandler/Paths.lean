import EntityGen.Emit.ResponseHandlerFile
import EntityGen.Proofs.Code.Paths
import EntityGen.Proofs.Emit.Effects.Support

/-!
# Control paths of the response handler

Only the decoding of a payload may throw. All other statements of the handler
are in a row, so the paths of its functions are the cases of its switches, the
two ends of its `do` and the two of its guard.
-/

namespace EntityGen.Emit

open Code
open Schema (Entity)

-- ---------------------------------------------------------------------------
-- Statements in a row
-- ---------------------------------------------------------------------------

theorem handOn_straight (c : Concurrency) (function : String) {arguments : List Argument}
    (h : ∀ a ∈ arguments, a.value.mayThrow = false) : (c.handOn function arguments).Straight := by
  cases c with
  | structured =>
    apply Item.straight_expr
    simpa [Expr.mayThrow, Argument.anyMayThrow_eq] using h
  | futures =>
    apply Item.straight_expr
    simpa [Expr.mayThrow, Argument.anyMayThrow_eq, completion] using h

theorem handOnRollback_straight (c : Concurrency) (e : Entity) : (handOnRollback c e).Straight :=
  handOn_straight c _ (by simp [Expr.mayThrow])

theorem complete_straight (c : Concurrency) : ∀ i ∈ c.complete, i.Straight := by
  cases c with
  | structured => simp [Concurrency.complete]
  | futures =>
    refine List.forall_mem_singleton.mpr (Item.straight_expr ?_)
    simp [Expr.mayThrow, Argument.anyMayThrow, completion]

/-- Closures throw on their own, so only the sequence matters. -/
theorem forAll_straight (c : Concurrency) {sequence : Expr} (h : sequence.mayThrow = false)
    (parameters : List String) (work : List Item) :
    ∀ i ∈ c.forAll sequence parameters work, i.Straight := by
  cases c with
  | structured =>
    refine List.forall_mem_singleton.mpr (Item.straight_expr ?_)
    simp [Expr.mayThrow, Argument.anyMayThrow]
  | futures =>
    refine List.forall_mem_cons.mpr ⟨Item.straight_constant ?_, List.forall_mem_cons.mpr
      ⟨Item.straight_expr ?_, List.forall_mem_singleton.mpr (Item.straight_expr ?_)⟩⟩
    · simp [Expr.mayThrow, Argument.anyMayThrow]
    · simp [Expr.mayThrow, Argument.anyMayThrow, h]
    · simp [Expr.mayThrow, Argument.anyMayThrow, completion]

-- ---------------------------------------------------------------------------
-- Dispatch
-- ---------------------------------------------------------------------------

theorem dispatchFunction_paths (c : Concurrency) (targets : List MergeTarget) :
    (dispatchFunction c targets).paths =
      targets.map (fun t =>
        { decisions := [.case (dispatchCase c t).pattern], steps := (dispatchCase c t).body })
      ++ [{ decisions := [.case .default], steps := c.complete }] := by
  have hbody : (dispatchFunction c targets).body =
      [.switch (.member (.name "request") "entityTypeUID")
        (targets.map (dispatchCase c) ++ [{ pattern := .default, body := c.complete }])] := by
    cases c <;> rfl
  have hcase (t : MergeTarget) :
      Item.pathsOf (dispatchCase c t).body = [{ steps := (dispatchCase c t).body }] := by
    refine Item.pathsOf_of_straight (List.forall_mem_singleton.mpr ?_)
    exact handOn_straight c _ (by simp [Expr.mayThrow, Argument.anyMayThrow])
  have hdefault : Item.pathsOf c.complete = [{ steps := c.complete }] :=
    Item.pathsOf_of_straight (complete_straight c)
  rw [Function.paths, hbody, Item.pathsOf_singleton, Item.paths_switch (by simp [Expr.mayThrow])]
  simp [hcase, hdefault, Path.after, List.flatMap_map, ← List.map_eq_flatMap]

-- ---------------------------------------------------------------------------
-- Merge
-- ---------------------------------------------------------------------------

inductive MergeOutcome where
  | undecodable
  | merged
  | aborted
  | failed
  /-- There is no container any more. -/
  | gone

namespace MergeOutcome

/-- The outcomes in the order in which the merge function decides them. -/
def all : List MergeOutcome := [undecodable, merged, aborted, failed, gone]

def decisions : MergeOutcome → List Decision
  | .undecodable => [.holds, .case (.bindings "success" ["response"]), .catches none]
  | .merged => [.holds, .case (.bindings "success" ["response"]), .completes]
  | .aborted => [.holds, .case (.tag "aborted")]
  | .failed => [.holds, .case (.tag "failure")]
  | .gone => [.fails]

def pairs : Expr :=
  .call (.name "zip") [.unlabelled (.name "localEntities"), .unlabelled (.name "remoteEntities")]

def steps (c : Concurrency) (t : MergeTarget) : MergeOutcome → List Item
  | .undecodable => [decodingFailure t.entity, handOnRollback c t.entity]
  | .merged =>
    [.constant "payload" (decodedPayload t), .constant "remoteEntities" (remoteEntities t)]
      ++ c.forAll pairs ["localEntity", "remoteEntity"] (mergeWork c t.entity)
  | .aborted | .failed => [handOnRollback c t.entity]
  | .gone => c.complete ++ [.returns none]

def leaving : MergeOutcome → Leaving
  | .gone => .returned
  | _ => .finished

def path (c : Concurrency) (t : MergeTarget) (o : MergeOutcome) : Path :=
  { decisions := o.decisions, steps := o.steps c t, leaving := o.leaving }

end MergeOutcome

theorem undecodable_paths (c : Concurrency) (t : MergeTarget) :
    Item.pathsOf (MergeOutcome.undecodable.steps c t)
      = [{ steps := MergeOutcome.undecodable.steps c t }] := by
  apply Item.pathsOf_of_straight
  refine List.forall_mem_cons.mpr ⟨Item.straight_expr ?_, List.forall_mem_singleton.mpr ?_⟩
  · simp [Expr.mayThrow, Argument.anyMayThrow]
  · exact handOnRollback_straight c t.entity

/-- Decoding throws, or everything after it is done. -/
theorem merged_paths (c : Concurrency) (t : MergeTarget) :
    Item.pathsOf (MergeOutcome.merged.steps c t)
      = [{ leaving := .thrown }, { steps := MergeOutcome.merged.steps c t }] := by
  have hpayload : (Item.constant "payload" (decodedPayload t)).paths
      = [{ leaving := .thrown }, { steps := [.constant "payload" (decodedPayload t)] }] := by
    simp [Item.constant, Item.paths, Path.throwingIf, Expr.optionMayThrow, decodedPayload,
      Expr.mayThrow]
  have hpairs : MergeOutcome.pairs.mayThrow = false := by
    simp [MergeOutcome.pairs, Expr.mayThrow, Argument.anyMayThrow]
  have hrest : Item.pathsOf (.constant "remoteEntities" (remoteEntities t)
      :: c.forAll MergeOutcome.pairs ["localEntity", "remoteEntity"] (mergeWork c t.entity)) = _ :=
    Item.pathsOf_of_straight (List.forall_mem_cons.mpr
      ⟨Item.straight_constant (remoteEntities_quiet t).throws, forAll_straight c hpairs _ _⟩)
  simp only [MergeOutcome.steps, List.cons_append, List.nil_append]
  rw [Item.pathsOf, hpayload, hrest]
  simp [Path.followedBy, Path.andThen]

theorem mergeOfResponse_paths (c : Concurrency) (t : MergeTarget) :
    (mergeOfResponse c t).paths =
      [{ decisions := [.catches none], steps := MergeOutcome.undecodable.steps c t },
       { decisions := [.completes], steps := MergeOutcome.merged.steps c t }] := by
  have hdef : mergeOfResponse c t = .doCatch (MergeOutcome.merged.steps c t)
      [{ body := MergeOutcome.undecodable.steps c t }] := rfl
  rw [hdef, Item.paths, merged_paths]
  simp [Catch.pathsOf, undecodable_paths, Path.after, Path.andThen]

theorem mergeFunction_paths (c : Concurrency) (t : MergeTarget) :
    (mergeFunction c t).paths = MergeOutcome.all.map (MergeOutcome.path c t) := by
  have hbody : (mergeFunction c t).body =
      [containerGuard c,
       .switch (.name "result")
        [{ pattern := .bindings "success" ["response"], body := [mergeOfResponse c t] },
         { pattern := .tag "aborted", body := [handOnRollback c t.entity] },
         { pattern := .tag "failure", body := [handOnRollback c t.entity] }]] := by
    cases c <;> rfl
  have hrollback : (handOnRollback c t.entity).paths = [{ steps := [handOnRollback c t.entity] }] :=
    handOnRollback_straight c t.entity
  have hgone : Item.pathsOf (c.complete ++ [Item.returns none])
      = [{ steps := c.complete ++ [Item.returns none], leaving := .returned }] := by
    rw [Item.pathsOf_append_of_straight (complete_straight c), Item.pathsOf_singleton]
    simp [Item.paths, Path.throwingIf, Expr.optionMayThrow, Path.andThen]
  have hguard : (containerGuard c).paths =
      [{ decisions := [.holds] },
       { decisions := [.fails], steps := c.complete ++ [.returns none], leaving := .returned }] := by
    simp [containerGuard, Item.paths, hgone, Condition.mayThrow, Expr.mayThrow, Path.throwingIf,
      Path.after]
  have hresult : (Expr.name "result").mayThrow = false := by simp [Expr.mayThrow]
  rw [Function.paths, hbody, Item.pathsOf, hguard, Item.pathsOf_singleton,
    Item.paths_switch hresult]
  simp [Item.pathsOf_singleton, mergeOfResponse_paths, hrollback, Path.after, Path.followedBy,
    Path.andThen, MergeOutcome.all, MergeOutcome.path, MergeOutcome.decisions, MergeOutcome.steps,
    MergeOutcome.leaving]

-- ---------------------------------------------------------------------------
-- Rollback
-- ---------------------------------------------------------------------------

theorem rollbackFunction_paths (c : Concurrency) (e : Entity) :
    (rollbackFunction c e).paths = [{ steps := (rollbackFunction c e).body }] := by
  have hsequence : (Expr.name "localEntities").mayThrow = false := by simp [Expr.mayThrow]
  apply Item.pathsOf_of_straight
  cases c with
  | structured => exact forAll_straight .structured hsequence _ _
  | futures => exact forAll_straight .futures hsequence _ _

end EntityGen.Emit
