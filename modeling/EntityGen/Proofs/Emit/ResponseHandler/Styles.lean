import EntityGen.Proofs.Code.Declarations
import EntityGen.Proofs.Emit.ResponseHandler.Paths

/-!
# The two styles of the response handler

Its functions complete through a closure, which is called or handed on exactly
once along every path, or they are awaited and know of no closure. Path by path
both styles do the same: what one of them awaits the other one starts, and what
ends the work for an element in one of them leaves the dispatch group in the
other.

Statements are compared as they stand. What `DispatchGroup`, task groups and
other callees do at run time is not modelled.
-/

namespace EntityGen.Emit

open Code
open Schema (Descriptions Entity)

-- ---------------------------------------------------------------------------
-- What statements do
-- ---------------------------------------------------------------------------

def isCompletion : Expr → Bool
  | .name "completion" => true
  | _ => false

/-- The statement calls the completion or hands it on. -/
def completes : Item → Bool
  | .expr (.call callee arguments) =>
    isCompletion callee || arguments.any fun a =>
      (a.label = some "completion" || a.label = some "execute") && isCompletion a.value
  | _ => false

def callsGroup (method : String) : Item → Bool
  | .expr (.call (.member (.name "group") x) _) => x = method
  | _ => false

/-- The operation at whose end the statement leaves the dispatch group. -/
def leftAfter? : Item → Option Expr
  | .expr (.call (.member operation "onComplete")
      [.mk none (.closure ["_"] [.expr (.call (.member (.name "group") "leave") [])])]) =>
    some operation
  | _ => none

/-- The function that the statement hands on to: it is awaited, or gets the completion. -/
def Concurrency.handsOnTo? : Concurrency → Item → Option String
  | .structured, .expr (.prefixed .awaiting (.call (.name f) _)) => some f
  | .futures, .expr (.call (.name f) arguments) =>
    if arguments.any fun a => a.label = some "completion" && isCompletion a.value then some f
    else none
  | _, _ => none

def Uses (x : String) : Part → Bool
  | .expr (.name y) => x = y
  | _ => false

/-- The name does not occur, be it as a value, a member, a label or a name that is bound. -/
def Avoids (x : String) : Part → Prop
  | .expr (.name y) | .expr (.member _ y) => x ≠ y
  | .expr (.call _ arguments) => ∀ a ∈ arguments, a.label ≠ some x
  | .expr (.closure parameters _) => x ∉ parameters
  | .item (.property p) => x ≠ p.var.name
  | _ => True

-- ---------------------------------------------------------------------------
-- Work for each element of a sequence
-- ---------------------------------------------------------------------------

structure FanOut where
  sequence : Expr
  parameters : List String
  element : List Item

-- A loop in place.
def loop? : Item → Option FanOut
  | .expr (.call (.member sequence "forEach") [.mk none (.closure parameters element)]) =>
    some { sequence, parameters, element }
  | _ => none

def addedTask? : Item → Option (List Item)
  | .expr (.call (.member (.name "group") "addTask") [.mk none (.closure [] work)]) => some work
  | _ => none

-- An awaited task group with one task for each element.
def taskLoop? : Item → Option FanOut
  | .expr (.prefixed .awaiting
      (.call (.name "withTaskGroup") [_, .mk none (.closure ["group"] [each])])) => do
    let loop ← loop? each
    match loop.element with
    | [task] => return { loop with element := ← addedTask? task }
    | _ => none
  | _ => none

def Concurrency.fanOut? : Concurrency → Item → Option FanOut
  | .futures => loop?
  | .structured => taskLoop?

/-- An operation on an element, by what becomes of its end. -/
inductive Operation where
  | immediate (call : Expr)
  -- Awaited, and only started where nothing can be awaited.
  | notify (call : Expr)
  -- The element is done when this has succeeded or failed.
  | store (call : Expr)

inductive Concurrency.Performs : Concurrency → Operation → Item → Prop
  | immediate {c : Concurrency} {call : Expr} : Performs c (.immediate call) (.expr call)
  | awaited {call : Expr} : Performs .structured (.notify call) (.expr (.awaiting call))
  | started {call : Expr} : Performs .futures (.notify call) (.expr call)
  | awaitedQuietly {call : Expr} :
    Performs .structured (.store call) (.assign (.name "_") (.tryOptional (.awaiting call)))
  | leftAfter {call : Expr} {i : Item} :
    leftAfter? i = some call → Performs .futures (.store call) i

structure Work where
  sequence : Expr
  parameters : List String
  operations : List Operation

def Concurrency.element (c : Concurrency) (work : List Item) : List Item :=
  match c with
  | .structured => work
  | .futures => .expr ((Expr.name "group").method "enter" []) :: work

/-- For each element the operations are performed in their order, and nothing else. -/
structure FanOut.Does (c : Concurrency) (f : FanOut) (w : Work) : Prop where
  sequence : f.sequence = w.sequence
  parameters : f.parameters = w.parameters
  operations : ∃ items, f.element = c.element items ∧ List.Forall₂ c.Performs w.operations items

/-- Each element enters the dispatch group once, and leaves it once, at the end of its last
operation. -/
structure FanOut.JoinsOnce (f : FanOut) (w : Work) : Prop where
  does : f.Does .futures w
  enters : ∀ p ∈ Item.pathsOf f.element, p.steps.countP (callsGroup "enter") = 1
  leaves : ∃ call, w.operations.getLast? = some (.store call) ∧
    ∀ p ∈ Item.pathsOf f.element, p.steps.filterMap leftAfter? = [call]
  uses : (Item.partsOf f.element).countP (Uses "group") = 2

-- ---------------------------------------------------------------------------
-- What functions have to do
-- ---------------------------------------------------------------------------

/-- One statement calls the completion or hands it on, and nothing else uses it. -/
structure CompletesOnce (steps : List Item) : Prop where
  statements : steps.countP completes = 1
  uses : (Item.partsOf steps).countP (Uses "completion") = 1

structure Awaited (f : Function) : Prop where
  isAsync : f.isAsync = true
  parameters : ∀ p ∈ f.parameters, p.name ≠ "completion" ∧ p.label ≠ some "completion"
  body : ∀ i ∈ f.body, i.Each (Avoids "completion")

/-- Statements with a completion, and the awaited statements that do the same. -/
inductive StepsAlike : List Item → List Item → Prop
  | nil : StepsAlike [] []
  | same {i : Item} {is js : List Item} :
    completes i = false → StepsAlike is js → StepsAlike (i :: is) (i :: js)
  | complete {is js : List Item} :
    StepsAlike is js → StepsAlike (.expr completion.callEmpty :: is) js
  | handOn {function : String} {arguments : List Argument} {is js : List Item} :
    StepsAlike is js →
    StepsAlike
      (.expr (.call (.name function) (arguments ++ [.labelled "completion" completion])) :: is)
      (.expr (.awaiting (.call (.name function) arguments)) :: js)
  | fanOut {each tasks : Item} {f g : FanOut} {w : Work} {is js : List Item} :
    loop? each = some f → f.Does .futures w → taskLoop? tasks = some g → g.Does .structured w →
    StepsAlike is js →
    StepsAlike
      (.constant "group" (TypeName.construct { name := "DispatchGroup" } []) :: each
        :: .expr ((Expr.name "group").method "notify"
          [.labelled "queue" (.dot "main"), .labelled "execute" completion]) :: is)
      (tasks :: js)

structure PathsAlike (p q : Path) : Prop where
  decisions : p.decisions = q.decisions
  leaving : p.leaving = q.leaving
  steps : StepsAlike p.steps q.steps

structure FunctionsAlike (f g : Function) : Prop where
  kind : f.kind = g.kind
  parameters : f.parameters =
    g.parameters ++ [{ name := "completion", type := completionType, isEscaping := true }]
  paths : List.Forall₂ PathsAlike f.paths g.paths

/-- For each pair: the identifier is updated, the queues are merged, the entity is stored. -/
def mergingWork (e : Entity) : Work :=
  { sequence := MergeOutcome.pairs
    parameters := ["localEntity", "remoteEntity"]
    operations :=
      [.immediate (((Expr.name "localEntity").member "identifier").method "update"
         [.labelled "with" ((Expr.name "remoteEntity").member "identifier")]),
       .notify ((Expr.name "clientQueue").method "merge"
         [.labelled "with" ((Expr.name "localEntity").member "identifier")]),
       .store ((containerManager e).method "setAndUpdateIdentifierInLocalStores"
         [.unlabelled (.name "remoteEntity")])] }

def removingWork (e : Entity) : Work :=
  { sequence := .name "localEntities"
    parameters := ["localEntity"]
    operations :=
      [.store ((containerManager e).method "removeFromLocalStores"
         [.unlabelled (.member (.name "localEntity") "identifier")])] }

namespace MergeOutcome

def works (e : Entity) : MergeOutcome → List Work
  | .merged => [mergingWork e]
  | _ => []

def rollbacks : MergeOutcome → Nat
  | .undecodable | .aborted | .failed => 1
  | .merged | .gone => 0

structure MetBy (c : Concurrency) (e : Entity) (o : MergeOutcome) (p : Path) : Prop where
  decisions : p.decisions = o.decisions
  works : List.Forall₂ (FanOut.Does c) (p.steps.filterMap c.fanOut?) (o.works e)
  rollbacks : p.steps.countP (c.handsOnTo? · = some (rollbackName e)) = o.rollbacks
  uses : (Item.partsOf p.steps).countP (Uses (rollbackName e)) = o.rollbacks

end MergeOutcome

def handlerFunctions (c : Concurrency) (targets : List MergeTarget) : List Function :=
  dispatchFunction c targets ::
    targets.flatMap fun t => [mergeFunction c t, rollbackFunction c t.entity]

def dispatchRoutes (targets : List MergeTarget) : List (List Decision × List String) :=
  targets.map (fun t =>
    ([.case (.value (.member (.type (identifierType t.entity)) "entityTypeUID"))], [mergeName t]))
  ++ [([.case .default], [])]

structure StylesAgree (targets : List MergeTarget) (futures structured : SourceFile) : Prop where
  completing : futures.functions = handlerFunctions .futures targets
  async : structured.functions = handlerFunctions .structured targets
  completesOnce : ∀ f ∈ futures.functions, ∀ p ∈ f.paths, CompletesOnce p.steps
  joinsOnce : ∀ f ∈ futures.functions, ∀ p ∈ f.paths,
    ∀ fanOut ∈ p.steps.filterMap loop?, ∃ w, fanOut.JoinsOnce w
  awaited : ∀ f ∈ structured.functions, Awaited f
  alike : List.Forall₂ FunctionsAlike futures.functions structured.functions
  dispatch : ∀ c, (dispatchFunction c targets).paths.map
    (fun p => (p.decisions, p.steps.filterMap c.handsOnTo?)) = dispatchRoutes targets
  merge : ∀ c, ∀ t ∈ targets,
    List.Forall₂ (MergeOutcome.MetBy c t.entity) MergeOutcome.all (mergeFunction c t).paths
  rollback : ∀ c, ∀ t ∈ targets, ∀ p ∈ (rollbackFunction c t.entity).paths,
    List.Forall₂ (FanOut.Does c) (p.steps.filterMap c.fanOut?) [removingWork t.entity]

-- ---------------------------------------------------------------------------
-- Names
-- ---------------------------------------------------------------------------

theorem rollbackName_ne (e : Entity) {x : String}
    (h : ¬ "rollback".toList <+: x.toList) : rollbackName e ≠ x := by
  rintro rfl
  apply h
  simp [rollbackName, String.toList_append]

theorem mergeName_ne (t : MergeTarget) {x : String}
    (h : ¬ "merge".toList <+: x.toList) : mergeName t ≠ x := by
  rintro rfl
  apply h
  simp [mergeName, String.toList_append, List.append_assoc]

theorem managerName_ne (e : Entity) {x : String}
    (h : ¬ "Manager".toList <:+ x.toList) : managerName e ≠ x := by
  rintro rfl
  apply h
  simp [managerName, String.toList_append]

theorem remoteEntities_uses (t : MergeTarget) {x : String} (hpayload : x ≠ "payload")
    (helement : x ≠ "$0") : (remoteEntities t).parts.countP (Uses x) = 0 := by
  unfold remoteEntities
  split <;> simp [fromPayload, Uses, hpayload, helement]

theorem remoteEntities_avoids (t : MergeTarget) :
    (remoteEntities t).Each (Avoids "completion") := by
  unfold remoteEntities
  split <;> simp [fromPayload, Avoids]

-- ---------------------------------------------------------------------------
-- Functions with a completion
-- ---------------------------------------------------------------------------

theorem CompletesOnce.append {is js : List Item} (hstatements : ∀ i ∈ is, completes i = false)
    (huses : (Item.partsOf is).countP (Uses "completion") = 0) (h : CompletesOnce js) :
    CompletesOnce (is ++ js) := by
  have hzero : is.countP Emit.completes = 0 := by simpa [List.countP_eq_zero] using hstatements
  exact ⟨by rw [List.countP_append, hzero, h.statements],
    by rw [Item.partsOf_append, List.countP_append, huses, h.uses]⟩

theorem handOn_completesOnce {function : String} {arguments : List Argument}
    (hname : function ≠ "completion")
    (harguments : (Argument.partsOf arguments).countP (Uses "completion") = 0) :
    CompletesOnce [Concurrency.futures.handOn function arguments] := by
  constructor
  · simp [Concurrency.handOn, completes, isCompletion, completion]
  · simp [Concurrency.handOn, Argument.partsOf_append, completion, Uses, harguments, hname.symm]

theorem handOnRollback_completesOnce (e : Entity) :
    CompletesOnce [handOnRollback .futures e] := by
  apply handOn_completesOnce
  · exact rollbackName_ne e (by decide)
  · simp [Uses]

theorem forAll_completesOnce {sequence : Expr} {parameters : List String} {work : List Item}
    (hsequence : sequence.parts.countP (Uses "completion") = 0)
    (hwork : (Item.partsOf work).countP (Uses "completion") = 0) :
    CompletesOnce (Concurrency.futures.forAll sequence parameters work) := by
  constructor
  · simp [Concurrency.forAll, dispatchGroup, completes, isCompletion, completion]
  · simp [Concurrency.forAll, dispatchGroup, completion, Uses, hsequence, hwork]

theorem dispatchFunction_completesOnce (targets : List MergeTarget) :
    ∀ p ∈ (dispatchFunction .futures targets).paths, CompletesOnce p.steps := by
  rw [dispatchFunction_paths]
  simp only [List.forall_mem_append, List.forall_mem_map, List.forall_mem_singleton]
  constructor
  · intro t _
    apply handOn_completesOnce
    · exact mergeName_ne t (by decide)
    · simp [Uses]
  · constructor
    · simp [Concurrency.complete, completes, isCompletion, completion]
    · simp [Concurrency.complete, completion, Uses]

theorem mergeFunction_completesOnce (t : MergeTarget) :
    ∀ p ∈ (mergeFunction .futures t).paths, CompletesOnce p.steps := by
  rw [mergeFunction_paths, List.forall_mem_map]
  intro o _
  cases o with
  | undecodable =>
    have hlog : completes (decodingFailure t.entity) = false := rfl
    refine CompletesOnce.append (List.forall_mem_singleton.mpr hlog) ?_
      (handOnRollback_completesOnce t.entity)
    simp [decodingFailure, Uses]
  | merged =>
    have hremote : (remoteEntities t).parts.countP (Uses "completion") = 0 :=
      remoteEntities_uses t (by decide) (by decide)
    refine CompletesOnce.append ?_ ?_ (forAll_completesOnce ?_ ?_)
    · simp [completes]
    · simp [decodedPayload, Uses, hremote]
    · simp [MergeOutcome.pairs, Uses]
    · simp [mergeWork, Concurrency.notify, Concurrency.store, containerManager, Uses]
  | aborted => exact handOnRollback_completesOnce t.entity
  | failed => exact handOnRollback_completesOnce t.entity
  | gone =>
    constructor
    · simp [MergeOutcome.path, MergeOutcome.steps, Concurrency.complete, completes, isCompletion,
        completion]
    · simp [MergeOutcome.path, MergeOutcome.steps, Concurrency.complete, completion, Uses]

theorem rollbackFunction_completesOnce (e : Entity) :
    ∀ p ∈ (rollbackFunction .futures e).paths, CompletesOnce p.steps := by
  rw [rollbackFunction_paths, List.forall_mem_singleton]
  apply forAll_completesOnce
  · simp [Uses]
  · simp [Concurrency.store, containerManager, Uses]

-- ---------------------------------------------------------------------------
-- Functions that are awaited
-- ---------------------------------------------------------------------------

theorem dispatchFunction_awaited (targets : List MergeTarget) :
    Awaited (dispatchFunction .structured targets) := by
  have hname (t : MergeTarget) : "completion" ≠ mergeName t := (mergeName_ne t (by decide)).symm
  refine ⟨rfl, ?_, ?_⟩
  · simp [dispatchFunction, Concurrency.completing]
  · simp [dispatchFunction, Concurrency.completing, Concurrency.complete, dispatchCase,
      Concurrency.handOn, Avoids, hname, or_imp, forall_and]

theorem mergeFunction_awaited (t : MergeTarget) : Awaited (mergeFunction .structured t) := by
  have hname : "completion" ≠ rollbackName t.entity := (rollbackName_ne _ (by decide)).symm
  have hmanager : "completion" ≠ managerName t.entity := (managerName_ne _ (by decide)).symm
  refine ⟨rfl, ?_, ?_⟩
  · simp [mergeFunction, Concurrency.completing]
  · simp [mergeFunction, Concurrency.completing, containerGuard, Concurrency.complete,
      mergeOfResponse, handOnRollback, Concurrency.handOn, decodedPayload, Concurrency.forAll,
      taskGroup, mergeWork, Concurrency.notify, Concurrency.store, containerManager,
      decodingFailure, remoteEntities_avoids, Avoids, hname, hmanager]

theorem rollbackFunction_awaited (e : Entity) : Awaited (rollbackFunction .structured e) := by
  have hmanager : "completion" ≠ managerName e := (managerName_ne e (by decide)).symm
  refine ⟨rfl, ?_, ?_⟩
  · simp [rollbackFunction, Concurrency.completing]
  · simp [rollbackFunction, Concurrency.completing, Concurrency.forAll, taskGroup,
      Concurrency.store, containerManager, Avoids, hmanager]

-- ---------------------------------------------------------------------------
-- Fan-outs
-- ---------------------------------------------------------------------------

def Operation.item (c : Concurrency) : Operation → Item
  | .immediate call => .expr call
  | .notify call => c.notify call
  | .store call => c.store call

theorem Operation.item_performs (c : Concurrency) (o : Operation) : c.Performs o (o.item c) := by
  cases o with
  | immediate call => exact .immediate
  | notify call =>
    cases c with
    | structured => exact .awaited
    | futures => exact .started
  | store call =>
    cases c with
    | structured => exact .awaitedQuietly
    | futures => exact .leftAfter rfl

namespace Work

def forAll (w : Work) (c : Concurrency) : List Item :=
  c.forAll w.sequence w.parameters (w.operations.map (Operation.item c))

def fanOut (w : Work) (c : Concurrency) : FanOut :=
  { sequence := w.sequence, parameters := w.parameters
    element := c.element (w.operations.map (Operation.item c)) }

theorem fanOut_does (w : Work) (c : Concurrency) : (w.fanOut c).Does c w := by
  refine ⟨rfl, rfl, _, rfl, ?_⟩
  rw [List.forall₂_map_right_iff, List.forall₂_same]
  exact fun o _ => o.item_performs c

theorem forAll_fanOuts (w : Work) (c : Concurrency) :
    (w.forAll c).filterMap c.fanOut? = [w.fanOut c] := by
  cases c <;> rfl

theorem forAll_alike (w : Work) : StepsAlike (w.forAll .futures) (w.forAll .structured) :=
  .fanOut rfl (w.fanOut_does .futures) rfl (w.fanOut_does .structured) .nil

theorem fanOut_joinsOnce {w : Work} {call : Expr}
    (hlast : w.operations.getLast? = some (.store call))
    (hstraight : ∀ i ∈ (w.fanOut .futures).element, i.Straight)
    (henters : (w.fanOut .futures).element.countP (callsGroup "enter") = 1)
    (hleaves : (w.fanOut .futures).element.filterMap leftAfter? = [call])
    (huses : (Item.partsOf (w.fanOut .futures).element).countP (Uses "group") = 2) :
    (w.fanOut .futures).JoinsOnce w := by
  have hpaths : Item.pathsOf (w.fanOut .futures).element
      = [{ steps := (w.fanOut .futures).element }] := Item.pathsOf_of_straight hstraight
  refine ⟨w.fanOut_does .futures, ?_, ⟨call, hlast, ?_⟩, huses⟩
  · rwa [hpaths, List.forall_mem_singleton]
  · rwa [hpaths, List.forall_mem_singleton]

end Work

theorem merged_steps (c : Concurrency) (t : MergeTarget) :
    MergeOutcome.merged.steps c t =
      [.constant "payload" (decodedPayload t), .constant "remoteEntities" (remoteEntities t)]
        ++ (mergingWork t.entity).forAll c := by
  cases c <;> rfl

theorem rollbackFunction_body (c : Concurrency) (e : Entity) :
    (rollbackFunction c e).body = (removingWork e).forAll c := by
  cases c <;> rfl

theorem handOn_fanOut (c : Concurrency) {function : String} (h : function ≠ "withTaskGroup")
    (arguments : List Argument) : c.fanOut? (c.handOn function arguments) = none := by
  cases c with
  | structured =>
    simp only [Concurrency.fanOut?, Concurrency.handOn, taskLoop?, Expr.awaiting]
    split
    · simp_all
    · rfl
  | futures => rfl

theorem handOnRollback_fanOut (c : Concurrency) (e : Entity) :
    c.fanOut? (handOnRollback c e) = none :=
  handOn_fanOut c (rollbackName_ne e (by decide)) _

theorem mergingWork_joinsOnce (e : Entity) :
    ((mergingWork e).fanOut .futures).JoinsOnce (mergingWork e) := by
  refine Work.fanOut_joinsOnce rfl ?_ rfl rfl ?_
  · simp only [Work.fanOut, Concurrency.element, mergingWork, List.map_cons, List.map_nil,
      List.forall_mem_cons, forall_mem_nil_iff, and_true]
    refine ⟨?_, ?_, ?_, ?_⟩
    all_goals
      apply Item.straight_expr
      simp [Expr.mayThrow, Argument.anyMayThrow, containerManager]
  · simp [Work.fanOut, Concurrency.element, mergingWork, Operation.item, Concurrency.notify,
      Concurrency.store, containerManager, Uses]

theorem removingWork_joinsOnce (e : Entity) :
    ((removingWork e).fanOut .futures).JoinsOnce (removingWork e) := by
  refine Work.fanOut_joinsOnce rfl ?_ rfl rfl ?_
  · simp only [Work.fanOut, Concurrency.element, removingWork, List.map_cons, List.map_nil,
      List.forall_mem_cons, forall_mem_nil_iff, and_true]
    refine ⟨?_, ?_⟩
    all_goals
      apply Item.straight_expr
      simp [Expr.mayThrow, Argument.anyMayThrow, containerManager]
  · simp [Work.fanOut, Concurrency.element, removingWork, Operation.item, Concurrency.store,
      containerManager, Uses]

theorem rollbackFunction_fanOuts (c : Concurrency) (e : Entity) :
    ∀ p ∈ (rollbackFunction c e).paths,
      p.steps.filterMap c.fanOut? = [(removingWork e).fanOut c] := by
  rw [rollbackFunction_paths, List.forall_mem_singleton, rollbackFunction_body]
  exact (removingWork e).forAll_fanOuts c

theorem dispatchFunction_fanOuts (c : Concurrency) (targets : List MergeTarget) :
    ∀ p ∈ (dispatchFunction c targets).paths, p.steps.filterMap c.fanOut? = [] := by
  rw [dispatchFunction_paths]
  simp only [List.forall_mem_append, List.forall_mem_map, List.forall_mem_singleton]
  constructor
  · intro t _
    simp [dispatchCase, handOn_fanOut c (mergeName_ne t (by decide))]
  · cases c <;> rfl

theorem MergeOutcome.steps_fanOuts (c : Concurrency) (t : MergeTarget) (o : MergeOutcome) :
    (o.steps c t).filterMap c.fanOut? = (o.works t.entity).map fun w => w.fanOut c := by
  have hrollback := handOnRollback_fanOut c t.entity
  cases o with
  | undecodable =>
    have hlog : c.fanOut? (decodingFailure t.entity) = none := by cases c <;> rfl
    simp [steps, works, hrollback, hlog]
  | merged =>
    have hconstant (x : String) (value : Expr) : c.fanOut? (.constant x value) = none := by
      cases c <;> rfl
    rw [merged_steps, List.filterMap_append, Work.forAll_fanOuts]
    simp only [List.filterMap_cons, hconstant, List.filterMap_nil, List.nil_append, works,
      List.map_cons, List.map_nil]
  | aborted => simp [steps, works, hrollback]
  | failed => simp [steps, works, hrollback]
  | gone => cases c <;> rfl

theorem mergeFunction_joinsOnce (t : MergeTarget) :
    ∀ p ∈ (mergeFunction .futures t).paths, ∀ f ∈ p.steps.filterMap loop?,
      ∃ w, f.JoinsOnce w := by
  rw [mergeFunction_paths, List.forall_mem_map]
  intro o _ f hf
  have hfanOuts : f ∈ (o.works t.entity).map fun w => w.fanOut .futures := by
    rwa [← MergeOutcome.steps_fanOuts]
  cases o with
  | merged =>
    obtain rfl := List.mem_singleton.mp hfanOuts
    exact ⟨_, mergingWork_joinsOnce t.entity⟩
  | undecodable | aborted | failed | gone => simp [MergeOutcome.works] at hfanOuts

theorem rollbackFunction_joinsOnce (e : Entity) :
    ∀ p ∈ (rollbackFunction .futures e).paths, ∀ f ∈ p.steps.filterMap loop?,
      ∃ w, f.JoinsOnce w := by
  intro p hp f hf
  have hfanOuts : p.steps.filterMap loop? = _ := rollbackFunction_fanOuts .futures e p hp
  rw [hfanOuts] at hf
  obtain rfl := List.mem_singleton.mp hf
  exact ⟨_, removingWork_joinsOnce e⟩

-- ---------------------------------------------------------------------------
-- Paths
-- ---------------------------------------------------------------------------

theorem handOn_alike (function : String) (arguments : List Argument) :
    StepsAlike [Concurrency.futures.handOn function arguments]
      [Concurrency.structured.handOn function arguments] :=
  .handOn .nil

theorem dispatchFunction_alike (targets : List MergeTarget) :
    FunctionsAlike (dispatchFunction .futures targets) (dispatchFunction .structured targets) := by
  refine ⟨rfl, rfl, ?_⟩
  rw [dispatchFunction_paths, dispatchFunction_paths]
  refine List.rel_append ?_ ?_
  · rw [List.forall₂_map_left_iff, List.forall₂_map_right_iff, List.forall₂_same]
    exact fun t _ => ⟨rfl, rfl, handOn_alike _ _⟩
  · exact .cons ⟨rfl, rfl, .complete .nil⟩ .nil

theorem mergeFunction_alike (t : MergeTarget) :
    FunctionsAlike (mergeFunction .futures t) (mergeFunction .structured t) := by
  refine ⟨rfl, rfl, ?_⟩
  rw [mergeFunction_paths, mergeFunction_paths, List.forall₂_map_left_iff,
    List.forall₂_map_right_iff, List.forall₂_same]
  intro o _
  refine ⟨rfl, rfl, ?_⟩
  cases o with
  | undecodable => exact .same rfl (handOn_alike _ _)
  | merged =>
    simp only [MergeOutcome.path, merged_steps]
    exact .same rfl (.same rfl (mergingWork t.entity).forAll_alike)
  | aborted => exact handOn_alike _ _
  | failed => exact handOn_alike _ _
  | gone => exact .complete (.same rfl .nil)

theorem rollbackFunction_alike (e : Entity) :
    FunctionsAlike (rollbackFunction .futures e) (rollbackFunction .structured e) := by
  refine ⟨rfl, rfl, ?_⟩
  rw [rollbackFunction_paths, rollbackFunction_paths, rollbackFunction_body, rollbackFunction_body]
  exact .cons ⟨rfl, rfl, (removingWork e).forAll_alike⟩ .nil

theorem handOn_handsOn (c : Concurrency) (function : String) (arguments : List Argument) :
    c.handsOnTo? (c.handOn function arguments) = some function := by
  cases c with
  | structured => rfl
  | futures => simp [Concurrency.handOn, Concurrency.handsOnTo?, completion, isCompletion]

theorem complete_handsOn (c : Concurrency) : c.complete.filterMap c.handsOnTo? = [] := by
  cases c <;> rfl

theorem dispatchFunction_routes (c : Concurrency) (targets : List MergeTarget) :
    (dispatchFunction c targets).paths.map (fun p => (p.decisions, p.steps.filterMap c.handsOnTo?))
      = dispatchRoutes targets := by
  rw [dispatchFunction_paths]
  simp [dispatchRoutes, dispatchCase, handOn_handsOn, complete_handsOn, Function.comp_def]

theorem handOnRollback_uses (c : Concurrency) (e : Entity) :
    (handOnRollback c e).parts.countP (Uses (rollbackName e)) = 1 := by
  cases c <;>
    simp (disch := decide) [handOnRollback, Concurrency.handOn, List.countP_cons, Uses, completion,
      rollbackName_ne]

theorem forAll_handsOn (c : Concurrency) (w : Work) {name : String} (h : name ≠ "withTaskGroup") :
    (w.forAll c).countP (c.handsOnTo? · = some name) = 0 := by
  cases c with
  | structured =>
    simp [Work.forAll, Concurrency.forAll, taskGroup, Concurrency.handsOnTo?, h.symm]
  | futures =>
    simp [Work.forAll, Concurrency.forAll, dispatchGroup, Concurrency.handsOnTo?]

theorem MergeOutcome.steps_rollbacks (c : Concurrency) (t : MergeTarget) (o : MergeOutcome) :
    (o.steps c t).countP (c.handsOnTo? · = some (rollbackName t.entity)) = o.rollbacks := by
  have hcalled : c.handsOnTo? (handOnRollback c t.entity) = some (rollbackName t.entity) :=
    handOn_handsOn c _ _
  cases o with
  | undecodable =>
    have hlog : c.handsOnTo? (decodingFailure t.entity) = none := by cases c <;> rfl
    simp [steps, rollbacks, hcalled, hlog]
  | merged =>
    have hproperty (p : Code.Property) : c.handsOnTo? (.property p) = none := by cases c <;> rfl
    rw [merged_steps, List.countP_append, forAll_handsOn c _ (rollbackName_ne _ (by decide))]
    simp [rollbacks, hproperty]
  | aborted => simp [steps, rollbacks, hcalled]
  | failed => simp [steps, rollbacks, hcalled]
  | gone =>
    cases c <;>
      simp [steps, rollbacks, Concurrency.complete, completion, Concurrency.handsOnTo?]

theorem mergeWork_uses (c : Concurrency) (e : Entity) :
    (Item.partsOf (c.forAll MergeOutcome.pairs ["localEntity", "remoteEntity"]
      (mergeWork c e))).countP (Uses (rollbackName e)) = 0 := by
  cases c <;>
    simp (disch := decide) [Concurrency.forAll, taskGroup, dispatchGroup, MergeOutcome.pairs,
      mergeWork, Concurrency.notify, Concurrency.store, containerManager, completion, Uses,
      rollbackName_ne]

theorem MergeOutcome.steps_uses (c : Concurrency) (t : MergeTarget) (o : MergeOutcome) :
    (Item.partsOf (o.steps c t)).countP (Uses (rollbackName t.entity)) = o.rollbacks := by
  have huses := handOnRollback_uses c t.entity
  cases o with
  | undecodable =>
    simp (disch := decide) [steps, rollbacks, Item.partsOf, List.countP_cons, huses,
      decodingFailure, Uses, rollbackName_ne]
  | merged =>
    have hremote : (remoteEntities t).parts.countP (Uses (rollbackName t.entity)) = 0 :=
      remoteEntities_uses t (rollbackName_ne _ (by decide)) (rollbackName_ne _ (by decide))
    rw [steps, Item.partsOf_append, List.countP_append, mergeWork_uses]
    simp (disch := decide) [rollbacks, List.countP_cons, decodedPayload, hremote, Uses,
      rollbackName_ne]
  | aborted => simp [steps, rollbacks, Item.partsOf, huses]
  | failed => simp [steps, rollbacks, Item.partsOf, huses]
  | gone =>
    cases c <;>
      simp (disch := decide) [steps, rollbacks, Concurrency.complete, completion, Uses,
        rollbackName_ne]

theorem MergeOutcome.path_metBy (c : Concurrency) (t : MergeTarget) (o : MergeOutcome) :
    o.MetBy c t.entity (o.path c t) := by
  refine ⟨rfl, ?_, o.steps_rollbacks c t, o.steps_uses c t⟩
  rw [path, steps_fanOuts, List.forall₂_map_left_iff, List.forall₂_same]
  exact fun w _ => w.fanOut_does c

theorem responseHandlerFile_functions {d : Descriptions} {targets : List MergeTarget}
    (h : mergeTargets d = .ok targets) (hne : targets ≠ []) (settings : Settings) :
    ∃ file, responseHandlerFile d settings = .ok (some file) ∧
      file.functions = handlerFunctions settings.concurrency targets := by
  have hempty : targets.isEmpty = false := by simpa using hne
  refine ⟨(emittedFile responseHandlerType.name).adding
    [.type (responseHandler settings.concurrency targets)], ?_, ?_⟩
  · simp [responseHandlerFile, h, hempty, bind, Except.bind, pure, Except.pure]
  · have hgroups (t : MergeTarget) : (targetGroups settings.concurrency t).flatMap
        (List.filterMap Item.function?) = [mergeFunction settings.concurrency t,
          rollbackFunction settings.concurrency t.entity] := rfl
    have hblank : Item.function? .blank = none := rfl
    have hproperty (p : Code.Property) : [Item.property p].filterMap Item.function? = [] := rfl
    simp [SourceFile.functions, emittedFile, Item.functions, responseHandler,
      Item.filterMap_grouped hblank, Item.function?, List.flatMap_assoc, hgroups, hproperty,
      handlerFunctions]

theorem handlerFunctions_forall {p : Function → Prop} {c : Concurrency}
    {targets : List MergeTarget} (hdispatch : p (dispatchFunction c targets))
    (hmerge : ∀ t, p (mergeFunction c t)) (hrollback : ∀ e, p (rollbackFunction c e)) :
    ∀ f ∈ handlerFunctions c targets, p f := by
  refine List.forall_mem_cons.mpr ⟨hdispatch, fun f hf => ?_⟩
  obtain ⟨t, -, hf⟩ := List.mem_flatMap.mp hf
  rcases List.mem_pair.mp hf with rfl | rfl
  · exact hmerge t
  · exact hrollback t.entity

theorem handlerFunctions_alike (targets : List MergeTarget) :
    List.Forall₂ FunctionsAlike (handlerFunctions .futures targets)
      (handlerFunctions .structured targets) := by
  refine .cons (dispatchFunction_alike targets) ?_
  refine List.rel_flatMap (List.forall₂_same.mpr fun t _ => Eq.refl t) ?_
  rintro t _ rfl
  exact .cons (mergeFunction_alike t) (.cons (rollbackFunction_alike t.entity) .nil)

/-- If entities are merged, both styles emit a handler, and these agree. -/
theorem responseHandlerFile_stylesAgree {d : Descriptions} {targets : List MergeTarget}
    (h : mergeTargets d = .ok targets) (hne : targets ≠ []) (settings : Settings) :
    ∃ futures structured,
      responseHandlerFile d { settings with concurrency := .futures } = .ok (some futures) ∧
      responseHandlerFile d { settings with concurrency := .structured } = .ok (some structured) ∧
      StylesAgree targets futures structured := by
  obtain ⟨futures, hfutures, hcompleting⟩ :=
    responseHandlerFile_functions h hne { settings with concurrency := .futures }
  obtain ⟨structured, hstructured, hasync⟩ :=
    responseHandlerFile_functions h hne { settings with concurrency := .structured }
  refine ⟨futures, structured, hfutures, hstructured, ?_⟩
  refine
    { completing := hcompleting
      async := hasync
      completesOnce := ?completesOnce
      joinsOnce := ?joinsOnce
      awaited := ?awaited
      alike := ?alike
      dispatch := fun c => dispatchFunction_routes c targets
      merge := ?merge
      rollback := ?rollback }
  case completesOnce =>
    rw [hcompleting]
    exact handlerFunctions_forall (dispatchFunction_completesOnce targets)
      mergeFunction_completesOnce rollbackFunction_completesOnce
  case joinsOnce =>
    rw [hcompleting]
    refine handlerFunctions_forall (fun p hp f hf => ?_) mergeFunction_joinsOnce
      rollbackFunction_joinsOnce
    have hnone : p.steps.filterMap loop? = [] := dispatchFunction_fanOuts .futures targets p hp
    simp [hnone] at hf
  case awaited =>
    rw [hasync]
    exact handlerFunctions_forall (dispatchFunction_awaited targets) mergeFunction_awaited
      rollbackFunction_awaited
  case alike =>
    rw [hcompleting, hasync]
    exact handlerFunctions_alike targets
  case merge =>
    intro c t _
    rw [mergeFunction_paths, List.forall₂_map_right_iff, List.forall₂_same]
    exact fun o _ => o.path_metBy c t
  case rollback =>
    intro c t _ p hp
    rw [rollbackFunction_fanOuts c t.entity p hp]
    exact .cons ((removingWork t.entity).fanOut_does c) .nil

def writtenFilm : Descriptions :=
  { version := "1"
    entities := [{ name := "film", identifier := { kind := .scalar .int }, isMutable := true }]
    endpoints := [{ name := "films", write := some { entityName := "film" } }] }

theorem responseHandlerFile_stylesAgree_film :
    ∃ target futures structured,
      mergeTargets writtenFilm = .ok [target] ∧
      responseHandlerFile writtenFilm { concurrency := .futures } = .ok (some futures) ∧
      responseHandlerFile writtenFilm { concurrency := .structured } = .ok (some structured) ∧
      StylesAgree [target] futures structured := by
  have htargets : ∃ target, mergeTargets writtenFilm = .ok [target] := ⟨_, rfl⟩
  obtain ⟨target, htarget⟩ := htargets
  obtain ⟨futures, structured, hfutures, hstructured, hagree⟩ :=
    responseHandlerFile_stylesAgree htarget (List.cons_ne_nil target []) {}
  exact ⟨target, futures, structured, htarget, hfutures, hstructured, hagree⟩

end EntityGen.Emit
