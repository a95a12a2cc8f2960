import EntityGen.Proofs.Emit.ResponseHandler.Wiring

/-!
# The queues of the container

The container makes each client queue once, gives each manager the queue of its
entity and registers the response handler with each queue once, however many
entities share it.
-/

namespace EntityGen.Code

def Argument.value? (label : String) (arguments : List Argument) : Option Expr :=
  (arguments.find? fun a => a.label = some label).map (·.value)

/-- The name and the declared type of a property that each instance stores. -/
def Item.typedProperty? : Item → Option (String × TypeName)
  | .property p =>
    if p.body.isNone && !p.var.isStatic then p.var.type.map fun type => (p.var.name, type) else none
  | _ => none

end EntityGen.Code

namespace EntityGen.Emit

open Code
open Schema (Descriptions Entity)

variable {d : Descriptions} {settings : Settings} {container : SourceFile}

-- ---------------------------------------------------------------------------
-- Steps
-- ---------------------------------------------------------------------------

def registrationCall (queue : String) : Item :=
  .expr ((Expr.name (queueVariable queue)).method "register"
    [.unlabelled (.name "responseHandler")])

/-- The response handler is told of the container that holds it. -/
def containerHandover : Item :=
  .assign (.member (.name "responseHandler") "container") .selfRef

/-- A statement that has to do with client queues. -/
inductive WiringStep where
  /-- The queue of a name is made and kept in `target`. -/
  | queue (target name : String)
  /-- The manager of a type is made with the queue that is kept in `queue`. -/
  | manager (target : String) (managed : TypeName) (queue : String)
  /-- The response handler is registered with the queue that is kept in `queue`. -/
  | registration (queue : String)
  deriving DecidableEq

namespace WiringStep

def ofItem? : Item → Option WiringStep
  | .assign (.name x) (.call (.member (.type t) "clientQueue") arguments) =>
    match Argument.value? "for" arguments with
    | some (.string name) => if t = queueType then some (.queue x name) else none
    | _ => none
  | .assign (.name x) (.call (.type t)
      [.mk (some "stores") (.call (.member (.type managed) "stores") arguments)]) =>
    match Argument.value? "clientQueue" arguments with
    | some (.name kept) => if t = managerType then some (.manager x managed kept) else none
    | _ => none
  | .expr (.call (.member (.name kept) "register") [.mk none (.name "responseHandler")]) =>
    some (.registration kept)
  | _ => none

def ofQueue (queue : String) : WiringStep := .queue (queueVariable queue) queue

def ofEntity (e : Entity) : WiringStep :=
  .manager (managerName e) (entityType e.name) (queueVariable e.queueName)

def ofRegistration (queue : String) : WiringStep := .registration (queueVariable queue)

@[simp] theorem ofItem?_queueAssignment (queue : String) :
    ofItem? (queueAssignment queue) = some (ofQueue queue) := rfl

@[simp] theorem ofItem?_managerAssignment (e : Entity) :
    ofItem? (managerAssignment e) = some (ofEntity e) := rfl

@[simp] theorem ofItem?_registrationCall (queue : String) :
    ofItem? (registrationCall queue) = some (ofRegistration queue) := rfl

@[simp] theorem ofItem?_containerHandover : ofItem? containerHandover = none := rfl

end WiringStep

def managerTypeOf (e : Entity) : TypeName := { managerType with parameters := [entityType e.name] }

/-- The container wires its queues once each. -/
structure ContainerWired (d : Descriptions) (targets : List MergeTarget) (decl : TypeDecl)
    (init : Function) : Prop where
  name : decl.name = containerType
  initializer : init.isInitializer
  steps : init.body.filterMap WiringStep.ofItem? =
    (queueNames d).map WiringStep.ofQueue ++ d.entities.map WiringStep.ofEntity
      ++ if targets = [] then [] else (queueNames d).map WiringStep.ofRegistration
  /-- Apart from that, the handler is told of the container. -/
  others : init.body.filter (fun i => (WiringStep.ofItem? i).isNone) =
    if targets = [] then [] else [containerHandover]
  /-- The variables that the steps assign. -/
  properties : decl.body.filterMap Item.typedProperty? =
    (queueNames d).map (fun queue => (queueVariable queue, queueType))
      ++ d.entities.map fun e => (managerName e, managerTypeOf e)

-- ---------------------------------------------------------------------------
-- The initializer
-- ---------------------------------------------------------------------------

theorem handlerRegistration_eq (queues : List String) :
    handlerRegistration queues = queues.map registrationCall ++ [containerHandover] := rfl

theorem containerInitializer_steps (handlesResponses : Bool) :
    (containerInitializer d handlesResponses).body.filterMap WiringStep.ofItem? =
      (queueNames d).map WiringStep.ofQueue ++ d.entities.map WiringStep.ofEntity
        ++ if handlesResponses then (queueNames d).map WiringStep.ofRegistration else [] := by
  cases handlesResponses <;>
    simp [containerInitializer, handlerRegistration_eq, List.filterMap_map, Function.comp_def]

/-- No statement of the initializer is left out but the last one. -/
theorem containerInitializer_others (handlesResponses : Bool) :
    (containerInitializer d handlesResponses).body.filter
        (fun i => (WiringStep.ofItem? i).isNone) =
      if handlesResponses then [containerHandover] else [] := by
  cases handlesResponses <;>
    simp [containerInitializer, handlerRegistration_eq, List.filter_append, List.filter_map,
      Function.comp_def]

theorem containerClass_typedProperties (handlesResponses : Bool) :
    (containerClass d settings handlesResponses).body.filterMap Item.typedProperty? =
      (queueNames d).map (fun queue => (queueVariable queue, queueType))
        ++ d.entities.map fun e => (managerName e, managerTypeOf e) := by
  have hblank : Item.typedProperty? .blank = none := rfl
  have hqueues : ((queueNames d).map queueProperty).filterMap Item.typedProperty?
      = (queueNames d).map fun queue => (queueVariable queue, queueType) := by
    simp [queueProperty, Item.typedProperty?, Function.comp_def]
  have hmanagers : (d.entities.map managerProperty).filterMap Item.typedProperty?
      = d.entities.map fun e => (managerName e, managerTypeOf e) := by
    simp [managerProperty, constantProperty, Item.typedProperty?, Function.comp_def, managerTypeOf]
  have hsubscriptions : [subscriptions settings.signals].filterMap Item.typedProperty? = [] := by
    cases settings.signals <;> rfl
  cases handlesResponses <;>
    simp [containerClass, Item.filterMap_grouped hblank, hqueues, hmanagers, hsubscriptions,
      privateProperty, Item.typedProperty?]

-- ---------------------------------------------------------------------------
-- The container
-- ---------------------------------------------------------------------------

/-- The queues of the container are the ones that its entities use, in the order of first
use, and each is made and, where responses are handled, registered once. -/
theorem containerFile_wired (h : containerFile d settings = .ok container) :
    FirstUses (queueNames d) (d.entities.map (·.queueName)) ∧
      ∃ targets decl init, mergeTargets d = .ok targets ∧ container.types = [decl] ∧
        container.functions = [init] ∧ ContainerWired d targets decl init := by
  refine ⟨firstUses_addAllDistinct _, ?_⟩
  have hcontainer := h
  simp only [containerFile, bind_ok, pure_ok] at h
  obtain ⟨targets, htargets, rfl⟩ := h
  refine ⟨targets, containerClass d settings !targets.isEmpty,
    containerInitializer d !targets.isEmpty, htargets, ?_,
    containerFile_functions hcontainer htargets, ?_⟩
  · simp [SourceFile.types, SourceFile.importing, emittedFile, Item.type?]
  · have hempty {α : Type} (xs : List α) :
        (if !targets.isEmpty then xs else []) = if targets = [] then [] else xs := by
      cases targets <;> simp
    constructor
    case name => rfl
    case initializer => rfl
    case steps => rw [containerInitializer_steps, hempty]
    case others => rw [containerInitializer_others, hempty]
    case properties => exact containerClass_typedProperties _

theorem containerFile_wired_twice :
    ∃ container targets decl init, containerFile writtenTwice {} = .ok container ∧
      container.functions = [init] ∧ ContainerWired writtenTwice targets decl init ∧
      FirstUses ["main", "people"] (writtenTwice.entities.map (·.queueName)) ∧
      init.body.filterMap WiringStep.ofItem? =
        [.queue "mainClientQueue" "main", .queue "peopleClientQueue" "people",
         .manager "filmManager" (entityType "film") "mainClientQueue",
         .manager "noteManager" (entityType "note") "mainClientQueue",
         .manager "starManager" (entityType "star") "peopleClientQueue",
         .registration "mainClientQueue", .registration "peopleClientQueue"] := by
  obtain ⟨container, hcontainer, -⟩ : ∃ container,
      containerFile writtenTwice {} = .ok container ∧ True :=
    exists_ok_of_decide (by decide +kernel)
  obtain ⟨huses, targets, decl, init, htargets, -, hfunctions, hwired⟩ :=
    containerFile_wired hcontainer
  have hqueues : queueNames writtenTwice = ["main", "people"] := by decide +kernel
  have hsome : targets ≠ [] := by
    rintro rfl
    have hcount := congrArg List.length (mergeTargets_entities htargets)
    exact absurd hcount (by decide +kernel)
  refine ⟨container, targets, decl, init, hcontainer, hfunctions, hwired, hqueues ▸ huses, ?_⟩
  rw [hwired.steps, if_neg hsome, hqueues]
  decide +kernel

end EntityGen.Emit
