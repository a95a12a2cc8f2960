import EntityGen.Proofs.Code.Distinct
import EntityGen.Proofs.Emit.Projections
import EntityGen.Proofs.Emit.ResponseHandler.Styles

/-!
# What the response handler is wired to

The handler, the payloads of endpoints and the container of managers are emitted
apart from each other. The container holds a handler exactly if there is one.
What the handler calls, decodes and reads is declared where it looks for it.
-/

namespace EntityGen.Emit

open Code
open Schema (Descriptions Endpoint EndpointPayload Entity)

variable {d : Descriptions} {settings : Settings} {files : List Source}
  {targets : List MergeTarget} {t : MergeTarget}

def writtenMember (t : MergeTarget) : String :=
  if t.endpoint.write.all fun p => p.layout = .single then "entity" else "entities"

def writtenType (t : MergeTarget) : TypeName := endpointPayloadType t.endpoint.name .write

/-- Functions that the handler calls by their names and does not declare. -/
def foreignFunctions : List String := ["completion", "withTaskGroup", "zip"]

-- ---------------------------------------------------------------------------
-- What has to fit
-- ---------------------------------------------------------------------------

/-- The container holds the handler exactly if there is one, and registers it with the queue
of every entity. -/
structure HandlerHeld (d : Descriptions) (container : SourceFile) (handler : Option SourceFile) :
    Prop where
  declared : handler.isSome ↔ DeclaresMember container containerType "responseHandler"
  registered : handler.isSome ↔
    ∃ queue, (queue, "responseHandler") ∈ container.methodsOf "register"
  everywhere : handler.isSome → ∀ e ∈ d.entities,
    (queueVariable e.queueName, "responseHandler") ∈ container.methodsOf "register"

/-- The handler declares its functions for each target, once where the names differ, and calls
no other ones that are not foreign. -/
structure FunctionsDeclared (c : Concurrency) (targets : List MergeTarget) (handler : SourceFile) :
    Prop where
  functions : handler.functions = handlerFunctions c targets
  names : handler.functionNames =
    "clientQueue" :: targets.flatMap fun t => [mergeName t, rollbackName t.entity]
  mergesOnce : (targets.map mergeName).Nodup →
    ∀ t ∈ targets, handler.functionNames.count (mergeName t) = 1
  rollsBackOnce : (targets.map fun t => rollbackName t.entity).Nodup →
    ∀ t ∈ targets, handler.functionNames.count (rollbackName t.entity) = 1
  dispatches : ∀ t ∈ targets, mergeName t ∈ (dispatchFunction c targets).calledNames
  rollsBack : ∀ t ∈ targets, rollbackName t.entity ∈ (mergeFunction c t).calledNames
  called : ∀ f ∈ handler.functions, ∀ name ∈ f.calledNames,
    name ∈ foreignFunctions ∨ name ∈ handler.functionNames

/-- The written payload is declared as it is decoded and read, and so is the manager. -/
structure TargetWired (d : Descriptions) (settings : Settings) (files : List Source)
    (container : SourceFile) (t : MergeTarget) : Prop where
  /-- The first endpoint that writes the entity. -/
  chosen : d.endpoints.find? (fun x => x.write.any fun p => p.entityName == t.entity.name)
    = some t.endpoint
  decoded : ∀ type, type ∈ (mergeFunction settings.concurrency t).decodedTypes "decoder" ↔
    type = (writtenType t).metatype
  read : ∀ x, x ∈ (mergeFunction settings.concurrency t).membersOf "payload" ↔ x = writtenMember t
  payload : ∃ s ∈ files, s.BelongsTo d settings "Endpoints" ∧
    endpointFile d t.endpoint = .ok s.file ∧
    ∀ x, DeclaresMember s.file (writtenType t) x ↔ x = writtenMember t
  manager : DeclaresMember container containerType (managerName t.entity)
  managed : ∀ x, (x ∈ (mergeFunction settings.concurrency t).membersOf "container" ↔
      x = managerName t.entity) ∧
    (x ∈ (rollbackFunction settings.concurrency t.entity).membersOf "container" ↔
      x = managerName t.entity)

structure HandlerWired (d : Descriptions) (settings : Settings) (files : List Source)
    (container : SourceFile) (handler : Option SourceFile) (targets : List MergeTarget) :
    Prop where
  support : ∀ s, s ∈ files ∧ s.BelongsTo d settings "Support" ↔
    ∃ file, (file = graphFile d ∨ file = container ∨ handler = some file) ∧
      s = Source.place "Support" file
  entities : targets.map (·.entity) = d.entities.filter needsMerging
  isSome_iff : handler.isSome ↔ targets ≠ []
  held : HandlerHeld d container handler
  functions : ∀ file, handler = some file → FunctionsDeclared settings.concurrency targets file
  targets : ∀ t ∈ targets, TargetWired d settings files container t

-- ---------------------------------------------------------------------------
-- Targets
-- ---------------------------------------------------------------------------

theorem mergeTarget_ok {e : Entity} :
    mergeTarget d e = .ok t ↔ t.entity = e ∧
      d.endpoints.find? (fun x => x.write.any fun p => p.entityName == e.name)
        = some t.endpoint := by
  rw [← List.head?_filter]
  obtain ⟨entity, endpoint⟩ := t
  unfold mergeTarget Descriptions.endpointsWriting
  split
  · next x _ h => simp [h, eq_comm]
  · next h => simp [h]

theorem mergeTargets_ok : mergeTargets d = .ok targets ↔
    List.Forall₂ (fun e t => mergeTarget d e = .ok t) (d.entities.filter needsMerging) targets :=
  mapM_ok

theorem mergeTargets_entities (h : mergeTargets d = .ok targets) :
    targets.map (·.entity) = d.entities.filter needsMerging := by
  have hentity := (mergeTargets_ok.mp h).imp fun e t ht => (mergeTarget_ok.mp ht).1
  have hmap : List.Forall₂ (· = ·) (targets.map (·.entity)) (d.entities.filter needsMerging) := by
    rw [List.forall₂_map_left_iff]
    exact hentity.flip
  exact List.forall₂_eq_eq_eq ▸ hmap

theorem mergeTargets_mem (h : mergeTargets d = .ok targets) (ht : t ∈ targets) :
    t.entity ∈ d.entities := by
  have hentity := List.mem_map_of_mem (f := (·.entity)) ht
  rw [mergeTargets_entities h] at hentity
  exact List.mem_of_mem_filter hentity

theorem mergeTargets_chosen (h : mergeTargets d = .ok targets) (ht : t ∈ targets) :
    d.endpoints.find? (fun x => x.write.any fun p => p.entityName == t.entity.name)
      = some t.endpoint := by
  obtain ⟨e, -, he⟩ := exists_of_forall₂ (mergeTargets_ok.mp h) ht
  obtain ⟨rfl, hchosen⟩ := mergeTarget_ok.mp he
  exact hchosen

theorem mergeTargets_writes (h : mergeTargets d = .ok targets) (ht : t ∈ targets) :
    t.endpoint ∈ d.endpoints ∧ ∃ p, t.endpoint.write = some p ∧ p.entityName = t.entity.name := by
  have hchosen := mergeTargets_chosen h ht
  refine ⟨List.mem_of_find?_eq_some hchosen, ?_⟩
  have hwrites := List.find?_some hchosen
  cases hp : t.endpoint.write with
  | none => simp [hp] at hwrites
  | some p => exact ⟨p, rfl, by simpa [hp] using hwrites⟩

-- ---------------------------------------------------------------------------
-- The container
-- ---------------------------------------------------------------------------

theorem mem_queueNames {queue : String} :
    queue ∈ queueNames d ↔ ∃ e ∈ d.entities, e.queueName = queue := by
  rw [queueNames, (firstUses_addAllDistinct _).mem_iff, List.mem_map]

theorem containerClass_storedNames (handlesResponses : Bool) :
    (containerClass d settings handlesResponses).body.filterMap Item.storedName? =
      (queueNames d).map queueVariable ++ (if handlesResponses then ["responseHandler"] else [])
        ++ d.entities.map managerName
        ++ [subscriptions settings.signals].filterMap Item.storedName? := by
  have hblank : Item.storedName? .blank = none := rfl
  have hqueues : ((queueNames d).map queueProperty).filterMap Item.storedName?
      = (queueNames d).map queueVariable := by
    simp [queueProperty, Item.storedName?, Function.comp_def]
  have hmanagers : (d.entities.map managerProperty).filterMap Item.storedName?
      = d.entities.map managerName := by
    simp [managerProperty, constantProperty, Item.storedName?, Function.comp_def]
  cases handlesResponses <;>
    simp [containerClass, Item.filterMap_grouped hblank, hqueues, hmanagers, privateProperty,
      Item.storedName?]

theorem queueVariable_ne {queue x : String} (h : ¬ "ClientQueue".toList <:+ x.toList) :
    queueVariable queue ≠ x := by
  rintro rfl
  apply h
  simp [queueVariable, String.toList_append]

section
variable {container : SourceFile} (hcontainer : containerFile d settings = .ok container)
  (htargets : mergeTargets d = .ok targets)
include hcontainer htargets

theorem containerFile_declares {x : String} : DeclaresMember container containerType x ↔
    x ∈ (containerClass d settings !targets.isEmpty).body.filterMap Item.storedName? := by
  simp only [containerFile, htargets, ok_bind, pure_ok] at hcontainer
  obtain rfl := hcontainer
  simp [DeclaresMember, SourceFile.importing, emittedFile, containerClass]

theorem containerFile_functions :
    container.functions = [containerInitializer d !targets.isEmpty] := by
  simp only [containerFile, htargets, ok_bind, pure_ok] at hcontainer
  obtain rfl := hcontainer
  have hblank : Item.function? .blank = none := rfl
  have hqueues : ((queueNames d).map queueProperty).filterMap Item.function? = [] := by
    simp [queueProperty, Item.function?]
  have hmanagers : (d.entities.map managerProperty).filterMap Item.function? = [] := by
    simp [managerProperty, constantProperty, Item.function?]
  have hsubscriptions : [subscriptions settings.signals].filterMap Item.function? = [] := by
    cases settings.signals <;> rfl
  cases targets.isEmpty <;>
    simp [SourceFile.functions, SourceFile.importing, emittedFile, containerClass, Item.functions,
      Item.filterMap_grouped hblank, hqueues, hmanagers, hsubscriptions, privateProperty,
      Item.function?]

theorem containerFile_registers : container.methodsOf "register" =
    if targets = [] then []
    else (queueNames d).map fun queue => (queueVariable queue, "responseHandler") := by
  have hassignments : ((queueNames d).map queueAssignment).filterMap (Item.methodOf? "register")
      = [] := by
    simp [queueAssignment, Item.methodOf?]
  have hmanagers : (d.entities.map managerAssignment).filterMap (Item.methodOf? "register")
      = [] := by
    simp [managerAssignment, Item.methodOf?]
  rw [SourceFile.methodsOf, containerFile_functions hcontainer htargets]
  cases targets with
  | nil => simp [containerInitializer, hassignments, hmanagers]
  | cons =>
    simp [containerInitializer, hassignments, hmanagers, handlerRegistration, Item.methodOf?,
      Function.comp_def, List.filterMap_map]

theorem containerFile_declares_handler :
    DeclaresMember container containerType "responseHandler" ↔ targets ≠ [] := by
  rw [containerFile_declares hcontainer htargets, containerClass_storedNames]
  have hqueue (queue : String) : queueVariable queue ≠ "responseHandler" :=
    queueVariable_ne (by decide)
  have hmanager (e : Entity) : managerName e ≠ "responseHandler" := managerName_ne e (by decide)
  have hsubscriptions : "responseHandler" ∉ [subscriptions settings.signals].filterMap
      Item.storedName? := by
    cases settings.signals <;> decide
  cases targets <;> simp [hqueue, hmanager, hsubscriptions]

theorem handlerHeld {handler : Option SourceFile} (hhandler : handler.isSome ↔ targets ≠ []) :
    HandlerHeld d container handler := by
  have hregisters := containerFile_registers hcontainer htargets
  constructor
  case declared => rw [hhandler, containerFile_declares_handler hcontainer htargets]
  case registered =>
    rw [hhandler, hregisters]
    constructor
    · intro hne
      obtain ⟨t, ht⟩ := List.exists_mem_of_ne_nil targets hne
      have hentity := mergeTargets_mem htargets ht
      refine ⟨queueVariable t.entity.queueName, ?_⟩
      rw [if_neg hne]
      exact List.mem_map_of_mem (mem_queueNames.mpr ⟨_, hentity, rfl⟩)
    · rintro ⟨queue, hqueue⟩ rfl
      simp at hqueue
  case everywhere =>
    intro hsome e he
    rw [hregisters, if_neg (hhandler.mp hsome)]
    exact List.mem_map_of_mem (mem_queueNames.mpr ⟨e, he, rfl⟩)

end

-- ---------------------------------------------------------------------------
-- Functions
-- ---------------------------------------------------------------------------

theorem mergeFunction_name? (c : Concurrency) (t : MergeTarget) :
    (mergeFunction c t).name? = some (mergeName t) := by
  cases c <;> rfl

theorem rollbackFunction_name? (c : Concurrency) (e : Entity) :
    (rollbackFunction c e).name? = some (rollbackName e) := by
  cases c <;> rfl

theorem dispatchFunction_name? (c : Concurrency) (targets : List MergeTarget) :
    (dispatchFunction c targets).name? = some "clientQueue" := by
  cases c <;> rfl

theorem handlerFunctions_names (c : Concurrency) (targets : List MergeTarget) :
    (handlerFunctions c targets).filterMap Function.name? =
      "clientQueue" :: targets.flatMap fun t => [mergeName t, rollbackName t.entity] := by
  simp [handlerFunctions, List.filterMap_flatMap, dispatchFunction_name?, mergeFunction_name?,
    rollbackFunction_name?]

theorem rollbackName_ne_mergeName (e : Entity) (t : MergeTarget) :
    rollbackName e ≠ mergeName t := by
  intro h
  simpa [rollbackName, mergeName] using congrArg (fun name => name.toList.head?) h

theorem count_flatMap_pair {α : Type} (f g : α → String) (xs : List α) (name : String) :
    (xs.flatMap fun x => [f x, g x]).count name
      = (xs.map f).count name + (xs.map g).count name := by
  induction xs with
  | nil => rfl
  | cons x xs ih =>
    simp only [List.flatMap_cons, List.map_cons, List.count_append, List.count_cons,
      List.count_nil, ih]
    omega

theorem count_mergeName (c : Concurrency) (targets : List MergeTarget) (t : MergeTarget) :
    ((handlerFunctions c targets).filterMap Function.name?).count (mergeName t)
      = (targets.map mergeName).count (mergeName t) := by
  have hqueue : "clientQueue" ≠ mergeName t := (mergeName_ne t (by decide)).symm
  have hrollbacks : (targets.map fun t => rollbackName t.entity).count (mergeName t) = 0 := by
    simp [List.count_eq_zero, rollbackName_ne_mergeName]
  rw [handlerFunctions_names, List.count_cons_of_ne hqueue, count_flatMap_pair, hrollbacks,
    Nat.add_zero]

theorem count_rollbackName (c : Concurrency) (targets : List MergeTarget) (t : MergeTarget) :
    ((handlerFunctions c targets).filterMap Function.name?).count (rollbackName t.entity)
      = (targets.map fun t => rollbackName t.entity).count (rollbackName t.entity) := by
  have hqueue : "clientQueue" ≠ rollbackName t.entity := (rollbackName_ne _ (by decide)).symm
  have hmerges : (targets.map mergeName).count (rollbackName t.entity) = 0 := by
    simp [List.count_eq_zero, (rollbackName_ne_mergeName t.entity _).symm]
  rw [handlerFunctions_names, List.count_cons_of_ne hqueue, count_flatMap_pair, hmerges,
    Nat.zero_add]

section
attribute [local simp] dispatchFunction mergeFunction rollbackFunction Concurrency.completing
  containerGuard Concurrency.complete completion mergeOfResponse handOnRollback
  Concurrency.handOn decodedPayload decodingFailure Concurrency.forAll taskGroup dispatchGroup
  mergeWork Concurrency.notify Concurrency.store containerManager

theorem remoteEntities_membersOf (t : MergeTarget) :
    (remoteEntities t).parts.filterMap (Part.memberOf? "payload") = [writtenMember t] := by
  unfold remoteEntities writtenMember
  split <;> simp [fromPayload, Part.memberOf?, List.filterMap_cons]

theorem remoteEntities_quietly (t : MergeTarget) :
    (remoteEntities t).parts.filterMap (Part.memberOf? "container") = [] ∧
    (remoteEntities t).parts.filterMap (Part.decodedType? "decoder") = [] ∧
    (remoteEntities t).parts.filterMap Part.calledName? = [] := by
  unfold remoteEntities
  split <;> simp [fromPayload, Part.memberOf?, Part.decodedType?, Part.calledName?]

theorem mergeFunction_membersOf_payload (c : Concurrency) (t : MergeTarget) :
    (mergeFunction c t).membersOf "payload" = [writtenMember t] := by
  rw [Function.membersOf]
  cases c <;> simp
  all_goals
    simp only [List.filterMap_append, List.filterMap_cons, List.filterMap_nil, List.append_nil,
      reduceIte, String.reduceEq, Part.memberOf?, remoteEntities_membersOf]

theorem mergeFunction_membersOf_container (c : Concurrency) (t : MergeTarget) :
    (mergeFunction c t).membersOf "container" = [managerName t.entity] := by
  rw [Function.membersOf]
  cases c <;> simp
  all_goals
    simp only [List.filterMap_append, List.filterMap_cons, List.filterMap_nil, List.nil_append,
      reduceIte, String.reduceEq, Part.memberOf?, remoteEntities_quietly]

theorem decodedType?_of_ne {decoder method : String} {base : Expr} {arguments : List Argument}
    (h : method ≠ "decode") :
    Part.decodedType? decoder (.expr (.call (.member base method) arguments)) = none := by
  unfold Part.decodedType?
  split
  · next heq =>
    cases heq
    exact absurd rfl h
  · rfl

set_option maxRecDepth 1024 in
theorem mergeFunction_decodedTypes (c : Concurrency) (t : MergeTarget) :
    (mergeFunction c t).decodedTypes "decoder" = [(writtenType t).metatype] := by
  rw [Function.decodedTypes]
  cases c <;> simp
  -- other calls first, for what is called is compared with the name of the method
  all_goals
    simp only [List.filterMap_append, List.filterMap_cons, List.filterMap_nil, List.nil_append,
      ne_eq, String.reduceEq, not_false_eq_true, decodedType?_of_ne, remoteEntities_quietly]
    simp only [Part.decodedType?, reduceIte, writtenType]

theorem mergeFunction_calledNames (c : Concurrency) (t : MergeTarget) :
    rollbackName t.entity ∈ (mergeFunction c t).calledNames ∧
      ∀ name ∈ (mergeFunction c t).calledNames,
        name ∈ foreignFunctions ∨ name = rollbackName t.entity := by
  rw [Function.calledNames]
  cases c <;> simp [-List.mem_filterMap]
  all_goals
    simp only [List.filterMap_append, List.filterMap_cons, List.filterMap_nil, Part.calledName?,
      remoteEntities_quietly]
    simp [foreignFunctions]

theorem rollbackFunction_membersOf (c : Concurrency) (e : Entity) :
    (rollbackFunction c e).membersOf "container" = [managerName e] := by
  rw [Function.membersOf]
  cases c <;> simp
  all_goals
    simp only [List.filterMap_cons, List.filterMap_nil, reduceIte, String.reduceEq, Part.memberOf?]

theorem rollbackFunction_calledNames (c : Concurrency) (e : Entity) :
    ∀ name ∈ (rollbackFunction c e).calledNames, name ∈ foreignFunctions := by
  rw [Function.calledNames]
  cases c <;> simp [-List.mem_filterMap]
  all_goals
    simp only [List.filterMap_cons, List.filterMap_nil, Part.calledName?]
    simp [foreignFunctions]

theorem dispatchFunction_calledNames (c : Concurrency) (targets : List MergeTarget) :
    (dispatchFunction c targets).calledNames
      = targets.map mergeName ++ (Item.partsOf c.complete).filterMap Part.calledName? := by
  have hcases (cases : List SwitchCase) :
      (SwitchCase.partsOf (targets.map (dispatchCase c) ++ cases)).filterMap Part.calledName?
        = targets.map mergeName ++ (SwitchCase.partsOf cases).filterMap Part.calledName? := by
    induction targets with
    | nil => rfl
    | cons t targets ih =>
      simp only [List.map_cons, List.cons_append, dispatchCase, SwitchCase.partsOf,
        List.filterMap_append, ih]
      cases c <;> simp [Part.calledName?, List.filterMap_cons]
  cases c <;> simp [Function.calledNames, Part.calledName?, List.filterMap_cons, hcases]

end

theorem complete_calledNames (c : Concurrency) :
    ∀ name ∈ (Item.partsOf c.complete).filterMap Part.calledName?, name ∈ foreignFunctions := by
  cases c <;> decide

theorem handlerFunctions_calledNames (c : Concurrency) (targets : List MergeTarget) :
    ∀ f ∈ handlerFunctions c targets, ∀ name ∈ f.calledNames,
      name ∈ foreignFunctions ∨
        name ∈ (handlerFunctions c targets).filterMap Function.name? := by
  rw [handlerFunctions_names]
  refine List.forall_mem_cons.mpr ⟨fun name hname => ?dispatch, fun f hf name hname => ?target⟩
  case dispatch =>
    rw [dispatchFunction_calledNames, List.mem_append, List.mem_map] at hname
    obtain ⟨t, ht, rfl⟩ | hname := hname
    · exact .inr (List.mem_cons_of_mem _ (List.mem_flatMap.mpr ⟨t, ht, List.mem_cons_self⟩))
    · exact .inl (complete_calledNames c name hname)
  case target =>
    obtain ⟨t, ht, hf⟩ := List.mem_flatMap.mp hf
    rcases List.mem_pair.mp hf with rfl | rfl
    · obtain hforeign | rfl := (mergeFunction_calledNames c t).2 name hname
      · exact .inl hforeign
      · exact .inr (List.mem_cons_of_mem _ (List.mem_flatMap.mpr ⟨t, ht, by simp⟩))
    · exact .inl (rollbackFunction_calledNames c t.entity name hname)

theorem functionsDeclared {handler : SourceFile} {c : Concurrency}
    (h : handler.functions = handlerFunctions c targets) :
    FunctionsDeclared c targets handler := by
  have hnames : handler.functionNames = (handlerFunctions c targets).filterMap Function.name? := by
    rw [SourceFile.functionNames, h]
  constructor
  case functions => exact h
  case names => rw [hnames, handlerFunctions_names]
  case mergesOnce =>
    intro hnodup t ht
    rw [hnames, count_mergeName]
    exact List.count_eq_one_of_mem hnodup (List.mem_map_of_mem ht)
  case rollsBackOnce =>
    intro hnodup t ht
    rw [hnames, count_rollbackName]
    exact List.count_eq_one_of_mem hnodup (List.mem_map.mpr ⟨t, ht, rfl⟩)
  case dispatches =>
    intro t ht
    rw [dispatchFunction_calledNames]
    exact List.mem_append_left _ (List.mem_map_of_mem ht)
  case rollsBack => exact fun t _ => (mergeFunction_calledNames c t).1
  case called =>
    rw [h, hnames]
    exact handlerFunctions_calledNames c targets

-- ---------------------------------------------------------------------------
-- Written payloads
-- ---------------------------------------------------------------------------

theorem endpointPayload_stores {x : Endpoint} {p : EndpointPayload} {side : PayloadSide}
    {decl : TypeDecl} (h : endpointPayload d x p side = .ok decl) :
    decl.name = endpointPayloadType x.name side ∧
      decl.body.filterMap Item.storedName?
        = [if p.layout = .single then "entity" else "entities"] := by
  simp only [endpointPayload, bind_ok, pure_ok] at h
  obtain ⟨entity, -, place, -, rfl⟩ := h
  have hblank : Item.storedName? .blank = none := rfl
  refine ⟨rfl, ?_⟩
  by_cases hsingle : p.layout = .single
  · simp [hsingle, Item.filterMap_grouped hblank, constantProperty, Item.storedName?, List.flatMap_map]
  · simp [hsingle, Item.filterMap_grouped hblank, constantProperty, Item.storedName?, List.flatMap_map]

theorem endpointPayloadType_injective {x : String} {side side' : PayloadSide}
    (h : endpointPayloadType x side = endpointPayloadType x side') : side = side' := by
  cases side <;> cases side' <;>
    simp_all [endpointPayloadType, PayloadSide.word, ← String.toList_inj]

theorem endpointSide_types {x : Endpoint} {side : PayloadSide} {payload : Option EndpointPayload}
    {items : List Item} (h : endpointSide d x side payload = .ok items) :
    ∀ decl ∈ items.filterMap Item.type?, decl.name = endpointPayloadType x.name side := by
  cases payload with
  | none =>
    cases h
    simp
  | some p =>
    simp only [endpointSide, bind_ok, pure_ok] at h
    obtain ⟨decl, hdecl, rfl⟩ := h
    simp [Item.type?, (endpointPayload_stores hdecl).1]

theorem endpointFile_declares {x : Endpoint} {p : EndpointPayload} (hp : x.write = some p)
    {file : SourceFile} (h : endpointFile d x = .ok file) {member : String} :
    DeclaresMember file (endpointPayloadType x.name .write) member ↔
      member = if p.layout = .single then "entity" else "entities" := by
  simp only [endpointFile, bind_ok, pure_ok] at h
  obtain ⟨read, hread, write, hwrite, rfl⟩ := h
  have hread := endpointSide_types hread
  simp only [endpointSide, hp, bind_ok, pure_ok] at hwrite
  obtain ⟨decl, hdecl, rfl⟩ := hwrite
  obtain ⟨hname, hstores⟩ := endpointPayload_stores hdecl
  simp only [DeclaresMember, ← SourceFile.mem_types, SourceFile.types,
    SourceFile.filterMap_addingSeparated (f := Item.type?) rfl, List.filterMap_append,
    List.mem_append]
  constructor
  · rintro ⟨decl', hmem | hmem | hmem, hname', hmember⟩
    · cases hmem
    · cases endpointPayloadType_injective ((hread decl' hmem).symm.trans hname')
    · obtain rfl := List.mem_singleton.mp hmem
      simpa [hstores] using hmember
  · rintro rfl
    exact ⟨decl, .inr (.inr (by simp [Item.type?])), hname, by simp [hstores]⟩

-- ---------------------------------------------------------------------------
-- Sources
-- ---------------------------------------------------------------------------

theorem writtenMember_of_write {p : EndpointPayload} (h : t.endpoint.write = some p) :
    writtenMember t = if p.layout = .single then "entity" else "entities" := by
  simp [writtenMember, h]

theorem targetWired (hsources : sources d settings = .ok files)
    (htargets : mergeTargets d = .ok targets) {container : SourceFile}
    (hcontainer : containerFile d settings = .ok container) (ht : t ∈ targets) :
    TargetWired d settings files container t := by
  obtain ⟨hendpoint, p, hp, -⟩ := mergeTargets_writes htargets ht
  constructor
  case chosen => exact mergeTargets_chosen htargets ht
  case decoded => simp [mergeFunction_decodedTypes]
  case read => simp [mergeFunction_membersOf_payload]
  case payload =>
    have hpayloads : t.endpoint.payloads ≠ [] := by simp [Endpoint.payloads, hp]
    obtain ⟨s, hs, hbelongs, hfile⟩ := exists_endpoint_source hsources hendpoint hpayloads
    refine ⟨s, hs, hbelongs, hfile, fun x => ?_⟩
    rw [writtenType, endpointFile_declares hp hfile, writtenMember_of_write hp]
  case manager =>
    rw [containerFile_declares hcontainer htargets, containerClass_storedNames]
    have hentity := mergeTargets_mem htargets ht
    exact List.mem_append_left _ (List.mem_append_right _ (List.mem_map_of_mem hentity))
  case managed =>
    simp [mergeFunction_membersOf_container, rollbackFunction_membersOf]

theorem responseHandlerFile_isSome {handler : Option SourceFile}
    (h : responseHandlerFile d settings = .ok handler) (htargets : mergeTargets d = .ok targets) :
    handler.isSome ↔ targets ≠ [] := by
  simp only [responseHandlerFile, htargets, ok_bind] at h
  cases targets with
  | nil =>
    cases h
    simp
  | cons t targets =>
    cases h
    simp

theorem supportFiles_ok {made : List SourceFile} (h : supportFiles d settings = .ok made) :
    ∃ container handler, containerFile d settings = .ok container ∧
      responseHandlerFile d settings = .ok handler ∧
      made = [graphFile d, container] ++ handler.toList := by
  simp only [supportFiles, bind_ok, pure_ok] at h
  obtain ⟨container, hcontainer, handler, hhandler, rfl⟩ := h
  exact ⟨container, handler, hcontainer, hhandler, rfl⟩

theorem belongsTo_support {made : List SourceFile} (h : supportFiles d settings = .ok made)
    {s : Source} : s.BelongsTo d settings "Support" ↔
      ∃ file ∈ made, s = Source.place "Support" file := by
  simp [Source.BelongsTo, directoryFiles, h]

/-- The handler, the payloads of the endpoints and the container fit together. -/
theorem sources_handlerWired (h : sources d settings = .ok files) :
    ∃ targets container handler, mergeTargets d = .ok targets ∧
      containerFile d settings = .ok container ∧
      responseHandlerFile d settings = .ok handler ∧
      HandlerWired d settings files container handler targets := by
  obtain ⟨made, hmade⟩ := exists_made h
    (show ("Support", supportFiles d settings) ∈ directoryFiles d settings by simp [directoryFiles])
  obtain ⟨container, handler, hcontainer, hhandler, hfiles⟩ := supportFiles_ok hmade
  obtain ⟨targets, htargets⟩ : ∃ targets, mergeTargets d = .ok targets := by
    simp only [containerFile, bind_ok] at hcontainer
    obtain ⟨targets, htargets, -⟩ := hcontainer
    exact ⟨targets, htargets⟩
  have hsome := responseHandlerFile_isSome hhandler htargets
  refine ⟨targets, container, handler, htargets, hcontainer, hhandler, ?_⟩
  constructor
  case support =>
    intro s
    have hbelongs := belongsTo_support hmade (s := s)
    rw [hfiles] at hbelongs
    constructor
    · rintro ⟨-, hs⟩
      simpa [or_assoc] using hbelongs.mp hs
    · intro hs
      have hs := hbelongs.mpr (by simpa [or_assoc] using hs)
      exact ⟨hs.mem h, hs⟩
  case entities => exact mergeTargets_entities htargets
  case isSome_iff => exact hsome
  case held => exact handlerHeld hcontainer htargets hsome
  case functions =>
    rintro file rfl
    obtain ⟨file', hfile', hfunctions⟩ :=
      responseHandlerFile_functions htargets (hsome.mp rfl) settings
    obtain rfl : file = file' := Option.some.inj (Except.ok.inj (hhandler.symm.trans hfile'))
    exact functionsDeclared hfunctions
  case targets => exact fun t ht => targetWired h htargets hcontainer ht

/-- Two entities that change on the client, one of which is written in two places. -/
def writtenTwice : Descriptions :=
  { version := "1"
    entities :=
      [{ name := "film", identifier := { kind := .scalar .int }, isMutable := true },
       { name := "note", identifier := { kind := .scalar .int } },
       { name := "star", identifier := { kind := .scalar .int }, isMutable := true
         clientQueue := some "people" }]
    endpoints :=
      [{ name := "notes", write := some { entityName := "note" } },
       { name := "cast", write := some { entityName := "star", layout := .array } },
       { name := "films", write := some { entityName := "film" } },
       { name := "stars", write := some { entityName := "star" } }] }

theorem sources_handlerWired_twice :
    ∃ files film star container handler, sources writtenTwice {} = .ok files ∧
      mergeTargets writtenTwice = .ok [film, star] ∧
      writtenMember film = "entity" ∧ writtenMember star = "entities" ∧
      star.endpoint.name = "cast" ∧
      HandlerWired writtenTwice {} files container (some handler) [film, star] := by
  obtain ⟨files, hfiles, -⟩ : ∃ files, sources writtenTwice {} = .ok files ∧ True :=
    exists_ok_of_decide (by decide +kernel)
  obtain ⟨film, star, htargets, hfilm, hstar, hcast⟩ : ∃ film star,
      mergeTargets writtenTwice = .ok [film, star] ∧ writtenMember film = "entity" ∧
        writtenMember star = "entities" ∧ star.endpoint.name = "cast" :=
    ⟨_, _, rfl, rfl, rfl, rfl⟩
  obtain ⟨targets, container, handler, htargets', -, -, hwired⟩ := sources_handlerWired hfiles
  obtain rfl : [film, star] = targets := Except.ok.inj (htargets.symm.trans htargets')
  obtain ⟨handler, rfl⟩ := Option.isSome_iff_exists.mp
    (hwired.isSome_iff.mpr (List.cons_ne_nil film [star]))
  exact ⟨files, film, star, container, handler, hfiles, htargets, hfilm, hstar, hcast, hwired⟩

end EntityGen.Emit
