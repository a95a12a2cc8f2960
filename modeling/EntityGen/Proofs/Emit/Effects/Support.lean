import EntityGen.Emit.ContainerFile
import EntityGen.Emit.GraphFile
import EntityGen.Emit.MigrationFile
import EntityGen.Proofs.Emit.Effects.Coding

/-!
# Effects of support code

The functions of the response handler wait exactly if they do not complete
through a closure. For dispatch this needs a target: the default of its switch
waits for nothing.
-/

namespace EntityGen.Emit

open Code
open Schema (Descriptions Entity)

attribute [local simp] Part.EffectsExact Function.EffectsExact or_imp forall_and

-- ---------------------------------------------------------------------------
-- The response handler
-- ---------------------------------------------------------------------------

theorem dispatchFunction_exact (c : Concurrency) {targets : List MergeTarget}
    (h : targets ≠ []) : (Item.function (dispatchFunction c targets)).EffectsExact := by
  obtain ⟨t, ht⟩ := List.exists_mem_of_ne_nil targets h
  cases c with
  | structured =>
    simpa [dispatchFunction, Concurrency.completing, Concurrency.complete, dispatchCase,
      Concurrency.handOn] using ⟨t, ht⟩
  | futures =>
    simp [dispatchFunction, Concurrency.completing, Concurrency.complete, dispatchCase,
      Concurrency.handOn, completion]

theorem remoteEntities_quiet (t : MergeTarget) : (remoteEntities t).Quiet := by
  unfold remoteEntities
  split <;> constructor <;> simp [fromPayload]

theorem mergeFunction_exact (c : Concurrency) (t : MergeTarget) :
    (Item.function (mergeFunction c t)).EffectsExact := by
  have hremote := remoteEntities_quiet t
  cases c with
  | structured =>
    simp [mergeFunction, Concurrency.completing, containerGuard, Concurrency.complete,
      mergeOfResponse, handOnRollback, Concurrency.handOn, decodedPayload, Concurrency.forAll,
      taskGroup, mergeWork, Concurrency.notify, Concurrency.store, containerManager,
      decodingFailure, hremote.throws, hremote.awaits, hremote.parts]
  | futures =>
    simp [mergeFunction, Concurrency.completing, containerGuard, Concurrency.complete,
      mergeOfResponse, handOnRollback, Concurrency.handOn, decodedPayload, Concurrency.forAll,
      dispatchGroup, mergeWork, Concurrency.notify, Concurrency.store, containerManager,
      decodingFailure, completion, hremote.throws, hremote.awaits, hremote.parts]

theorem rollbackFunction_exact (c : Concurrency) (e : Entity) :
    (Item.function (rollbackFunction c e)).EffectsExact := by
  cases c with
  | structured =>
    simp [rollbackFunction, Concurrency.completing, Concurrency.forAll, taskGroup,
      Concurrency.store, containerManager]
  | futures =>
    simp [rollbackFunction, Concurrency.completing, Concurrency.forAll, dispatchGroup,
      Concurrency.store, containerManager, completion]

theorem targetGroups_exact (c : Concurrency) (t : MergeTarget) :
    ∀ g ∈ targetGroups c t, ∀ i ∈ g, i.EffectsExact := by
  simp only [targetGroups, List.forall_mem_cons, forall_mem_nil_iff, and_true]
  exact ⟨by simp, mergeFunction_exact c t, rollbackFunction_exact c t.entity⟩

theorem responseHandler_exact (c : Concurrency) {targets : List MergeTarget} (h : targets ≠ []) :
    (Item.type (responseHandler c targets)).EffectsExact := by
  refine Item.each_type.mpr ⟨trivial, effectsExact_grouped.mpr ?_⟩
  simp only [List.forall_mem_append, List.forall_mem_cons, forall_mem_nil_iff, and_true]
  refine ⟨⟨trivial, ?_, ?_, dispatchFunction_exact c h⟩, ?_⟩
  · simp
  · simp
  · intro g hg
    obtain ⟨t, -, hg⟩ := List.mem_flatMap.mp hg
    exact targetGroups_exact c t g hg

-- ---------------------------------------------------------------------------
-- The container
-- ---------------------------------------------------------------------------

theorem containerInitializer_exact (d : Descriptions) (handlesResponses : Bool) :
    (Item.function (containerInitializer d handlesResponses)).EffectsExact := by
  apply Function.effectsExact_of_quiet rfl rfl
  · simp [containerInitializer]
  · simp only [containerInitializer, List.forall_mem_append, List.forall_mem_map]
    refine ⟨⟨?_, ?_⟩, ?_⟩
    · intro queue _
      constructor <;> simp [queueAssignment]
    · intro e _
      constructor <;> simp [managerAssignment]
    · split
      · simp only [handlerRegistration, List.forall_mem_append, List.forall_mem_map,
          List.forall_mem_singleton]
        refine ⟨fun queue _ => ?_, ?_⟩ <;> constructor <;> simp
      · simp

theorem containerClass_exact (d : Descriptions) (settings : Settings) (handlesResponses : Bool) :
    (Item.type (containerClass d settings handlesResponses)).EffectsExact := by
  have hsubscriptions : (subscriptions settings.signals).EffectsExact := by
    cases settings.signals <;> simp [subscriptions, privateProperty]
  refine Item.each_type.mpr ⟨trivial, effectsExact_grouped.mpr ?_⟩
  simp only [List.forall_mem_append, List.forall_mem_cons, forall_mem_nil_iff,
    and_true, List.forall_mem_map]
  refine ⟨⟨?_, ?_⟩, ?_, hsubscriptions, containerInitializer_exact d handlesResponses⟩
  · intro queue _
    simp [queueProperty]
  · split <;> simp [privateProperty]
  · intro e _
    exact constantProperty_exact _ _

-- ---------------------------------------------------------------------------
-- The graph
-- ---------------------------------------------------------------------------

theorem insertion_quiet (e : Entity) : (insertion e).Quiet := by
  unfold insertion
  split
  · constructor <;> simp
  · cases e.hasLazyProperties <;> constructor <;> simp

theorem insertFunction_exact (d : Descriptions) :
    (Item.function (insertFunction d)).EffectsExact := by
  apply Function.effectsExact_of_quiet rfl rfl
  · simp [insertFunction]
  · simp only [insertFunction]
    split
    · simp
    · refine List.forall_mem_singleton.mpr ⟨?_, ?_, ?_⟩
      · simp
      · simp
      · simpa [insertionCase] using fun e _ => (insertion_quiet e).parts

theorem graph_exact (d : Descriptions) :
    ∀ i ∈ [Item.type (anyEntity d), .type (graphClass d)], i.EffectsExact := by
  simp only [List.forall_mem_cons, forall_mem_nil_iff, and_true]
  constructor
  · simp [anyEntity]
  · refine Item.each_type.mpr ⟨trivial, effectsExact_grouped.mpr ?_⟩
    simp only [List.forall_mem_cons, forall_mem_nil_iff, and_true,
      List.forall_mem_map]
    refine ⟨?_, ?_, insertFunction_exact d⟩
    · intro e _
      simp [storageProperty]
    · simp [Function.initializer]

-- ---------------------------------------------------------------------------
-- Migration
-- ---------------------------------------------------------------------------

theorem migrationTest_exact (version : String) :
    (Item.function (migrationTest version)).EffectsExact := by
  simp [migrationTest]

theorem readCheck_exact (e : Entity) :
    (readCheck e).mayAwait = false ∧ (readCheck e).EffectsExact := by
  cases h : e.legacyPreviousName <;> simp [readCheck, h]

/-- The run throws even without persisted entities since opening the store does. -/
theorem migrationRun_exact (d : Descriptions) (settings : Settings) :
    (Item.function (migrationRun d settings)).EffectsExact := by
  simpa [migrationRun] using
    ⟨fun e _ => (readCheck_exact e).1, fun e _ => (readCheck_exact e).2⟩

end EntityGen.Emit
