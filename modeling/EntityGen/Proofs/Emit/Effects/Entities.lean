import EntityGen.Emit.FactoryFile
import EntityGen.Emit.RecordFile
import EntityGen.Proofs.Emit.Effects.Coding
import EntityGen.Proofs.Emit.Labels

/-!
# Effects of entities

Functions of entities are unmarked and only run what is quiet. Only the
initializer from a record may throw, by a mark worked out from its arguments.
-/

namespace EntityGen.Emit

open Code
open Schema (Descriptions Entity)

attribute [local simp] Part.EffectsExact Function.EffectsExact or_imp forall_and

-- ---------------------------------------------------------------------------
-- Entities
-- ---------------------------------------------------------------------------

theorem initializerArguments_quiet {e : Entity} {identifier : Expr}
    {value : Schema.Property → Expr} (hi : identifier.Quiet) (hv : ∀ p, (value p).Quiet) :
    ∀ a ∈ initializerArguments e identifier value, a.value.Quiet := by
  intro a ha
  rcases List.mem_append.mp ha with ha | ha
  · split at ha
    · simp at ha
    · obtain rfl := List.mem_singleton.mp ha
      exact hi
  · obtain ⟨p, -, rfl⟩ := List.mem_map.mp ha
    exact hv p

theorem entityClass_exact {d : Descriptions} {e : Entity} {t : TypeDecl}
    (h : entityClass d e = .ok t) : (Item.type t).EffectsExact := by
  simp only [entityClass, bind_ok, pure_ok] at h
  obtain ⟨members, -, rfl⟩ := h
  refine Item.each_type.mpr ⟨trivial, effectsExact_grouped.mpr ?_⟩
  simp only [List.forall_mem_cons, forall_mem_nil_iff, and_true]
  refine ⟨by simp [publicAlias], ?_, memberwiseInitializer_exact members⟩
  rw [List.forall_mem_append]
  constructor
  · split
    · simp [voidIdentifierProperty]
    · simp
  · intro i hi
    obtain ⟨⟨name, type⟩, -, rfl⟩ := List.mem_map.mp hi
    exact constantProperty_exact name type

theorem payloadInitializer_exact (e : Entity) :
    (Item.extension (payloadInitializer e)).EffectsExact := by
  refine Item.each_extension.mpr ⟨trivial, List.forall_mem_singleton.mpr ?_⟩
  apply Function.effectsExact_of_quiet rfl rfl
  · simp
  · have hpayload (x : String) : (Expr.member (.name "payload") x).Quiet :=
      (Expr.quiet_name _).member x
    simpa using selfInit_quiet (initializerArguments_quiet (e := e) (hpayload "identifier")
      fun p => payloadValue_quiet p (hpayload (memberName p.name)))

theorem equatable_exact (e : Entity) : (Item.extension (equatable e)).EffectsExact := by
  refine Item.each_extension.mpr ⟨trivial, List.forall_mem_singleton.mpr ?_⟩
  apply Function.effectsExact_of_quiet rfl rfl
  · simp
  · simp only [List.forall_mem_append, List.forall_mem_map, List.forall_mem_singleton]
    constructor
    · intro p _
      constructor <;> simp [equalityCheck]
    · constructor <;> simp

theorem indexNameEnum_exact (e : Entity) : (Item.type (indexNameEnum e)).EffectsExact := by
  simp [indexNameEnum]

theorem indexValueAccessor_exact {d : Descriptions} {e : Entity} {ext : Extension}
    (h : indexValueAccessor d e = .ok ext) : (Item.extension ext).EffectsExact := by
  simp only [indexValueAccessor, bind_ok, pure_ok] at h
  obtain ⟨cases, hcases, rfl⟩ := h
  have hq : ∀ c ∈ cases, c.pattern.mayAwait = false ∧ c.pattern.Each Part.EffectsExact ∧
      ∀ i ∈ c.body, i.Quiet := by
    refine forall_mem_of_mapM_ok hcases fun p _ c hc => ?_
    simp only [indexValueCase, bind_ok, pure_ok] at hc
    obtain ⟨value, hvalue, rfl⟩ := hc
    simpa using (indexValue_quiet hvalue (Expr.quiet_name _)).returning
  refine Item.each_extension.mpr ⟨trivial, List.forall_mem_singleton.mpr ?_⟩
  apply Function.effectsExact_of_quiet rfl rfl
  · simp
  · simp only [List.forall_mem_singleton]
    constructor
    · simpa using fun c hc i hi => ((hq c hc).2.2 i hi).throws
    · simpa using ⟨fun c hc => (hq c hc).1, fun c hc i hi => ((hq c hc).2.2 i hi).awaits⟩
    · simpa using ⟨fun c hc => (hq c hc).2.1, fun c hc i hi => ((hq c hc).2.2 i hi).parts⟩

theorem merging_exact (e : Entity) : (Item.extension (merging e)).EffectsExact := by
  refine Item.each_extension.mpr ⟨trivial, List.forall_mem_singleton.mpr ?_⟩
  apply Function.effectsExact_of_quiet rfl rfl
  · simp
  · have hvalue (p : Schema.Property) : (mergedValue p).Quiet := by
      unfold mergedValue
      cases p.isLazy <;> constructor <;> simp
    simpa using ((Expr.quiet_type (entityType e.name)).call
      (initializerArguments_quiet (e := e) ((Expr.quiet_name "updated").member "identifier")
        hvalue)).returning

theorem entityItems_exact {d : Descriptions} {e : Entity} {items : List Item}
    (h : entityItems d e = .ok items) : ∀ i ∈ items, i.EffectsExact := by
  obtain ⟨t, index, ht, hindex, rfl⟩ := entityItems_ok h
  simp only [List.forall_mem_append, List.forall_mem_singleton]
  refine ⟨⟨⟨⟨entityClass_exact ht, ?_⟩, equatable_exact e⟩, ?_⟩, ?_⟩
  · split
    · simpa using payloadInitializer_exact e
    · simp
  · intro i hi
    rcases hindex i hi with rfl | ⟨accessor, haccessor, rfl⟩
    · exact indexNameEnum_exact e
    · exact indexValueAccessor_exact haccessor
  · split
    · simpa using merging_exact e
    · simp

-- ---------------------------------------------------------------------------
-- Records
-- ---------------------------------------------------------------------------

theorem record_quiet : record.Quiet := Expr.quiet_name _

/-- The failure of the initializer is caught where the entity is made. -/
theorem entityFromRecord_exact (e : Entity) (mayThrow : Bool) :
    (Item.function (entityFromRecord e mayThrow)).EffectsExact := by
  cases mayThrow <;> simp [entityFromRecord, recordParameter, record]

theorem writing_quiet (f : RecordField) {value : Expr} (h : value.Quiet) :
    ∀ i ∈ f.writing value record, i.Quiet := by
  have hassignment {value : Expr} (h : value.Quiet) : (f.assignment value record).Quiet := by
    have hvalue : (value.optionalIf f.isOptional).Quiet := by
      unfold Expr.optionalIf
      split <;> constructor <;> simp [h.throws, h.awaits, h.parts]
    have hencoded : (f.encoded value).Quiet := (hvalue.member _).call (by simp)
    constructor <;> simp [RecordField.assignment, record, hencoded.throws, hencoded.awaits,
      hencoded.parts]
  have hbound : (f.assignment (.name "value") record).Quiet := hassignment (Expr.quiet_name _)
  unfold RecordField.writing
  split
  · exact List.forall_mem_singleton.mpr (hassignment h)
  · refine List.forall_mem_singleton.mpr ⟨?_, ?_, ?_⟩
    · simp [h.throws, hbound.throws]
    · simp [h.awaits, hbound.awaits, record_quiet.awaits]
    · simpa [h.parts, record_quiet.parts] using hbound.parts

theorem mergeIntoRecord_exact (settings : Settings) (e : Entity)
    (fields : List (Schema.Property × RecordField)) :
    (Item.function (mergeIntoRecord settings e fields)).EffectsExact := by
  apply Function.effectsExact_of_quiet rfl rfl
  · simp [mergeIntoRecord, recordParameter]
  · simp only [mergeIntoRecord, List.forall_mem_append]
    refine ⟨⟨?_, ?_⟩, ?_⟩
    · split
      · simp
      · refine List.forall_mem_singleton.mpr (Expr.Quiet.item ?_)
        exact ((Expr.quiet_name _).member _).call (by simpa using record_quiet)
    · intro i hi
      obtain ⟨⟨p, f⟩, -, hi⟩ := List.mem_flatMap.mp hi
      exact writing_quiet f (Expr.quiet_name _) i hi
    · split
      · refine List.forall_mem_singleton.mpr ⟨?_, ?_, ?_⟩ <;> simp [record]
      · simp

theorem reading_exact {f : RecordField} (h : ∀ value, f.fallback = some value → value.Quiet) :
    (f.reading record).mayAwait = false ∧ (f.reading record).Each Part.EffectsExact := by
  have hoptional : (f.optionalReading record).Quiet := by
    unfold RecordField.optionalReading
    cases f.logsError <;> split <;> constructor <;> simp [record]
  unfold RecordField.reading
  split
  · simp [hoptional.awaits, hoptional.parts, record_quiet.awaits, record_quiet.parts]
  split
  · exact ⟨hoptional.awaits, hoptional.parts⟩
  split
  · next fallback hf =>
    have hq := h fallback hf
    unfold RecordField.fallbackReading
    split
    · simpa [hoptional.awaits, hq.awaits] using ⟨hoptional.parts, hq.parts⟩
    · simp [record, hq.awaits, hq.parts]
  · unfold RecordField.requiredReading
    split <;> simp [record]

theorem recordFields_quiet {d : Descriptions} {settings : Settings} {e : Entity}
    {fields : List (Schema.Property × RecordField)} (h : recordFields d settings e = .ok fields) :
    ∀ pf ∈ fields, ∀ value, pf.2.fallback = some value → value.Quiet := by
  refine forall_mem_of_mapM_ok h fun p _ pf hpf value hvalue => ?_
  simp only [RecordField.resolve, bind_ok, pure_ok] at hpf
  obtain ⟨f, ⟨storage, -, valueType, -, rfl⟩, rfl⟩ := hpf
  exact presentDefault?_quiet hvalue

theorem recordInitializer_exact {d : Descriptions} {settings : Settings} {e : Entity}
    {fields : List (Schema.Property × RecordField)} (h : recordFields d settings e = .ok fields) :
    (Item.function (recordInitializer e (recordArguments e fields))).EffectsExact := by
  have harguments : ∀ a ∈ recordArguments e fields,
      a.value.mayAwait = false ∧ a.value.Each Part.EffectsExact := by
    simp only [recordArguments, List.forall_mem_append]
    constructor
    · split <;> simp [record]
    · intro a ha
      obtain ⟨⟨p, f⟩, hf, rfl⟩ := List.mem_map.mp ha
      exact reading_exact (recordFields_quiet h (p, f) hf)
  simpa [recordInitializer, recordParameter] using
    ⟨fun a ha => (harguments a ha).1, fun a ha => (harguments a ha).2⟩

-- ---------------------------------------------------------------------------
-- Factories
-- ---------------------------------------------------------------------------

theorem sampleIdentifier_parameter_exact (e : Entity) :
    ({ name := "identifier", type := identifierType e
       default := some (sampleIdentifier e) } : Parameter).Each Part.EffectsExact := by
  simpa using (sampleIdentifier_quiet e).parts

theorem factoryParameters_exact {d : Descriptions} {e : Entity} {parameters : List Parameter}
    (h : factoryParameters d e = .ok parameters) :
    ∀ p ∈ parameters, p.Each Part.EffectsExact := by
  simp only [factoryParameters, bind_ok, pure_ok] at h
  obtain ⟨own, hmapped, rfl⟩ := h
  have hown : ∀ p ∈ own, p.Each Part.EffectsExact := by
    refine forall_mem_of_mapM_ok hmapped fun p _ parameter hp => ?_
    simp only [factoryParameter, bind_ok, pure_ok] at hp
    obtain ⟨type, -, sample, hsample, rfl⟩ := hp
    simpa using (sampleProperty_quiet hsample).parts
  split
  · exact hown
  · exact List.forall_mem_cons.mpr ⟨sampleIdentifier_parameter_exact e, hown⟩

theorem makeFunction_exact (e : Entity) {parameters : List Parameter}
    (h : ∀ p ∈ parameters, p.Each Part.EffectsExact) :
    (Item.function (makeFunction e parameters)).EffectsExact := by
  apply Function.effectsExact_of_quiet rfl rfl
  · exact h
  · exact List.forall_mem_singleton.mpr <| Expr.Quiet.returning <|
      (Expr.quiet_type _).call <|
        initializerArguments_quiet (Expr.quiet_name _) fun p => Expr.quiet_name _

end EntityGen.Emit
