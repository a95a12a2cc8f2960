import EntityGen.Proofs.Code.Parts
import EntityGen.Proofs.Emit.SampleNesting
import EntityGen.Proofs.Emit.Sources

/-!
# Failures after validation

The generators look up every reference anew. If the descriptions are resolvable
none of these look-ups fails, and what is left are shapes that validation does
not look at.
-/

namespace EntityGen.Emit

open Code
open Schema (Descriptions Endpoint EndpointPayload Entity Member Subtype)

def Error.Residual : Error → Prop
  | .missingWritePayload _ | .unsupportedPayload _ _ | .invalidVersion _ => True
  | .shape _ (.voidConversion _) | .shape _ (.noRemotePayload _) | .shape _ .endlessNesting => True
  | .shape _ .notAnEnum | .shape _ .noUsedCase | .shape _ .voidIdentifier => False
  | .document _ | .schema _ | .file _ => False

variable {d : Descriptions} {settings : Settings} {e : Entity} {p : Schema.Property}
  {q : Error → Prop}

-- ---------------------------------------------------------------------------
-- Subtypes
-- ---------------------------------------------------------------------------

theorem subtypeItems_failsOnly (hd : d.Resolvable) {s : Subtype} (hs : s ∈ d.subtypes) :
    FailsOnly q (subtypeItems d s) := by
  unfold subtypeItems
  split
  · next cases hi =>
    have hused := hd.usedCase hs hi
    simp only [enumItems, List.isEmpty_eq_false_iff.mpr hused]
    exact .ok _
  · exact .pure _
  · next members hi =>
    refine .bind ?_ fun _ _ => .pure _
    refine .bind (.mapM fun m hm => ?_) fun _ _ => .pure _
    exact .bind (memberType_failsOnly hd hs hi hm) fun _ _ => .pure _

theorem subtypeFiles_failsOnly (hd : d.Resolvable) : FailsOnly q (subtypeFiles d) := by
  refine .bind (.mapM fun s hs => ?_) fun _ _ => .pure _
  exact .bind (subtypeItems_failsOnly hd hs) fun _ _ => .pure _

-- ---------------------------------------------------------------------------
-- Entities
-- ---------------------------------------------------------------------------

theorem elementIndexValue_failsOnly (hd : d.Resolvable) (he : e ∈ d.entities)
    (hp : p ∈ e.properties) (value : Expr) : FailsOnly q (elementIndexValue d e p value) := by
  unfold elementIndexValue
  split
  · exact .pure _
  · next name ht =>
    exact .bind (subtype_failsOnly (hd.subtype he hp ht)) fun _ _ => .pure _
  · next r ht =>
    exact .bind (entity_failsOnly (hd.target he hp ht)) fun _ _ => .pure _

theorem collectionIndexValue_failsOnly (hd : d.Resolvable) (he : e ∈ d.entities)
    (hp : p ∈ e.properties) (value : Expr) : FailsOnly q (collectionIndexValue d e p value) := by
  unfold collectionIndexValue
  split
  · exact .bind (elementIndexValue_failsOnly hd he hp _) fun _ _ => .pure _
  · exact elementIndexValue_failsOnly hd he hp value

theorem indexValue_failsOnly (hd : d.Resolvable) (he : e ∈ d.entities)
    (hp : p ∈ e.properties) (value : Expr) : FailsOnly q (indexValue d e p value) := by
  unfold indexValue
  refine .bind (collectionIndexValue_failsOnly hd he hp _) fun _ _ => ?_
  split
  · exact .pure _
  split
  · exact .pure _
  · exact collectionIndexValue_failsOnly hd he hp value

theorem entityItems_failsOnly (hd : d.Resolvable) (he : e ∈ d.entities) :
    FailsOnly q (entityItems d e) := by
  unfold entityItems
  refine .bind ?_ fun _ _ => ?_
  · refine .bind (.bind (.mapM fun p hp => ?_) fun _ _ => .pure _) fun _ _ => .pure _
    have hp := Entity.mem_storedProperties.mp hp
    exact .bind (propertyType_failsOnly hd he hp) fun _ _ => .pure _
  refine .ite (fun _ => ?_) fun _ => ?_
  · exact .bind (.pure _) fun _ _ => .pure _
  · refine .bind (.bind (.mapM fun p hp => ?_) fun _ _ => .pure _) fun _ _ => ?_
    · exact .bind (indexValue_failsOnly hd he (Entity.mem_storedProperties.mp hp) _)
        fun _ _ => .pure _
    · exact .bind (.pure _) fun _ _ => .pure _

theorem entityFiles_failsOnly (hd : d.Resolvable) : FailsOnly q (entityFiles d) :=
  .mapM fun _ he => .bind (entityItems_failsOnly hd he) fun _ _ => .pure _

-- ---------------------------------------------------------------------------
-- Identifiers
-- ---------------------------------------------------------------------------

theorem relatedEntities_failsOnly (hd : d.Resolvable) (he : e ∈ d.entities) :
    FailsOnly q (relatedEntities d e) :=
  .bind (.schema (hd.equivalentEntity_ok he)) fun _ _ =>
    .bind (.schema (hd.identifierContributors_ok he)) fun _ _ => .pure _

theorem mem_entities_of_mem_relatedEntities {related : List Entity}
    (h : relatedEntities d e = .ok related) : ∀ other ∈ related, other ∈ d.entities := by
  simp only [relatedEntities, bind_ok, schema_ok, pure_ok] at h
  obtain ⟨equivalent, hequivalent, contributors, hcontributors, rfl⟩ := h
  rw [List.forall_mem_append]
  constructor
  · intro other hother
    obtain rfl := Option.mem_toList.mp hother
    unfold Descriptions.equivalentEntity at hequivalent
    split at hequivalent
    · cases hequivalent
    · obtain ⟨t, ht, ⟨⟩⟩ := map_ok.mp hequivalent
      exact Descriptions.mem_of_entity? (Descriptions.entity_ok.mp ht)
  · exact forall_mem_of_mapM_ok hcontributors fun c _ t ht =>
      Descriptions.mem_of_entity? (Descriptions.entity_ok.mp ht)

theorem conversions_mem_entities {all : List Conversion} (h : conversions d = .ok all) :
    ∀ c ∈ all, (∃ e ∈ d.entities, e.name = c.target) ∧ ∃ e ∈ d.entities, e.name = c.source := by
  simp only [conversions, bind_ok, pure_ok] at h
  obtain ⟨groups, hgroups, rfl⟩ := h
  have hgroup : ∀ group ∈ groups, ∀ c ∈ group,
      (∃ e ∈ d.entities, e.name = c.target) ∧ ∃ e ∈ d.entities, e.name = c.source := by
    refine forall_mem_of_mapM_ok hgroups fun e he group hg c hc => ?_
    simp only [conversionsOf, bind_ok, pure_ok] at hg
    obtain ⟨related, hrelated, -, -, rfl⟩ := hg
    obtain ⟨other, hother, hc⟩ := List.mem_flatMap.mp hc
    have ho := mem_entities_of_mem_relatedEntities hrelated other hother
    unfold conversionsBetween at hc
    split at hc
    · cases hc
    · simp only [List.mem_cons, List.not_mem_nil, or_false] at hc
      rcases hc with rfl | rfl
      · exact ⟨⟨e, he, rfl⟩, ⟨other, ho, rfl⟩⟩
      · exact ⟨⟨other, ho, rfl⟩, ⟨e, he, rfl⟩⟩
  intro c hc
  rw [List.mem_mergeSort, List.mem_eraseDups, List.mem_flatten] at hc
  obtain ⟨group, hg, hc⟩ := hc
  exact hgroup group hg c hc

theorem checkConversion_residual (e other : Entity) :
    FailsOnly Error.Residual (checkConversion e other) :=
  .ite (fun _ => .error trivial) fun _ => .ite (fun _ => .error trivial) fun _ => .ok _

theorem conversionsOf_residual (hd : d.Resolvable) (he : e ∈ d.entities) :
    FailsOnly Error.Residual (conversionsOf d e) :=
  .bind (relatedEntities_failsOnly hd he) fun _ _ =>
    .bind (.forM fun other _ => checkConversion_residual e other) fun _ _ => .pure _

theorem conversionsFile_residual (hd : d.Resolvable) :
    FailsOnly Error.Residual (conversionsFile d) := by
  unfold conversionsFile
  refine .bind (.bind (.mapM fun e he => conversionsOf_residual hd he) fun _ _ => .pure _)
    fun all hall => ?_
  refine .ite (fun _ => .pure _) fun _ => .bind (.mapM fun c hc => ?_) fun _ _ => .pure _
  obtain ⟨⟨target, ht, htarget⟩, ⟨source, hs, hsource⟩⟩ := conversions_mem_entities hall c hc
  have ht := Descriptions.exists_entity? ht
  have hs := Descriptions.exists_entity? hs
  rw [htarget] at ht
  rw [hsource] at hs
  exact .bind (entity_failsOnly ht) fun _ _ => .bind (entity_failsOnly hs) fun _ _ => .pure _

theorem identifierFile_failsOnly (h : e.hasVoidIdentifier = false) :
    FailsOnly q (identifierFile e) := by
  unfold identifierFile
  split
  · next hvoid =>
    unfold Entity.hasVoidIdentifier at h
    unfold Schema.Identifier.value? at hvoid
    split at hvoid
    · next hkind => simp [hkind] at h
    · cases hvoid
    · cases hvoid
  · exact .ok _

theorem identifierFiles_residual (hd : d.Resolvable) :
    FailsOnly Error.Residual (identifierFiles d) := by
  refine .bind (.mapM fun e he => ?_) fun _ _ =>
    .bind (conversionsFile_residual hd) fun _ _ => .pure _
  obtain ⟨-, hidentity⟩ := List.mem_filter.mp he
  exact identifierFile_failsOnly (by simpa using hidentity)

-- ---------------------------------------------------------------------------
-- Payloads
-- ---------------------------------------------------------------------------

theorem fieldElementType_residual (hd : d.Resolvable) (he : e ∈ d.entities)
    (hp : p ∈ e.properties) : FailsOnly Error.Residual (fieldElementType d e p) := by
  unfold fieldElementType
  split
  · next r hr =>
    refine .ite (fun _ => elementType_failsOnly hd he hp) fun _ => ?_
    have ht := Schema.Property.relationship?_eq_some.mp hr
    exact .bind (entity_failsOnly (hd.target he hp ht)) fun _ _ =>
      .ite (fun _ => .pure _) fun _ => .error trivial
  · exact elementType_failsOnly hd he hp

theorem payloadFiles_residual (hd : d.Resolvable) : FailsOnly Error.Residual (payloadFiles d) := by
  refine .mapM fun e he => ?_
  refine .bind (.bind (.bind (.mapM fun p hp => ?_) fun _ _ => .pure _) fun _ _ => .pure _)
    fun _ _ => .pure _
  refine .bind (.bind ?_ fun _ _ => .pure _) fun _ _ => .pure _
  obtain ⟨he, -⟩ := List.mem_filter.mp he
  exact fieldElementType_residual hd he (Entity.mem_storedProperties.mp hp)

-- ---------------------------------------------------------------------------
-- Records
-- ---------------------------------------------------------------------------

theorem recordFields_failsOnly (hd : d.Resolvable) (he : e ∈ d.entities) :
    FailsOnly q (recordFields d settings e) := by
  refine .mapM fun p hp => .bind ?_ fun _ _ => .pure _
  have hp := Entity.mem_storedProperties.mp hp
  refine .bind ?_ fun _ _ => .bind (valueType_failsOnly hd he hp) fun _ _ => .pure _
  unfold fieldStorage
  refine .ite (fun _ => .pure _) fun _ => ?_
  split
  · next name ht =>
    exact .bind (subtype_failsOnly (hd.subtype he hp ht)) fun _ _ => .pure _
  · exact .pure _

theorem recordFiles_failsOnly (hd : d.Resolvable) : FailsOnly q (recordFiles d settings) := by
  refine .mapM fun e he => ?_
  obtain ⟨he, -⟩ := List.mem_filter.mp he
  exact .bind (recordFields_failsOnly hd he) fun _ _ => .pure _

-- ---------------------------------------------------------------------------
-- Endpoints
-- ---------------------------------------------------------------------------

theorem payloadPlace_residual (name : String) (p : EndpointPayload) :
    FailsOnly Error.Residual (payloadPlace name p) := by
  unfold payloadPlace
  split
  · unfold listPlace
    split <;> first | exact .ok _ | exact .error trivial
  · split <;> first | exact .ok _ | exact .error trivial

theorem endpointSide_residual (hd : d.Resolvable) {endpoint : Endpoint}
    (he : endpoint ∈ d.endpoints) (side : PayloadSide) {p : Option EndpointPayload}
    (hp : ∀ payload ∈ p, payload ∈ endpoint.payloads) :
    FailsOnly Error.Residual (endpointSide d endpoint side p) := by
  cases p with
  | none => exact .ok _
  | some payload =>
    have htarget := hd.payload he (hp payload rfl)
    refine .bind (.bind (entity_failsOnly htarget) fun _ _ => ?_) fun _ _ => .pure _
    exact .bind (payloadPlace_residual endpoint.name payload) fun _ _ => .pure _

theorem endpointFiles_residual (hd : d.Resolvable) :
    FailsOnly Error.Residual (endpointFiles d) := by
  refine .mapM fun endpoint he => ?_
  obtain ⟨he, -⟩ := List.mem_filter.mp he
  refine .bind (endpointSide_residual hd he .read ?_) fun _ _ =>
    .bind (endpointSide_residual hd he .write ?_) fun _ _ => .pure _
  · intro payload hp
    simp [Endpoint.payloads, Option.mem_def.mp hp]
  · intro payload hp
    simp [Endpoint.payloads, Option.mem_def.mp hp]

-- ---------------------------------------------------------------------------
-- Support
-- ---------------------------------------------------------------------------

theorem mergeTargets_residual : FailsOnly Error.Residual (mergeTargets d) := by
  refine .mapM fun e _ => ?_
  unfold mergeTarget
  split
  · exact .ok _
  · exact .error trivial

theorem supportFiles_residual : FailsOnly Error.Residual (supportFiles d settings) :=
  .bind (.bind mergeTargets_residual fun _ _ => .pure _) fun _ _ =>
    .bind (.bind mergeTargets_residual fun _ _ => .ite (fun _ => .pure _) fun _ => .pure _)
      fun _ _ => .pure _

theorem readVersion_residual (text : String) : FailsOnly Error.Residual (readVersion text) := by
  unfold readVersion
  split
  · exact .ok _
  · exact .error trivial

theorem migrationFile_residual : FailsOnly Error.Residual (migrationFile d settings) := by
  refine .ite (fun _ => .pure _) fun _ => .bind ?_ fun _ _ => .pure _
  refine .bind (readVersion_residual _) fun _ _ => .bind (.mapM fun text _ => ?_) fun _ _ => .pure _
  exact .bind (readVersion_residual text) fun _ _ => .pure _

-- ---------------------------------------------------------------------------
-- Factories
-- ---------------------------------------------------------------------------

theorem IsEndlessNesting.residual {error : Error} (h : IsEndlessNesting error) :
    error.Residual := by
  obtain ⟨name, rfl⟩ := h
  trivial

theorem factoryFiles_residual (hd : d.Resolvable) (moduleName : String) :
    FailsOnly Error.Residual (factoryFiles d moduleName) :=
  .mapM fun _ he => (factoryFile_failsOnly hd he moduleName).mono fun _ h => h.1.residual

-- ---------------------------------------------------------------------------
-- Sources
-- ---------------------------------------------------------------------------

theorem directoryFiles_residual (hd : d.Resolvable) :
    ∀ directory ∈ directoryFiles d settings, FailsOnly Error.Residual directory.2 := by
  simp only [directoryFiles, List.forall_mem_cons, forall_mem_nil_iff, and_true]
  exact ⟨subtypeFiles_failsOnly hd, entityFiles_failsOnly hd, identifierFiles_residual hd,
    payloadFiles_residual hd, recordFiles_failsOnly hd, endpointFiles_residual hd,
    supportFiles_residual, factoryFiles_residual hd _, .map migrationFile_residual⟩

/-- Valid descriptions are emitted, or one of the faults is found that
validation leaves open: never a reference that leads nowhere, an enumeration
without a case or an identity that is missing. -/
theorem sources_residual_of_validate {error : Error} (hv : d.validate = .ok ())
    (h : sources d settings = .error error) : error.Residual := by
  have hd := Descriptions.resolvable_of_validate hv
  have hsources : FailsOnly Error.Residual (sources d settings) := by
    refine .bind (.mapM fun directory hmem => ?_) fun _ _ => .pure _
    exact .bind (directoryFiles_residual hd directory hmem) fun _ _ => .pure _
  exact hsources error h

def unwrittenFilm : Descriptions :=
  { version := "1"
    entities := [{ name := "film", identifier := { kind := .scalar .int }, isMutable := true }] }

theorem sources_residual_of_validate_unwritten :
    unwrittenFilm.validate = .ok () ∧ ∃ error, sources unwrittenFilm {} = .error error ∧
      error.Residual := by
  have hv : unwrittenFilm.validate = .ok () := by decide +kernel
  have hfails : (sources unwrittenFilm {}).isOk = false := by decide +kernel
  cases h : sources unwrittenFilm {} with
  | ok files => simp [h, Except.isOk, Except.toBool] at hfails
  | error error => exact ⟨hv, error, rfl, sources_residual_of_validate hv h⟩

end EntityGen.Emit
