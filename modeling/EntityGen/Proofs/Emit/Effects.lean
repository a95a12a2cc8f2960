import EntityGen.Proofs.Document.Load
import EntityGen.Proofs.Emit.Effects.Entities
import EntityGen.Proofs.Emit.Effects.Support
import EntityGen.Proofs.Emit.Sources

/-!
# Effects of emitted code

Every function that stands in a source of a document, at any depth, declares
exactly the effects of its body. A document matters here: it describes no value
without members, whose encoding would be marked as throwing in vain.
-/

namespace EntityGen.Emit

open Code
open Schema (Descriptions Endpoint Entity Subtype)

variable {d : Descriptions} {settings : Settings} {file : SourceFile}

def FileEffectsExact (file : SourceFile) : Prop := ∀ i ∈ file.body, i.EffectsExact

theorem effectsExact_adding {file : SourceFile} {items : List Item} (hfile : file.body = [])
    (h : ∀ i ∈ items, i.EffectsExact) : FileEffectsExact (file.adding items) := by
  simpa [FileEffectsExact, hfile] using h

theorem effectsExact_addingSeparated {name : String} {items : List Item}
    (h : ∀ i ∈ items, i.EffectsExact) :
    FileEffectsExact ((emittedFile name).addingSeparated items) := by
  refine (SourceFile.forall_mem_addingSeparated Item.blank_effectsExact).mpr ⟨?_, h⟩
  simp [emittedFile]

-- ---------------------------------------------------------------------------
-- Directories
-- ---------------------------------------------------------------------------

theorem subtypeFiles_exact {files : List SourceFile} (h : subtypeFiles d = .ok files)
    (hitems : ∀ s ∈ d.subtypes, s.items ≠ .members []) : ∀ f ∈ files, FileEffectsExact f := by
  simp only [subtypeFiles, bind_ok, pure_ok] at h
  obtain ⟨own, hown, rfl⟩ := h
  rw [List.forall_mem_append]
  constructor
  · split
    · simp [FileEffectsExact, subtypeErrorFile, emittedFile, Part.EffectsExact]
    · simp
  · refine forall_mem_of_mapM_ok hown fun s hs file hfile => ?_
    simp only [subtypeFile, bind_ok, pure_ok] at hfile
    obtain ⟨items, hi, rfl⟩ := hfile
    exact effectsExact_addingSeparated (subtypeItems_exact hi (hitems s hs))

theorem entityFiles_exact {files : List SourceFile} (h : entityFiles d = .ok files) :
    ∀ f ∈ files, FileEffectsExact f := by
  refine forall_mem_of_mapM_ok h fun e _ file hfile => ?_
  simp only [entityFile, bind_ok, pure_ok] at hfile
  obtain ⟨items, hi, rfl⟩ := hfile
  exact effectsExact_addingSeparated (entityItems_exact hi)

theorem identifierFiles_exact {files : List SourceFile} (h : identifierFiles d = .ok files) :
    ∀ f ∈ files, FileEffectsExact f := by
  simp only [identifierFiles, bind_ok, pure_ok] at h
  obtain ⟨own, hown, converting, hconverting, rfl⟩ := h
  rw [List.forall_mem_append]
  constructor
  · refine forall_mem_of_mapM_ok hown fun e _ file hfile => ?_
    unfold identifierFile at hfile
    split at hfile <;> cases hfile
    exact effectsExact_adding rfl (List.forall_mem_singleton.mpr (identifierClass_exact _ _))
  · intro file hfile
    obtain rfl := Option.mem_toList.mp hfile
    simp only [conversionsFile, bind_ok] at hconverting
    obtain ⟨all, -, h⟩ := hconverting
    split at h
    · cases h
    simp only [bind_ok, pure_ok, Option.some.injEq] at h
    obtain ⟨extensions, hextensions, rfl⟩ := h
    refine effectsExact_addingSeparated (List.forall_mem_map.mpr ?_)
    exact forall_mem_of_mapM_ok hextensions fun c _ ext hext => conversionExtension_exact hext

theorem payloadFiles_exact {files : List SourceFile} (h : payloadFiles d = .ok files) :
    ∀ f ∈ files, FileEffectsExact f := by
  refine forall_mem_of_mapM_ok h fun e _ file hfile => ?_
  simp only [payloadFile, bind_ok, pure_ok] at hfile
  obtain ⟨t, ht, rfl⟩ := hfile
  exact effectsExact_adding rfl (List.forall_mem_singleton.mpr (payloadStruct_exact ht))

theorem recordFiles_exact {files : List SourceFile} (h : recordFiles d settings = .ok files) :
    ∀ f ∈ files, FileEffectsExact f := by
  refine forall_mem_of_mapM_ok h fun e _ file hfile => ?_
  simp only [recordFile, bind_ok, pure_ok] at hfile
  obtain ⟨fields, hfields, rfl⟩ := hfile
  refine effectsExact_adding rfl (List.forall_mem_singleton.mpr ?_)
  refine Item.each_extension.mpr ⟨trivial, effectsExact_grouped.mpr ?_⟩
  simp only [List.forall_mem_cons, forall_mem_nil_iff, and_true]
  exact ⟨entityFromRecord_exact _ _, mergeIntoRecord_exact _ _ _, recordInitializer_exact hfields⟩

theorem endpointSide_exact {endpoint : Endpoint} {side : PayloadSide}
    {p : Option Schema.EndpointPayload} {items : List Item}
    (h : endpointSide d endpoint side p = .ok items) : ∀ i ∈ items, i.EffectsExact := by
  cases p with
  | none =>
    cases h
    simp
  | some p =>
    simp only [endpointSide, bind_ok, pure_ok] at h
    obtain ⟨t, ht, rfl⟩ := h
    exact List.forall_mem_singleton.mpr (endpointPayload_exact ht)

theorem endpointFiles_exact {files : List SourceFile} (h : endpointFiles d = .ok files) :
    ∀ f ∈ files, FileEffectsExact f := by
  refine forall_mem_of_mapM_ok h fun e _ file hfile => ?_
  simp only [endpointFile, bind_ok, pure_ok] at hfile
  obtain ⟨read, hread, write, hwrite, rfl⟩ := hfile
  exact effectsExact_addingSeparated
    (List.forall_mem_append.mpr ⟨endpointSide_exact hread, endpointSide_exact hwrite⟩)

theorem supportFiles_exact {files : List SourceFile} (h : supportFiles d settings = .ok files) :
    ∀ f ∈ files, FileEffectsExact f := by
  simp only [supportFiles, containerFile, responseHandlerFile, bind_ok, pure_ok] at h
  obtain ⟨container, ⟨targets, -, rfl⟩, handler, ⟨targets', -, hhandler⟩, rfl⟩ := h
  simp only [List.cons_append, List.nil_append, List.forall_mem_cons]
  refine ⟨effectsExact_addingSeparated (graph_exact d), effectsExact_adding rfl ?_, ?_⟩
  · exact List.forall_mem_singleton.mpr (containerClass_exact _ _ _)
  · intro file hfile
    obtain rfl := Option.mem_toList.mp hfile
    split at hhandler
    · cases hhandler
    · next hne =>
      cases hhandler
      refine effectsExact_adding rfl (List.forall_mem_singleton.mpr ?_)
      exact responseHandler_exact _ (by simpa using hne)

theorem factoryFiles_exact {moduleName : String} {files : List SourceFile}
    (h : factoryFiles d moduleName = .ok files) : ∀ f ∈ files, FileEffectsExact f := by
  refine forall_mem_of_mapM_ok h fun e _ file hfile => ?_
  simp only [factoryFile, bind_ok, pure_ok] at hfile
  obtain ⟨parameters, hp, rfl⟩ := hfile
  refine effectsExact_adding rfl (List.forall_mem_singleton.mpr ?_)
  exact Item.each_type.mpr
    ⟨trivial, List.forall_mem_singleton.mpr (makeFunction_exact e (factoryParameters_exact hp))⟩

theorem migrationFile_exact {file : SourceFile} (h : migrationFile d settings = .ok (some file)) :
    FileEffectsExact file := by
  unfold migrationFile at h
  split at h
  · cases h
  simp only [bind_ok, pure_ok, Option.some.injEq] at h
  obtain ⟨versions, -, rfl⟩ := h
  refine effectsExact_adding rfl (List.forall_mem_singleton.mpr ?_)
  refine Item.each_type.mpr ⟨trivial, effectsExact_grouped.mpr ?_⟩
  simp only [List.forall_mem_append, List.forall_mem_singleton, List.forall_mem_map,
    forall_mem_nil_iff, true_and]
  exact ⟨fun v _ => migrationTest_exact v, migrationRun_exact d settings⟩

theorem emits_exact (hitems : ∀ s ∈ d.subtypes, s.items ≠ .members [])
    (h : Emits d settings file) : FileEffectsExact file := by
  obtain ⟨directory, files, hmem, hfile⟩ := h
  simp only [directoryFiles, List.mem_cons, List.not_mem_nil, or_false, Prod.mk.injEq] at hmem
  rcases hmem with ⟨-, h⟩ | ⟨-, h⟩ | ⟨-, h⟩ | ⟨-, h⟩ | ⟨-, h⟩ | ⟨-, h⟩ | ⟨-, h⟩ | ⟨-, h⟩ | ⟨-, h⟩
  · exact subtypeFiles_exact h.symm hitems file hfile
  · exact entityFiles_exact h.symm file hfile
  · exact identifierFiles_exact h.symm file hfile
  · exact payloadFiles_exact h.symm file hfile
  · exact recordFiles_exact h.symm file hfile
  · exact endpointFiles_exact h.symm file hfile
  · exact supportFiles_exact h.symm file hfile
  · exact factoryFiles_exact h.symm file hfile
  · obtain ⟨migration, hm, rfl⟩ := map_ok.mp h.symm
    obtain rfl := Option.mem_toList.mp hfile
    exact migrationFile_exact hm

-- ---------------------------------------------------------------------------
-- Sources
-- ---------------------------------------------------------------------------

/-- Every mark of a function at any depth of a source is the effect of its body,
and no computed property, which has no mark, throws. -/
theorem sourcesOfText_effects_exact {text : String} {files : List Source}
    (h : sourcesOfText text settings = .ok files) {s : Source} (hs : s ∈ files) :
    (∀ f : Function, .item (.function f) ∈ Item.partsOf s.file.body →
      (f.isThrowing = true ↔ Item.anyMayThrow f.body = true) ∧
      (f.isAsync = true ↔ Item.anyMayAwait f.body = true)) ∧
    ∀ (p : Property) (body : List Item), .item (.property p) ∈ Item.partsOf s.file.body →
      p.body = some body → Item.anyMayThrow body = false := by
  obtain ⟨d, hd, -, hsources⟩ := sourcesOfText_ok.mp h
  have hfile := emits_exact (Document.load_items_ne_members_nil hd)
    (emits_of_mem_sources hsources s hs)
  have hparts : ∀ part ∈ Item.partsOf s.file.body, part.EffectsExact :=
    Item.forall_mem_partsOf.mpr hfile
  constructor
  · intro f hf
    obtain ⟨hthrows, hwaits⟩ := hparts _ hf
    rw [hthrows, hwaits]
    exact ⟨.rfl, .rfl⟩
  · intro p body hp hbody
    exact hparts _ hp body hbody

/-- A mutable entity, for which there is a response handler whose functions wait. -/
def documentOfMutableEntity : String :=
  "<descriptions version=\"1\"><entities><entity name=\"a\" mutable=\"true\"/></entities>" ++
    "<endpoints><endpoint name=\"b\"><write entity=\"a\"/></endpoint></endpoints></descriptions>"

theorem sourcesOfText_effects_exact_mutable :
    ∃ files, sourcesOfText documentOfMutableEntity {} = .ok files ∧ files.length = 8 ∧
      ∀ s ∈ files, (∀ f : Function, .item (.function f) ∈ Item.partsOf s.file.body →
          (f.isThrowing = true ↔ Item.anyMayThrow f.body = true) ∧
          (f.isAsync = true ↔ Item.anyMayAwait f.body = true)) ∧
        ∀ (p : Property) (body : List Item), .item (.property p) ∈ Item.partsOf s.file.body →
          p.body = some body → Item.anyMayThrow body = false := by
  have hlength : (sourcesOfText documentOfMutableEntity {}).toOption.map List.length = some 8 := by
    have htext : documentOfMutableEntity = _ := Markup.append_eq_ofList rfl rfl
    rw [sourcesOfText, Document.load, Markup.nodes_of_ofList htext]
    decide +kernel
  obtain ⟨files, hfiles, hlength⟩ := Option.map_eq_some_iff.mp hlength
  have h := toOption_eq_some.mp hfiles
  exact ⟨files, h, hlength, fun s hs => sourcesOfText_effects_exact h hs⟩

end EntityGen.Emit
