import EntityGen.Proofs.Emit.Conversions
import EntityGen.Proofs.Emit.Sources
import EntityGen.Proofs.Schema.UniqueNames
import Mathlib.Data.Set.Basic

/-!
# The order of declarations

A definition is translated by looking up what it refers to, and names are
unique. So the files of definitions are the same whatever order the entities
are declared in. The order shows in the files of all entities: the graph, the
container, the response handler and the migration tests.
-/

namespace EntityGen.Emit

open Code (SourceFile forall_mem_nil_iff)
open Schema (Descriptions Entity Subtype)

-- ---------------------------------------------------------------------------
-- Translation of one definition
-- ---------------------------------------------------------------------------

structure SameLookups (d d' : Descriptions) : Prop where
  entity : d.entity = d'.entity
  subtype : d.subtype = d'.subtype

variable {d d' : Descriptions}

section
variable (h : SameLookups d d')
include h

theorem relationshipTarget_congr : d.relationshipTarget = d'.relationshipTarget := by
  funext e name r
  simp only [Descriptions.relationshipTarget, h.entity]

theorem elementType_congr : elementType d = elementType d' := by
  funext e p
  simp only [elementType, relationshipTarget_congr h, h.subtype]

theorem valueType_congr : valueType d = valueType d' := by
  funext e p
  simp only [valueType, elementType_congr h]

theorem propertyType_congr : propertyType d = propertyType d' := by
  funext e p
  simp only [propertyType, valueType_congr h]

theorem memberType_congr : memberType d = memberType d' := by
  funext s m
  simp only [memberType, h.subtype]

theorem subtypeFile_congr : subtypeFile d = subtypeFile d' := by
  funext s
  simp only [subtypeFile, subtypeItems, valueStruct, memberType_congr h]

theorem indexValueCase_congr : indexValueCase d = indexValueCase d' := by
  funext e p
  simp only [indexValueCase, indexValue, collectionIndexValue, elementIndexValue,
    relationshipTarget_congr h, h.subtype]

theorem entityFile_congr : entityFile d = entityFile d' := by
  funext e
  simp only [entityFile, entityItems, entityClass, storedMembers, indexValueAccessor,
    propertyType_congr h, indexValueCase_congr h]

theorem payloadField_congr : payloadField d = payloadField d' := by
  funext e p
  simp only [payloadField, fieldType, fieldElementType, elementType_congr h,
    relationshipTarget_congr h]

theorem payloadFile_congr : payloadFile d = payloadFile d' := by
  funext e
  simp only [payloadFile, payloadStruct, payloadFields, payloadField_congr h]

theorem recordFile_congr : recordFile d = recordFile d' := by
  funext settings e
  simp only [recordFile, recordFields, RecordField.resolve, fieldStorage, valueType_congr h,
    h.subtype]

theorem endpointFile_congr : endpointFile d = endpointFile d' := by
  funext x
  have hpayload : endpointPayload d = endpointPayload d' := by
    funext x p side
    simp only [endpointPayload, h.entity]
  have hside : endpointSide d = endpointSide d' := by
    funext x side p
    cases p with
    | none => rfl
    | some p => simp only [endpointSide, hpayload]
  simp only [endpointFile, hside]

theorem sampleMember_congr : sampleMember d = sampleMember d' := by
  funext s nested m
  simp only [sampleMember, memberType_congr h, h.subtype]

theorem sampleSubtype_congr : sampleSubtype d = sampleSubtype d' := by
  funext depth
  induction depth with
  | zero =>
    funext s
    simp only [sampleSubtype]
  | succ depth ih =>
    funext s
    simp only [sampleSubtype, sampleMember_congr h, ih]

theorem factoryParameter_congr : factoryParameter d = factoryParameter d' := by
  funext e p
  simp only [factoryParameter, sampleProperty, propertyType_congr h, sampleSubtype_congr h,
    relationshipTarget_congr h, h.subtype]

theorem factoryFile_congr : factoryFile d = factoryFile d' := by
  funext moduleName e
  simp only [factoryFile, factoryParameters, factoryParameter_congr h]

theorem conversionExtension_congr : conversionExtension d = conversionExtension d' := by
  funext c
  simp only [conversionExtension, h.entity]

theorem conversionsOf_congr : conversionsOf d = conversionsOf d' := by
  funext e
  simp only [conversionsOf, relatedEntities, Descriptions.equivalentEntity,
    Descriptions.identifierContributors, h.entity]

end

-- ---------------------------------------------------------------------------
-- Reordered descriptions
-- ---------------------------------------------------------------------------

/-- The descriptions differ in the order of their entities only. -/
structure Reordered (d d' : Descriptions) : Prop where
  version : d.version = d'.version
  versionHistory : d.versionHistory = d'.versionHistory
  subtypes : d.subtypes = d'.subtypes
  endpoints : d.endpoints = d'.endpoints
  entities : d.entities.Perm d'.entities

theorem Reordered.symm (h : Reordered d d') : Reordered d' d :=
  ⟨h.version.symm, h.versionHistory.symm, h.subtypes.symm, h.endpoints.symm, h.entities.symm⟩

theorem Reordered.unique (h : Reordered d d') (hunique : (d.entities.map (·.name)).Nodup) :
    (d'.entities.map (·.name)).Nodup :=
  (h.entities.map _).nodup_iff.mp hunique

section
variable (h : Reordered d d') (hunique : (d.entities.map (·.name)).Nodup)
include h hunique

/-- As names are unique, no order decides what they stand for. -/
theorem Reordered.entity? (name : String) : d.entity? name = d'.entity? name := by
  apply Option.ext
  intro e
  rw [Descriptions.entity?_eq_some hunique, Descriptions.entity?_eq_some (h.unique hunique),
    h.entities.mem_iff]

theorem Reordered.sameLookups : SameLookups d d' := by
  constructor
  · funext name referencedBy
    simp only [Descriptions.entity, h.entity? hunique]
  · funext name referencedBy
    simp only [Descriptions.subtype, Descriptions.subtype?, h.subtypes]

end

-- ---------------------------------------------------------------------------
-- Lists of files
-- ---------------------------------------------------------------------------

/-- If the first result is a list, so is the second, and of the same members. -/
def Follows {α : Type} (x y : Except Error (List α)) : Prop :=
  ∀ as, x = .ok as → ∃ bs, y = .ok bs ∧ ∀ a, a ∈ as ↔ a ∈ bs

theorem Follows.refl {α : Type} (x : Except Error (List α)) : Follows x x :=
  fun as h => ⟨as, h, fun _ => Iff.rfl⟩

theorem mem_of_mapM_ok {α β : Type} {f : α → Except Error β} {xs : List α} {bs : List β}
    (h : xs.mapM f = .ok bs) {b : β} : b ∈ bs ↔ ∃ x ∈ xs, f x = .ok b := by
  constructor
  · exact fun hb => exists_of_forall₂ (mapM_ok.mp h) hb
  · rintro ⟨x, hx, hb⟩
    obtain ⟨b', hb', hx'⟩ := exists_of_mapM_ok h hx
    obtain rfl : b = b' := Except.ok.inj (hb.symm.trans hx')
    exact hb'

theorem Follows.mapM {α β : Type} {f : α → Except Error β} {xs ys : List α} (h : xs.Perm ys) :
    Follows (xs.mapM f) (ys.mapM f) := by
  intro as has
  have hmade : ∀ y ∈ ys, ∃ b, f y = .ok b := by
    intro y hy
    obtain ⟨a, -, ha⟩ := exists_of_mapM_ok has (h.mem_iff.mpr hy)
    exact ⟨a, ha⟩
  obtain ⟨bs, hbs⟩ := exists_mapM_ok hmade
  exact ⟨bs, hbs, fun a => by simp only [mem_of_mapM_ok has, mem_of_mapM_ok hbs, h.mem_iff]⟩

section
variable (h : Reordered d d') (hunique : (d.entities.map (·.name)).Nodup)
include h hunique

theorem conversions_reordered {all : List Conversion} (hall : conversions d = .ok all) :
    conversions d' = .ok all := by
  have hlookups := h.sameLookups hunique
  obtain ⟨all', hall'⟩ : ∃ all', conversions d' = .ok all' := by
    simp only [conversions, bind_ok, pure_ok] at hall ⊢
    obtain ⟨groups, hgroups, -⟩ := hall
    obtain ⟨groups', hgroups', -⟩ := Follows.mapM h.entities groups hgroups
    exact ⟨_, groups', conversionsOf_congr hlookups ▸ hgroups', rfl⟩
  have hmem (c : Conversion) : c ∈ all ↔ c ∈ all' := by
    simp only [mem_conversions hall, mem_conversions hall', h.entities.mem_iff, h.entity? hunique]
  rw [hall', eq_of_sorted (conversions_sorted hall) (conversions_sorted hall') hmem]

theorem conversionsFile_reordered {file : Option SourceFile}
    (hfile : conversionsFile d = .ok file) : conversionsFile d' = .ok file := by
  simp only [conversionsFile, bind_ok] at hfile ⊢
  obtain ⟨all, hall, hfile⟩ := hfile
  rw [conversionExtension_congr (h.sameLookups hunique)] at hfile
  exact ⟨all, conversions_reordered h hunique hall, hfile⟩

theorem identifierFiles_reordered : Follows (identifierFiles d) (identifierFiles d') := by
  intro made hmade
  simp only [identifierFiles, bind_ok, pure_ok] at hmade ⊢
  obtain ⟨files, hfiles, file, hfile, rfl⟩ := hmade
  obtain ⟨files', hfiles', hmem⟩ := Follows.mapM (h.entities.filter _) files hfiles
  refine ⟨_, ⟨files', hfiles', file, conversionsFile_reordered h hunique hfile, rfl⟩, ?_⟩
  simp only [List.mem_append, hmem, implies_true]

end

section
variable (h : Reordered d d')
include h

theorem mergeTargets_reordered : Follows (mergeTargets d) (mergeTargets d') := by
  have htarget : mergeTarget d = mergeTarget d' := by
    funext e
    simp only [mergeTarget, Descriptions.endpointsWriting, h.endpoints]
  unfold mergeTargets
  rw [htarget]
  exact Follows.mapM (h.entities.filter _)

theorem supportFiles_reordered (settings : Settings)
    (hmade : ∃ made, supportFiles d settings = .ok made) :
    ∃ made, supportFiles d' settings = .ok made := by
  obtain ⟨made, hmade⟩ := hmade
  simp only [supportFiles, containerFile, bind_ok] at hmade
  obtain ⟨_, ⟨targets, htargets, -⟩, -⟩ := hmade
  obtain ⟨targets', htargets', -⟩ := mergeTargets_reordered h targets htargets
  simp only [supportFiles, containerFile, responseHandlerFile, htargets', ok_bind]
  split
  · exact ⟨_, rfl⟩
  · exact ⟨_, rfl⟩

theorem migrationFile_reordered (settings : Settings)
    (hmade : ∃ made, Option.toList <$> migrationFile d settings = .ok made) :
    ∃ made, Option.toList <$> migrationFile d' settings = .ok made := by
  have hpersisted : d.persistedEntities.isEmpty = d'.persistedEntities.isEmpty :=
    (h.entities.filter _).isEmpty_eq
  have hversions : testedVersions d settings = testedVersions d' settings := by
    simp only [testedVersions, h.version, h.versionHistory]
  simp only [migrationFile, hpersisted, hversions, map_ok] at hmade ⊢
  by_cases hempty : d'.persistedEntities.isEmpty = true
  · simp only [hempty, if_true]
    exact ⟨_, none, rfl, rfl⟩
  · simp only [hempty, Bool.false_eq_true, if_false, bind_ok] at hmade ⊢
    obtain ⟨_, _, ⟨versions, hread, -⟩, -⟩ := hmade
    exact ⟨_, _, ⟨versions, hread, rfl⟩, rfl⟩

end

-- ---------------------------------------------------------------------------
-- Directories
-- ---------------------------------------------------------------------------

/-- The directories whose files are each made from one definition, or from all conversions. -/
def definitionDirectories : List String :=
  ["Subtypes", "Entities", "Identifiers", "Payloads", "Persistence", "Endpoints",
   "Tests/Factories"]

/-- If the files of the first directory are made, so are those of the second. They are the
same if each is made from one definition. -/
structure DirectoryFollows (x y : String × Except Error (List SourceFile)) : Prop where
  directory : x.1 = y.1
  made : (∃ files, x.2 = .ok files) → ∃ files, y.2 = .ok files
  files : x.1 ∈ definitionDirectories → Follows x.2 y.2

theorem DirectoryFollows.of_follows {directory : String} {x y : Except Error (List SourceFile)}
    (h : Follows x y) : DirectoryFollows (directory, x) (directory, y) where
  directory := rfl
  made := fun ⟨as, has⟩ => (h as has).imp fun _ hbs => hbs.1
  files := fun _ => h

theorem DirectoryFollows.of_made {directory : String} {x y : Except Error (List SourceFile)}
    (hdirectory : directory ∉ definitionDirectories)
    (h : (∃ files, x = .ok files) → ∃ files, y = .ok files) :
    DirectoryFollows (directory, x) (directory, y) where
  directory := rfl
  made := h
  files := fun hmem => absurd hmem hdirectory

section
variable {settings : Settings} {files files' : List Source} (h : Reordered d d')
  (hunique : (d.entities.map (·.name)).Nodup)
include h hunique

theorem directoryFiles_reordered (settings : Settings) :
    List.Forall₂ DirectoryFollows (directoryFiles d settings) (directoryFiles d' settings) := by
  have hlookups := h.sameLookups hunique
  refine .cons (.of_follows ?subtypes) (.cons (.of_follows ?entities)
    (.cons (.of_follows (identifierFiles_reordered h hunique)) (.cons (.of_follows ?payloads)
      (.cons (.of_follows ?records) (.cons (.of_follows ?endpoints)
        (.cons (.of_made (by decide) (supportFiles_reordered h settings))
          (.cons (.of_follows ?factories)
            (.cons (.of_made (by decide) (migrationFile_reordered h settings)) .nil))))))))
  case subtypes =>
    rw [subtypeFiles, subtypeFiles, subtypeFile_congr hlookups, h.subtypes]
    exact .refl _
  case entities =>
    rw [entityFiles, entityFiles, entityFile_congr hlookups]
    exact .mapM h.entities
  case payloads =>
    rw [payloadFiles, payloadFiles, payloadFile_congr hlookups]
    exact .mapM (h.entities.filter _)
  case records =>
    rw [recordFiles, recordFiles, recordFile_congr hlookups]
    exact .mapM (h.entities.filter _)
  case endpoints =>
    rw [endpointFiles, endpointFiles, endpointFile_congr hlookups, h.endpoints]
    exact .refl _
  case factories =>
    rw [factoryFiles, factoryFiles, factoryFile_congr hlookups]
    exact .mapM h.entities

theorem exists_sources_reordered (hfiles : ∃ files, sources d settings = .ok files) :
    ∃ files', sources d' settings = .ok files' := by
  rw [exists_sources_iff] at hfiles ⊢
  intro entry hentry
  obtain ⟨entry', hentry', hfollows⟩ :=
    exists_of_forall₂ (directoryFiles_reordered h hunique settings) hentry
  exact hfollows.made (hfiles entry' hentry')

theorem Source.BelongsTo.reordered {s : Source} {directory : String}
    (hdirectory : directory ∈ definitionDirectories) (hs : s.BelongsTo d settings directory) :
    s.BelongsTo d' settings directory := by
  obtain ⟨made, hentry, file, hfile, rfl⟩ := hs
  obtain ⟨⟨_, result⟩, hentry', rfl, -, hfollows⟩ :=
    exists_of_forall₂ (directoryFiles_reordered h hunique settings).flip hentry
  obtain ⟨made', rfl, hmem⟩ := hfollows hdirectory made rfl
  exact ⟨made', hentry', file, (hmem file).mp hfile, rfl⟩

end

def renderedIn (d : Descriptions) (settings : Settings) (files : List Source)
    (directory : String) : Set (String × String) :=
  { x | ∃ s ∈ files, s.BelongsTo d settings directory ∧ x = (s.path, s.file.render) }

theorem renderedIn_subset {settings : Settings} {files files' : List Source}
    (h : Reordered d d') (hunique : (d.entities.map (·.name)).Nodup)
    (hfiles' : sources d' settings = .ok files') {directory : String}
    (hdirectory : directory ∈ definitionDirectories) :
    renderedIn d settings files directory ⊆ renderedIn d' settings files' directory := by
  rintro _ ⟨s, -, hs, rfl⟩
  have hs' := hs.reordered h hunique hdirectory
  exact ⟨s, hs'.mem hfiles', hs', rfl⟩

/-- The order of declarations decides neither whether sources are made nor what the files of
definitions hold. -/
theorem sources_reordered (h : Reordered d d') (hvalid : d.validate = .ok ())
    (settings : Settings) :
    ((∃ files, sources d settings = .ok files) ↔ ∃ files, sources d' settings = .ok files) ∧
    ∀ files files', sources d settings = .ok files → sources d' settings = .ok files' →
      ∀ directory ∈ definitionDirectories,
        renderedIn d settings files directory = renderedIn d' settings files' directory := by
  have hunique := Descriptions.validate_entityNames_nodup hvalid
  have hunique' := h.unique hunique
  constructor
  · exact ⟨exists_sources_reordered h hunique, exists_sources_reordered h.symm hunique'⟩
  · intro files files' hfiles hfiles' directory hdirectory
    apply Set.Subset.antisymm
    · exact renderedIn_subset h hunique hfiles' hdirectory
    · exact renderedIn_subset h.symm hunique' hfiles hdirectory

def chainedInReverse : Descriptions :=
  { chainedIdentifiers with entities := chainedIdentifiers.entities.reverse }

theorem sources_reordered_chained :
    ∃ files files', sources chainedIdentifiers {} = .ok files ∧
      sources chainedInReverse {} = .ok files' ∧
      ∀ directory ∈ definitionDirectories,
        renderedIn chainedIdentifiers {} files directory
          = renderedIn chainedInReverse {} files' directory := by
  have hreordered : Reordered chainedIdentifiers chainedInReverse :=
    ⟨rfl, rfl, rfl, rfl, (List.reverse_perm _).symm⟩
  have hvalid : chainedIdentifiers.validate = .ok () := by rfl
  obtain ⟨hmade, hrendered⟩ := sources_reordered hreordered hvalid {}
  obtain ⟨files, hfiles⟩ : ∃ files, sources chainedIdentifiers {} = .ok files := by
    -- conversions are sorted, which the kernel does not evaluate
    have hidentifiers : (identifierFiles chainedIdentifiers).toOption.isSome := by
      obtain ⟨all, hall⟩ :=
        (exists_conversions_iff (d := chainedIdentifiers) (by decide)).mpr (by decide)
      obtain ⟨conversions, hconversions, -⟩ := exists_conversionsFile hall
      obtain ⟨made, hmade, -⟩ : ∃ made, (chainedIdentifiers.entities.filter fun e =>
          !e.hasVoidIdentifier).mapM identifierFile = .ok made ∧ True :=
        exists_ok_of_decide (by decide +kernel)
      rw [identifierFiles, hmade, ok_bind, hconversions]
      rfl
    rw [exists_sources_iff]
    simp only [directoryFiles, List.forall_mem_cons, forall_mem_nil_iff, ← toOption_eq_some,
      ← Option.isSome_iff_exists]
    refine ⟨?_, ?_, hidentifiers, ?_, ?_, ?_, ?_, ?_, ?_, trivial⟩ <;> decide +kernel
  obtain ⟨files', hfiles'⟩ := hmade.mp ⟨files, hfiles⟩
  exact ⟨files, files', hfiles, hfiles', hrendered files files' hfiles hfiles'⟩

end EntityGen.Emit
