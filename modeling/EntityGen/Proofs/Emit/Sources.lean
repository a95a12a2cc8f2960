import EntityGen.Emit.Sources
import EntityGen.Proofs.Code.Declarations
import EntityGen.Proofs.Results

/-!
# Where sources come from

Every source of a document is a file of one directory, made from the
descriptions that the document holds.
-/

namespace EntityGen.Emit

open Code (SourceFile)
open Schema (Descriptions Endpoint Entity Subtype)

def Emits (d : Descriptions) (settings : Settings) (file : SourceFile) : Prop :=
  ∃ directory files, (directory, .ok files) ∈ directoryFiles d settings ∧ file ∈ files

theorem emits_of_mem_sources {d : Descriptions} {settings : Settings} {files : List Source}
    (h : sources d settings = .ok files) : ∀ s ∈ files, Emits d settings s.file := by
  simp only [sources, bind_ok, pure_ok] at h
  obtain ⟨placed, hplaced, rfl⟩ := h
  simp only [List.forall_mem_flatten]
  refine forall_mem_of_mapM_ok hplaced fun entry hmem group hgroup s hs => ?_
  obtain ⟨directory, result⟩ := entry
  simp only [bind_ok, pure_ok] at hgroup
  obtain ⟨made, rfl, rfl⟩ := hgroup
  obtain ⟨file, hfile, rfl⟩ := List.mem_map.mp hs
  exact ⟨directory, made, hmem, hfile⟩

theorem sourcesOfText_ok {text : String} {settings : Settings} {files : List Source} :
    sourcesOfText text settings = .ok files ↔
      ∃ d, Document.load text = .ok d ∧ d.validate = .ok () ∧ sources d settings = .ok files := by
  simp only [sourcesOfText, bind_ok, document_ok, schema_ok]
  constructor
  · rintro ⟨d, hd, ⟨⟩, hv, h⟩
    exact ⟨d, hd, hv, h⟩
  · rintro ⟨d, hd, hv, h⟩
    exact ⟨d, hd, (), hv, h⟩

/-- The sources of a text are those of the descriptions in it, which are valid. -/
theorem sources_of_load {text : String} {d : Descriptions} {settings : Settings}
    {files : List Source} (hload : Document.load text = .ok d)
    (hfiles : sourcesOfText text settings = .ok files) :
    d.validate = .ok () ∧ sources d settings = .ok files := by
  obtain ⟨d', hload', hvalid, hsources⟩ := sourcesOfText_ok.mp hfiles
  obtain rfl : d = d' := Except.ok.inj (hload.symm.trans hload')
  exact ⟨hvalid, hsources⟩

theorem exists_sources_of_decide {text : String} {settings : Settings} {p : Descriptions → Prop}
    [DecidablePred p]
    (h : ((Document.load text).toOption.map fun d =>
      decide ((sourcesOfText text settings).toOption.isSome ∧ p d)) = some true) :
    ∃ d files, Document.load text = .ok d ∧ sourcesOfText text settings = .ok files ∧ p d := by
  obtain ⟨d, hload, hmade, hp⟩ := exists_ok_of_decide h
  obtain ⟨files, hfiles⟩ := Option.isSome_iff_exists.mp hmade
  exact ⟨d, files, hload, toOption_eq_some.mp hfiles, hp⟩

-- ---------------------------------------------------------------------------
-- Sources of a directory
-- ---------------------------------------------------------------------------

def Source.BelongsTo (d : Descriptions) (settings : Settings) (directory : String) (s : Source) :
    Prop :=
  ∃ made, (directory, .ok made) ∈ directoryFiles d settings ∧
    ∃ file ∈ made, s = Source.place directory file

section
variable {d : Descriptions} {settings : Settings} {files : List Source} {s : Source}
  {directory : String} {α : Type} (items : List α) (make : α → Except Error SourceFile)

theorem Source.BelongsTo.item (hs : s.BelongsTo d settings directory)
    (hentry : ∀ made, (directory, .ok made) ∈ directoryFiles d settings →
      items.mapM make = .ok made) :
    ∃ item ∈ items, make item = .ok s.file := by
  obtain ⟨made, hmade, file, hfile, rfl⟩ := hs
  exact exists_of_forall₂ (mapM_ok.mp (hentry made hmade)) hfile

theorem exists_sources_iff : (∃ files, sources d settings = .ok files) ↔
    ∀ entry ∈ directoryFiles d settings, ∃ made, entry.2 = .ok made := by
  simp only [sources, bind_ok, pure_ok]
  constructor
  · rintro ⟨_, placed, hplaced, -⟩ entry hentry
    obtain ⟨group, -, hmade⟩ := exists_of_mapM_ok hplaced hentry
    simp only [bind_ok, pure_ok] at hmade
    obtain ⟨made, hmade, -⟩ := hmade
    exact ⟨made, hmade⟩
  · intro h
    rw [exists_comm]
    simp only [exists_and_left, exists_eq', and_true]
    refine exists_mapM_ok fun entry hentry => ?_
    obtain ⟨made, hmade⟩ := h entry hentry
    exact ⟨_, bind_ok.mpr ⟨made, hmade, rfl⟩⟩

theorem exists_made (h : sources d settings = .ok files)
    {result : Except Error (List SourceFile)}
    (hentry : (directory, result) ∈ directoryFiles d settings) : ∃ made, result = .ok made :=
  exists_sources_iff.mp ⟨files, h⟩ _ hentry

theorem Source.BelongsTo.mem (h : sources d settings = .ok files)
    (hs : s.BelongsTo d settings directory) : s ∈ files := by
  obtain ⟨made, hentry, file, hfile, rfl⟩ := hs
  simp only [sources, bind_ok, pure_ok] at h
  obtain ⟨placed, hplaced, rfl⟩ := h
  obtain ⟨group, hgroup, hmade⟩ := exists_of_mapM_ok hplaced hentry
  simp only [ok_bind, pure_ok] at hmade
  exact List.mem_flatten.mpr ⟨group, hgroup, hmade ▸ List.mem_map_of_mem hfile⟩

theorem exists_source (h : sources d settings = .ok files)
    (hentry : (directory, items.mapM make) ∈ directoryFiles d settings) {item : α}
    (hitem : item ∈ items) :
    ∃ s ∈ files, s.BelongsTo d settings directory ∧ make item = .ok s.file := by
  obtain ⟨made, hmade⟩ := exists_made h hentry
  obtain ⟨file, hfile, hitem⟩ := exists_of_mapM_ok hmade hitem
  have hbelongs : (Source.place directory file).BelongsTo d settings directory :=
    ⟨made, hmade ▸ hentry, file, hfile, rfl⟩
  exact ⟨_, hbelongs.mem h, hbelongs, hitem⟩

end

section
variable {d : Descriptions} {settings : Settings} {files : List Source} {s : Source}

theorem Source.BelongsTo.entity (hs : s.BelongsTo d settings "Entities") :
    ∃ e ∈ d.entities, entityFile d e = .ok s.file :=
  hs.item d.entities (entityFile d) fun made hmade => by
    simpa [directoryFiles, entityFiles, eq_comm] using hmade

theorem exists_entity_source (h : sources d settings = .ok files) {e : Entity}
    (he : e ∈ d.entities) :
    ∃ s ∈ files, s.BelongsTo d settings "Entities" ∧ entityFile d e = .ok s.file :=
  exists_source d.entities (entityFile d) h (by simp [directoryFiles, entityFiles]) he

theorem subtypeFile_types {t : Subtype} {file : SourceFile} (h : subtypeFile d t = .ok file) :
    ∃ items, subtypeItems d t = .ok items ∧ file.types = items.filterMap Code.Item.type? := by
  simp only [subtypeFile, bind_ok, pure_ok] at h
  obtain ⟨items, hitems, rfl⟩ := h
  exact ⟨items, hitems, SourceFile.filterMap_addingSeparated rfl _ _⟩

/-- Beside the error that enumerations share, the sources of subtypes are one for each. -/
theorem exists_subtype_source (h : sources d settings = .ok files) {t : Subtype}
    (ht : t ∈ d.subtypes) :
    ∃ s ∈ files, s.BelongsTo d settings "Subtypes" ∧ subtypeFile d t = .ok s.file := by
  have hentry : ("Subtypes", subtypeFiles d) ∈ directoryFiles d settings := by
    simp [directoryFiles]
  obtain ⟨made, hmade⟩ := exists_made h hentry
  have hown := hmade
  simp only [subtypeFiles, bind_ok, pure_ok] at hown
  obtain ⟨own, hown, rfl⟩ := hown
  obtain ⟨file, hfile, ht⟩ := exists_of_mapM_ok hown ht
  have hbelongs : (Source.place "Subtypes" file).BelongsTo d settings "Subtypes" :=
    ⟨_, hmade ▸ hentry, file, List.mem_append_right _ hfile, rfl⟩
  exact ⟨_, hbelongs.mem h, hbelongs, ht⟩

theorem Source.BelongsTo.payload (hs : s.BelongsTo d settings "Payloads") :
    ∃ e ∈ d.entities, e.isRemote = true ∧ payloadFile d e = .ok s.file := by
  obtain ⟨e, he, hfile⟩ := hs.item (d.entities.filter (·.isRemote)) (payloadFile d)
    fun made hmade => by simpa [directoryFiles, payloadFiles, eq_comm] using hmade
  obtain ⟨he, hremote⟩ := List.mem_filter.mp he
  exact ⟨e, he, hremote, hfile⟩

theorem exists_payload_source (h : sources d settings = .ok files) {e : Entity}
    (he : e ∈ d.entities) (hremote : e.isRemote = true) :
    ∃ s ∈ files, s.BelongsTo d settings "Payloads" ∧ payloadFile d e = .ok s.file :=
  exists_source (d.entities.filter (·.isRemote)) (payloadFile d) h
    (by simp [directoryFiles, payloadFiles]) (List.mem_filter.mpr ⟨he, hremote⟩)

theorem Source.BelongsTo.endpoint (hs : s.BelongsTo d settings "Endpoints") :
    ∃ x ∈ d.endpoints, endpointFile d x = .ok s.file := by
  obtain ⟨x, hx, hfile⟩ := hs.item (d.endpoints.filter fun x => !x.payloads.isEmpty)
    (endpointFile d) fun made hmade => by
      simpa [directoryFiles, endpointFiles, eq_comm] using hmade
  exact ⟨x, (List.mem_filter.mp hx).1, hfile⟩

theorem exists_endpoint_source (h : sources d settings = .ok files) {x : Endpoint}
    (hx : x ∈ d.endpoints) (hpayloads : x.payloads ≠ []) :
    ∃ s ∈ files, s.BelongsTo d settings "Endpoints" ∧ endpointFile d x = .ok s.file :=
  exists_source (d.endpoints.filter fun x => !x.payloads.isEmpty) (endpointFile d) h
    (by simp [directoryFiles, endpointFiles]) (List.mem_filter.mpr ⟨hx, by simpa using hpayloads⟩)

end
end EntityGen.Emit
