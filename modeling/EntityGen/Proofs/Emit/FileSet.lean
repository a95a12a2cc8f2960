import EntityGen.Proofs.Emit.FileNames

/-!
# The set of files

The descriptions alone determine which files there are and in which order. The
settings tell what some of them hold, and no definition is left without the
files that it asks for.
-/

namespace EntityGen.Emit

open Code (SourceFile)
open Schema (Descriptions Entity)

-- ---------------------------------------------------------------------------
-- The files a description asks for
-- ---------------------------------------------------------------------------

def emittedEntities (d : Descriptions) (p : Entity → Prop) [DecidablePred p] : List String :=
  (d.entities.filter fun e => p e).map fun e => Text.pascalCase e.name

/-- What is in each directory, without the extension of the files. Identifiers are
converted by `pairs`. -/
def fileTable (d : Descriptions) (pairs : List Conversion) : List (String × List String) :=
  [("Subtypes", (if ∃ s ∈ d.subtypes, s.isEnum then ["SubtypeError"] else [])
      ++ d.subtypes.map fun s => Text.pascalCase s.name),
   ("Entities", emittedEntities d fun _ => True),
   ("Identifiers", (emittedEntities d fun e => e.identifier.kind ≠ .void).map (· ++ "Identifier")
      ++ if pairs = [] then [] else ["IdentifierConversions"]),
   ("Payloads", (emittedEntities d fun e => e.isRemote).map fun name =>
      "Default" ++ name ++ "Payload"),
   ("Persistence", (emittedEntities d fun e => e.isPersisted).map (· ++ "+CoreData")),
   ("Endpoints", (d.endpoints.filter fun x => x.read.isSome ∨ x.write.isSome).map fun x =>
      Text.pascalCase x.name ++ "EndpointPayloads"),
   ("Support", ["EntityGraph", "CoreManagerContainer"]
      ++ if ∃ e ∈ d.entities, e.isMutable ∧ e.isRemote ∧ e.identifier.kind ≠ .void
        then ["CoreManagerContainerClientQueueResponseHandler"] else []),
   ("Tests/Factories", (emittedEntities d fun _ => True).map (· ++ "Factory")),
   ("Tests", if ∃ e ∈ d.entities, e.isPersisted then ["CoreDataMigrationTests"] else [])]

def fileSet (d : Descriptions) (pairs : List Conversion) : List (String × String) :=
  (fileTable d pairs).flatMap fun (directory, names) =>
    names.map fun name => (directory, name ++ ".swift")

-- ---------------------------------------------------------------------------
-- The files that are made
-- ---------------------------------------------------------------------------

section
variable {d : Descriptions} {pairs : List Conversion}

theorem entityNames_eq (p : Entity → Bool) : entityNames d p = emittedEntities d fun e => p e := by
  simp [entityNames, emittedEntities]

theorem entityNames_identified :
    entityNames d (fun e => !e.hasVoidIdentifier)
      = emittedEntities d fun e => e.identifier.kind ≠ .void := by
  simp [entityNames, emittedEntities, Entity.hasVoidIdentifier]

theorem subtypeNames_eq : subtypeNames d
    = (if ∃ s ∈ d.subtypes, s.isEnum then ["SubtypeError"] else [])
      ++ d.subtypes.map fun s => Text.pascalCase s.name := by
  simp only [subtypeNames, List.any_eq_true]
  rfl

theorem conversionNames_eq (h : conversions d = .ok pairs) :
    conversionNames d = if pairs = [] then [] else ["IdentifierConversions"] := by
  rw [conversionNames, h]
  cases pairs with
  | nil => rfl
  | cons pair rest => rfl

theorem endpointNames_eq : (endpointNames d).map (· ++ "EndpointPayloads")
    = (d.endpoints.filter fun x => x.read.isSome ∨ x.write.isSome).map fun x =>
      Text.pascalCase x.name ++ "EndpointPayloads" := by
  have hpayloads (x : Schema.Endpoint) :
      (!x.payloads.isEmpty) = decide (x.read.isSome ∨ x.write.isSome) := by
    cases hread : x.read <;> cases hwrite : x.write <;>
      simp [Schema.Endpoint.payloads, hread, hwrite]
  simp only [endpointNames, List.map_map, hpayloads]
  rfl

theorem handlerNames_eq : handlerNames d
    = if ∃ e ∈ d.entities, e.isMutable ∧ e.isRemote ∧ e.identifier.kind ≠ .void
      then ["CoreManagerContainerClientQueueResponseHandler"] else [] := by
  have hmerged : (d.entities.filter needsMerging).isEmpty = true
      ↔ ¬∃ e ∈ d.entities, e.isMutable ∧ e.isRemote ∧ e.identifier.kind ≠ .void := by
    simp [needsMerging, Entity.hasVoidIdentifier]
  simp only [handlerNames, hmerged, ite_not]
  rfl

theorem migrationNames_eq : (if d.persistedEntities.isEmpty then [] else [migrationTestsName])
    = if ∃ e ∈ d.entities, e.isPersisted then ["CoreDataMigrationTests"] else [] := by
  have hpersisted : d.persistedEntities.isEmpty = true ↔ ¬∃ e ∈ d.entities, e.isPersisted := by
    simp [Descriptions.persistedEntities]
  simp only [hpersisted, ite_not]
  rfl

theorem directoryNames_eq (h : conversions d = .ok pairs) :
    directoryNames d = fileTable d pairs := by
  simp only [directoryNames, fileTable]
  rw [subtypeNames_eq, entityNames_identified, conversionNames_eq h, endpointNames_eq,
    handlerNames_eq, migrationNames_eq]
  simp [entityNames_eq, emittedEntities, containerType]

end

theorem exists_conversions {d : Descriptions} {settings : Settings} {files : List Source}
    (h : sources d settings = .ok files) : ∃ pairs, conversions d = .ok pairs := by
  have hentry : ("Identifiers", identifierFiles d) ∈ directoryFiles d settings := by
    simp [directoryFiles]
  obtain ⟨made, hmade⟩ := exists_made h hentry
  simp only [identifierFiles, conversionsFile, bind_ok] at hmade
  obtain ⟨-, -, -, ⟨pairs, hpairs, -⟩, -⟩ := hmade
  exact ⟨pairs, hpairs⟩

/-- The sources are one file for each entry of the file set, in its order. -/
theorem sources_fileSet {d : Descriptions} {settings : Settings} {files : List Source}
    (h : sources d settings = .ok files) :
    ∃ pairs, conversions d = .ok pairs ∧ ∃ placed : List (String × SourceFile),
      files = placed.map (fun (directory, file) => Source.place directory file) ∧
      placed.map (fun (directory, file) => (directory, file.name)) = fileSet d pairs := by
  obtain ⟨pairs, hpairs⟩ := exists_conversions h
  obtain ⟨placed, hplaced, hnames⟩ := sources_placed h
  rw [directoryNames_eq hpairs] at hnames
  exact ⟨pairs, hpairs, placed, hplaced, hnames⟩

def mixedText : String :=
  "<descriptions version='2'><subtypes><subtype name='genre'><case name='drama'/></subtype>"
    ++ "<subtype name='tags'><option name='new'/></subtype></subtypes>"
    ++ "<entities><entity name='user_item' persist='true' mutable='true'/>"
    ++ "<entity name='note' remote='false'><identifier type='void'/></entity></entities>"
    ++ "<endpoints><endpoint name='items'><write entity='user_item'/></endpoint>"
    ++ "<endpoint name='unused'/></endpoints></descriptions>"

def mixedFiles : List (String × String) :=
  [("Subtypes", "SubtypeError.swift"), ("Subtypes", "Genre.swift"), ("Subtypes", "Tags.swift"),
   ("Entities", "UserItem.swift"), ("Entities", "Note.swift"),
   ("Identifiers", "UserItemIdentifier.swift"), ("Payloads", "DefaultUserItemPayload.swift"),
   ("Persistence", "UserItem+CoreData.swift"), ("Endpoints", "ItemsEndpointPayloads.swift"),
   ("Support", "EntityGraph.swift"), ("Support", "CoreManagerContainer.swift"),
   ("Support", "CoreManagerContainerClientQueueResponseHandler.swift"),
   ("Tests/Factories", "UserItemFactory.swift"), ("Tests/Factories", "NoteFactory.swift"),
   ("Tests", "CoreDataMigrationTests.swift")]

theorem sources_fileSet_mixed :
    ∃ d files, sources d {} = .ok files ∧ ∃ placed : List (String × SourceFile),
      files = placed.map (fun (directory, file) => Source.place directory file) ∧
      placed.map (fun (directory, file) => (directory, file.name)) = mixedFiles := by
  have hloaded : ((Document.load mixedText).toOption.map fun d =>
      decide ((sourcesOfText mixedText {}).toOption.isSome ∧
        (conversions d).toOption.map (fileSet d) = some mixedFiles)) = some true := by
    have htext : mixedText = _ :=
      Markup.append_eq_ofList (Markup.append_eq_ofList (Markup.append_eq_ofList
        (Markup.append_eq_ofList (Markup.append_eq_ofList rfl rfl) rfl) rfl) rfl) rfl
    rw [sourcesOfText, Document.load, Markup.nodes_of_ofList htext]
    decide +kernel
  obtain ⟨d, files, hload, hfiles, hset⟩ := exists_sources_of_decide hloaded
  obtain ⟨-, hsources⟩ := sources_of_load hload hfiles
  obtain ⟨pairs, hpairs, placed, hplaced, hnames⟩ := sources_fileSet hsources
  rw [hpairs] at hset
  exact ⟨d, files, hsources, placed, hplaced, hnames.trans (Option.some.inj hset)⟩

end EntityGen.Emit
