import EntityGen.Proofs.Emit.OutputTree
import EntityGen.Proofs.Emit.Sources
import EntityGen.Proofs.Text.Separators
import Mathlib.Tactic.MkIffOfInductiveProp

/-!
# Names of files

A file is named after the emitted name of what it holds, and files of one name
in one directory are one file in the end. Names of definitions are told apart
as they are written, in which `user_name` and `userName` differ; their files do
not.
-/

namespace EntityGen.Emit

open Code (SourceFile)
open Schema (Descriptions Entity)

-- ---------------------------------------------------------------------------
-- The names in each directory
-- ---------------------------------------------------------------------------

section
variable (d : Descriptions)

def entityNames (p : Entity → Bool) : List String :=
  (d.entities.filter p).map fun e => Text.pascalCase e.name

def endpointNames : List String :=
  (d.endpoints.filter fun e => !e.payloads.isEmpty).map fun e => Text.pascalCase e.name

/-- Enumerations share an error, which has a file of its own. -/
def subtypeNames : List String :=
  (if d.subtypes.any (·.isEnum) then [subtypeErrorName] else [])
    ++ d.subtypes.map fun s => Text.pascalCase s.name

/-- The definitions that are given a file of their own, by the names they are described with. -/
def filedNames : List String :=
  d.subtypes.map (·.name) ++ d.entities.map (·.name)
    ++ (d.endpoints.filter fun e => !e.payloads.isEmpty).map (·.name)

def conversionNames : List String :=
  match conversions d with
  | .ok (_ :: _) => ["IdentifierConversions"]
  | _ => []

def handlerNames : List String :=
  if (d.entities.filter needsMerging).isEmpty then [] else [responseHandlerType.name]

def directoryNames : List (String × List String) :=
  [("Subtypes", subtypeNames d),
   ("Entities", d.entities.map fun e => Text.pascalCase e.name),
   ("Identifiers", (entityNames d fun e => !e.hasVoidIdentifier).map (· ++ "Identifier")
      ++ conversionNames d),
   ("Payloads", (entityNames d (·.isRemote)).map fun name => "Default" ++ name ++ "Payload"),
   ("Persistence", (entityNames d (·.isPersisted)).map (· ++ "+CoreData")),
   ("Endpoints", (endpointNames d).map (· ++ "EndpointPayloads")),
   ("Support", ["EntityGraph", containerType.name] ++ handlerNames d),
   ("Tests/Factories", (d.entities.map fun e => Text.pascalCase e.name).map (· ++ "Factory")),
   ("Tests", if d.persistedEntities.isEmpty then [] else [migrationTestsName])]

end

def filePath (directory name : String) : String := pathIn directory (name ++ ".swift")

def paths (d : Descriptions) : List String :=
  (directoryNames d).flatMap fun entry => entry.2.map (filePath entry.1)

-- ---------------------------------------------------------------------------
-- Every file has its name
-- ---------------------------------------------------------------------------

theorem addingSeparated_name (file : SourceFile) (items : List Code.Item) :
    (file.addingSeparated items).name = file.name := by
  unfold SourceFile.addingSeparated
  induction items generalizing file with
  | nil => rfl
  | cons item rest ih => exact ih _

def Names (names : List String) (files : List SourceFile) : Prop :=
  files.map (·.name) = names.map (· ++ ".swift")

theorem Names.append {names names' : List String} {files files' : List SourceFile}
    (h : Names names files) (h' : Names names' files') :
    Names (names ++ names') (files ++ files') := by
  rw [Names, List.map_append, List.map_append, h, h']

theorem Names.mapM {α : Type} {xs : List α} {name : α → String} {f : α → Except Error SourceFile}
    {files : List SourceFile} (h : xs.mapM f = .ok files)
    (hf : ∀ x file, f x = .ok file → file.name = name x ++ ".swift") :
    Names (xs.map name) files := by
  rw [Names, List.map_map]
  exact map_eq_of_mapM_ok h fun x _ file hfile => hf x file hfile

section
variable {d : Descriptions} {settings : Settings} {files : List SourceFile}

theorem subtypeFiles_names (h : subtypeFiles d = .ok files) : Names (subtypeNames d) files := by
  simp only [subtypeFiles, bind_ok, pure_ok] at h
  obtain ⟨own, hown, rfl⟩ := h
  refine Names.append ?_ (Names.mapM hown fun s file hfile => ?_)
  · split <;> rfl
  · simp only [subtypeFile, bind_ok, pure_ok] at hfile
    obtain ⟨items, -, rfl⟩ := hfile
    exact addingSeparated_name _ _

theorem entityFiles_names (h : entityFiles d = .ok files) :
    Names (d.entities.map fun e => Text.pascalCase e.name) files := by
  refine Names.mapM h fun e file hfile => ?_
  simp only [entityFile, bind_ok, pure_ok] at hfile
  obtain ⟨items, -, rfl⟩ := hfile
  exact addingSeparated_name _ _

theorem conversionsFile_names {file : Option SourceFile} (h : conversionsFile d = .ok file) :
    Names (conversionNames d) file.toList := by
  simp only [conversionsFile, bind_ok] at h
  obtain ⟨found, hfound, h⟩ := h
  rw [conversionNames, hfound]
  cases found with
  | nil =>
    cases h
    rfl
  | cons c rest =>
    simp only [List.isEmpty_cons, Bool.false_eq_true, if_false, bind_ok, pure_ok] at h
    obtain ⟨extensions, -, rfl⟩ := h
    simp only [Names, Option.toList_some, List.map_singleton, addingSeparated_name]
    rfl

theorem identifierFiles_names (h : identifierFiles d = .ok files) :
    Names ((entityNames d fun e => !e.hasVoidIdentifier).map (· ++ "Identifier")
      ++ conversionNames d) files := by
  simp only [identifierFiles, bind_ok, pure_ok] at h
  obtain ⟨own, hown, conversions, hconversions, rfl⟩ := h
  rw [entityNames, List.map_map]
  refine Names.append (Names.mapM hown fun e file hfile => ?_) (conversionsFile_names hconversions)
  unfold identifierFile at hfile
  split at hfile
  · cases hfile
  · cases hfile
    rfl

theorem payloadFiles_names (h : payloadFiles d = .ok files) :
    Names ((entityNames d (·.isRemote)).map fun name => "Default" ++ name ++ "Payload") files := by
  rw [entityNames, List.map_map]
  refine Names.mapM h fun e file hfile => ?_
  simp only [payloadFile, bind_ok, pure_ok] at hfile
  obtain ⟨struct, -, rfl⟩ := hfile
  rfl

theorem recordFiles_names (h : recordFiles d settings = .ok files) :
    Names ((entityNames d (·.isPersisted)).map (· ++ "+CoreData")) files := by
  rw [entityNames, List.map_map]
  refine Names.mapM h fun e file hfile => ?_
  simp only [recordFile, bind_ok, pure_ok] at hfile
  obtain ⟨fields, -, rfl⟩ := hfile
  rfl

theorem endpointFiles_names (h : endpointFiles d = .ok files) :
    Names ((endpointNames d).map (· ++ "EndpointPayloads")) files := by
  rw [endpointNames, List.map_map]
  refine Names.mapM h fun e file hfile => ?_
  simp only [endpointFile, bind_ok, pure_ok] at hfile
  obtain ⟨read, -, write, -, rfl⟩ := hfile
  exact addingSeparated_name _ _

theorem responseHandlerFile_names {file : Option SourceFile}
    (h : responseHandlerFile d settings = .ok file) : Names (handlerNames d) file.toList := by
  simp only [responseHandlerFile, bind_ok] at h
  obtain ⟨targets, htargets, h⟩ := h
  have hempty : (d.entities.filter needsMerging).isEmpty = targets.isEmpty := by
    have hmade := mapM_ok.mp htargets
    generalize d.entities.filter needsMerging = merged at hmade
    cases hmade <;> rfl
  rw [handlerNames, hempty]
  split at h
  · next hnone =>
    cases h
    rw [if_pos hnone]
    rfl
  · next hsome =>
    cases h
    rw [if_neg hsome]
    rfl

theorem supportFiles_names (h : supportFiles d settings = .ok files) :
    Names (["EntityGraph", containerType.name] ++ handlerNames d) files := by
  simp only [supportFiles, bind_ok, pure_ok] at h
  obtain ⟨container, hcontainer, handler, hhandler, rfl⟩ := h
  refine Names.append ?_ (responseHandlerFile_names hhandler)
  simp only [containerFile, bind_ok, pure_ok] at hcontainer
  obtain ⟨targets, -, rfl⟩ := hcontainer
  simp only [Names, List.map_cons, List.map_nil, graphFile, addingSeparated_name]
  rfl

theorem factoryFiles_names {moduleName : String} (h : factoryFiles d moduleName = .ok files) :
    Names ((d.entities.map fun e => Text.pascalCase e.name).map (· ++ "Factory")) files := by
  rw [List.map_map]
  refine Names.mapM h fun e file hfile => ?_
  simp only [factoryFile, bind_ok, pure_ok] at hfile
  obtain ⟨parameters, -, rfl⟩ := hfile
  rfl

theorem migrationFile_names (h : Option.toList <$> migrationFile d settings = .ok files) :
    Names (if d.persistedEntities.isEmpty then [] else [migrationTestsName]) files := by
  obtain ⟨file, hfile, rfl⟩ := map_ok.mp h
  unfold migrationFile at hfile
  split at hfile
  · next hempty =>
    cases hfile
    rw [if_pos hempty]
    rfl
  · next hsome =>
    simp only [bind_ok, pure_ok] at hfile
    obtain ⟨versions, -, rfl⟩ := hfile
    rw [if_neg hsome]
    rfl

theorem directoryFiles_names (d : Descriptions) (settings : Settings) :
    List.Forall₂ (fun made named => made.1 = named.1 ∧ ∀ files, made.2 = .ok files →
      Names named.2 files) (directoryFiles d settings) (directoryNames d) :=
  .cons ⟨rfl, fun _ => subtypeFiles_names⟩ <| .cons ⟨rfl, fun _ => entityFiles_names⟩ <|
  .cons ⟨rfl, fun _ => identifierFiles_names⟩ <| .cons ⟨rfl, fun _ => payloadFiles_names⟩ <|
  .cons ⟨rfl, fun _ => recordFiles_names⟩ <| .cons ⟨rfl, fun _ => endpointFiles_names⟩ <|
  .cons ⟨rfl, fun _ => supportFiles_names⟩ <| .cons ⟨rfl, fun _ => factoryFiles_names⟩ <|
  .cons ⟨rfl, fun _ => migrationFile_names⟩ .nil

end

theorem sources_placed {d : Descriptions} {settings : Settings} {files : List Source}
    (h : sources d settings = .ok files) :
    ∃ placed : List (String × SourceFile),
      files = placed.map (fun entry => Source.place entry.1 entry.2) ∧
      placed.map (fun entry => (entry.1, entry.2.name))
        = (directoryNames d).flatMap fun entry => entry.2.map fun name =>
          (entry.1, name ++ ".swift") := by
  simp only [sources, bind_ok, pure_ok, mapM_ok] at h
  obtain ⟨groups, hgroups, rfl⟩ := h
  have hnames := directoryFiles_names d settings
  generalize directoryFiles d settings = made at hgroups hnames
  generalize directoryNames d = named at hnames
  induction hnames generalizing groups with
  | nil =>
    obtain rfl := List.forall₂_nil_left_iff.mp hgroups
    exact ⟨[], rfl, rfl⟩
  | @cons entry entry' _ _ hentry _ ih =>
    obtain ⟨group, rest, ⟨files, hfiles, rfl⟩, hrest, rfl⟩ :=
      List.forall₂_cons_left_iff.mp hgroups
    obtain ⟨hdirectory, hnames⟩ := hentry
    obtain ⟨placed, hplaced, hplacedNames⟩ := ih rest hrest
    have hpairs := congrArg (List.map (Prod.mk entry'.1)) (hnames files hfiles)
    rw [List.map_map, List.map_map] at hpairs
    refine ⟨files.map (Prod.mk entry'.1) ++ placed, ?_, ?_⟩
    · rw [List.flatten_cons, List.map_append, List.map_map, hplaced, hdirectory]
      rfl
    · rw [List.map_append, List.map_map, List.flatMap_cons, hplacedNames]
      exact congrArg (· ++ _) hpairs

theorem sources_paths {d : Descriptions} {settings : Settings} {files : List Source}
    (h : sources d settings = .ok files) : files.map (·.path) = paths d := by
  obtain ⟨placed, rfl, hnames⟩ := sources_placed h
  have hpaths := congrArg (List.map fun entry : String × String => pathIn entry.1 entry.2) hnames
  rw [List.map_map, List.map_flatMap] at hpaths
  simp only [List.map_map] at hpaths ⊢
  exact hpaths

-- ---------------------------------------------------------------------------
-- Paths told apart
-- ---------------------------------------------------------------------------

/-- No emitted name holds a slash, which would lead to another directory. -/
@[mk_iff]
structure SlashFree (d : Descriptions) : Prop where
  subtypes : ∀ s ∈ d.subtypes, '/' ∉ (Text.pascalCase s.name).toList
  entities : ∀ e ∈ d.entities, '/' ∉ (Text.pascalCase e.name).toList
  endpoints : ∀ e ∈ d.endpoints, '/' ∉ (Text.pascalCase e.name).toList

/-- Definitions of one kind have emitted names of their own, and no subtype has the
name of the error that enumerations share. -/
@[mk_iff]
structure DistinctNames (d : Descriptions) : Prop where
  subtypes : (subtypeNames d).Nodup
  entities : (d.entities.map fun e => Text.pascalCase e.name).Nodup
  endpoints : (endpointNames d).Nodup

section
variable {d : Descriptions}

instance : Decidable (SlashFree d) := decidable_of_iff' _ (slashFree_iff d)

instance : Decidable (DistinctNames d) := decidable_of_iff' _ (distinctNames_iff d)

theorem slash_not_mem_pascalCase {name : String} :
    '/' ∉ (Text.pascalCase name).toList ↔ '/' ∉ name.toList :=
  Text.slash_mem_pascalCase.not

theorem SlashFree.names (hslash : SlashFree d) : ∀ name ∈ filedNames d, '/' ∉ name.toList := by
  simp only [filedNames, List.forall_mem_append, List.forall_mem_map]
  refine ⟨⟨fun s hs => ?_, fun e he => ?_⟩, fun e he => ?_⟩
  · exact slash_not_mem_pascalCase.mp (hslash.subtypes s hs)
  · exact slash_not_mem_pascalCase.mp (hslash.entities e he)
  · exact slash_not_mem_pascalCase.mp (hslash.endpoints e (List.mem_of_mem_filter he))

theorem slash_not_mem (hslash : ∀ name ∈ filedNames d, '/' ∉ name.toList) :
    ∀ entry ∈ directoryNames d, ∀ name ∈ entry.2, '/' ∉ name.toList := by
  simp only [filedNames, List.forall_mem_append, List.forall_mem_map] at hslash
  obtain ⟨⟨hsubtypes, hentities⟩, hendpoints⟩ := hslash
  have hentityNames (p : Entity → Bool) : ∀ name ∈ entityNames d p, '/' ∉ name.toList := by
    rintro _ hname
    obtain ⟨e, he, rfl⟩ := List.mem_map.mp hname
    exact slash_not_mem_pascalCase.mpr (hentities e (List.mem_of_mem_filter he))
  have hendpointNames : ∀ name ∈ endpointNames d, '/' ∉ name.toList := by
    rintro _ hname
    obtain ⟨e, he, rfl⟩ := List.mem_map.mp hname
    exact slash_not_mem_pascalCase.mpr (hendpoints e he)
  simp only [directoryNames, List.forall_mem_cons, List.forall_mem_append, List.forall_mem_map]
  refine ⟨?subtypes, ?entities, ⟨?identifiers, ?conversions⟩, ?payloads,
    ?records, ?endpoints, ⟨⟨?graph, ?container, nofun⟩, ?handler⟩, ?factories, ?migration, nofun⟩
  case subtypes =>
    rw [subtypeNames, List.forall_mem_append, List.forall_mem_map]
    refine ⟨?_, fun s hs => slash_not_mem_pascalCase.mpr (hsubtypes s hs)⟩
    split <;> simp [subtypeErrorName]
  case entities => exact fun e he => slash_not_mem_pascalCase.mpr (hentities e he)
  case identifiers => exact fun name hname => by simp [hentityNames _ name hname]
  case payloads => exact fun name hname => by simp [hentityNames _ name hname]
  case records => exact fun name hname => by simp [hentityNames _ name hname]
  case endpoints => exact fun name hname => by simp [hendpointNames name hname]
  case factories => exact fun e he => by simp [slash_not_mem_pascalCase.mpr (hentities e he)]
  case conversions =>
    unfold conversionNames
    split <;> simp
  case graph => simp
  case container => simp [containerType]
  case handler =>
    unfold handlerNames
    split <;> simp [responseHandlerType]
  case migration => split <;> simp [migrationTestsName]

theorem nodup_affixed {names : List String} (before after : String) :
    (names.map fun name => before ++ name ++ after).Nodup ↔ names.Nodup := by
  refine List.nodup_map_iff fun a b h => ?_
  simpa using h

theorem nodup_suffixed {names : List String} (after : String) :
    (names.map (· ++ after)).Nodup ↔ names.Nodup := by
  have h : (names.map fun name => "" ++ name ++ after).Nodup ↔ names.Nodup := nodup_affixed "" after
  simpa using h

theorem DistinctNames.entityNames (h : DistinctNames d) (p : Entity → Bool) :
    (entityNames d p).Nodup := h.entities.sublist ((List.filter_sublist).map _)

/-- The files of identifiers are told from that of the conversions by their last letter. -/
theorem identifier_ne_conversions (name : String) :
    name ++ "Identifier" ≠ "IdentifierConversions" := by
  intro h
  have hlast := congrArg (fun text => text.toList.getLast?) h
  simp at hlast

theorem directoryNames_nodup_iff :
    (∀ entry ∈ directoryNames d, entry.2.Nodup) ↔ DistinctNames d := by
  simp only [directoryNames, List.forall_mem_cons, nodup_suffixed, nodup_affixed]
  constructor
  · rintro ⟨hsubtypes, hentities, -, -, -, hendpoints, -⟩
    exact ⟨hsubtypes, hentities, hendpoints⟩
  · intro h
    refine ⟨h.subtypes, h.entities, ?identifiers, h.entityNames _, h.entityNames _, h.endpoints,
      ?support, h.entities, ?migration, nofun⟩
    case identifiers =>
      unfold conversionNames
      split
      · refine List.nodup_append.mpr
          ⟨(nodup_suffixed _).mpr (h.entityNames _), List.nodup_singleton _, ?_⟩
        rintro _ hname _ hconversions rfl
        obtain ⟨name, -, rfl⟩ := List.mem_map.mp hname
        exact identifier_ne_conversions name (List.mem_singleton.mp hconversions)
      · rw [List.append_nil, nodup_suffixed]
        exact h.entityNames _
    case support =>
      unfold handlerNames
      split <;> decide
    case migration => split <;> simp

theorem filePath_parts {directory name : String} (h : '/' ∉ name.toList) :
    Text.parts '/' (filePath directory name) = Text.parts '/' directory ++ [name ++ ".swift"] :=
  parts_pathIn (by simp [h])

theorem filePath_inj {directory directory' name name' : String}
    (h : '/' ∉ name.toList) (h' : '/' ∉ name'.toList) :
    filePath directory name = filePath directory' name' ↔
      directory = directory' ∧ name = name' := by
  constructor
  · intro hpath
    have hparts := congrArg (Text.parts '/') hpath
    rw [filePath_parts h, filePath_parts h'] at hparts
    obtain ⟨hdirectory, hname⟩ := List.append_inj' hparts rfl
    refine ⟨?_, ?_⟩
    · rw [← Text.intercalate_parts directory, hdirectory, Text.intercalate_parts]
    · simpa using hname
  · rintro ⟨rfl, rfl⟩
    rfl

theorem directoryNames_directories : (directoryNames d).map Prod.fst = directories := rfl

theorem paths_nodup_iff (hslash : SlashFree d) : (paths d).Nodup ↔ DistinctNames d := by
  have hslashes := slash_not_mem hslash.names
  have hdirectories : ((directoryNames d).map Prod.fst).Nodup := by
    rw [directoryNames_directories]
    decide
  have hdisjoint : (directoryNames d).Pairwise
      (Function.onFun List.Disjoint fun entry => entry.2.map (filePath entry.1)) := by
    refine (List.pairwise_map.mp hdirectories).imp_of_mem fun {a b} ha hb hne => ?_
    rintro path hpath hpath'
    obtain ⟨name, hname, rfl⟩ := List.mem_map.mp hpath
    obtain ⟨name', hname', hpaths⟩ := List.mem_map.mp hpath'
    have hsame := (filePath_inj (hslashes b hb name' hname') (hslashes a ha name hname)).mp hpaths
    exact hne hsame.1.symm
  have hnames : ∀ entry ∈ directoryNames d,
      ((entry.2.map (filePath entry.1)).Nodup ↔ entry.2.Nodup) := by
    intro entry hentry
    refine ⟨List.Nodup.of_map _, List.Nodup.map_on fun a ha b hb hpath => ?_⟩
    exact ((filePath_inj (hslashes entry hentry a ha) (hslashes entry hentry b hb)).mp hpath).2
  rw [paths, List.nodup_flatMap, and_iff_left hdisjoint, ← directoryNames_nodup_iff]
  exact forall₂_congr hnames

theorem leadsDown_swift (name : String) : LeadsDown (name ++ ".swift") := by
  have hlength : 2 < (name ++ ".swift").length := by
    rw [String.length_append, (by decide : ".swift".length = 6)]
    omega
  refine ⟨?_, ?_, ?_⟩
  all_goals
    intro h
    rw [h] at hlength
    exact absurd hlength (by decide)

theorem inDirectory_filePath {directory name : String} (hdirectory : directory ∈ directories)
    (h : '/' ∉ name.toList) : InDirectory (filePath directory name) := by
  have hslash : '/' ∉ (name ++ ".swift").toList := by simp [h]
  refine ⟨directory, hdirectory, name ++ ".swift", leadsDown_swift name, hslash, ?_⟩
  exact if_neg fun hhead => hslash (List.mem_of_head? hhead)

theorem inDirectory_of_mem_paths (hslash : ∀ name ∈ filedNames d, '/' ∉ name.toList) :
    ∀ path ∈ paths d, InDirectory path := by
  intro path hpath
  obtain ⟨entry, hentry, hpath⟩ := List.mem_flatMap.mp hpath
  obtain ⟨name, hname, rfl⟩ := List.mem_map.mp hpath
  have hdirectory : entry.1 ∈ directories := by
    rw [← directoryNames_directories (d := d)]
    exact List.mem_map_of_mem hentry
  exact inDirectory_filePath hdirectory (slash_not_mem hslash entry hentry name hname)

/-- Where no name holds a slash, two files share a path exactly if two names are emitted
alike. If none are, every file is in the output directory with the text it was
emitted with, and there is no other. -/
theorem sourcesOfText_kept {text : String} {settings : Settings} {files : List Source}
    (hload : Document.load text = .ok d) (hfiles : sourcesOfText text settings = .ok files)
    (hslash : SlashFree d) :
    ((files.map (·.path)).Nodup ↔ DistinctNames d) ∧
      (DistinctNames d → (outputTree files).Perm (files.map Source.written)) := by
  obtain ⟨d', hload', -, hsources⟩ := sourcesOfText_ok.mp hfiles
  obtain rfl : d = d' := Except.ok.inj (hload.symm.trans hload')
  have hpaths := sources_paths hsources
  have hplaces : ∀ s ∈ files, normalPath? s.path = some s.path := by
    rw [← List.forall_mem_map (P := fun path => normalPath? path = some path), hpaths]
    exact fun path hpath => (inDirectory_of_mem_paths hslash.names path hpath).normalPath?
  have hnodup := paths_nodup_iff hslash
  rw [← hpaths] at hnodup
  exact ⟨hnodup, fun hnames => outputTree_perm hplaces (hnodup.mpr hnames)⟩

end

def optionsText (other : String) : String :=
  "<descriptions version='1'><subtypes><subtype name='a'><option name='x'/></subtype><subtype name='"
    ++ other ++ "'><option name='y'/></subtype></subtypes></descriptions>"

/-- The second subtype takes the place of the first. -/
theorem sourcesOfText_lost :
    ∃ files, sourcesOfText (optionsText "A") {} = .ok files ∧ ¬(files.map (·.path)).Nodup ∧
      ∃ s ∈ files, s.written ∉ outputTree files := by
  simp only [mem_outputTree]
  have hlost : ((sourcesOfText (optionsText "A") {}).toOption.map fun files =>
      decide (¬(files.map (·.path)).Nodup ∧
        ∃ s ∈ files, s.written ∉ (files.filterMap Source.output?).foldl writeFile []))
        = some true := by
    have htext : optionsText "A" = _ :=
      Markup.append_eq_ofList (Markup.append_eq_ofList rfl rfl) rfl
    rw [sourcesOfText, Document.load, Markup.nodes_of_ofList htext]
    decide +kernel
  obtain ⟨files, hfiles, hlost⟩ := Option.map_eq_some_iff.mp hlost
  exact ⟨files, toOption_eq_some.mp hfiles, of_decide_eq_true hlost⟩

theorem sourcesOfText_kept_options :
    ∃ d files, Document.load (optionsText "b") = .ok d ∧
      sourcesOfText (optionsText "b") {} = .ok files ∧ SlashFree d ∧ DistinctNames d ∧
      (files.map (·.path)).Nodup ∧ (outputTree files).Perm (files.map Source.written) := by
  have htext : optionsText "b" = _ := Markup.append_eq_ofList (Markup.append_eq_ofList rfl rfl) rfl
  have hloaded : ((Document.load (optionsText "b")).toOption.map fun d =>
      decide ((sourcesOfText (optionsText "b") {}).toOption.isSome ∧ SlashFree d ∧ DistinctNames d))
        = some true := by
    rw [sourcesOfText, Document.load, Markup.nodes_of_ofList htext]
    decide +kernel
  obtain ⟨d, hload, hview⟩ := Option.map_eq_some_iff.mp hloaded
  obtain ⟨hmade, hslash, hnames⟩ := of_decide_eq_true hview
  obtain ⟨files, hfiles⟩ := Option.isSome_iff_exists.mp hmade
  have hload := toOption_eq_some.mp hload
  have hfiles := toOption_eq_some.mp hfiles
  obtain ⟨hpaths, hkept⟩ := sourcesOfText_kept hload hfiles hslash
  exact ⟨d, files, hload, hfiles, hslash, hnames, hpaths.mpr hnames, hkept hnames⟩

end EntityGen.Emit
