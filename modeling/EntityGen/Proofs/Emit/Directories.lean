import EntityGen.Proofs.Emit.FileNames

/-!
# Files in their directories

A slash in a name leads away from the directory of the file: further down, to a
place that the dots before it lead up to or, from the start of the name, out of
the output altogether. Names of definitions may hold slashes.
-/

namespace EntityGen.Emit

open Schema (Descriptions)

-- ---------------------------------------------------------------------------
-- Paths with slashes in the name
-- ---------------------------------------------------------------------------

/-- The tests are the only directory with another one in it. -/
theorem eq_of_parts_prefix : ∀ a ∈ directories, a ≠ "Tests" → ∀ b ∈ directories,
    Text.parts '/' a <+: Text.parts '/' b → b = a := by
  decide

theorem normalPath?_of_root {path : String} (h : path.toList.head? = some '/') :
    normalPath? path = none := by
  obtain ⟨rest, hrest⟩ := List.head?_eq_some_iff.mp h
  have hparts : Text.parts '/' path
      = "" :: (Text.splitParts '/' rest).map String.ofList := by
    rw [Text.parts, hrest, Text.splitParts, if_pos rfl, List.map_cons]
  simp only [normalPath?, hparts]

theorem not_inDirectory_of_slash {directory name : String} (hdirectory : directory ∈ directories)
    (htests : directory ≠ "Tests") (hslash : '/' ∈ name.toList) :
    ¬InDirectory (filePath directory name) := by
  have hswift : '/' ∈ (name ++ ".swift").toList := by simp [hslash]
  rw [filePath, pathIn]
  split
  · next hroot =>
    intro hin
    exact Option.some_ne_none _ (hin.normalPath?.symm.trans (normalPath?_of_root hroot))
  · intro hin
    obtain ⟨directory', hdirectory', file, -, hparts⟩ := hin.parts
    obtain ⟨before, after, hname⟩ := Text.exists_eq_append hswift
    have hsplit : Text.parts '/' (directory ++ "/" ++ (name ++ ".swift"))
        = Text.parts '/' directory ++ (Text.parts '/' before ++ Text.parts '/' after) := by
      rw [hname, ← Text.parts_append]
      exact Text.parts_append directory _
    -- without its last part, the path still goes on after the directory
    have hlast := congrArg List.dropLast (hsplit.symm.trans hparts)
    rw [List.dropLast_concat, ← List.append_assoc,
      List.dropLast_append_of_ne_nil (Text.parts_ne_nil after), List.append_assoc] at hlast
    obtain rfl := eq_of_parts_prefix directory hdirectory htests directory' hdirectory' ⟨_, hlast⟩
    have hbefore := (List.append_eq_nil_iff.mp (List.append_right_eq_self.mp hlast)).1
    exact Text.parts_ne_nil before hbefore

-- ---------------------------------------------------------------------------
-- All files
-- ---------------------------------------------------------------------------

section
variable {d : Descriptions}

/-- Where every file stays in a directory, only tests have a slash in their names. -/
theorem slash_not_mem_of_inDirectory (h : ∀ path ∈ paths d, InDirectory path)
    (directory : String) {names : List String} (hentry : (directory, names) ∈ directoryNames d)
    (htests : directory ≠ "Tests") : ∀ name ∈ names, '/' ∉ name.toList := by
  intro name hname hslash
  have hdirectory : directory ∈ directories := by
    rw [← directoryNames_directories (d := d)]
    exact List.mem_map_of_mem hentry
  have hpath : filePath directory name ∈ paths d :=
    List.mem_flatMap.mpr ⟨_, hentry, List.mem_map_of_mem hname⟩
  exact not_inDirectory_of_slash hdirectory htests hslash (h _ hpath)

theorem forall_inDirectory_iff :
    (∀ path ∈ paths d, InDirectory path) ↔ ∀ name ∈ filedNames d, '/' ∉ name.toList := by
  refine ⟨fun h => ?_, inDirectory_of_mem_paths⟩
  have hsubtypes : ∀ name ∈ subtypeNames d, '/' ∉ name.toList :=
    slash_not_mem_of_inDirectory h "Subtypes" (by simp [directoryNames]) (by decide)
  have hentities : ∀ name ∈ d.entities.map fun e => Text.pascalCase e.name, '/' ∉ name.toList :=
    slash_not_mem_of_inDirectory h "Entities" (by simp [directoryNames]) (by decide)
  have hendpoints : ∀ name ∈ (endpointNames d).map (· ++ "EndpointPayloads"), '/' ∉ name.toList :=
    slash_not_mem_of_inDirectory h "Endpoints" (by simp [directoryNames]) (by decide)
  simp only [filedNames, List.forall_mem_append, List.forall_mem_map]
  refine ⟨⟨fun s hs => ?subtype, fun e he => ?entity⟩, fun e he => ?endpoint⟩
  case subtype =>
    exact slash_not_mem_pascalCase.mp
      (hsubtypes _ (List.mem_append_right _ (List.mem_map_of_mem hs)))
  case entity => exact slash_not_mem_pascalCase.mp (hentities _ (List.mem_map_of_mem he))
  case endpoint =>
    have hname := hendpoints _ (List.mem_map_of_mem (List.mem_map_of_mem he))
    rw [String.toList_append, List.mem_append, not_or] at hname
    exact slash_not_mem_pascalCase.mp hname.1

/-- Every file stays in its directory exactly if no definition with a file has a slash in
its name. The files are then written where they belong. -/
theorem sourcesOfText_inDirectory_iff {text : String} {settings : Settings} {files : List Source}
    (hload : Document.load text = .ok d) (hfiles : sourcesOfText text settings = .ok files) :
    ((∀ s ∈ files, InDirectory s.path) ↔ ∀ name ∈ filedNames d, '/' ∉ name.toList) ∧
      ∀ s ∈ files, InDirectory s.path → s.output? = some s.written := by
  obtain ⟨-, hsources⟩ := sources_of_load hload hfiles
  constructor
  · rw [← forall_inDirectory_iff, ← sources_paths hsources, List.forall_mem_map]
  · intro s _ hs
    rw [Source.output?, hs.normalPath?]
    rfl

end

def filedText (name : String) : String :=
  "<descriptions version='1'><subtypes><subtype name='" ++ name
    ++ "'><option name='x'/></subtype></subtypes><endpoints><endpoint name='/e'/></endpoints></descriptions>"

/-- A name from the root takes its file out of the output. -/
theorem sourcesOfText_leaves_directory :
    ∃ files, sourcesOfText (filedText "/a") {} = .ok files ∧
      ∃ s ∈ files, s.path = "/a.swift" ∧ ¬InDirectory s.path ∧ s.output? = none := by
  have hpath : ((sourcesOfText (filedText "/a") {}).toOption.map fun files =>
      decide ("/a.swift" ∈ files.map (·.path))) = some true := by
    have htext : filedText "/a" = _ :=
      Markup.append_eq_ofList (Markup.append_eq_ofList rfl rfl) rfl
    rw [sourcesOfText, Document.load, Markup.nodes_of_ofList htext]
    decide +kernel
  obtain ⟨files, hfiles, hpath⟩ := exists_ok_of_decide hpath
  obtain ⟨s, hs, hpath⟩ := List.mem_map.mp hpath
  have hplace : normalPath? s.path = none := normalPath?_of_root (by rw [hpath]; rfl)
  refine ⟨files, hfiles, s, hs, hpath, fun hin => ?_, ?_⟩
  · exact Option.some_ne_none _ (hin.normalPath?.symm.trans hplace)
  · rw [Source.output?, hplace]
    rfl

theorem sourcesOfText_inDirectory_iff_option :
    ∃ d files, Document.load (filedText "a_b") = .ok d ∧
      sourcesOfText (filedText "a_b") {} = .ok files ∧
      (∀ name ∈ filedNames d, '/' ∉ name.toList) ∧
      ∀ s ∈ files, InDirectory s.path ∧ s.output? = some s.written := by
  have hloaded : ((Document.load (filedText "a_b")).toOption.map fun d =>
      decide ((sourcesOfText (filedText "a_b") {}).toOption.isSome ∧
        ∀ name ∈ filedNames d, '/' ∉ name.toList)) = some true := by
    have htext : filedText "a_b" = _ :=
      Markup.append_eq_ofList (Markup.append_eq_ofList rfl rfl) rfl
    rw [sourcesOfText, Document.load, Markup.nodes_of_ofList htext]
    decide +kernel
  obtain ⟨d, files, hload, hfiles, hslash⟩ := exists_sources_of_decide hloaded
  obtain ⟨hin, hwritten⟩ := sourcesOfText_inDirectory_iff hload hfiles
  exact ⟨d, files, hload, hfiles, hslash,
    fun s hs => ⟨hin.mpr hslash s hs, hwritten s hs (hin.mpr hslash s hs)⟩⟩

end EntityGen.Emit
