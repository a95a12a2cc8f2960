import EntityGen.Proofs.Emit.Sources
import EntityGen.Proofs.Emit.Versions
import Mathlib.Data.List.Nodup

/-!
# Migration tests

The test case has a function for each older entry of the history, named for the
version with underscores in place of its dots. Versions that are not the same
text have different names, so functions clash only where the history repeats an
entry, and only a plus sign keeps a name from being an identifier.
-/

namespace EntityGen.Code

/-- A name that may be declared as it is written: letters, digits and `_`, no digit in front and
no keyword. -/
structure IsIdentifier (name : String) : Prop where
  chars : ∀ c ∈ name.toList, c.isAlphanum ∨ c = '_'
  head : ∃ c ∈ name.toList.head?, ¬c.isDigit
  notKeyword : name ∉ keywords

instance : DecidablePred IsIdentifier := fun name =>
  have : Decidable (∀ c ∈ name.toList, c.isAlphanum ∨ c = '_') := List.decidableBAll _ _
  have : Decidable (∃ c ∈ name.toList.head?, ¬c.isDigit) := Option.decidableExistsMem _
  decidable_of_iff ((∀ c ∈ name.toList, c.isAlphanum ∨ c = '_') ∧
      (∃ c ∈ name.toList.head?, ¬c.isDigit) ∧ name ∉ keywords)
    ⟨fun ⟨h₁, h₂, h₃⟩ => ⟨h₁, h₂, h₃⟩, fun ⟨h₁, h₂, h₃⟩ => ⟨h₁, h₂, h₃⟩⟩

theorem underscore_not_mem_keywords : ∀ word ∈ keywords, '_' ∉ word.toList := by
  decide +kernel

end EntityGen.Code

namespace EntityGen.Emit

open Code
open Schema (Descriptions)

-- ---------------------------------------------------------------------------
-- Names of tests
-- ---------------------------------------------------------------------------

def testName (version : String) : String :=
  "test_migration_from_" ++ underscored version ++ "_should_succeed"

section
variable {v w : String} {c : Char}

theorem IsVersion.char (h : IsVersion v) (hc : c ∈ v.toList) : c.isDigit ∨ c = '.' ∨ c = '+' := by
  by_cases hdot : c = '.'
  · exact .inr (.inl hdot)
  obtain ⟨part, hpart, hmem⟩ := (Text.exists_mem_parts hdot).mpr hc
  have hnumeral := h part hpart
  unfold unsigned at hnumeral
  split at hnumeral
  · next digits hplus =>
    rw [hplus] at hmem
    rcases List.mem_cons.mp hmem with rfl | hmem
    · exact .inr (.inr rfl)
    · exact .inl (hnumeral.isDigit c hmem)
  · exact .inl (hnumeral.isDigit c hmem)

theorem IsVersion.underscore_not_mem (h : IsVersion v) : '_' ∉ v.toList := fun hmem => by
  rcases h.char hmem with hdigit | hdot | hplus
  · exact absurd hdigit (by decide)
  · exact absurd hdot (by decide)
  · exact absurd hplus (by decide)

theorem underscored_inj (hv : '_' ∉ v.toList) (hw : '_' ∉ w.toList) :
    underscored v = underscored w ↔ v = w := by
  have hback {x : String} (hx : '_' ∉ x.toList) :
      (underscored x).toList.map (fun c => if c = '_' then '.' else c) = x.toList := by
    rw [underscored, String.toList_ofList, List.map_map]
    refine (List.map_congr_left fun c hc => ?_).trans (List.map_id _)
    have hne : c ≠ '_' := fun h => hx (h ▸ hc)
    by_cases hdot : c = '.' <;> simp [hdot, hne]
  refine ⟨fun h => ?_, congrArg underscored⟩
  rw [← String.toList_inj, ← hback hv, h, hback hw]

theorem toList_testName (version : String) :
    (testName version).toList = "test_migration_from_".toList
      ++ (underscored version).toList ++ "_should_succeed".toList := by
  unfold testName
  rw [String.toList_append, String.toList_append]

theorem testName_inj (hv : IsVersion v) (hw : IsVersion w) : testName v = testName w ↔ v = w := by
  rw [← underscored_inj hv.underscore_not_mem hw.underscore_not_mem, ← String.toList_inj,
    toList_testName, toList_testName, List.append_left_inj, List.append_right_inj,
    String.toList_inj]

theorem forall_mem_underscored {p : Char → Prop} :
    (∀ c ∈ (underscored v).toList, p c) ↔ ∀ c ∈ v.toList, p (if c = '.' then '_' else c) := by
  rw [underscored, String.toList_ofList, List.forall_mem_map]

theorem isIdentifier_testName_iff (h : IsVersion v) :
    IsIdentifier (testName v) ↔ '+' ∉ v.toList := by
  have hchars : (∀ c ∈ (testName v).toList, c.isAlphanum ∨ c = '_') ↔ '+' ∉ v.toList := by
    rw [toList_testName, List.forall_mem_append, List.forall_mem_append, forall_mem_underscored]
    constructor
    · rintro ⟨⟨-, hunderscored⟩, -⟩ hplus
      exact absurd (hunderscored '+' hplus) (by decide)
    · intro hplus
      have hfront : IsIdentifier "test_migration_from_" := by decide +kernel
      have hback : IsIdentifier "_should_succeed" := by decide +kernel
      refine ⟨⟨hfront.chars, fun c hc => ?_⟩, hback.chars⟩
      rcases h.char hc with hdigit | rfl | rfl
      · split
        · exact .inr rfl
        · exact .inl (by simp [Char.isAlphanum, hdigit])
      · exact .inr rfl
      · exact absurd hc hplus
  refine ⟨fun hname => hchars.mp hname.chars,
    fun hplus => ⟨hchars.mpr hplus, ?_, fun hkeyword => ?_⟩⟩
  · exact ⟨'t', by rw [toList_testName]; rfl, by decide⟩
  · refine underscore_not_mem_keywords _ hkeyword ?_
    rw [toList_testName]
    exact List.mem_append_right _ (by decide +kernel)

end

-- ---------------------------------------------------------------------------
-- The test case
-- ---------------------------------------------------------------------------

def migratedVersion? (f : Function) : Option String :=
  match f.body with
  | [.expr (.prefixed .tryThrowing (.call (.name "runMigrationTest")
      [.mk (some "for") (.string version)]))] => some version
  | _ => none

def testNames (versions : List String) : List String :=
  versions.map testName ++ ["runMigrationTest"]

/-- The functions of a test case: a test for each version, in order, and the run they share. -/
structure TestsVersions (functions : List Function) (versions : List String) : Prop where
  migrated : functions.filterMap migratedVersion? = versions
  names : functions.map Function.name? = (testNames versions).map some

theorem testsVersions_append (d : Descriptions) (settings : Settings) (versions : List String) :
    TestsVersions (versions.map migrationTest ++ [migrationRun d settings]) versions := by
  have hmigrated (v : String) : migratedVersion? (migrationTest v) = some v := rfl
  have hrun : migratedVersion? (migrationRun d settings) = none := rfl
  have hname (v : String) : (migrationTest v).name? = some (testName v) := rfl
  constructor
  case migrated => simp [List.filterMap_map, hmigrated, hrun]
  case names =>
    simp only [testNames, List.map_append, List.map_map, Function.comp_def, hname]
    rfl

section
variable {versions : List String} (hversions : ∀ v ∈ versions, IsVersion v)
include hversions

/-- Only tests of one version have one name. -/
theorem testNames_nodup_iff : (testNames versions).Nodup ↔ versions.Nodup := by
  have hrun : "runMigrationTest" ∉ versions.map testName := by
    rintro hmem
    obtain ⟨v, -, hv⟩ := List.mem_map.mp hmem
    have hhead := congrArg (·.toList.head?) hv
    simp only [toList_testName] at hhead
    exact absurd hhead (by simp)
  rw [testNames, List.nodup_append]
  constructor
  · rintro ⟨htests, -, -⟩
    exact htests.of_map testName
  · intro h
    refine ⟨h.map_on fun v hv w hw => (testName_inj (hversions v hv) (hversions w hw)).mp,
      List.nodup_singleton _, ?_⟩
    rintro _ hname _ hmem rfl
    exact hrun (List.mem_singleton.mp hmem ▸ hname)

theorem testNames_isIdentifier_iff :
    (∀ name ∈ testNames versions, IsIdentifier name) ↔ ∀ v ∈ versions, '+' ∉ v.toList := by
  have hrun : IsIdentifier "runMigrationTest" := by decide +kernel
  simp only [testNames, List.forall_mem_append, List.forall_mem_map, List.forall_mem_singleton,
    hrun, and_true]
  exact forall₂_congr fun v hv => isIdentifier_testName_iff (hversions v hv)

end

theorem TestsVersions.countP {functions : List Function} {versions : List String}
    (h : TestsVersions functions versions) (v : String) :
    functions.countP (fun f => migratedVersion? f = some v) = versions.count v := by
  rw [← h.migrated, List.count, List.countP_filterMap]
  refine List.countP_congr fun f _ => ?_
  cases migratedVersion? f <;> simp

theorem migrationFile_tests {d : Descriptions} {settings : Settings} {file : SourceFile}
    (h : migrationFile d settings = .ok (some file)) :
    (∀ text ∈ appVersion d settings :: d.versionHistory, IsVersion text) ∧
      ∃ decl, file.types = [decl] ∧ decl.name.name = "CoreDataMigrationTests" ∧
        TestsVersions (Item.functions (.type decl)) (olderVersions d settings) := by
  unfold migrationFile at h
  split at h
  · cases h
  simp only [bind_ok, pure_ok, Option.some.injEq, testedVersions_ok_iff] at h
  obtain ⟨_, ⟨hversions, rfl⟩, rfl⟩ := h
  refine ⟨hversions, _, rfl, rfl, ?_⟩
  convert testsVersions_append d settings (olderVersions d settings)
  rw [Item.functions, Item.filterMap_grouped rfl]
  simpa [List.flatMap_map, Item.function?] using List.map_eq_flatMap.symm

theorem Source.BelongsTo.migration {d : Descriptions} {settings : Settings} {s : Source}
    (hs : s.BelongsTo d settings "Tests") : migrationFile d settings = .ok (some s.file) := by
  obtain ⟨made, hentry, file, hfile, rfl⟩ := hs
  have hmade : Option.toList <$> migrationFile d settings = .ok made := by
    simpa [directoryFiles, eq_comm] using hentry
  obtain ⟨file?, hfile?, rfl⟩ := map_ok.mp hmade
  rw [Option.mem_toList] at hfile
  rw [hfile?, hfile]
  rfl

theorem exists_migration_source {d : Descriptions} {settings : Settings} {files : List Source}
    (h : sources d settings = .ok files) (hpersisted : ∃ e ∈ d.entities, e.isPersisted) :
    ∃ s : Source, s.BelongsTo d settings "Tests" := by
  have hentry : ("Tests", Option.toList <$> migrationFile d settings)
      ∈ directoryFiles d settings := by
    simp [directoryFiles]
  obtain ⟨made, hmade⟩ := exists_made h hentry
  obtain ⟨file?, hfile?, rfl⟩ := map_ok.mp hmade
  cases file? with
  | some file =>
    exact ⟨Source.place "Tests" file, _, hmade ▸ hentry, file, List.mem_singleton_self _, rfl⟩
  | none =>
    unfold migrationFile at hfile?
    split at hfile?
    · next hnone =>
      obtain ⟨e, he, hpersists⟩ := hpersisted
      have hmem : e ∈ d.persistedEntities := List.mem_filter.mpr ⟨he, hpersists⟩
      rw [List.isEmpty_iff.mp hnone] at hmem
      cases hmem
    · simp only [bind_ok, pure_ok, reduceCtorEq, and_false, exists_false] at hfile?

/-- The functions of the test case have distinct names exactly if no older entry of the history
is repeated, and then there is one test for each. The names are identifiers exactly if none
of these entries has a plus sign. -/
theorem sourcesOfText_migrationTests {text : String} {d : Descriptions} {settings : Settings}
    {files : List Source} {s : Source} (hload : Document.load text = .ok d)
    (hfiles : sourcesOfText text settings = .ok files) (hs : s.BelongsTo d settings "Tests") :
    s ∈ files ∧ ∃ (decl : TypeDecl) (names : List String),
      s.file.types = [decl] ∧ decl.name.name = "CoreDataMigrationTests" ∧
      let functions := Item.functions (.type decl)
      let older := olderVersions d settings
      functions.map Function.name? = names.map some ∧
      functions.filterMap migratedVersion? = older ∧
      (names.Nodup ↔ older.Nodup) ∧
      ((∀ name ∈ names, IsIdentifier name) ↔ ∀ v ∈ older, '+' ∉ v.toList) ∧
      ((∀ v ∈ older, functions.countP (fun f => migratedVersion? f = some v) = 1)
        ↔ older.Nodup) := by
  obtain ⟨-, hsources⟩ := sources_of_load hload hfiles
  obtain ⟨hversions, decl, htypes, hname, htests⟩ := migrationFile_tests hs.migration
  have holder : ∀ v ∈ olderVersions d settings, IsVersion v := fun v hv =>
    hversions v (List.mem_cons_of_mem _ (List.mem_filter.mp hv).1)
  refine ⟨hs.mem hsources, decl, _, htypes, hname, htests.names, htests.migrated,
    testNames_nodup_iff holder, testNames_isIdentifier_iff holder, ?_⟩
  simp only [htests.countP]
  exact List.nodup_iff_count_eq_one.symm

def historyText (versions : String) : String :=
  "<descriptions version='2'><versions>" ++ versions
    ++ "</versions><entities><entity name='item' persist='true'/></entities></descriptions>"

def releasesText : String := historyText
  "<version name='1.0'/><version name='1.0.0'/><version name='2.1'/><version name='2.1'/>"

theorem sourcesOfText_migrationTests_releases :
    ∃ d files s decl, ∃ names : List String, Document.load releasesText = .ok d ∧
      sourcesOfText releasesText {} = .ok files ∧ s ∈ files ∧ s.BelongsTo d {} "Tests" ∧
      s.file.types = [decl] ∧
      (Item.functions (.type decl)).map Function.name? = names.map some ∧
      (Item.functions (.type decl)).filterMap migratedVersion? = ["1.0", "1.0.0"] ∧
      names.Nodup ∧ ∀ name ∈ names, IsIdentifier name := by
  obtain ⟨d, files, hload, hfiles, holder, hpersisted⟩ : ∃ d files,
      Document.load releasesText = .ok d ∧ sourcesOfText releasesText {} = .ok files ∧
      olderVersions d {} = ["1.0", "1.0.0"] ∧ ∃ e ∈ d.entities, e.isPersisted := by
    have htext : releasesText = _ := Markup.append_eq_ofList (Markup.append_eq_ofList rfl rfl) rfl
    refine exists_sources_of_decide ?_
    rw [sourcesOfText, Document.load, Markup.nodes_of_ofList htext]
    decide +kernel
  obtain ⟨s, hs⟩ := exists_migration_source (sources_of_load hload hfiles).2 hpersisted
  obtain ⟨hmem, decl, names, htypes, -, hnames, hmigrated, hnodup, hidentifiers, -⟩ :=
    sourcesOfText_migrationTests hload hfiles hs
  rw [holder] at hmigrated hnodup hidentifiers
  exact ⟨d, files, s, decl, names, hload, hfiles, hmem, hs, htypes, hnames, hmigrated,
    hnodup.mpr (by decide), hidentifiers.mpr (by decide)⟩

def repeatedText : String := historyText
  "<version name='1.0'/><version name='1.0'/><version name='+1'/>"

/-- Two tests have one name, and the name of another is no identifier. -/
theorem sourcesOfText_migrationTests_clash :
    ∃ d files s decl, ∃ names : List String, Document.load repeatedText = .ok d ∧
      sourcesOfText repeatedText {} = .ok files ∧ s ∈ files ∧ s.BelongsTo d {} "Tests" ∧
      s.file.types = [decl] ∧
      (Item.functions (.type decl)).map Function.name? = names.map some ∧
      (Item.functions (.type decl)).filterMap migratedVersion? = ["1.0", "1.0", "+1"] ∧
      ¬names.Nodup ∧ ∃ name ∈ names, ¬IsIdentifier name := by
  obtain ⟨d, files, hload, hfiles, holder, hpersisted⟩ : ∃ d files,
      Document.load repeatedText = .ok d ∧ sourcesOfText repeatedText {} = .ok files ∧
      olderVersions d {} = ["1.0", "1.0", "+1"] ∧ ∃ e ∈ d.entities, e.isPersisted := by
    have htext : repeatedText = _ := Markup.append_eq_ofList (Markup.append_eq_ofList rfl rfl) rfl
    refine exists_sources_of_decide ?_
    rw [sourcesOfText, Document.load, Markup.nodes_of_ofList htext]
    decide +kernel
  have hsources := (sources_of_load hload hfiles).2
  obtain ⟨s, hs⟩ := exists_migration_source hsources hpersisted
  obtain ⟨-, decl, htypes, -, htests⟩ := migrationFile_tests hs.migration
  rw [holder] at htests
  have hversions : ∀ v ∈ ["1.0", "1.0", "+1"], IsVersion v := by decide +kernel
  refine ⟨d, files, s, decl, _, hload, hfiles, hs.mem hsources, hs, htypes, htests.names,
    htests.migrated, ?_, testName "+1", by simp [testNames], ?_⟩
  · rw [testNames_nodup_iff hversions]
    decide
  · rw [isIdentifier_testName_iff (hversions _ (by simp))]
    decide

end EntityGen.Emit
