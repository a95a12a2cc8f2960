import EntityGen.Emit.OutputTree
import EntityGen.Proofs.Text.Parts
import Mathlib.Data.List.Nodup

/-!
# Files on their places

A path without parts that lead up or nowhere is its own place below the output
directory, so files of distinct paths of this kind are all written out.
-/

namespace EntityGen.Emit

-- ---------------------------------------------------------------------------
-- Paths
-- ---------------------------------------------------------------------------

/-- The part leads down into a directory or to a file. -/
def LeadsDown (part : String) : Prop := part ≠ "" ∧ part ≠ "." ∧ part ≠ ".."

instance (part : String) : Decidable (LeadsDown part) := inferInstanceAs (Decidable (_ ∧ _))

theorem foldlM_descend {parts : List String} (h : ∀ part ∈ parts, LeadsDown part)
    (above : List String) : parts.foldlM descend above = some (parts.reverse ++ above) := by
  induction parts generalizing above with
  | nil => rfl
  | cons part rest ih =>
    obtain ⟨⟨hempty, hsame, hup⟩, hrest⟩ := List.forall_mem_cons.mp h
    have hstep : descend above part = some (part :: above) := by simp [descend, hempty, hsame, hup]
    rw [List.foldlM_cons, hstep, Option.bind_eq_bind, Option.bind_some, ih hrest]
    simp

theorem normalPath?_of_leadsDown {path : String}
    (h : ∀ part ∈ Text.parts '/' path, LeadsDown part) : normalPath? path = some path := by
  have hplace : (Text.parts '/' path).foldlM descend [] = some (Text.parts '/' path).reverse := by
    rw [foldlM_descend h, List.append_nil]
  unfold normalPath?
  split
  · next hparts => exact absurd rfl (h "" (by simp [hparts])).1
  · rw [hplace, Option.map_some, List.reverse_reverse]
    exact congrArg some (Text.intercalate_parts path)

theorem parts_pathIn {directory name : String} (h : '/' ∉ name.toList) :
    Text.parts '/' (pathIn directory name) = Text.parts '/' directory ++ [name] := by
  have hfirst : name.toList.head? ≠ some '/' := fun hhead => h (List.mem_of_head? hhead)
  rw [pathIn, if_neg hfirst, ← Text.parts_of_not_mem h]
  exact Text.parts_append directory name

def directories : List String :=
  ["Subtypes", "Entities", "Identifiers", "Payloads", "Persistence", "Endpoints", "Support",
    "Tests/Factories", "Tests"]

/-- The path is a directory of the output with the name of one file after it. -/
def InDirectory (path : String) : Prop :=
  ∃ directory ∈ directories, ∃ name, LeadsDown name ∧ '/' ∉ name.toList ∧
    path = directory ++ "/" ++ name

theorem leadsDown_of_mem_directories :
    ∀ directory ∈ directories, ∀ part ∈ Text.parts '/' directory, LeadsDown part := by
  decide

theorem InDirectory.parts {path : String} (h : InDirectory path) :
    ∃ directory ∈ directories, ∃ name, LeadsDown name ∧
      Text.parts '/' path = Text.parts '/' directory ++ [name] := by
  obtain ⟨directory, hdirectory, name, hname, hslash, rfl⟩ := h
  refine ⟨directory, hdirectory, name, hname, ?_⟩
  rw [← Text.parts_of_not_mem hslash]
  exact Text.parts_append directory name

theorem InDirectory.normalPath? {path : String} (h : InDirectory path) :
    normalPath? path = some path := by
  obtain ⟨directory, hdirectory, name, hname, hparts⟩ := h.parts
  refine normalPath?_of_leadsDown ?_
  rw [hparts, List.forall_mem_append, List.forall_mem_singleton]
  exact ⟨leadsDown_of_mem_directories directory hdirectory, hname⟩

-- ---------------------------------------------------------------------------
-- Written files
-- ---------------------------------------------------------------------------

def Source.written (s : Source) : OutputFile := { path := s.path, text := s.file.render }

theorem foldl_writeFile {tree files : List OutputFile}
    (h : ((tree ++ files).map (·.path)).Nodup) : files.foldl writeFile tree = tree ++ files := by
  induction files generalizing tree with
  | nil => simp
  | cons file rest ih =>
    have hkept : tree.filter (fun f => f.path ≠ file.path) = tree := by
      refine List.filter_eq_self.mpr fun f hf => decide_eq_true fun hpath => ?_
      rw [List.map_append, List.nodup_append] at h
      exact h.2.2 _ (List.mem_map_of_mem hf) _ (List.mem_map_of_mem List.mem_cons_self) hpath
    have hassoc : tree ++ file :: rest = (tree ++ [file]) ++ rest := by simp
    rw [List.foldl_cons, writeFile, hkept, hassoc]
    exact ih (hassoc ▸ h)

theorem mem_outputTree {files : List Source} {file : OutputFile} :
    file ∈ outputTree files ↔ file ∈ (files.filterMap Source.output?).foldl writeFile [] :=
  (List.mergeSort_perm _ _).mem_iff

/-- Sources that go to places of their own are what the output directory holds. -/
theorem outputTree_perm {files : List Source}
    (hplaces : ∀ s ∈ files, normalPath? s.path = some s.path)
    (hpaths : (files.map (·.path)).Nodup) : (outputTree files).Perm (files.map Source.written) := by
  have houtput : files.filterMap Source.output? = files.map Source.written := by
    rw [← List.filterMap_eq_map]
    refine List.filterMap_congr fun s hs => ?_
    rw [Source.output?, hplaces s hs]
    rfl
  have hwritten : ((files.map Source.written).foldl writeFile []) = files.map Source.written := by
    refine foldl_writeFile ?_
    rw [List.nil_append, List.map_map]
    exact hpaths
  rw [outputTree, houtput, hwritten]
  exact List.mergeSort_perm _ _

end EntityGen.Emit
