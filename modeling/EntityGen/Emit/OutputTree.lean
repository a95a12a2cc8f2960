import EntityGen.Emit.Sources
import EntityGen.Text.Parts

/-!
# The written output

Sources are written in order below the output directory. Of two with one path
the later one stays; one whose path leads out of the directory is not in it.
-/

namespace EntityGen.Emit

/-- Goes down one part of a path; two dots go up, out of the directory at its top. -/
def descend (above : List String) (part : String) : Option (List String) :=
  if part = "" ∨ part = "." then some above
  else if part = ".." then
    match above with
    | [] => none
    | _ :: above => some above
  else some (part :: above)

def normalPath? (path : String) : Option String :=
  match Text.parts '/' path with
  -- the path starts at the root
  | "" :: _ => none
  | parts => (parts.foldlM descend []).map fun above => "/".intercalate above.reverse

structure OutputFile where
  path : String
  text : String
  deriving DecidableEq, Repr

def writeFile (tree : List OutputFile) (file : OutputFile) : List OutputFile :=
  tree.filter (fun f => f.path ≠ file.path) ++ [file]

def Source.output? (s : Source) : Option OutputFile :=
  (normalPath? s.path).map fun path => { path, text := s.file.render }

def outputTree (sources : List Source) : List OutputFile :=
  ((sources.filterMap Source.output?).foldl writeFile []).mergeSort
    fun a b => decide (a.path ≤ b.path)

end EntityGen.Emit
