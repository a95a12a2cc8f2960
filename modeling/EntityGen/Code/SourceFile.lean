import EntityGen.Code.Build
import EntityGen.Code.Render

/-!
# Source files
-/

namespace EntityGen.Code

/-- A file of generated code. No module is imported twice. -/
structure SourceFile where
  name : String
  header : List Comment := []
  imports : List String := []
  testableImports : List String := []
  body : List Item := []

namespace SourceFile

def importing (file : SourceFile) (modules : List String) : SourceFile :=
  { file with imports := addAllDistinct file.imports modules }

def importingForTests (file : SourceFile) (modules : List String) : SourceFile :=
  { file with testableImports := addAllDistinct file.testableImports modules }

def adding (file : SourceFile) (items : List Item) : SourceFile :=
  { file with body := file.body ++ items }

/-- Items with a blank line before each that is not the first of the file. -/
def addingSeparated (file : SourceFile) (items : List Item) : SourceFile :=
  items.foldl
    (fun file item => file.adding (if file.body.isEmpty then [item] else [.blank, item])) file

/-- Header, imports and body, a blank line between each two that are there. -/
def render (file : SourceFile) : String :=
  String.join (file.header.map (Comment.render 0))
    ++ (if file.header.isEmpty then "" else "\n")
    ++ String.join (file.imports.map fun m => fullLine 0 ("import " ++ m))
    ++ String.join (file.testableImports.map fun m => fullLine 0 ("@testable import " ++ m))
    ++ (if (file.imports.isEmpty && file.testableImports.isEmpty) || file.body.isEmpty then ""
        else "\n")
    ++ renderItems file.body

end SourceFile
end EntityGen.Code
