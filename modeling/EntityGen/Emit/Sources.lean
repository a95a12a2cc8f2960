import EntityGen.Document.Load
import EntityGen.Emit.ContainerFile
import EntityGen.Emit.FactoryFile
import EntityGen.Emit.GraphFile
import EntityGen.Emit.IdentifierFile
import EntityGen.Emit.MigrationFile
import EntityGen.Emit.RecordFile
import EntityGen.Schema.Validation

/-!
# All sources of a description

The emitted files by directory, and the tree that they make when written.
-/

namespace EntityGen.Emit

open Code (SourceFile)
open Schema (Descriptions)

structure Source where
  path : String
  file : SourceFile

/-- A name that starts at the root leaves the directory aside. -/
def pathIn (directory name : String) : String :=
  if name.toList.head? = some '/' then name else directory ++ "/" ++ name

def Source.place (directory : String) (file : SourceFile) : Source :=
  { path := pathIn directory file.name, file }

def supportFiles (d : Descriptions) (settings : Settings) : Except Error (List SourceFile) := do
  let container ← containerFile d settings
  let handler ← responseHandlerFile d settings
  return [graphFile d, container] ++ handler.toList

def directoryFiles (d : Descriptions) (settings : Settings) :
    List (String × Except Error (List SourceFile)) :=
  [("Subtypes", subtypeFiles d),
   ("Entities", entityFiles d),
   ("Identifiers", identifierFiles d),
   ("Payloads", payloadFiles d),
   ("Persistence", recordFiles d settings),
   ("Endpoints", endpointFiles d),
   ("Support", supportFiles d settings),
   ("Tests/Factories", factoryFiles d settings.moduleName),
   ("Tests", Option.toList <$> migrationFile d settings)]

def sources (d : Descriptions) (settings : Settings) : Except Error (List Source) := do
  let placed ← (directoryFiles d settings).mapM fun (directory, files) => do
    return (← files).map (Source.place directory)
  return placed.flatten

/-- All sources of a document that holds valid descriptions. -/
def sourcesOfText (text : String) (settings : Settings) : Except Error (List Source) := do
  let d ← Document.load text
  d.validate
  sources d settings

def sourcesOfFile (contents : Option ByteArray) (settings : Settings) :
    Except Error (List Source) :=
  match contents with
  | none => .error (.file .missing)
  | some bytes =>
    match String.fromUTF8? bytes with
    | none => .error (.file .notUtf8)
    | some text => sourcesOfText text settings

end EntityGen.Emit
