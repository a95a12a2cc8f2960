import EntityGen.Code.Effects
import EntityGen.Emit.Coding
import EntityGen.Emit.EntityFile
import EntityGen.Emit.RecordField

/-!
# Files of persisted entities

A persisted entity is made from a record and merges itself into one. Making
it throws exactly if reading one of its fields does; the failure is logged.
-/

namespace EntityGen.Emit

open Code
open Schema (Descriptions Entity)

def recordName : String := "coreDataEntity"

def record : Expr := .name recordName

def recordParameter (label : Option String) (e : Entity) : Parameter :=
  { label, name := recordName, type := managedType e.name }

def entityFromRecord (e : Entity) (mayThrow : Bool) : Function :=
  let type := entityType e.name
  let made := type.construct [.labelled "coreDataEntity" record]
  let log := (Expr.name "Logger").method "log"
    [.unlabelled (.dot "error"),
     .unlabelled (.string (Text.pascalCase e.name ++ ": Could not convert CoreData entity")),
     .labelled "error" (.name "error"), .labelled "assert" (.bool true)]
  { kind := .named "entity", access := .publicAccess, isStatic := true
    parameters := [recordParameter (some "from") e]
    result := some type.optional
    body :=
      if mayThrow then
        [.doCatch [.returning (.tryThrowing made)] [{ body := [.expr log, .returning .nil] }]]
      else [.returning made] }

def lastRemoteReadKey : RecordNaming → String
  | .current => "__lastRemoteRead"
  | .legacy => "_lastRemoteRead"

def mergeIntoRecord (settings : Settings) (e : Entity)
    (fields : List (Schema.Property × RecordField)) : Function :=
  { kind := .named "merge", access := .publicAccess
    parameters := [recordParameter (some "into") e]
    body :=
      (if e.hasVoidIdentifier then []
       else [.expr ((Expr.name "identifier").method "merge" [.labelled "into" record])])
      ++ fields.flatMap (fun (p, f) => f.writing (.name (memberName p.name)) record)
      ++ (if e.hasLastRemoteRead then
            [.assign (.member record (lastRemoteReadKey settings.naming))
              (TypeName.date.construct [])]
          else []) }

def recordArguments (e : Entity) (fields : List (Schema.Property × RecordField)) :
    List Argument :=
  (if e.hasVoidIdentifier then []
   else [.labelled "identifier" ((identifierType e).construct
     [.labelled "coreDataEntity" record])])
  ++ fields.map fun (p, f) => .labelled (memberName p.name) (f.reading record)

def recordInitializer (e : Entity) (arguments : List Argument) : Function :=
  { kind := .initializer true false, access := .privateAccess
    parameters := [recordParameter none e]
    -- the body evaluates nothing else
    isThrowing := Argument.anyMayThrow arguments
    body := [.expr (Expr.selfRef.method "init" arguments)] }

def recordFile (d : Descriptions) (settings : Settings) (e : Entity) :
    Except Error SourceFile := do
  let fields ← recordFields d settings e
  let initializer := recordInitializer e (recordArguments e fields)
  let binding : Extension :=
    { name := entityType e.name, inherited := [{ name := "CoreDataEntity" }]
      body := Item.grouped
        [[.function (entityFromRecord e initializer.isThrowing)],
         [.function (mergeIntoRecord settings e fields)],
         [.function initializer]] }
  return ((emittedFile (Text.pascalCase e.name ++ "+CoreData")).importing ["CoreData"]).adding
    [.extension binding]

def recordFiles (d : Descriptions) (settings : Settings) : Except Error (List SourceFile) :=
  d.persistedEntities.mapM (recordFile d settings)

end EntityGen.Emit
