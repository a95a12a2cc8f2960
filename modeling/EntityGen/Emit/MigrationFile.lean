import EntityGen.Emit.SubtypeFile
import EntityGen.Emit.Settings
import EntityGen.Emit.Version

/-!
# Migration tests

Each released version older than the app is migrated from, and every persisted
entity read afterwards.
-/

namespace EntityGen.Emit

open Code
open Schema (Descriptions Entity)

/-- The released versions to migrate from, in the order of their release. -/
def testedVersions (d : Descriptions) (settings : Settings) : Except Error (List String) := do
  let current ← readVersion (settings.appVersion.getD d.version)
  let parsed ← d.versionHistory.mapM fun text => do
    return (text, ← readVersion text)
  return (parsed.filter fun (_, v) => compareVersions v current = .lt).map Prod.fst

def underscored (version : String) : String :=
  String.ofList (version.toList.map fun c => if c = '.' then '_' else c)

def migrationTest (version : String) : Function :=
  { kind := .named ("test_migration_from_" ++ underscored version ++ "_should_succeed")
    isThrowing := true
    body := [.expr (.tryThrowing (.call (.name "runMigrationTest")
      [.labelled "for" (.string version)]))] }

/-- Reads an entity, which may have had another name before. -/
def readCheck (e : Entity) : Item :=
  .expr (.tryThrowing (.call (.name "assertCanRead")
    ([.unlabelled (.type (entityType e.name).metatype),
      .labelled "from" (.name "coreDataManager")]
      ++ e.legacyPreviousName.toList.map fun name => .labelled "legacyName" (.string name))))

def migrationRun (d : Descriptions) (settings : Settings) : Function :=
  let migrated := (Expr.type { name := "CoreDataManager" }).method "migrated"
    [.labelled "from" (.name "version"), .labelled "modelName" (.string settings.moduleName)]
  { kind := .named "runMigrationTest", access := .privateAccess, isThrowing := true
    parameters := [{ label := some "for", name := "version", type := .string }]
    body := .constant "coreDataManager" (.tryThrowing migrated)
      :: d.persistedEntities.map readCheck }

def migrationTestsName : String := "CoreDataMigrationTests"

def migrationFile (d : Descriptions) (settings : Settings) :
    Except Error (Option SourceFile) := do
  if d.persistedEntities.isEmpty then return none
  let versions ← testedVersions d settings
  let tests : TypeDecl :=
    { name := { name := migrationTestsName }, kind := .classType true
      inherited := [{ name := "XCTestCase" }]
      body := Item.grouped
        ([[]] ++ versions.map (fun v => [.function (migrationTest v)])
          ++ [[.function (migrationRun d settings)]]) }
  let file := (emittedFile migrationTestsName).importing ["CoreData", "XCTest"]
  return some ((file.importingForTests [settings.moduleName]).adding [.type tests])

end EntityGen.Emit
