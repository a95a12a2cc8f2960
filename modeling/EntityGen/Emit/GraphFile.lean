import EntityGen.Emit.SubtypeFile

/-!
# The entity graph

The graph stores entities of all kinds, by identifier where there is one.
-/

namespace EntityGen.Emit

open Code
open Schema (Descriptions Entity)

def anyEntityType : TypeName := { name := "AppAnyEntity" }

def anyEntity (d : Descriptions) : TypeDecl :=
  { name := anyEntityType, kind := .enumType false, access := .publicAccess
    body := d.entities.map fun e =>
      .enumCase { name := memberName e.name, associated := [entityType e.name] } }

def storageName (e : Entity) : String :=
  memberName e.name ++ if e.hasVoidIdentifier then "List" else "ByIdentifier"

def storageType (e : Entity) : TypeName :=
  if e.hasVoidIdentifier then (entityType e.name).array
  else .dictionary (identifierType e) (entityType e.name)

def storageProperty (e : Entity) : Item :=
  .property
    { var := { name := storageName e, isImmutable := false }
      access := .publicAccess, setterAccess := some .privateAccess
      value := some ((storageType e).construct []) }

/-- Puts a value into its storage. One with lazy properties is merged with the
value stored before. -/
def insertion (e : Entity) : Item :=
  let value := Expr.name "value"
  let storage := Expr.name (storageName e)
  if e.hasVoidIdentifier then .expr (storage.method "append" [.unlabelled value])
  else
    let slot := Expr.index storage (.member value "identifier")
    let merged := (Expr.member slot "map").callClosure []
      [.expr ((Expr.name "$0").method "merging" [.unlabelled value])]
    .assign slot (if e.hasLazyProperties then merged.orElse value else value)

def insertionCase (e : Entity) : SwitchCase :=
  { pattern := .bindings (memberName e.name) ["value"], body := [insertion e] }

def insertFunction (d : Descriptions) : Function :=
  { kind := .named "insert", access := .publicAccess
    genericParameters := [{ name := "S" }]
    parameters := [{ label := some "_", name := "entities", type := { name := "S" } }]
    constraints :=
      [.conforms { name := "S" } { name := "Sequence" },
       .equals { name := "S.Element" } anyEntityType]
    body :=
      if d.entities.isEmpty then []
      else [.expr ((Expr.member (.name "entities") "forEach").callClosure ["entity"]
        [.switch (.name "entity") (d.entities.map insertionCase)])] }

def graphClass (d : Descriptions) : TypeDecl :=
  { name := { name := "EntityGraph" }, kind := .classType true, access := .publicAccess
    body := Item.grouped
      [d.entities.map storageProperty,
       [.function { Function.initializer with access := .publicAccess }],
       [.function (insertFunction d)]] }

def graphFile (d : Descriptions) : SourceFile :=
  (emittedFile "EntityGraph").addingSeparated [.type (anyEntity d), .type (graphClass d)]

end EntityGen.Emit
