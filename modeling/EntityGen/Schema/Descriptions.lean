import EntityGen.Schema.Endpoint
import EntityGen.Schema.Entity
import EntityGen.Schema.Error
import EntityGen.Schema.Subtype

/-!
# Description sets

All definitions of one generation run, in declared order. A name stands for
the first definition that bears it. Looking up a reference takes the field
that holds it, so that a failure tells which declaration to mend.
-/

namespace EntityGen.Schema

structure Descriptions where
  version : String
  versionHistory : List String := []
  entities : List Entity := []
  subtypes : List Subtype := []
  endpoints : List Endpoint := []

namespace Descriptions

def addEntity (d : Descriptions) (e : Entity) : Descriptions :=
  { d with entities := d.entities ++ [e] }

def addSubtype (d : Descriptions) (s : Subtype) : Descriptions :=
  { d with subtypes := d.subtypes ++ [s] }

def addEndpoint (d : Descriptions) (e : Endpoint) : Descriptions :=
  { d with endpoints := d.endpoints ++ [e] }

def entity? (d : Descriptions) (name : String) : Option Entity :=
  d.entities.find? fun e => e.name == name

def subtype? (d : Descriptions) (name : String) : Option Subtype :=
  d.subtypes.find? fun s => s.name == name

def endpoint? (d : Descriptions) (name : String) : Option Endpoint :=
  d.endpoints.find? fun e => e.name == name

def resolved {α : Type} (kind : DefinitionKind) (name referencedBy : String) :
    Option α → Except Error α
  | some definition => .ok definition
  | none => .error (.notFound kind name referencedBy)

def entity (d : Descriptions) (name referencedBy : String) : Except Error Entity :=
  resolved .entity name referencedBy (d.entity? name)

def subtype (d : Descriptions) (name referencedBy : String) : Except Error Subtype :=
  resolved .subtype name referencedBy (d.subtype? name)

def endpoint (d : Descriptions) (name referencedBy : String) : Except Error Endpoint :=
  resolved .endpoint name referencedBy (d.endpoint? name)

def relationshipTarget (d : Descriptions) (e : Entity) (propertyName : String) (r : Relationship) :
    Except Error Entity :=
  d.entity r.entityName (e.name ++ "." ++ propertyName)

def equivalentEntity (d : Descriptions) (e : Entity) : Except Error (Option Entity) :=
  match e.identifier.equivalent with
  | none => .ok none
  | some name => some <$> d.entity name (e.name ++ ".identifier")

def identifierContributors (d : Descriptions) (e : Entity) : Except Error (List Entity) :=
  e.identifier.contributors.mapM fun c =>
    d.entity c.entityName (e.name ++ ".identifier." ++ c.variableName)

def endpointsWriting (d : Descriptions) (name : String) : List Endpoint :=
  d.endpoints.filter fun e => e.write.any fun p => p.entityName == name

def persistedEntities (d : Descriptions) : List Entity :=
  d.entities.filter (·.isPersisted)

end Descriptions
end EntityGen.Schema
