import EntityGen.Schema.Scalar

/-!
# Entities
-/

namespace EntityGen.Schema

inductive IdentifierValue where
  | int
  | string
  deriving DecidableEq, Repr

def IdentifierValue.ofName? : String → Option IdentifierValue
  | "int" => some .int
  | "string" => some .string
  | _ => none

/-- An entity whose identifier is part of another entity's identifier, and the
variable that holds it there. -/
structure Contributor where
  variableName : String
  entityName : String
  deriving DecidableEq, Repr

inductive IdentifierKind where
  | void
  | scalar (value : IdentifierValue)
  | relationships (value : IdentifierValue) (contributors : List Contributor)
  deriving DecidableEq, Repr

/-- What identifies an entity; `equivalent` names an entity with the same identifiers. -/
structure Identifier where
  kind : IdentifierKind
  key : String := "id"
  equivalent : Option String := none
  deriving DecidableEq, Repr

namespace Identifier

def value? (i : Identifier) : Option IdentifierValue :=
  match i.kind with
  | .void => none
  | .scalar value | .relationships value _ => some value

def contributors (i : Identifier) : List Contributor :=
  match i.kind with
  | .relationships _ contributors => contributors
  | _ => []

end Identifier

inductive Association where
  | toOne
  | toMany
  deriving DecidableEq, Repr

/-- A reference to another entity. With `idOnly` a payload holds its identifier
alone, else the entity itself. -/
structure Relationship where
  entityName : String
  association : Association
  idOnly : Bool := false
  deriving DecidableEq, Repr

inductive PropertyType where
  | scalar (scalar : Scalar)
  | subtype (name : String)
  | relationship (relationship : Relationship)
  deriving DecidableEq, Repr

/-- A property of an entity. Its key is its name unless another is given. -/
structure Property where
  name : String
  type : PropertyType
  key : String := name
  isArray : Bool := false
  isOptional : Bool := false
  isLazy : Bool := false
  default : Option DefaultValue := none
  isUsedForEquality : Bool := true
  logsError : Bool := true

namespace Property

def relationship? (p : Property) : Option Relationship :=
  match p.type with
  | .relationship relationship => some relationship
  | _ => none

def isRelationship (p : Property) : Bool := p.relationship?.isSome

def isCollection (p : Property) : Bool :=
  p.isArray || p.relationship?.any fun r => r.association = .toMany

end Property

structure Entity where
  name : String
  identifier : Identifier
  isPersisted : Bool := false
  isRemote : Bool := true
  isMutable : Bool := false
  clientQueue : Option String := none
  properties : List Property := []
  hasLastRemoteRead : Bool := false
  legacyPreviousName : Option String := none

namespace Entity

/-- The client queue of the entity, `main` unless another is given. -/
def queueName (e : Entity) : String := e.clientQueue.getD "main"

def hasLazyProperties (e : Entity) : Bool := e.properties.any (·.isLazy)

def hasVoidIdentifier (e : Entity) : Bool := e.identifier.kind = .void

def property? (e : Entity) (name : String) : Option Property :=
  e.properties.find? fun p => p.name == name

def values (e : Entity) : List Property :=
  e.properties.filter fun p => !p.isRelationship

def relationships (e : Entity) : List (Property × Relationship) :=
  e.properties.filterMap fun p => p.relationship?.map fun r => (p, r)

/-- All properties in the order in which they are stored: values, then relationships. -/
def storedProperties (e : Entity) : List Property :=
  e.values ++ e.relationships.map Prod.fst

def equalityProperties (e : Entity) : List Property :=
  e.storedProperties.filter (·.isUsedForEquality)

end Entity
end EntityGen.Schema
