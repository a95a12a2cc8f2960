import EntityGen.Document.Reading
import EntityGen.Schema.Entity

/-!
# Reading entities
-/

namespace EntityGen.Document

open Markup (Tag Node)
open Schema (Association Contributor DefaultValue Entity Identifier IdentifierKind IdentifierValue
  PropertyType Scalar)

/-! ## Identifiers -/

def readContributor (tag : Tag) : Except Error Contributor := do
  let entityName ← required tag "relationship" "entity"
  return { variableName := (tag.attributes.lookup "name").getD entityName, entityName }

def readContributors (children : List Node) : Except Error (List Contributor) :=
  foldElements children [] fun contributors tag children => do
    if tag.name ≠ "relationship" then throw (.unknownElement tag.name "identifier")
    let contributor ← readContributor tag
    ignore children
    return contributors ++ [contributor]

def identifierKind (typeName : String) (value : IdentifierValue)
    (contributors : List Contributor) : Except Error IdentifierKind :=
  match typeName with
  | "void" => .ok .void
  | "relationships" =>
    if contributors.isEmpty then .error .noContributors
    else .ok (.relationships value contributors)
  | other => .scalar <$> accepted "identifier" "type" other (IdentifierValue.ofName? other)

/-- Reads an identifier, a whole number unless it says otherwise. -/
def readIdentifier (tag : Tag) (children : List Node) : Except Error Identifier := do
  let value ← foldAttributes tag .int fun value name text =>
    match name with
    | "valueType" => accepted "identifier" "valueType" text (IdentifierValue.ofName? text)
    | _ => .ok value
  let contributors ← readContributors children
  let typeName := (tag.attributes.lookup "type").getD "int"
  return { kind := ← identifierKind typeName value contributors
           key := (tag.attributes.lookup "key").getD "id"
           equivalent := tag.attributes.lookup "equivalent" }

/-! ## Properties -/

structure PropertyAttributes where
  scalar : Option Scalar := none
  association : Association := .toOne
  idOnly : Bool := false
  isOptional : Bool := false
  isLazy : Bool := false
  isArray : Bool := false
  isUsedForEquality : Bool := true
  logsError : Bool := true

def readAssociation? : String → Option Association
  | "toOne" => some .toOne
  | "toMany" => some .toMany
  | _ => none

def PropertyAttributes.read (a : PropertyAttributes) (name value : String) :
    Except Error PropertyAttributes :=
  match name with
  | "type" => return { a with scalar := ← accepted "property" name value (Scalar.ofName? value) }
  | "association" =>
    return { a with association := ← accepted "property" name value (readAssociation? value) }
  | "idOnly" => return { a with idOnly := ← readBool "property" name value }
  | "optional" => return { a with isOptional := ← readBool "property" name value }
  | "lazy" => return { a with isLazy := ← readBool "property" name value }
  | "array" => return { a with isArray := ← readBool "property" name value }
  | "useForEquality" => return { a with isUsedForEquality := ← readBool "property" name value }
  | "logError" => return { a with logsError := ← readBool "property" name value }
  | _ => .ok a

/-- A property has one type, and a relationship is no array. -/
def PropertyAttributes.type (a : PropertyAttributes) (tag : Tag) (name : String) :
    Except Error PropertyType :=
  match a.scalar, tag.attributes.lookup "subtype", tag.attributes.lookup "relationship" with
  | some scalar, none, none => .ok (.scalar scalar)
  | none, some subtype, none => .ok (.subtype subtype)
  | none, none, some entityName =>
    if a.isArray then .error (.invalidAttribute "property" "array" "true")
    else .ok (.relationship { entityName, association := a.association, idOnly := a.idOnly })
  | none, none, none => .error (.missingAttribute "property" "type")
  | _, _, _ => .error (.severalTypes name)

def defaultOfText? (type : PropertyType) (text : String) : Option DefaultValue :=
  match type with
  | .scalar scalar => DefaultValue.ofScalarText? text scalar
  | .subtype _ => some (DefaultValue.ofCaseText text)
  | .relationship _ => if text = "nil" then some .nil else none

def readDefault (type : PropertyType) : Option String → Except Error (Option DefaultValue)
  | none => .ok none
  | some text => some <$> accepted "property" "default" text (defaultOfText? type text)

def readProperty (tag : Tag) : Except Error Schema.Property := do
  let a ← foldAttributes tag {} PropertyAttributes.read
  let name ← required tag "property" "name"
  let type ← a.type tag name
  let default ← readDefault type (tag.attributes.lookup "default")
  return { name, type, default, key := (tag.attributes.lookup "key").getD name
           isArray := a.isArray, isOptional := a.isOptional, isLazy := a.isLazy
           isUsedForEquality := a.isUsedForEquality, logsError := a.logsError }

/-! ## Entities -/

def readEntityAttribute (e : Entity) (name value : String) : Except Error Entity :=
  match name with
  | "persist" => return { e with isPersisted := ← readBool "entity" name value }
  | "remote" => return { e with isRemote := ← readBool "entity" name value }
  | "mutable" => return { e with isMutable := ← readBool "entity" name value }
  | "lastRemoteRead" => return { e with hasLastRemoteRead := ← readBool "entity" name value }
  | "name" => .ok { e with name := value }
  | "queue" => .ok { e with clientQueue := some value }
  | "legacyPreviousName" => .ok { e with legacyPreviousName := some value }
  | _ => .ok e

/-- Reads a part of an entity. A later identifier takes the place of an earlier one. -/
def readEntityPart (e : Entity) (tag : Tag) (children : List Node) : Except Error Entity :=
  match tag.name with
  | "identifier" => return { e with identifier := ← readIdentifier tag children }
  | "property" => do
    let property ← readProperty tag
    if (e.property? property.name).isSome then
      throw (.duplicate .property (e.name ++ "." ++ property.name))
    ignore children
    return { e with properties := e.properties ++ [property] }
  | other => .error (.unknownElement other "entity")

def readEntity (tag : Tag) (children : List Node) : Except Error Entity := do
  let e ← foldAttributes tag { name := "", identifier := { kind := .scalar .int } }
    readEntityAttribute
  let _ ← required tag "entity" "name"
  foldElements children e readEntityPart

end EntityGen.Document
