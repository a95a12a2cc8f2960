import EntityGen.Document.Endpoint
import EntityGen.Document.Entity
import EntityGen.Document.Subtype
import EntityGen.Schema.Descriptions

/-!
# Loading descriptions

A document holds a `descriptions` element, and sections in it or after it.
Sections of one kind add up. A further `descriptions` element starts afresh.
-/

namespace EntityGen.Document

open Markup (Tag Node)
open Schema (Descriptions DefinitionKind)

def readVersion (d : Descriptions) (tag : Tag) (children : List Node) :
    Except Error Descriptions := do
  if tag.name ≠ "version" then throw (.unknownElement tag.name "versions")
  let version ← required tag "version" "name"
  ignore children
  return { d with versionHistory := d.versionHistory ++ [version] }

def readSubtypeInto (d : Descriptions) (tag : Tag) (children : List Node) :
    Except Error Descriptions := do
  if tag.name ≠ "subtype" then throw (.unknownElement tag.name "subtypes")
  let subtype ← readSubtype tag children
  if (d.subtype? subtype.name).isSome then throw (.duplicate .subtype subtype.name)
  return d.addSubtype subtype

def readEntityInto (d : Descriptions) (tag : Tag) (children : List Node) :
    Except Error Descriptions := do
  if tag.name ≠ "entity" then throw (.unknownElement tag.name "entities")
  let entity ← readEntity tag children
  if (d.entity? entity.name).isSome then throw (.duplicate .entity entity.name)
  return d.addEntity entity

def readEndpointInto (d : Descriptions) (tag : Tag) (children : List Node) :
    Except Error Descriptions := do
  if tag.name ≠ "endpoint" then throw (.unknownElement tag.name "endpoints")
  let endpoint ← readEndpoint tag children
  if (d.endpoint? endpoint.name).isSome then throw (.duplicate .endpoint endpoint.name)
  return d.addEndpoint endpoint

def sectionReader? :
    String → Option (Descriptions → Tag → List Node → Except Error Descriptions)
  | "versions" => some readVersion
  | "subtypes" => some readSubtypeInto
  | "entities" => some readEntityInto
  | "endpoints" => some readEndpointInto
  | _ => none

def readRoot (tag : Tag) : Except Error Descriptions := do
  return { version := ← required tag "descriptions" "version" }

/-- Reads a section. One with content needs descriptions to add to. -/
def readSection (d : Option Descriptions) (tag : Tag) (isEmpty : Bool) (children : List Node) :
    Except Error (Option Descriptions) :=
  match d, isEmpty, sectionReader? tag.name with
  -- the missing descriptions are the fault, whatever the section is
  | none, false, _ => .error .noDescriptions
  | _, _, none => .error (.unknownElement tag.name "descriptions")
  | d, true, some _ => .ok d
  | some d, false, some read => some <$> foldElements children d read

mutual
def readNode (d : Option Descriptions) : Node → Except Error (Option Descriptions)
  | .failed e => .error (.markup e)
  | .element tag isEmpty children =>
    if tag.name = "descriptions" then do
      let root ← readRoot tag
      readNodes (some root) children
    else readSection d tag isEmpty children

def readNodes (d : Option Descriptions) : List Node → Except Error (Option Descriptions)
  | [] => .ok d
  | node :: nodes => do
    let d ← readNode d node
    readNodes d nodes
end

def ofNodes (nodes : List Node) : Except Error Descriptions := do
  match ← readNodes none nodes with
  | some d => return d
  | none => throw .noDescriptions

def load (text : String) : Except Error Descriptions := ofNodes (Markup.nodes text)

end EntityGen.Document
