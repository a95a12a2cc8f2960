import EntityGen.Document.Reading
import EntityGen.Schema.Endpoint
import EntityGen.Text.Parts

/-!
# Reading endpoints
-/

namespace EntityGen.Document

open Markup (Tag Node)
open Schema (Endpoint EndpointPayload PayloadStructure)

/-- The keys of a path between dots. Empty ones count for nothing. -/
def readKeyPath (text : String) : List String :=
  (Text.parts '.' text).filter (· ≠ "")

def readPayload (element : String) (tag : Tag) : Except Error EndpointPayload := do
  let layout ← foldAttributes tag .single fun layout name value =>
    match name with
    | "structure" => accepted element "structure" value (PayloadStructure.ofName? value)
    | _ => .ok layout
  return { entityName := ← required tag element "entity"
           entityKey := tag.attributes.lookup "entityKey"
           layout
           baseKey := readKeyPath ((tag.attributes.lookup "baseKey").getD "") }

/-- Reads a part of an endpoint. A later payload takes the place of an earlier one. -/
def readEndpointPart (e : Endpoint) (tag : Tag) (children : List Node) : Except Error Endpoint := do
  let e ← match tag.name with
    | "read" => do pure { e with read := some (← readPayload "read" tag) }
    | "write" => do pure { e with write := some (← readPayload "write" tag) }
    | other => throw (.unknownElement other "endpoint")
  ignore children
  return e

def readEndpoint (tag : Tag) (children : List Node) : Except Error Endpoint := do
  let name ← required tag "endpoint" "name"
  foldElements children { name } readEndpointPart

end EntityGen.Document
