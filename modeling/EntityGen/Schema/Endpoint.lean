/-!
# Endpoints
-/

namespace EntityGen.Schema

inductive PayloadStructure where
  | single
  | array
  | nestedArray
  deriving DecidableEq, Repr

namespace PayloadStructure

def name : PayloadStructure → String
  | .single => "single"
  | .array => "array"
  | .nestedArray => "nested_array"

def ofName? : String → Option PayloadStructure
  | "single" => some .single
  | "array" => some .array
  | "nested_array" => some .nestedArray
  | _ => none

end PayloadStructure

/-- A payload holds an entity below the keys of `baseKey`, each under its own
`entityKey` if one is given. -/
structure EndpointPayload where
  entityName : String
  entityKey : Option String := none
  layout : PayloadStructure := .single
  baseKey : List String := []
  deriving DecidableEq, Repr

/-- The keys down to the payload. In a nested array the entity key lies inside. -/
def EndpointPayload.keyPath (p : EndpointPayload) : List String :=
  p.baseKey ++ if p.layout = .nestedArray then [] else p.entityKey.toList

structure Endpoint where
  name : String
  read : Option EndpointPayload := none
  write : Option EndpointPayload := none
  deriving DecidableEq, Repr

def Endpoint.payloads (e : Endpoint) : List EndpointPayload :=
  e.read.toList ++ e.write.toList

end EntityGen.Schema
