import EntityGen.Emit.SubtypeFile
import EntityGen.Schema.Endpoint

/-!
# Files of endpoints

Each payload of an endpoint is decoded from its place in the response. A
place has at most two keys, or is a list whose elements hold an entity each.
-/

namespace EntityGen.Emit

open Code
open Schema (Descriptions Endpoint EndpointPayload)

inductive PayloadSide where
  | read
  | write
  deriving DecidableEq, Repr

def PayloadSide.word : PayloadSide → String
  | .read => "Read"
  | .write => "Write"

def PayloadSide.field : PayloadSide → String
  | .read => "read"
  | .write => "write"

/-- The place of a payload in a response. -/
inductive PayloadPlace where
  | root
  | keyed (key : String)
  | nested (outer inner : String)
  | list (listKey : Option String) (entityKey : String)
  deriving DecidableEq, Repr

def dotted (keys : List String) : String := ".".intercalate keys

def listPlace (endpointName : String) (baseKey : List String) (entityKey : Option String) :
    Except Error PayloadPlace :=
  match entityKey, baseKey with
  | none, keys => .error (.unsupportedPayload endpointName (dotted keys))
  | some entityKey, [] => .ok (.list none entityKey)
  | some entityKey, [key] => .ok (.list (some key) entityKey)
  | some entityKey, keys =>
    .error (.unsupportedPayload endpointName (dotted keys ++ "." ++ entityKey))

def payloadPlace (endpointName : String) (p : EndpointPayload) : Except Error PayloadPlace :=
  match p.layout with
  | .nestedArray => listPlace endpointName p.baseKey p.entityKey
  | _ =>
    match p.keyPath with
    | [] => .ok .root
    | [key] => .ok (.keyed key)
    | [outer, inner] => .ok (.nested outer inner)
    | path => .error (.unsupportedPayload endpointName (dotted path))

def endpointPayloadType (endpointName : String) (side : PayloadSide) : TypeName :=
  { name := Text.pascalCase endpointName ++ "Endpoint" ++ side.word ++ "Payload" }

/-! ## Decoding -/

def entityContainerType : TypeName := { name := "EntityContainer" }

def decodeRequired (container : String) (type : TypeName) (key : Option String) : Expr :=
  .tryThrowing (decodeFrom container "decode" type key)

/-- An element of a list, which holds an entity under a key. -/
def entityContainer (element : TypeName) (entityKey : String) : TypeDecl :=
  { name := entityContainerType, kind := .structType, access := .privateAccess
    inherited := [{ name := "Decodable" }]
    body := Item.grouped
      [[.property { var := { name := "entity", type := some element } }],
       [.type (singleKeyEnum "Keys" "entity" entityKey)],
       [.function (decodingInitializer .unspecified
         [keyedDecoding,
          .assign (.name "entity") (decodeRequired "container" element (some "entity"))])]] }

def placeTypes (element : TypeName) : PayloadPlace → List TypeDecl
  | .root => []
  | .keyed key => [singleKeyEnum "Keys" "payload" key]
  | .nested outer inner =>
    [singleKeyEnum "Keys" "base" outer, singleKeyEnum "NestedKeys" "payload" inner]
  | .list listKey entityKey =>
    entityContainer element entityKey :: listKey.toList.map (singleKeyEnum "Keys" "payload")

def listedEntities : Expr :=
  .member ((Expr.member (.name "containers") "lazy").method "map"
    [.unlabelled (.closure [] [.expr (.member (.name "$0") "entity")])]) "any"

def placeDecoding (field : Expr) (type : TypeName) : PayloadPlace → List Item
  | .root => [valueDecoding, .assign field (decodeRequired "container" type none)]
  | .keyed _ => [keyedDecoding, .assign field (decodeRequired "container" type (some "payload"))]
  | .nested _ _ =>
    [keyedDecoding,
     .constant "nested" (.tryThrowing ((Expr.name "container").method "nestedContainer"
       [keyedBy "NestedKeys", forKey "base"])),
     .assign field (decodeRequired "nested" type (some "payload"))]
  | .list listKey _ =>
    [if listKey.isSome then keyedDecoding else valueDecoding,
     .constant "containers" (decodeRequired "container" entityContainerType.array
       (listKey.map fun _ => "payload")),
     .assign field listedEntities]

/-! ## Files -/

def endpointPayload (d : Descriptions) (endpoint : Endpoint) (p : EndpointPayload)
    (side : PayloadSide) : Except Error TypeDecl := do
  let entity ← d.entity p.entityName (endpoint.name ++ "." ++ side.field)
  let place ← payloadPlace endpoint.name p
  let element := payloadType entity.name
  let (field, type) :=
    if p.layout = .single then ("entity", element) else ("entities", .anySequence element)
  return {
    name := endpointPayloadType endpoint.name side, kind := .structType, access := .publicAccess
    inherited := [{ name := "Decodable" }]
    body := Item.grouped
      ([[constantProperty field type]]
        ++ (placeTypes element place).map (fun t => [.type t])
        ++ [[.function (decodingInitializer .publicAccess
          (placeDecoding (.name field) type place))]]) }

def endpointSide (d : Descriptions) (endpoint : Endpoint) (side : PayloadSide) :
    Option EndpointPayload → Except Error (List Item)
  | none => .ok []
  | some p => do return [.type (← endpointPayload d endpoint p side)]

def endpointFile (d : Descriptions) (endpoint : Endpoint) : Except Error SourceFile := do
  let read ← endpointSide d endpoint .read endpoint.read
  let write ← endpointSide d endpoint .write endpoint.write
  return (emittedFile (Text.pascalCase endpoint.name ++ "EndpointPayloads")).addingSeparated
    (read ++ write)

/-- A file for each endpoint with a payload. -/
def endpointFiles (d : Descriptions) : Except Error (List SourceFile) :=
  (d.endpoints.filter fun e => !e.payloads.isEmpty).mapM (endpointFile d)

end EntityGen.Emit
