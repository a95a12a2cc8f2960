import EntityGen.Emit.EntityFile

/-!
# Files of payloads

A remote entity has a payload that is decoded from responses. An embedded
relationship is decoded as the payload of its target, which must be remote.
-/

namespace EntityGen.Emit

open Code
open Schema (Descriptions Entity IdentifierValue)

def fieldElementType (d : Descriptions) (e : Entity) (p : Schema.Property) :
    Except Error TypeName := do
  match p.relationship? with
  | some r =>
    if r.idOnly then elementType d e p
    else
      let target ← d.relationshipTarget e p.name r
      if target.isRemote then return payloadType target.name
      else throw (.shape (e.name ++ "." ++ p.name) (.noRemotePayload target.name))
  | none => elementType d e p

/-- The decoded type of a property, without `Lazy`. -/
def fieldType (d : Descriptions) (e : Entity) (p : Schema.Property) : Except Error TypeName := do
  return (sequenceIf p.isCollection (← fieldElementType d e p)).optionalIf p.isOptional

/-- Decodes a property. A default stands in for an absent key, and without one
an optional value may be absent. -/
def decodeField (p : Schema.Property) (type : TypeName) : Expr :=
  let decode (method : String) (type : TypeName) :=
    decodeFrom "container" method type (some (memberName p.name))
  .tryThrowing <|
    if p.isLazy then decode "decodeLazy" type
    else
      match presentDefault? p with
      | some default => (decode "decodeIfPresent" type.unwrapped).orElse default
      | none =>
        if p.isOptional then decode "decodeIfPresent" type.unwrapped else decode "decode" type

def remoteValue (value : Expr) : Argument :=
  .labelled "value" (.call (.dot "remote") [.unlabelled value, .unlabelled .nil])

def decodeIdentifier (e : Entity) (value : IdentifierValue) : Item :=
  let decoded := decodeFrom "container" "decode" (identifierValueType value) (some "identifier")
  .assign (.name "identifier")
    (.tryThrowing ((identifierType e).construct [remoteValue decoded]))

structure PayloadField where
  name : String
  type : TypeName
  key : String
  decoding : Item

def identifierField? (e : Entity) : Option PayloadField :=
  e.identifier.value?.map fun value =>
    { name := "identifier", type := identifierType e, key := e.identifier.key
      decoding := decodeIdentifier e value }

def payloadField (d : Descriptions) (e : Entity) (p : Schema.Property) :
    Except Error PayloadField := do
  let type ← fieldType d e p
  let name := memberName p.name
  return { name, type := if p.isLazy then .lazy type else type, key := p.key
           decoding := .assign (.name name) (decodeField p type) }

def payloadFields (d : Descriptions) (e : Entity) : Except Error (List PayloadField) := do
  return (identifierField? e).toList ++ (← e.storedProperties.mapM (payloadField d e))

def payloadStruct (d : Descriptions) (e : Entity) : Except Error TypeDecl := do
  let fields ← payloadFields d e
  return {
    name := payloadType e.name, kind := .structType, access := .publicAccess
    inherited := [{ name := "Decodable" }]
    body := Item.grouped
      [fields.map fun f => constantProperty f.name f.type,
       [.type (codingKeys (fields.map fun f => (f.name, f.key)))],
       [.function (decodingInitializer .publicAccess
         (keyedDecoding :: fields.map (·.decoding)))]] }

def payloadFile (d : Descriptions) (e : Entity) : Except Error SourceFile := do
  return (emittedFile (payloadType e.name).name).adding [.type (← payloadStruct d e)]

def payloadFiles (d : Descriptions) : Except Error (List SourceFile) :=
  (d.entities.filter (·.isRemote)).mapM (payloadFile d)

end EntityGen.Emit
