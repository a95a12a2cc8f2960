import EntityGen.Emit.EntityFile

/-!
# Files of identifiers

Every entity with identity has an identifier class. Identifiers convert into
each other where an entity declares another one as equivalent or as part of
its own identifier; conversions go one step and both ways.
-/

namespace EntityGen.Emit

open Code
open Schema (Descriptions Entity IdentifierValue)

def valueBoxType (value : IdentifierValue) : TypeName :=
  { name := "IdentifierValueType", parameters := [.string, identifierValueType value] }

def identifierInitializer (type valueType : TypeName) : Function :=
  { kind := .initializer false false, access := .publicAccess
    parameters :=
      [{ name := "value", type := valueType },
       { name := "identifierTypeID", type := TypeName.string.optional, default := some .nil }]
    body :=
      [.assign (.name "property") (TypeName.construct { name := "PropertyBox" }
         [.unlabelled (.name "value"), .labelled "atomic" (.bool false)]),
       .assignOwn "identifierTypeID" ((Expr.name "identifierTypeID").orElse
         (.member (.type type) "entityTypeUID"))] }

def identifierKeys : TypeDecl :=
  keysEnum "Keys" [{ name := "value" }, { name := "identifierTypeID" }]

def decodeConstant (name : String) (type : TypeName) : Item :=
  .constant name (.tryThrowing (decodeFrom "container" "decode" type (some name)))

def identifierArguments (value typeID : Expr) : List Argument :=
  [.labelled "value" value, .labelled "identifierTypeID" typeID]

def identifierDecoding (valueType : TypeName) : Function :=
  { decodingInitializer .publicAccess
      [keyedDecoding, decodeConstant "value" valueType, decodeConstant "identifierTypeID" .string,
       .expr (Expr.selfRef.method "init"
         (identifierArguments (.name "value") (.name "identifierTypeID")))] with
    kind := .initializer true false }

def identifierEncoding : Function :=
  encodingFunction
    [keyedEncoding,
     encodeValue "encode" (.member (.name "property") "value") (some "value"),
     encodeValue "encode" (.name "identifierTypeID") (some "identifierTypeID")]

def identifierUpdate (type : TypeName) : Function :=
  { kind := .named "update", access := .publicAccess
    parameters := [{ label := some "with", name := "identifier", type }]
    body := [.expr ((Expr.member (.name "property") "value").method "merge"
      [.labelled "with" (.member (.name "identifier") "value")])] }

def comparison (symbol : String) (type : TypeName) (result : Expr) : Function :=
  { Function.operator symbol with
    access := .publicAccess
    parameters := [{ name := "lhs", type }, { name := "rhs", type }]
    result := some .bool
    body := [.returning result] }

def ofLeft (name : String) : Expr := .member (.name "lhs") name
def ofRight (name : String) : Expr := .member (.name "rhs") name

def identifierEquality (type : TypeName) : Function :=
  comparison "==" type
    (((ofLeft "value").equals (ofRight "value")).and
      ((ofLeft "identifierTypeID").equals (ofRight "identifierTypeID")))

def identifierOrder (type : TypeName) : Function :=
  comparison "<" type (.infixed (ofLeft "value") .less (ofRight "value"))

def combineIntoHash (name : String) : Item :=
  .expr ((Expr.name "hasher").method "combine" [.unlabelled (.name name)])

def identifierHash : Function :=
  { kind := .named "hash", access := .publicAccess
    parameters :=
      [{ label := some "into", name := "hasher", type := { name := "Hasher" }, isInOut := true }]
    body := [combineIntoHash "value", combineIntoHash "identifierTypeID"] }

def identifierProtocols (e : Entity) : List TypeName :=
  [{ name := "Codable" }, { name := "Hashable" }, { name := "Comparable" }]
    ++ (if e.isPersisted then [{ name := "CoreDataIdentifier" }] else [])
    ++ (if e.isRemote then [{ name := "RemoteIdentifier" }] else [])

def identifierProperties (e : Entity) (valueType : TypeName) : List Item :=
  [.property
    { var := { name := "entityTypeUID", isStatic := true }, access := .publicAccess
      value := some (.string e.name) },
   constantProperty "identifierTypeID" .string,
   .property
    { var := { name := "property"
               type := some { name := "PropertyBox", parameters := [valueType] } } },
   .property (Property.withBody
    { var := { name := "value", type := some valueType }, access := .publicAccess }
    [.returning (.member (.name "property") "value")])]

def identifierClass (e : Entity) (value : IdentifierValue) : TypeDecl :=
  let type := identifierTypeNamed e.name
  let valueType := valueBoxType value
  { name := type, kind := .classType true, access := .publicAccess
    inherited := identifierProtocols e
    body := Item.grouped
      [[publicAlias "LocalValueType" .string,
        publicAlias "RemoteValueType" (identifierValueType value)],
       identifierProperties e valueType,
       [.function (identifierInitializer type valueType)],
       [.type identifierKeys],
       [.function (identifierDecoding valueType)],
       [.function identifierEncoding],
       [.function (identifierUpdate type)],
       [.function (identifierEquality type)],
       [.function identifierHash],
       [.function (identifierOrder type)]] }

def identifierFile (e : Entity) : Except Error SourceFile :=
  match e.identifier.value? with
  | none => .error (.shape e.name .voidIdentifier)
  | some value =>
    .ok ((emittedFile (identifierTypeNamed e.name).name).adding [.type (identifierClass e value)])

/-! ## Conversions -/

/-- The target and the source of a conversion, by entity name. -/
structure Conversion where
  target : String
  source : String
  deriving DecidableEq, Repr

/-- By target, then by source, both by code points. -/
def Conversion.order (a b : Conversion) : Ordering :=
  (compare a.target b.target).then (compare a.source b.source)

/-- The entities whose identifiers an entity's identifier converts to and from. -/
def relatedEntities (d : Descriptions) (e : Entity) : Except Error (List Entity) := do
  let equivalent ← d.equivalentEntity e
  let contributors ← d.identifierContributors e
  return equivalent.toList ++ contributors

def checkConversion (e other : Entity) : Except Error Unit :=
  if e.hasVoidIdentifier then .error (.shape e.name (.voidConversion other.name))
  else if other.hasVoidIdentifier then .error (.shape other.name (.voidConversion e.name))
  else .ok ()

/-- Both directions between two entities, none between an entity and itself. -/
def conversionsBetween (e other : Entity) : List Conversion :=
  if other.name = e.name then []
  else [{ target := e.name, source := other.name }, { target := other.name, source := e.name }]

def conversionsOf (d : Descriptions) (e : Entity) : Except Error (List Conversion) := do
  let related ← relatedEntities d e
  related.forM (checkConversion e)
  return related.flatMap (conversionsBetween e)

def conversions (d : Descriptions) : Except Error (List Conversion) := do
  let all ← d.entities.mapM (conversionsOf d)
  return all.flatten.eraseDups.mergeSort fun a b => (Conversion.order a b).isLE

def conversionExtension (d : Descriptions) (c : Conversion) : Except Error Extension := do
  let target ← d.entity c.target c.source
  let source ← d.entity c.source c.target
  let value := Expr.member (.name "identifier") "value"
  let converted :=
    if target.identifier.value? = source.identifier.value? then value
    else value.method "converted" []
  return {
    name := identifierTypeNamed c.target
    body := [.function
      { kind := .initializer true false
        parameters :=
          [{ label := some "_", name := "identifier", type := identifierTypeNamed c.source }]
        body := [.expr (Expr.selfRef.method "init"
          (identifierArguments converted (.member (.name "identifier") "identifierTypeID")))] }] }

def conversionsFile (d : Descriptions) : Except Error (Option SourceFile) := do
  let conversions ← conversions d
  if conversions.isEmpty then return none
  let extensions ← conversions.mapM (conversionExtension d)
  return some ((emittedFile "IdentifierConversions").addingSeparated
    (extensions.map .extension))

def identifierFiles (d : Descriptions) : Except Error (List SourceFile) := do
  let files ← (d.entities.filter fun e => !e.hasVoidIdentifier).mapM identifierFile
  let conversions ← conversionsFile d
  return files ++ conversions.toList

end EntityGen.Emit
