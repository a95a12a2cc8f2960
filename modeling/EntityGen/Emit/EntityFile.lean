import EntityGen.Emit.SubtypeFile

/-!
# Files of entities

An entity is a class with its members, an initializer from its payload if it
is remote, equality, indexed access to its properties if it has any, and
merging if some are lazy.
-/

namespace EntityGen.Emit

open Code
open Schema (Association Descriptions Entity PropertyType Relationship)

/-- The stored members with their types, the identifier first unless it is void. -/
def storedMembers (d : Descriptions) (e : Entity) : Except Error (List (String × TypeName)) := do
  let properties ← e.storedProperties.mapM fun p => do
    return (memberName p.name, ← propertyType d e p)
  return if e.hasVoidIdentifier then properties
    else ("identifier", identifierType e) :: properties

/-- The arguments of an entity's initializer: the identifier unless it is void,
then a value for each stored property. -/
def initializerArguments (e : Entity) (identifier : Expr) (value : Schema.Property → Expr) :
    List Argument :=
  (if e.hasVoidIdentifier then [] else [.labelled "identifier" identifier])
    ++ e.storedProperties.map fun p => .labelled (memberName p.name) (value p)

/-! ## Class -/

def publicAlias (name : String) (value : TypeName) : Item :=
  .typeAlias { name := { name }, value, access := .publicAccess }

/-- A void identifier is made anew whenever it is asked for. -/
def voidIdentifierProperty (e : Entity) : Item :=
  let type := identifierType e
  .property (Property.withBody
    { var := { name := "identifier", type := some type }, access := .publicAccess }
    [.returning (type.construct [])])

def entityClass (d : Descriptions) (e : Entity) : Except Error TypeDecl := do
  let members ← storedMembers d e
  let indexName : TypeName :=
    if e.properties.isEmpty then { name := "VoidIndexName" } else indexNameType e.name
  return {
    name := entityType e.name, kind := .classType true, access := .publicAccess
    inherited := [{ name := "Entity" }]
    body := Item.grouped
      [[publicAlias "Identifier" (identifierType e), publicAlias "IndexName" indexName],
       (if e.hasVoidIdentifier then [voidIdentifierProperty e] else [])
         ++ members.map fun (name, type) => constantProperty name type,
       [.function (memberwiseInitializer members)]] }

/-! ## Payload -/

def embeddedIdentifiers (association : Association) (base : Expr) : Expr :=
  match association with
  | .toOne => .member base "identifier"
  | .toMany =>
    .member ((Expr.member base "lazy").method "map"
      [.unlabelled (.closure [] [.expr (.member (.name "$0") "identifier")])]) "any"

/-- The value of a property from the field of a payload. An embedded payload
is reduced to its identifier, inside of `Lazy` if the property is lazy. -/
def payloadValue (p : Schema.Property) (field : Expr) : Expr :=
  match p.relationship? with
  | none => field
  | some r =>
    if r.idOnly then field
    else
      let project (base : Expr) := embeddedIdentifiers r.association (base.optionalIf p.isOptional)
      if p.isLazy then
        (Expr.member field "map").callClosure ["value"] [.expr (project (.name "value"))]
      else project field

def payloadInitializer (e : Entity) : Extension :=
  let payload := Expr.name "payload"
  let arguments := initializerArguments e (.member payload "identifier") fun p =>
    payloadValue p (.member payload (memberName p.name))
  { name := entityType e.name
    body := [.function
      { kind := .initializer true false
        parameters := [{ name := "payload", type := payloadType e.name }]
        body := [.expr (Expr.selfRef.method "init" arguments)] }] }

/-! ## Equality -/

def equalityCheck (p : Schema.Property) : Item :=
  let name := memberName p.name
  .guard [.test ((Expr.member (.name "lhs") name).equals (.member (.name "rhs") name))]
    [.returning (.bool false)]

def equatable (e : Entity) : Extension :=
  let type := entityType e.name
  { name := type, inherited := [{ name := "Equatable" }]
    body := [.function
      { Function.operator "==" with
        access := .publicAccess
        parameters := [{ name := "lhs", type }, { name := "rhs", type }]
        result := some .bool
        body := e.equalityProperties.map equalityCheck ++ [.returning (.bool true)] }] }

/-! ## Index -/

def indexNameEnum (e : Entity) : TypeDecl :=
  { name := indexNameType e.name, kind := .enumType false, access := .publicAccess
    body := e.storedProperties.map fun p => .enumCase { name := memberName p.name } }

def wrapped (case : String) (value : Expr) : Expr :=
  .call (.dot case) [.unlabelled value]

def elementIndexValue (d : Descriptions) (e : Entity) (p : Schema.Property) (value : Expr) :
    Except Error Expr := do
  match p.type with
  | .scalar scalar => return wrapped scalar.name value
  | .subtype name =>
    let subtype ← d.subtype name (e.name ++ "." ++ p.name)
    return wrapped "subtype" (wrapped (memberName subtype.name) value)
  | .relationship r =>
    let target ← d.relationshipTarget e p.name r
    return wrapped "relationship" (wrapped (memberName target.name) value)

def collectionIndexValue (d : Descriptions) (e : Entity) (p : Schema.Property) (value : Expr) :
    Except Error Expr := do
  if p.isCollection then
    let element ← elementIndexValue d e p (.name "$0")
    let mapped := (Expr.member (.member value "lazy") "map").callClosure [] [.expr element]
    return wrapped "array" (.member mapped "any")
  else elementIndexValue d e p value

/-- The index value of a property. Optional and lazy values are mapped in
their wrapper. -/
def indexValue (d : Descriptions) (e : Entity) (p : Schema.Property) (value : Expr) :
    Except Error Expr := do
  let projected ← collectionIndexValue d e p (.name "value")
  let mapped (inner : Expr) : Expr :=
    wrapped "optional" ((Expr.member inner "map").callClosure ["value"] [.expr projected])
  if p.isLazy then
    let inner := value.method "value" []
    return mapped (if p.isOptional then
      (Expr.member inner "flatMap").callClosure [] [.expr (.name "$0")] else inner)
  else if p.isOptional then return mapped value
  else collectionIndexValue d e p value

def indexValueCase (d : Descriptions) (e : Entity) (p : Schema.Property) :
    Except Error SwitchCase := do
  let name := memberName p.name
  return { pattern := .tag name, body := [.returning (← indexValue d e p (.name name))] }

def indexValueAccessor (d : Descriptions) (e : Entity) : Except Error Extension := do
  let cases ← e.storedProperties.mapM (indexValueCase d e)
  return {
    name := entityType e.name
    body := [.function
      { kind := .named "entityIndexValue", access := .publicAccess
        parameters := [{ label := some "for", name := "indexName", type := indexNameType e.name }]
        result := some { name := "EntityIndexValue" }
        body := [.switch (.name "indexName") cases] }] }

/-! ## Merging -/

/-- The value of a property after an update: lazy values are merged, others replaced. -/
def mergedValue (p : Schema.Property) : Expr :=
  let name := memberName p.name
  let updated := Expr.member (.name "updated") name
  if p.isLazy then (Expr.name name).method "merging" [.labelled "with" updated] else updated

def merging (e : Entity) : Extension :=
  let type := entityType e.name
  { name := type
    body := [.function
      { kind := .named "merging"
        parameters := [{ label := some "_", name := "updated", type }]
        result := some type
        body := [.returning (type.construct
          (initializerArguments e (.member (.name "updated") "identifier") mergedValue))] }] }

/-! ## Files -/

def entityItems (d : Descriptions) (e : Entity) : Except Error (List Item) := do
  let declaration ← entityClass d e
  let index ← if e.properties.isEmpty then pure [] else do
    pure [Item.type (indexNameEnum e), .extension (← indexValueAccessor d e)]
  return [.type declaration]
    ++ (if e.isRemote then [.extension (payloadInitializer e)] else [])
    ++ [.extension (equatable e)] ++ index
    ++ (if e.hasLazyProperties then [.extension (merging e)] else [])

def entityFile (d : Descriptions) (e : Entity) : Except Error SourceFile := do
  return (emittedFile (Text.pascalCase e.name)).addingSeparated (← entityItems d e)

def entityFiles (d : Descriptions) : Except Error (List SourceFile) :=
  d.entities.mapM (entityFile d)

end EntityGen.Emit
