import EntityGen.Emit.EntityFile
import EntityGen.Emit.PayloadFile

/-!
# Files of test factories

A factory makes an entity with a default for every argument. Values with
members get one by filling in their members, down to a fixed depth.
-/

namespace EntityGen.Emit

open Code
open Schema (Descriptions Entity Member Scalar Subtype)

/-- Values nested deeper than this have no default. -/
def maxNesting : Nat := 8

def emptySequence : Expr :=
  TypeName.construct { name := "AnySequence" } [.unlabelled (.array [])]

def sampleIdentifier (e : Entity) : Expr :=
  (identifierType e).construct <|
    match e.identifier.value? with
    | some .int => [remoteValue (.int 42)]
    | some .string => [remoteValue (.string "42")]
    | none => []

/-- The sample of a floating scalar, the float nearest to 4.2. -/
def sampleFloat : Float := Decimal.nearest false 42 10

/-- A sample of a scalar; that of a string is the property's name. -/
def sampleScalar (scalar : Scalar) (name : String) : Expr :=
  match scalar with
  | .string => .string name
  | .int => .int 42
  | .date => TypeName.date.construct [.labelled "timeIntervalSince1970" (.int 1000)]
  | .double | .float | .seconds | .milliseconds => .float sampleFloat
  | .bool => .bool false
  | .url => urlValue "https://github.com"
  | .color => colorValue "#000000"

def sampleMember (d : Descriptions) (s : Subtype) (nested : Subtype → Except Error Expr)
    (m : Member) : Except Error Argument := do
  -- refuses a member of an unknown subtype even if no value of it is made
  let _ ← memberType d s m
  let value ←
    if m.isOptional then pure Expr.absent
    else if m.isArray then pure emptySequence
    else
      match m.type with
      | .scalar scalar => pure (sampleScalar scalar m.name)
      | .subtype name => do nested (← d.subtype name (s.name ++ "." ++ m.name))
  return .labelled (memberName m.name) value

/-- A sample of a subtype whose values may nest `depth` deep. -/
def sampleSubtype (d : Descriptions) (depth : Nat) (s : Subtype) : Except Error Expr :=
  match s.items with
  | .cases _ => firstUsedCase s
  | .options _ => .ok (.array [])
  | .members members =>
    match depth with
    | 0 => .error (.shape s.name .endlessNesting)
    | depth + 1 => do
      let arguments ← members.mapM (sampleMember d s (sampleSubtype d depth))
      return (subtypeType s.name).construct arguments

def sampleProperty (d : Descriptions) (e : Entity) (p : Schema.Property) : Except Error Expr := do
  if p.isLazy then return .dot "unrequested"
  match presentDefault? p with
  | some default => return default
  | none =>
    if p.isOptional then return .absent
    if p.isCollection then return emptySequence
    match p.type with
    | .scalar scalar => return sampleScalar scalar p.name
    | .subtype name =>
      let subtype ← d.subtype name (e.name ++ "." ++ p.name)
      sampleSubtype d maxNesting subtype
    | .relationship r => return sampleIdentifier (← d.relationshipTarget e p.name r)

def factoryParameter (d : Descriptions) (e : Entity) (p : Schema.Property) :
    Except Error Parameter := do
  let type ← propertyType d e p
  return { name := memberName p.name, type, default := some (← sampleProperty d e p) }

def factoryParameters (d : Descriptions) (e : Entity) : Except Error (List Parameter) := do
  let parameters ← e.storedProperties.mapM (factoryParameter d e)
  return if e.hasVoidIdentifier then parameters
    else { name := "identifier", type := identifierType e
           default := some (sampleIdentifier e) } :: parameters

def makeFunction (e : Entity) (parameters : List Parameter) : Function :=
  let type := entityType e.name
  let arguments := initializerArguments e (.name "identifier") fun p => .name (memberName p.name)
  { kind := .named "make", access := .publicAccess, isStatic := true, parameters
    result := some type
    body := [.returning (type.construct arguments)] }

def factoryFile (d : Descriptions) (moduleName : String) (e : Entity) :
    Except Error SourceFile := do
  let name := Text.pascalCase e.name ++ "Factory"
  let make := makeFunction e (← factoryParameters d e)
  let factory : TypeDecl :=
    { name := { name }, kind := .enumType false, access := .publicAccess, body := [.function make] }
  return ((emittedFile name).importingForTests [moduleName]).adding [.type factory]

def factoryFiles (d : Descriptions) (moduleName : String) : Except Error (List SourceFile) :=
  d.entities.mapM (factoryFile d moduleName)

end EntityGen.Emit
