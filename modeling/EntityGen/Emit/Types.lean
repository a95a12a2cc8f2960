import EntityGen.Code.Build
import EntityGen.Emit.Error
import EntityGen.Schema.Descriptions
import EntityGen.Text.NameCase

/-!
# Types and values of emitted code

How the names, types and defaults of a description appear in emitted code.
-/

namespace EntityGen.Emit

open Code (Expr TypeName)
open Schema (DefaultValue Descriptions Entity IdentifierValue PropertyType Scalar Subtype)

/-! ## Names -/

def memberName (name : String) : String := Text.camelCase name

def entityType (name : String) : TypeName := { name := Text.pascalCase name }

def identifierTypeNamed (entityName : String) : TypeName :=
  { name := Text.pascalCase entityName ++ "Identifier" }

/-- Entities without identity share one identifier type. -/
def identifierType (e : Entity) : TypeName :=
  if e.hasVoidIdentifier then { name := "VoidEntityIdentifier" } else identifierTypeNamed e.name

def payloadType (entityName : String) : TypeName :=
  { name := "Default" ++ Text.pascalCase entityName ++ "Payload" }

def managedType (entityName : String) : TypeName :=
  { name := "Managed" ++ Text.pascalCase entityName }

def indexNameType (entityName : String) : TypeName :=
  { name := Text.pascalCase entityName ++ "IndexName" }

def subtypeType (subtypeName : String) : TypeName := { name := Text.pascalCase subtypeName }

/-! ## Types -/

def colorType : TypeName := { name := "Color" }

def scalarType : Scalar → TypeName
  | .string => .string
  | .int => .int
  | .date => .date
  | .double => .double
  | .float => .float
  | .bool => .bool
  | .url => .url
  | .color => colorType
  | .seconds => { name := "Seconds" }
  | .milliseconds => { name := "Milliseconds" }

def identifierValueType : IdentifierValue → TypeName
  | .int => .int
  | .string => .string

def elementType (d : Descriptions) (e : Entity) (p : Schema.Property) : Except Error TypeName := do
  match p.type with
  | .scalar scalar => return scalarType scalar
  | .subtype name => return subtypeType (← d.subtype name (e.name ++ "." ++ p.name)).name
  | .relationship r => return identifierType (← d.relationshipTarget e p.name r)

def sequenceIf (condition : Bool) (element : TypeName) : TypeName :=
  if condition then .anySequence element else element

/-- The type of a property's value where it is present. -/
def valueType (d : Descriptions) (e : Entity) (p : Schema.Property) : Except Error TypeName :=
  sequenceIf p.isCollection <$> elementType d e p

def propertyType (d : Descriptions) (e : Entity) (p : Schema.Property) : Except Error TypeName := do
  let value := (← valueType d e p).optionalIf p.isOptional
  return if p.isLazy then .lazy value else value

def memberType (d : Descriptions) (s : Subtype) (m : Schema.Member) : Except Error TypeName := do
  let element ← match m.type with
    | .scalar scalar => pure (scalarType scalar)
    | .subtype name => do
      let nested ← d.subtype name (s.name ++ "." ++ m.name)
      pure (subtypeType nested.name)
  return (sequenceIf m.isArray element).optionalIf m.isOptional

/-! ## Values -/

def urlValue (text : String) : Expr :=
  .forceUnwrap (TypeName.url.construct [.labelled "string" (.string text)])

def colorValue (text : String) : Expr :=
  colorType.construct [.labelled "hex" (.string text)]

def scalarOf? : PropertyType → Option Scalar
  | .scalar scalar => some scalar
  | _ => none

def floatOfInt (n : Int) : Float := Decimal.nearest (n < 0) n.natAbs 1

def defaultValue (default : DefaultValue) (type : PropertyType) : Expr :=
  match default with
  | .nil => .absent
  | .bool value => .bool value
  | .int value =>
    if (scalarOf? type).any Scalar.isFloatingPoint then .float (floatOfInt value) else .int value
  | .float value => .float value
  | .string value =>
    match scalarOf? type with
    | some .url => urlValue value
    | some .color => colorValue value
    | _ => .string value
  | .currentDate => TypeName.date.construct []
  | .enumCase name => .dot (memberName name)

def propertyDefault? (p : Schema.Property) : Option Expr :=
  p.default.map fun default => defaultValue default p.type

/-- The default of a property unless it is the absent value. -/
def presentDefault? (p : Schema.Property) : Option Expr :=
  (propertyDefault? p).filter fun value => !value.isAbsent

def firstUsedCase (s : Subtype) : Except Error Expr :=
  if s.isEnum then
    match s.usedCases with
    | case :: _ => .ok (.dot (memberName case.name))
    | [] => .error (.shape s.name .noUsedCase)
  else .error (.shape s.name .notAnEnum)

def isToMany (p : Schema.Property) : Bool :=
  p.relationship?.any fun r => r.association = .toMany

end EntityGen.Emit
