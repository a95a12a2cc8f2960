import EntityGen.Emit.Settings
import EntityGen.Emit.Types

/-!
# Fields of persisted records

How a property is kept in a record: under which attribute, how encoded, and
what stands in where nothing usable is stored. Writing and reading go through
the same attributes and the same encoding.
-/

namespace EntityGen.Emit

open Code
open Schema (Descriptions Entity)

/-- A value is an attribute of its own or encoded as data. -/
inductive FieldStorage where
  | direct
  | blob
  deriving DecidableEq, Repr

structure RecordField where
  key : String
  /-- The attribute that tells whether a lazy value was requested. -/
  flagKey : Option String
  storage : FieldStorage
  isOptional : Bool
  /-- The type of the value without its wrappers. -/
  valueType : TypeName
  fallback : Option Expr
  logsError : Bool

/-- Collections and values with members are encoded as data. -/
def fieldStorage (d : Descriptions) (e : Entity) (p : Schema.Property) :
    Except Error FieldStorage := do
  if p.isCollection then return .blob
  match p.type with
  | .subtype name =>
    let subtype ← d.subtype name (e.name ++ "." ++ p.name)
    return if subtype.isStruct then .blob else .direct
  | _ => return .direct

def recordKey (naming : RecordNaming) (name : String) : String :=
  match naming with
  | .current => "_" ++ name
  | .legacy => name

def recordFlagKey (naming : RecordNaming) (name : String) : String :=
  match naming with
  | .current => "__" ++ name ++ "_ExtraFlag"
  | .legacy => name ++ "_ExtraFlag"

namespace RecordField

def resolve (d : Descriptions) (settings : Settings) (e : Entity) (p : Schema.Property) :
    Except Error RecordField := do
  let storage ← fieldStorage d e p
  let name := memberName p.name
  return { key := recordKey settings.naming name
           flagKey := if p.isLazy then some (recordFlagKey settings.naming name) else none
           storage
           isOptional := p.isOptional
           valueType := ← Emit.valueType d e p
           fallback := presentDefault? p
           logsError := p.logsError }

def isLazy (f : RecordField) : Bool := f.flagKey.isSome

/-! ## Writing -/

def encoded (f : RecordField) (value : Expr) : Expr :=
  (value.optionalIf f.isOptional).method
    (match f.storage with
     | .direct => "coreDataValue"
     | .blob => "encodedCoreDataValue") []

def assignment (f : RecordField) (value record : Expr) : Item :=
  .assign (.member record f.key) (f.encoded value)

/-- The statements that write a value into a record. A lazy value is written
only if it is there, together with its flag. -/
def writing (f : RecordField) (value record : Expr) : List Item :=
  match f.flagKey with
  | none => [f.assignment value record]
  | some flag =>
    [.branch [.binding "value" (value.method "value" [])]
      [f.assignment (.name "value") record, .assign (.member record flag) (.bool true)] none]

/-! ## Reading -/

def optionalReading (f : RecordField) (record : Expr) : Expr :=
  let stored := Expr.member record f.key
  match f.storage with
  | .direct => (Expr.type f.valueType).method "fromOptionalCoreData" [.unlabelled stored]
  | .blob =>
    (Expr.type f.valueType).method "decodeOptionalCoreData"
      ([.unlabelled stored, .labelled "propertyName" (.string f.key)]
        ++ if f.logsError then [] else [.labelled "logError" (.bool false)])

def fallbackReading (f : RecordField) (fallback record : Expr) : Expr :=
  match f.storage with
  | .direct => (f.optionalReading record).orElse fallback
  | .blob =>
    (Expr.type f.valueType).method "decodeCoreData"
      [.unlabelled (.member record f.key), .labelled "fallback" fallback,
       .labelled "propertyName" (.string f.key), .labelled "logError" (.bool f.logsError)]

def requiredReading (f : RecordField) (record : Expr) : Expr :=
  let method := match f.storage with
    | .direct => "fromCoreData"
    | .blob => "decodeCoreData"
  .tryThrowing ((Expr.type f.valueType).method method
    [.unlabelled (.member record f.key), .labelled "propertyName" (.string f.key)])

def reading (f : RecordField) (record : Expr) : Expr :=
  match f.flagKey with
  | some flag =>
    (TypeName.lazy (f.valueType.optionalIf f.isOptional)).construct
      [.labelled "value" (f.optionalReading record), .labelled "requested" (.member record flag)]
  | none =>
    if f.isOptional then f.optionalReading record
    else
      match f.fallback with
      | some fallback => f.fallbackReading fallback record
      | none => f.requiredReading record

end RecordField

/-- The fields of an entity in storage order, each with its property. -/
def recordFields (d : Descriptions) (settings : Settings) (e : Entity) :
    Except Error (List (Schema.Property × RecordField)) :=
  e.storedProperties.mapM fun p => do
    return (p, ← RecordField.resolve d settings e p)

end EntityGen.Emit
