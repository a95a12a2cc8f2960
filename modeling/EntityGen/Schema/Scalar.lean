import EntityGen.Decimal.Read

/-!
# Scalars and default values
-/

namespace EntityGen.Schema

inductive Scalar where
  | string
  | int
  | date
  | double
  | float
  | bool
  | url
  | color
  | seconds
  | milliseconds
  deriving DecidableEq, Repr

namespace Scalar

def name : Scalar → String
  | .string => "string"
  | .int => "int"
  | .date => "date"
  | .double => "double"
  | .float => "float"
  | .bool => "bool"
  | .url => "url"
  | .color => "color"
  | .seconds => "seconds"
  | .milliseconds => "milliseconds"

def all : List Scalar :=
  [.string, .int, .date, .double, .float, .bool, .url, .color, .seconds, .milliseconds]

def ofName? (name : String) : Option Scalar :=
  all.find? fun s => s.name == name

theorem ofName?_name (s : Scalar) : ofName? s.name = some s := by
  cases s <;> decide

def isFloatingPoint : Scalar → Bool
  | .double | .float | .seconds | .milliseconds => true
  | _ => false

end Scalar

inductive DefaultValue where
  | nil
  | bool (value : Bool)
  | int (value : Int)
  | float (value : Float)
  | string (value : String)
  | currentDate
  | enumCase (name : String)

def readBool? : String → Option Bool
  | "true" => some true
  | "false" => some false
  | _ => none

namespace DefaultValue

/-- Reads the default of a scalar. The word `nil` is the absent value of every
scalar, strings included. -/
def ofScalarText? (text : String) (scalar : Scalar) : Option DefaultValue :=
  if text = "nil" then some .nil
  else
    match scalar with
    | .bool => (readBool? text).map .bool
    | .int => (Decimal.readInt? text).map .int
    | .double | .float | .seconds | .milliseconds => (Decimal.readFloat? text).map .float
    | .date => if text = "current_date" then some .currentDate else none
    | .string | .url | .color => some (.string text)

def ofCaseText (text : String) : DefaultValue :=
  if text = "nil" then .nil else .enumCase text

end DefaultValue
end EntityGen.Schema
