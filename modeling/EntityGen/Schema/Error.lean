/-!
# Inconsistent descriptions
-/

namespace EntityGen.Schema

inductive DefinitionKind where
  | entity
  | subtype
  | endpoint
  | property
  deriving DecidableEq, Repr

def DefinitionKind.word : DefinitionKind → String
  | .entity => "entity"
  | .subtype => "subtype"
  | .endpoint => "endpoint"
  | .property => "property"

inductive Error where
  | notFound (kind : DefinitionKind) (name referencedBy : String)
  | duplicate (kind : DefinitionKind) (name : String)
  | noUsedCases (subtype : String)
  | duplicateCase (name subtype : String)
  | tooManyOptions (subtype : String) (count : Nat)
  | selfEquivalence (entity : String)
  | reservedProperty (entity property : String)
  | unusedDefault (name property subtype : String)
  deriving DecidableEq, Repr

def Error.message : Error → String
  | .notFound kind name referencedBy =>
    kind.word ++ " '" ++ name ++ "' not found (referenced by " ++ referencedBy ++ ")"
  | .duplicate kind name => "duplicate " ++ kind.word ++ " '" ++ name ++ "'"
  | .noUsedCases subtype => "subtype '" ++ subtype ++ "' has no used cases"
  | .duplicateCase name subtype =>
    "validation error: Duplicate case '" ++ name ++ "' in subtype '" ++ subtype ++ "'"
  | .tooManyOptions subtype count =>
    "validation error: Option set '" ++ subtype ++ "' declares " ++ Nat.repr count
      ++ " options, maximum is 64"
  | .selfEquivalence entity =>
    "entity '" ++ entity ++ "' declares its own identifier as equivalent"
  | .reservedProperty entity property =>
    "entity '" ++ entity ++ "' declares property '" ++ property ++ "', which is reserved"
  | .unusedDefault name property subtype =>
    "validation error: Default value '" ++ name ++ "' of '" ++ property
      ++ "' is not a used case of '" ++ subtype ++ "'"

end EntityGen.Schema
