import EntityGen.Markup.Error
import EntityGen.Schema.Error

/-!
# Documents that describe nothing
-/

namespace EntityGen.Document

inductive Error where
  | markup (error : Markup.Error)
  | missingAttribute (element name : String)
  | invalidAttribute (element name value : String)
  | unknownElement (element context : String)
  | duplicate (kind : Schema.DefinitionKind) (name : String)
  | noDescriptions
  | noItems (subtype : String)
  | mixedItems (subtype : String)
  | noContributors
  | severalTypes (property : String)
  deriving DecidableEq, Repr

def Error.message : Error → String
  | .markup error => "malformed description XML: " ++ error.message
  | .missingAttribute element name =>
    "<" ++ element ++ "> requires attribute '" ++ name ++ "'"
  | .invalidAttribute element name value =>
    "<" ++ element ++ "> attribute '" ++ name ++ "' does not accept '" ++ value ++ "'"
  | .unknownElement element context => "unexpected <" ++ element ++ "> inside <" ++ context ++ ">"
  | .duplicate kind name => kind.word ++ " '" ++ name ++ "' is declared more than once"
  | .noDescriptions => "invalid description structure: No descriptions element found"
  | .noItems subtype =>
    "invalid description structure: subtype '" ++ subtype ++ "' declares no items"
  | .mixedItems subtype =>
    "invalid description structure: subtype '" ++ subtype
      ++ "' mixes cases, options and properties"
  | .noContributors =>
    "invalid description structure: relationships identifier declares no relationship"
  | .severalTypes property =>
    "invalid description structure: property '" ++ property ++ "' declares more than one type"

end EntityGen.Document
