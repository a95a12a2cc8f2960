import EntityGen.Document.Error
import EntityGen.Markup.Node
import EntityGen.Schema.Scalar

/-!
# Reading elements

How the parts of a description are read off elements: attributes in written
order, children in document order, the first fault wins.
-/

namespace EntityGen.Document

open Markup (Tag Node)

def required (tag : Tag) (element name : String) : Except Error String :=
  match tag.attributes.lookup name with
  | some value => .ok value
  | none => .error (.missingAttribute element name)

/-- What an attribute says, unless the element does not accept its value. -/
def accepted {α : Type} (element name value : String) : Option α → Except Error α
  | some a => .ok a
  | none => .error (.invalidAttribute element name value)

def readBool (element name value : String) : Except Error Bool :=
  accepted element name value (Schema.readBool? value)

def foldAttributes {α : Type} (tag : Tag) (initial : α)
    (step : α → String → String → Except Error α) : Except Error α :=
  tag.attributes.foldlM (fun a (name, value) => step a name value) initial

def foldElements {α : Type} (children : List Node) (initial : α)
    (step : α → Tag → List Node → Except Error α) : Except Error α :=
  children.foldlM
    (fun a node =>
      match node with
      | .failed e => .error (.markup e)
      | .element tag _ children => step a tag children)
    initial

/-- Children that say nothing. Only a fault in them counts. -/
def ignore (children : List Node) : Except Error Unit :=
  match Markup.faultIn? children with
  | some e => .error (.markup e)
  | none => .ok ()

end EntityGen.Document
