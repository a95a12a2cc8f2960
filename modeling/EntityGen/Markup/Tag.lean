/-!
# Tags and their attributes

A tag is read leniently. An attribute without a quoted value is dropped, and
so is every further attribute of a name that occurred before; values are the
text between the quotes as it stands.
-/

namespace EntityGen.Markup

def isSpace (c : Char) : Bool :=
  c = ' ' || c = '\t' || c = '\r' || c = '\n'

def isQuote (c : Char) : Bool := c = '\'' || c = '"'

/-- A tag. Its attribute names are distinct. -/
structure Tag where
  name : String
  attributes : List (String × String) := []
  deriving DecidableEq, Repr

/-- Where in a tag a character stands. Names and values hold their characters
in reverse. -/
inductive AttributeScan where
  | between
  | name (reversed : List Char)
  | afterName (name : String)
  | beforeValue (name : String)
  | value (name : String) (quote : Char) (reversed : List Char)
  | dropped

def textOfReversed (reversed : List Char) : String := String.ofList reversed.reverse

def AttributeScan.afterSign (seen : List String) (name : String) : AttributeScan :=
  if name ∈ seen then .dropped else .beforeValue name

/-- The attributes from a place in a tag on. `seen` lists the names that had a
sign for a value so far. -/
def attributesFrom (scan : AttributeScan) (seen : List String) :
    List Char → List (String × String)
  | [] => []
  | c :: rest =>
    match scan with
    | .between =>
      if isSpace c then attributesFrom .between seen rest
      else attributesFrom (.name [c]) seen rest
    | .name reversed =>
      if c = '=' then
        let name := textOfReversed reversed
        attributesFrom (.afterSign seen name) (name :: seen) rest
      else if isSpace c then attributesFrom (.afterName (textOfReversed reversed)) seen rest
      else attributesFrom (.name (c :: reversed)) seen rest
    | .afterName name =>
      if isSpace c then attributesFrom (.afterName name) seen rest
      else if c = '=' then attributesFrom (.afterSign seen name) (name :: seen) rest
      else attributesFrom (.name [c]) seen rest
    | .beforeValue name =>
      if isSpace c then attributesFrom (.beforeValue name) seen rest
      else if isQuote c then attributesFrom (.value name c []) seen rest
      else attributesFrom .dropped seen rest
    | .value name quote reversed =>
      if c = quote then (name, textOfReversed reversed) :: attributesFrom .between seen rest
      else attributesFrom (.value name quote (c :: reversed)) seen rest
    | .dropped =>
      if isSpace c then attributesFrom .between seen rest
      else attributesFrom .dropped seen rest

/-- The tag written between its brackets. The name runs to the first space. -/
def Tag.ofContent (content : List Char) : Tag :=
  { name := String.ofList (content.takeWhile fun c => !isSpace c)
    attributes := attributesFrom .between [] (content.dropWhile fun c => !isSpace c) }

end EntityGen.Markup
