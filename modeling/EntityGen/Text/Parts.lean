/-!
# Parts of a text

A separator ends a part. There is one part more than there are separators, so
parts may be empty, and a text without separators is its own only part.
-/

namespace EntityGen.Text

def splitParts (separator : Char) : List Char → List (List Char)
  | [] => [[]]
  | c :: rest =>
    if c = separator then [] :: splitParts separator rest
    else
      match splitParts separator rest with
      | [] => [[c]]
      | part :: parts => (c :: part) :: parts

def parts (separator : Char) (text : String) : List String :=
  (splitParts separator text.toList).map String.ofList

end EntityGen.Text
