/-!
# Lines of a text

A line ends at a line feed, and a carriage return just before it belongs to
the line break. A text that ends in a line break has no further empty line,
and the empty text has no lines.
-/

namespace EntityGen.Text

def splitLines : List Char → List (List Char)
  | [] => []
  | '\n' :: rest => [] :: splitLines rest
  | '\r' :: '\n' :: rest => [] :: splitLines rest
  | c :: rest =>
    match splitLines rest with
    | [] => [[c]]
    | line :: lines => (c :: line) :: lines

def lines (text : String) : List String :=
  (splitLines text.toList).map String.ofList

end EntityGen.Text
