import EntityGen.Text.LetterCase

/-!
# Case conventions of names

Described names come in snake case or camel case. Emitted types are in Pascal
case and members in camel case; an underscore, hyphen or space separates
words and is dropped, and letters inside a word keep their case.
-/

namespace EntityGen.Text

def isSeparator (c : Char) : Bool :=
  c = '_' || c = '-' || c = ' '

/-- Drops separators and capitalises the first character of each word. -/
def pascalChars (atStart : Bool) : List Char → List Char
  | [] => []
  | c :: rest =>
    if isSeparator c then pascalChars true rest
    else (if atStart then toUppercase c else [c]) ++ pascalChars false rest

def pascalCase (name : String) : String :=
  String.ofList (pascalChars true name.toList)

def decapitalized : List Char → List Char
  | [] => []
  | c :: rest => toLowercase c ++ rest

def camelCase (name : String) : String :=
  String.ofList (decapitalized (pascalChars true name.toList))

/-- An upper case letter starts a new word after a lower case letter or an ASCII digit. -/
def snakeChars (afterLower : Bool) : List Char → List Char
  | [] => []
  | c :: rest =>
    if c = '-' || c = ' ' then '_' :: snakeChars false rest
    else if isUppercase c then
      (if afterLower then ['_'] else []) ++ toLowercase c ++ snakeChars false rest
    else c :: snakeChars (isLowercase c || c.isDigit) rest

def snakeCase (name : String) : String :=
  String.ofList (snakeChars false name.toList)

end EntityGen.Text
