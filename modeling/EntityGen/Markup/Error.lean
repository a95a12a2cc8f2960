/-!
# Faults of markup
-/

namespace EntityGen.Markup

inductive Error where
  | invalidDeclaration
  | unclosedInstruction
  | unclosedXmlDeclaration
  | unclosedComment
  | unclosedDoctype
  | unclosedCData
  | unclosedTag
  | unclosedQuote (quote : Char)
  | missingDoctypeName
  | unmatchedEnd (name : String)
  | mismatchedEnd (expected found : String)
  | unclosedReference
  deriving DecidableEq, Repr

def notClosed (what marker : String) : String :=
  "syntax error: " ++ what ++ " not closed: `" ++ marker ++ "` not found before end of input"

def Error.message : Error → String
  | .invalidDeclaration => "syntax error: unknown or missed symbol in markup"
  | .unclosedInstruction => notClosed "processing instruction" "?>"
  | .unclosedXmlDeclaration => notClosed "XML declaration" "?>"
  | .unclosedComment => notClosed "comment" "-->"
  | .unclosedDoctype => notClosed "DOCTYPE" ">"
  | .unclosedCData => notClosed "CDATA" "]]>"
  | .unclosedTag => notClosed "tag" ">"
  | .unclosedQuote quote => notClosed "attribute value" (String.singleton quote)
  | .missingDoctypeName =>
    "ill-formed document: `<!DOCTYPE>` declaration does not contain a name of a document type"
  | .unmatchedEnd name =>
    "ill-formed document: close tag `</" ++ name ++ ">` does not match any open tag"
  | .mismatchedEnd expected found =>
    "ill-formed document: expected `</" ++ expected ++ ">`, but `</" ++ found ++ ">` was found"
  | .unclosedReference =>
    "ill-formed document: entity or character reference not closed: "
      ++ "`;` not found before end of input"

end EntityGen.Markup
