import EntityGen.Markup.Error
import EntityGen.Markup.Tag

/-!
# Events of a document

A document is read from left to right into the tags it holds. Text, references,
comments, instructions, character data and document types are checked for
their end and passed over. A fault ends the events.
-/

namespace EntityGen.Markup

inductive Event where
  | start (tag : Tag)
  | empty (tag : Tag)
  | close (name : String)
  | failed (error : Error)
  deriving DecidableEq, Repr

def offsetOf? (marker : List Char) : List Char → Option Nat
  | [] => none
  | c :: rest =>
    if marker.isPrefixOf (c :: rest) then some 0 else (offsetOf? marker rest).map (· + 1)

/-- The number of characters before the bracket that ends a tag. Between quotes
a bracket ends nothing. -/
def tagLength (quote : Option Char) : List Char → Except Error Nat
  | [] => .error (match quote with
    | none => .unclosedTag
    | some q => .unclosedQuote q)
  | c :: rest =>
    match quote with
    | none =>
      if c = '>' then .ok 0
      else (· + 1) <$> tagLength (if isQuote c then some c else none) rest
    | some q => (· + 1) <$> tagLength (if c = q then none else some q) rest

/-! ## Document types -/

inductive DoctypeScan where
  | outside (quote : Option Char)
  | subset
  | comment
  | instruction
  | declaration (hasStrings : Bool) (quote : Option Char)
  | afterSubset

def DoctypeScan.opened (rest : List Char) : DoctypeScan × Nat :=
  if "!--".toList.isPrefixOf rest then (.comment, 3)
  else if "?".toList.isPrefixOf rest then (.instruction, 1)
  else
    let hasStrings := ["!ENTITY", "!ATTLIST", "!NOTATION"].any fun word =>
      word.toList.isPrefixOf rest
    (.declaration hasStrings none, 0)

def quoteAfter (c : Char) : Option Char → Option Char
  | none => if isQuote c then some c else none
  | some q => if c = q then none else some q

/-- The place after a character, and how many further characters belong to it.
Nothing if the character ends the document type. -/
def DoctypeScan.next? (scan : DoctypeScan) (c : Char) (rest : List Char) :
    Option (DoctypeScan × Nat) :=
  match scan with
  | .outside none =>
    if c = '>' then none
    else if c = '[' then some (.subset, 0)
    else some (.outside (quoteAfter c none), 0)
  | .outside (some q) => some (.outside (quoteAfter c (some q)), 0)
  | .subset =>
    if c = ']' then some (.afterSubset, 0)
    else if c = '<' then some (DoctypeScan.opened rest)
    else some (.subset, 0)
  | .comment =>
    if c = '-' && "->".toList.isPrefixOf rest then some (.subset, 2) else some (.comment, 0)
  | .instruction =>
    if c = '?' && ">".toList.isPrefixOf rest then some (.subset, 1) else some (.instruction, 0)
  | .declaration hasStrings none =>
    if c = '>' then some (.subset, 0)
    else some (.declaration hasStrings (if hasStrings then quoteAfter c none else none), 0)
  | .declaration hasStrings (some q) => some (.declaration hasStrings (quoteAfter c (some q)), 0)
  | .afterSubset => if c = '>' then none else some (.afterSubset, 0)

def doctypeLength? (scan : DoctypeScan) (skipped : Nat) : List Char → Option Nat
  | [] => none
  | c :: rest =>
    match skipped with
    | skipped + 1 => (doctypeLength? scan skipped rest).map (· + 1)
    | 0 =>
      match scan.next? c rest with
      | none => some 0
      | some (scan, skipped) => (doctypeLength? scan skipped rest).map (· + 1)

/-! ## Pieces -/

/-- What a piece of the document says, if anything, and its length. -/
abbrev Piece := Except Error (Option Event × Nat)

def passedOver (opening : Nat) (marker : String) (unclosed : Error) (text : List Char) : Piece :=
  match offsetOf? marker.toList (text.drop opening) with
  | some n => .ok (none, opening + n + marker.length)
  | none => .error unclosed

def declarationPiece (text : List Char) : Piece :=
  match text with
  | '[' :: _ =>
    if "[CDATA[".toList.isPrefixOf text then passedOver 7 "]]>" .unclosedCData text
    else .error .unclosedCData
  | '-' :: _ =>
    if "--".toList.isPrefixOf text then passedOver 2 "-->" .unclosedComment text
    else .error .unclosedComment
  -- the first letter decides what was meant
  | c :: _ =>
    if c = 'D' || c = 'd' then
      if (text.take 7).map Char.toUpper = "DOCTYPE".toList then
        match doctypeLength? (.outside none) 0 (text.drop 7) with
        | none => .error .unclosedDoctype
        | some n =>
          if ((text.drop 7).take n).all isSpace then .error .missingDoctypeName
          else .ok (none, 7 + n + 1)
      else .error .unclosedDoctype
    else .error .invalidDeclaration
  | [] => .error .invalidDeclaration

def startsXmlDeclaration (text : List Char) : Bool :=
  "xml".toList.isPrefixOf text && (text.drop 3).head?.all fun c => isSpace c || c = '?'

def instructionPiece (text : List Char) : Piece :=
  match text with
  -- in `<?>` one mark would have to be both ends
  | '>' :: _ => .error .unclosedInstruction
  | _ =>
    passedOver 0 "?>"
      (if startsXmlDeclaration text then .unclosedXmlDeclaration else .unclosedInstruction) text

/-- The name in an end tag, without the white space after it unless it is
white space alone. -/
def closedName (content : List Char) : String :=
  if content.all isSpace then String.ofList content
  else String.ofList (content.reverse.dropWhile isSpace).reverse

def closingPiece (text : List Char) : Piece := do
  let n ← tagLength none text
  return (some (.close (closedName (text.take n))), n + 1)

def openingEvent (content : List Char) : Event :=
  if content.getLast? = some '/' then .empty (Tag.ofContent content.dropLast)
  else .start (Tag.ofContent content)

def openingPiece (text : List Char) : Piece := do
  let n ← tagLength none text
  return (some (openingEvent (text.take n)), n + 1)

def markupPiece (text : List Char) : Piece :=
  let longer (piece : Piece) : Piece := piece.map fun (event?, n) => (event?, n + 1)
  match text with
  | '!' :: rest => longer (declarationPiece rest)
  | '?' :: rest => longer (instructionPiece rest)
  | '/' :: rest => longer (closingPiece rest)
  | _ => openingPiece text

/-- The piece after `&`, which another reference or markup may not cut off. -/
def referencePiece (text : List Char) : Piece :=
  let n := (text.takeWhile fun c => c ≠ ';' && c ≠ '&' && c ≠ '<').length
  match text.drop n with
  | ';' :: _ => .ok (none, n + 1)
  | _ => .error .unclosedReference

/-- The piece that starts with a character; its length does not count that character. -/
def pieceAt (c : Char) (rest : List Char) : Piece :=
  if c = '<' then markupPiece rest
  else if c = '&' then referencePiece rest
  else .ok (none, 0)

def eventsAfter (skipped : Nat) : List Char → List Event
  | [] => []
  | c :: rest =>
    match skipped with
    | skipped + 1 => eventsAfter skipped rest
    | 0 =>
      match pieceAt c rest with
      | .error e => [.failed e]
      | .ok (event?, n) => event?.toList ++ eventsAfter n rest

/-- A byte order mark in front is no part of the document. -/
def withoutMark : List Char → List Char
  | '\uFEFF' :: rest => rest
  | text => text

def events (text : List Char) : List Event := eventsAfter 0 (withoutMark text)

end EntityGen.Markup
