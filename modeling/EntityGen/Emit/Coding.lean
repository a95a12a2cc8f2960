import EntityGen.Code.SourceFile

/-!
# Encoding and decoding

Pieces that all emitted types with an encoded form share.
-/

namespace EntityGen.Emit

open Code

def emittedFile (name : String) : SourceFile :=
  { name := name ++ ".swift"
    header := [.line (name ++ ".swift"), .line "Generated by IronMeta. Do not edit."]
    imports := ["Foundation", "Lucid"] }

def decoderParameter : Parameter :=
  { label := some "from", name := "decoder", type := { name := "Decoder" } }

def encoderParameter : Parameter :=
  { label := some "to", name := "encoder", type := { name := "Encoder" } }

def keyedBy (keys : String) : Argument :=
  .labelled "keyedBy" (.type (TypeName.metatype { name := keys }))

def forKey (key : String) : Argument := .labelled "forKey" (.dot key)

def decodingContainer (method : String) (arguments : List Argument) : Item :=
  .constant "container" (.tryThrowing ((Expr.name "decoder").method method arguments))

def encodingContainer (method : String) (arguments : List Argument) : Item :=
  .property
    { var := { name := "container", isImmutable := false }
      value := some ((Expr.name "encoder").method method arguments) }

def keyedDecoding : Item := decodingContainer "container" [keyedBy "Keys"]
def keyedEncoding : Item := encodingContainer "container" [keyedBy "Keys"]
def valueDecoding : Item := decodingContainer "singleValueContainer" []
def valueEncoding : Item := encodingContainer "singleValueContainer" []

def decodeFrom (container method : String) (type : TypeName) (key : Option String) : Expr :=
  (Expr.name container).method method
    (.unlabelled (.type type.metatype) :: key.toList.map forKey)

def encodeValue (method : String) (value : Expr) (key : Option String) : Item :=
  .expr (.tryThrowing ((Expr.name "container").method method
    (.unlabelled value :: key.toList.map forKey)))

def decodingInitializer (access : Access) (body : List Item) : Function :=
  { kind := .initializer false false, access, parameters := [decoderParameter]
    isThrowing := true, body }

def encodingFunction (body : List Item) : Function :=
  { kind := .named "encode", access := .publicAccess, parameters := [encoderParameter]
    isThrowing := true, body }

def keysEnum (name : String) (cases : List EnumCase) : TypeDecl :=
  { name := { name }, kind := .enumType false, access := .privateAccess
    inherited := [.string, { name := "CodingKey" }]
    body := cases.map .enumCase }

def singleKeyEnum (name case key : String) : TypeDecl :=
  keysEnum name [{ name := case, rawValue := some (.string key) }]

/-- The first entry for each name, in order. -/
def firstOfEachName {α : Type} (seen : List String) : List (String × α) → List (String × α)
  | [] => []
  | (name, a) :: rest =>
    if name ∈ seen then firstOfEachName seen rest
    else (name, a) :: firstOfEachName (name :: seen) rest

/-- The key of a member; one that is its name needs no raw value. -/
def codingKey (name key : String) : EnumCase :=
  { name, rawValue := if name = key then none else some (.string key) }

def codingKeys (keys : List (String × String)) : TypeDecl :=
  keysEnum "Keys" ((firstOfEachName [] keys).map fun (name, key) => codingKey name key)

end EntityGen.Emit
