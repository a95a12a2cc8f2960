import EntityGen.Document.Error

/-!
# What keeps code from being generated
-/

namespace EntityGen.Emit

inductive ShapeFault where
  | notAnEnum
  | noUsedCase
  | voidIdentifier
  | voidConversion (other : String)
  | noRemotePayload (target : String)
  | endlessNesting
  deriving DecidableEq, Repr

def ShapeFault.message : ShapeFault → String
  | .notAnEnum => "expected an enum subtype"
  | .noUsedCase => "enum has no used case"
  | .voidIdentifier => "entity has a void identifier"
  | .voidConversion other => "void identifier cannot convert to or from '" ++ other ++ "'"
  | .noRemotePayload target => "embeds '" ++ target ++ "' which has no remote payload"
  | .endlessNesting => "value struct nesting has no finite default"

inductive FileFault where
  | missing
  | notUtf8
  deriving DecidableEq, Repr

def FileFault.message : FileFault → String
  | .missing => "No such file or directory (os error 2)"
  | .notUtf8 => "stream did not contain valid UTF-8"

inductive Error where
  | document (error : Document.Error)
  | schema (error : Schema.Error)
  | file (fault : FileFault)
  | shape (name : String) (fault : ShapeFault)
  | unsupportedPayload (endpoint path : String)
  | missingWritePayload (entity : String)
  | invalidVersion (version : String)
  deriving DecidableEq, Repr

def Error.message : Error → String
  | .document error => "description parse error: " ++ error.message
  | .schema error => "schema error: " ++ error.message
  | .file fault => "IO error: " ++ fault.message
  | .shape name fault => "shape mismatch in '" ++ name ++ "': " ++ fault.message
  | .unsupportedPayload endpoint path =>
    "unsupported payload shape for endpoint '" ++ endpoint ++ "' at '" ++ path ++ "'"
  | .missingWritePayload entity =>
    "entity '" ++ entity ++ "' is mutable but no endpoint declares a write payload for it"
  | .invalidVersion version =>
    "generation error: invalid version '" ++ version ++ "': expected dotted numbers"

instance : MonadLift (Except Schema.Error) (Except Error) where
  monadLift := Except.mapError .schema

instance : MonadLift (Except Document.Error) (Except Error) where
  monadLift := Except.mapError .document

end EntityGen.Emit
