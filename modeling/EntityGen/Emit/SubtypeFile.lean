import EntityGen.Emit.Coding
import EntityGen.Emit.Types

/-!
# Files of subtypes

An enumeration is emitted with its raw values and its coding, a set of options
with its bits, a value with its members. All enumerations share one error type.
-/

namespace EntityGen.Emit

open Code
open Schema (Choice Descriptions Member Subtype)

def subtypeErrorName : String := "SubtypeError"

/-- The error of enumerations, raised with the subtype's name and the raw value. -/
def subtypeErrorFile : SourceFile :=
  (emittedFile subtypeErrorName).adding
    [.type
      { name := { name := subtypeErrorName }, kind := .enumType false, access := .publicAccess
        inherited := [{ name := "Error" }]
        body :=
          [.comment (.doc "Raw value of a retired case."),
           .enumCase { name := "unusedCase", associated := [.string, .string] },
           .comment (.doc "Raw value matching no declared case."),
           .enumCase { name := "unknownCase", associated := [.string, .string] }] }]

/-! ## Enumerations -/

def raiseSubtypeError (s : Subtype) (error : String) : Item :=
  .expr (.throwing ((Expr.type { name := subtypeErrorName }).method error
    [.unlabelled (.string s.name), .unlabelled (.name "rawValue")]))

def caseDeclaration (type : TypeName) (used : List Choice) : TypeDecl :=
  { name := type, kind := .enumType false, access := .publicAccess
    inherited := [{ name := "Hashable" }]
    body := used.map fun c => .enumCase { name := memberName c.name } }

def rawValueProperty (used : List Choice) : Code.Property :=
  Property.withBody
    { var := { name := "rawValue", type := some .string }, access := .publicAccess }
    [.switch .selfRef (used.map fun c =>
      { pattern := .tag (memberName c.name), body := [.returning (.string c.name)] })]

/-- The branch for the raw value of a case; unused cases are known but refused. -/
def rawValueBranch (s : Subtype) (c : Choice) : SwitchCase :=
  { pattern := .value (.string c.name)
    body := [if c.isUnused then raiseSubtypeError s "unusedCase"
      else .assign .selfRef (.dot (memberName c.name))] }

def rawValueInitializer (s : Subtype) (cases : List Choice) : Function :=
  { kind := .initializer false false, access := .publicAccess
    parameters := [{ name := "rawValue", type := .string }]
    isThrowing := true
    body := [.switch (.name "rawValue") (cases.map (rawValueBranch s) ++
      [{ pattern := .default, body := [raiseSubtypeError s "unknownCase"] }])] }

/-- An enumeration is decoded and encoded as its raw value. -/
def rawValueCoding (type : TypeName) : Extension :=
  { name := type, inherited := [{ name := "Codable" }]
    body := Item.grouped
      [[.function (decodingInitializer .publicAccess
         [valueDecoding,
          .constant "rawValue" (.tryThrowing (decodeFrom "container" "decode" .string none)),
          .expr (.tryThrowing (Expr.selfRef.method "init"
            [.labelled "rawValue" (.name "rawValue")]))])],
       [.function (encodingFunction
         [valueEncoding, encodeValue "encode" (.name "rawValue") none])]] }

def enumItems (s : Subtype) (cases : List Choice) : Except Error (List Item) :=
  let type := subtypeType s.name
  if s.usedCases.isEmpty then .error (.shape s.name .noUsedCase)
  else .ok
    [.type (caseDeclaration type s.usedCases),
     .extension
      { name := type
        body := Item.grouped
          [[.property (rawValueProperty s.usedCases)],
           [.function (rawValueInitializer s cases)]] },
     .extension (rawValueCoding type)]

/-! ## Option sets -/

def optionProperty (type : TypeName) (option : Choice) (bit : Nat) : Code.Property :=
  { var := { name := memberName option.name, isStatic := true }, access := .publicAccess
    value := some (type.construct
      [.labelled "rawValue" (.infixed (.int 1) .shiftLeft (.int bit))]) }

def optionSet (s : Subtype) : TypeDecl :=
  let type := subtypeType s.name
  { name := type, kind := .structType, access := .publicAccess
    inherited := [{ name := "OptionSet" }, { name := "Codable" }, { name := "Hashable" }]
    body := Item.grouped
      [[.property { var := { name := "rawValue", type := some .int }, access := .publicAccess }],
       [.function
         { kind := .initializer false false, access := .publicAccess
           parameters := [{ name := "rawValue", type := .int }]
           body := [.assignOwn "rawValue" (.name "rawValue")] }],
       s.optionBits.map fun (option, bit) => .property (optionProperty type option bit),
       [.property
         { var := { name := "all", type := some type, isStatic := true }, access := .publicAccess
           value := some (.array (s.optionBits.map fun (o, _) => .dot (memberName o.name))) }]] }

/-! ## Values -/

def decodeMember (m : Member) (type : TypeName) : Item :=
  let name := memberName m.name
  let method := if m.isOptional then "decodeIfPresent" else "decode"
  .assign (.name name) (.tryThrowing (decodeFrom "container" method type.unwrapped (some name)))

def encodeMember (m : Member) : Item :=
  let name := memberName m.name
  encodeValue (if m.isOptional then "encodeIfPresent" else "encode") (.name name) (some name)

def constantProperty (name : String) (type : TypeName) : Item :=
  .property { var := { name, type := some type }, access := .publicAccess }

def memberwiseInitializer (members : List (String × TypeName)) : Function :=
  { kind := .initializer false false, access := .publicAccess
    parameters := members.map fun (name, type) => { name, type }
    body := members.map fun (name, _) => .assignOwn name (.name name) }

def valueStruct (d : Descriptions) (s : Subtype) (members : List Member) :
    Except Error TypeDecl := do
  let typed ← members.mapM fun m => do return (m, ← memberType d s m)
  let declared := typed.map fun (m, type) => (memberName m.name, type)
  return {
    name := subtypeType s.name, kind := .structType, access := .publicAccess
    inherited := [{ name := "Codable" }]
    body := Item.grouped
      [declared.map fun (name, type) => constantProperty name type,
       [.function (memberwiseInitializer declared)],
       [.type (codingKeys (members.map fun m => (memberName m.name, m.key)))],
       [.function (decodingInitializer .publicAccess
         (keyedDecoding :: typed.map fun (m, type) => decodeMember m type))],
       [.function (encodingFunction (keyedEncoding :: members.map encodeMember))]] }

/-! ## Files -/

def subtypeItems (d : Descriptions) (s : Subtype) : Except Error (List Item) := do
  match s.items with
  | .cases cases => enumItems s cases
  | .options _ => return [.type (optionSet s)]
  | .members members => return [.type (← valueStruct d s members)]

def subtypeFile (d : Descriptions) (s : Subtype) : Except Error SourceFile := do
  return (emittedFile (subtypeType s.name).name).addingSeparated (← subtypeItems d s)

/-- The error type, if some subtype raises it, and a file for each subtype. -/
def subtypeFiles (d : Descriptions) : Except Error (List SourceFile) := do
  let shared := if d.subtypes.any (·.isEnum) then [subtypeErrorFile] else []
  return shared ++ (← d.subtypes.mapM (subtypeFile d))

end EntityGen.Emit
