import EntityGen.Code.Tree
import EntityGen.Decimal.Positional
import EntityGen.Text.Lines

/-!
# The text of generated code

Rendering is a function of the tree and the indentation level. It checks
nothing: a tree that is no valid program is written as it stands. An item's
text is a number of whole lines; an expression's text starts inside a line
and spans several only for a closure that needs them.
-/

namespace EntityGen.Code

def indent (level : Nat) : String :=
  String.ofList (List.replicate (4 * level) ' ')

def fullLine (level : Nat) (text : String) : String :=
  indent level ++ text ++ "\n"

def commaSeparated (texts : List String) : String := ", ".intercalate texts

def parenthesizedIf (condition : Bool) (text : String) : String :=
  if condition then "(" ++ text ++ ")" else text

/-! ## Words and symbols -/

def TypeKind.keyword : TypeKind → String
  | .classType true => "final class"
  | .classType false => "class"
  | .structType => "struct"
  | .enumType true => "indirect enum"
  | .enumType false => "enum"
  | .protocolType => "protocol"

def Access.keyword? : Access → Option String
  | .unspecified => none
  | .openAccess => some "open"
  | .publicAccess => some "public"
  | .internalAccess => some "internal"
  | .filePrivateAccess => some "fileprivate"
  | .privateAccess => some "private"

def PrefixOp.symbol : PrefixOp → String
  | .dot => "."
  | .tryThrowing => "try "
  | .tryOptional => "try? "
  | .tryForced => "try! "
  | .throwing => "throw "
  | .awaiting => "await "
  | .addressOf => "&"
  | .not => "!"

def InfixOp.symbol : InfixOp → String
  | .equal => "=="
  | .notEqual => "!="
  | .less => "<"
  | .greater => ">"
  | .lessOrEqual => "<="
  | .greaterOrEqual => ">="
  | .and => "&&"
  | .or => "||"
  | .nilCoalescing => "??"
  | .plus => "+"
  | .minus => "-"
  | .shiftLeft => "<<"
  | .cast => "as"
  | .castOptional => "as?"
  | .is => "is"

/-- Words that a declared enumeration case may have only in backquotes. -/
def keywords : List String :=
  ["as", "associatedtype", "break", "case", "catch", "class", "continue", "default", "defer",
   "deinit", "do", "else", "enum", "extension", "fallthrough", "false", "fileprivate", "for",
   "func", "guard", "if", "import", "in", "init", "inout", "internal", "is", "let", "nil",
   "open", "operator", "private", "protocol", "public", "repeat", "rethrows", "return",
   "self", "Self", "static", "struct", "subscript", "super", "switch", "throw", "throws",
   "true", "try", "typealias", "var", "where", "while"]

def declaredName (name : String) : String :=
  if name ∈ keywords then "`" ++ name ++ "`" else name

/-! ## Literals and comments -/

def escapeChar : Char → List Char
  | '"' => ['\\', '"']
  | '\\' => ['\\', '\\']
  | '\n' => ['\\', 'n']
  | '\t' => ['\\', 't']
  | c => [c]

def quoted (text : String) : String :=
  "\"" ++ String.ofList (text.toList.flatMap escapeChar) ++ "\""

def Comment.marker : Comment → String
  | .line _ => "//"
  | .doc _ => "///"
  | .mark _ => "// MARK: -"

def Comment.text : Comment → String
  | .line text | .doc text | .mark text => text

def Comment.render (level : Nat) (c : Comment) : String :=
  String.join <| (Text.lines c.text).map fun l =>
    fullLine level (if l.isEmpty then c.marker else c.marker ++ " " ++ l)

/-! ## Expressions on one line -/

def Expr.needsParensAsReceiver : Expr → Bool
  | .infixed .. => true
  | .prefixed op _ => op ≠ .dot ∧ op ≠ .addressOf
  | _ => false

def Expr.needsParensAsOperand : Expr → Bool
  | .infixed .. => true
  | _ => false

/-- These operators take their operand in parentheses where it needs them. -/
def PrefixOp.groupsOperand (op : PrefixOp) : Bool :=
  op = .not ∨ op = .addressOf

def Argument.isClosure : Argument → Bool
  | { label := none, value := .closure .. } => true
  | _ => false

/-- The last argument is written after the parentheses. -/
def Argument.endInClosure (arguments : List Argument) : Bool :=
  arguments.getLast?.any Argument.isClosure

mutual
/-- The expression is written on several lines: some closure in it holds more
than one expression. -/
def Expr.spansLines : Expr → Bool
  | .closure _ [] => false
  | .closure _ [.expr value] => value.spansLines
  | .closure _ [.returns (some value)] => value.spansLines
  | .closure _ _ => true
  | .name _ | .type _ | .nil | .bool _ | .int _ | .float _ | .string _ => false
  | .array elements => Expr.anySpansLines elements
  | .dictionary entries => Entry.anySpansLines entries
  | .member base _ | .optionalChain base | .forceUnwrap base => base.spansLines
  | .prefixed _ operand => operand.spansLines
  | .call callee arguments => callee.spansLines || Argument.anySpansLines arguments
  | .index base position => base.spansLines || position.spansLines
  | .infixed left _ right => left.spansLines || right.spansLines
  | .tuple elements => Argument.anySpansLines elements

def Expr.anySpansLines : List Expr → Bool
  | [] => false
  | e :: es => e.spansLines || Expr.anySpansLines es

def Entry.anySpansLines : List Entry → Bool
  | [] => false
  | .mk key value :: entries => key.spansLines || value.spansLines || Entry.anySpansLines entries

def Argument.anySpansLines : List Argument → Bool
  | [] => false
  | .mk _ value :: arguments => value.spansLines || Argument.anySpansLines arguments
end

/-! ## Pieces of declarations -/

def Access.render (a : Access) : String :=
  match a.keyword? with
  | none => ""
  | some keyword => keyword ++ " "

def renderInherited : List TypeName → String
  | [] => ""
  | types => ": " ++ commaSeparated (types.map TypeName.text)

def Constraint.render : Constraint → String
  | .conforms subject requirement => subject.text ++ ": " ++ requirement.text
  | .equals left right => left.text ++ " == " ++ right.text

def renderConstraints : List Constraint → String
  | [] => ""
  | constraints => " where " ++ commaSeparated (constraints.map Constraint.render)

def wordIf (condition : Bool) (word : String) : String :=
  if condition then word else ""

def setterWord (access : Option Access) : String :=
  match access.bind Access.keyword? with
  | none => ""
  | some keyword => keyword ++ "(set) "

def Variable.render (v : Variable) : String :=
  wordIf v.isStatic "static " ++ wordIf v.isLazy "lazy " ++ wordIf v.isWeak "weak "
    ++ (if v.isImmutable then "let " else "var ") ++ v.name
    ++ (match v.type with
        | none => ""
        | some type => ": " ++ type.text)

def FunctionKind.render : FunctionKind → String
  | .named name => "func " ++ name
  | .initializer isConvenience isFailable =>
    wordIf isConvenience "convenience " ++ (if isFailable then "init?" else "init")
  | .operator symbol => "func " ++ symbol ++ " "
  | .subscript => "subscript"

def renderGenericParameters : List TypeName → String
  | [] => ""
  | types => "<" ++ commaSeparated (types.map TypeName.text) ++ ">"

def renderAssociated : List TypeName → String
  | [] => ""
  | types => "(" ++ commaSeparated (types.map TypeName.text) ++ ")"

/-- A body in braces after the start of its line; an empty one stays on it. -/
def braced (level : Nat) (isEmpty : Bool) (inner : String) : String :=
  if isEmpty then " \x7b\x7d\n" else " \x7b\n" ++ inner ++ fullLine level "\x7d"

def labelText : Option String → String
  | none => ""
  | some label => label ++ ": "

def closureHead : List String → String
  | [] => "\x7b"
  | parameters => "\x7b " ++ commaSeparated parameters ++ " in"

def closureLines (level : Nat) (inner : String) : String :=
  "\n" ++ inner ++ indent level ++ "\x7d"

def callTail (endsInClosure : Bool) (texts : List String) : String :=
  if endsInClosure then
    (if texts.dropLast.isEmpty then "" else "(" ++ commaSeparated texts.dropLast ++ ")")
      ++ " " ++ texts.getLastD ""
  else "(" ++ commaSeparated texts ++ ")"

/-! ## Rendering -/

mutual
/-- The expression, whose further lines are indented from the level. -/
def Expr.render (level : Nat) : Expr → String
  | .name name => name
  | .type type => type.text
  | .nil => "nil"
  | .bool value => if value then "true" else "false"
  | .int value => value.repr
  | .float value => Decimal.literalText value
  | .string value => quoted value
  | .array elements => "[" ++ commaSeparated (Expr.renderAll level elements) ++ "]"
  | .dictionary [] => "[:]"
  | .dictionary entries => "[" ++ commaSeparated (Entry.renderAll level entries) ++ "]"
  | .closure parameters body => closureHead parameters ++ Item.renderClosure level body
  | .member base name =>
    parenthesizedIf base.needsParensAsReceiver (base.render level) ++ "." ++ name
  | .call callee arguments =>
    parenthesizedIf callee.needsParensAsReceiver (callee.render level)
      ++ callTail (Argument.endInClosure arguments) (Argument.renderAll level arguments)
  | .index base position =>
    parenthesizedIf base.needsParensAsReceiver (base.render level)
      ++ "[" ++ position.render level ++ "]"
  | .prefixed op operand =>
    op.symbol
      ++ parenthesizedIf (op.groupsOperand && operand.needsParensAsOperand) (operand.render level)
  | .infixed left op right =>
    parenthesizedIf left.needsParensAsOperand (left.render level)
      ++ " " ++ op.symbol ++ " "
      ++ parenthesizedIf right.needsParensAsOperand (right.render level)
  | .optionalChain base => parenthesizedIf base.needsParensAsReceiver (base.render level) ++ "?"
  | .forceUnwrap base => parenthesizedIf base.needsParensAsReceiver (base.render level) ++ "!"
  | .tuple elements => "(" ++ commaSeparated (Argument.renderAll level elements) ++ ")"

def Expr.renderAll (level : Nat) : List Expr → List String
  | [] => []
  | e :: es => e.render level :: Expr.renderAll level es

def Entry.renderAll (level : Nat) : List Entry → List String
  | [] => []
  | .mk key value :: entries =>
    (key.render level ++ ": " ++ value.render level) :: Entry.renderAll level entries

def Argument.renderAll (level : Nat) : List Argument → List String
  | [] => []
  | .mk label value :: arguments =>
    (labelText label ++ value.render level) :: Argument.renderAll level arguments

/-- The rest of a closure after its head. One expression on one line stays on
the line of the head, without the word `return`. -/
def Item.renderClosure (level : Nat) : List Item → String
  | [] => " \x7d"
  | [item] =>
    match item.renderInline? level with
    | some text => " " ++ text ++ " \x7d"
    | none => closureLines level (item.render (level + 1))
  | item :: items =>
    closureLines level (item.render (level + 1) ++ Item.renderAll (level + 1) items)

def Item.renderInline? (level : Nat) : Item → Option String
  | .expr value => if value.spansLines then none else some (value.render level)
  | .returns (some value) => if value.spansLines then none else some (value.render level)
  | _ => none

def Item.render (level : Nat) : Item → String
  | .type decl => decl.render level
  | .extension decl => decl.render level
  | .property decl => decl.render level
  | .function decl => decl.render level
  | .typeAlias decl =>
    fullLine level
      (decl.access.render ++ "typealias " ++ decl.name.text ++ " = " ++ decl.value.text)
  | .enumCase decl => decl.render level
  | .comment comment => comment.render level
  | .blank => "\n"
  | .branch conditions body none =>
    fullLine level ("if " ++ commaSeparated (Condition.renderAll level conditions) ++ " \x7b")
      ++ Item.renderAll (level + 1) body ++ fullLine level "\x7d"
  | .branch conditions body (some orElse) =>
    fullLine level ("if " ++ commaSeparated (Condition.renderAll level conditions) ++ " \x7b")
      ++ Item.renderAll (level + 1) body ++ fullLine level "\x7d else \x7b"
      ++ Item.renderAll (level + 1) orElse ++ fullLine level "\x7d"
  | .guard conditions orElse =>
    indent level ++ "guard " ++ commaSeparated (Condition.renderAll level conditions) ++ " else"
      ++ Item.renderElse level orElse
  | .switch subject cases =>
    fullLine level ("switch " ++ subject.render level ++ " \x7b")
      ++ SwitchCase.renderAll level cases ++ fullLine level "\x7d"
  | .doCatch body catches =>
    fullLine level "do \x7b" ++ Item.renderAll (level + 1) body
      ++ Catch.renderAll level catches ++ fullLine level "\x7d"
  | .assign target value => fullLine level (target.render level ++ " = " ++ value.render level)
  | .returns none => fullLine level "return"
  | .returns (some value) => fullLine level ("return " ++ value.render level)
  | .expr value => fullLine level (value.render level)

def Item.renderAll (level : Nat) : List Item → String
  | [] => ""
  | item :: items => item.render level ++ Item.renderAll level items

/-- The alternative of a `guard`; a single `return` stays on its line. -/
def Item.renderElse (level : Nat) : List Item → String
  | [] => braced level true ""
  | [item] =>
    match item.renderReturn? level with
    | some text => " \x7b " ++ text ++ " \x7d\n"
    | none => braced level false (item.render (level + 1))
  | item :: items =>
    braced level false (item.render (level + 1) ++ Item.renderAll (level + 1) items)

def Item.renderReturn? (level : Nat) : Item → Option String
  | .returns none => some "return"
  | .returns (some value) => some ("return " ++ value.render level)
  | _ => none

def TypeDecl.render (level : Nat) : TypeDecl → String
  | .mk name kind access inherited body isObjC =>
    wordIf isObjC (fullLine level "@objc") ++ indent level ++ access.render ++ kind.keyword ++ " "
      ++ name.text ++ renderInherited inherited
      ++ braced level body.isEmpty (Item.renderAll (level + 1) body)

def Extension.render (level : Nat) : Extension → String
  | .mk name access inherited constraints body =>
    indent level ++ access.render ++ "extension " ++ name.text ++ renderInherited inherited
      ++ renderConstraints constraints
      ++ braced level body.isEmpty (Item.renderAll (level + 1) body)

def Property.render (level : Nat) : Property → String
  | .mk var access setterAccess value body isObjC =>
    indent level ++ wordIf isObjC "@objc " ++ access.render ++ setterWord setterAccess ++ var.render
      ++ (match value with
          | none => ""
          | some value => " = " ++ value.render level)
      ++ (match body with
          | none => "\n"
          | some body => braced level body.isEmpty (Item.renderAll (level + 1) body))

/-- A parameter. Callers write its label, which is left out where it is the name. -/
def Parameter.render (level : Nat) : Parameter → String
  | .mk label name type default isInOut isEscaping =>
    (match label with
     | none => ""
     | some label => if label = name then "" else label ++ " ")
      ++ name ++ ": " ++ wordIf isInOut "inout " ++ wordIf isEscaping "@escaping " ++ type.text
      ++ (match default with
          | none => ""
          | some value => " = " ++ value.render level)

def Parameter.renderAll (level : Nat) : List Parameter → List String
  | [] => []
  | parameter :: parameters => parameter.render level :: Parameter.renderAll level parameters

def Function.render (level : Nat) : Function → String
  | .mk kind access parameters genericParameters constraints isThrowing isAsync isStatic
      isOverride isMutating hasDiscardableResult result body =>
    wordIf hasDiscardableResult (fullLine level "@discardableResult")
      ++ indent level ++ access.render ++ wordIf isOverride "override " ++ wordIf isStatic "static "
      ++ wordIf isMutating "mutating " ++ kind.render ++ renderGenericParameters genericParameters
      ++ "(" ++ commaSeparated (Parameter.renderAll level parameters) ++ ")"
      ++ wordIf isAsync " async" ++ wordIf isThrowing " throws"
      ++ (match result with
          | none => ""
          | some type => " -> " ++ type.text)
      ++ renderConstraints constraints
      ++ braced level body.isEmpty (Item.renderAll (level + 1) body)

def EnumCase.render (level : Nat) : EnumCase → String
  | .mk name associated rawValue =>
    indent level ++ "case " ++ declaredName name ++ renderAssociated associated
      ++ (match rawValue with
          | none => "\n"
          | some value => " = " ++ value.render level ++ "\n")

def Condition.render (level : Nat) : Condition → String
  | .test value => value.render level
  | .binding name value => "let " ++ name ++ " = " ++ value.render level

def Condition.renderAll (level : Nat) : List Condition → List String
  | [] => []
  | condition :: conditions => condition.render level :: Condition.renderAll level conditions

def Pattern.render (level : Nat) : Pattern → String
  | .default => "default:"
  | .tag name => "case ." ++ name ++ ":"
  | .bindings name bound =>
    "case ." ++ name ++ "(" ++ commaSeparated (bound.map fun v => "let " ++ v) ++ "):"
  | .value value => "case " ++ value.render level ++ ":"

/-- The cases of a `switch`. A case without statements breaks. -/
def SwitchCase.renderAll (level : Nat) : List SwitchCase → String
  | [] => ""
  | .mk pattern body :: cases =>
    fullLine level (pattern.render level)
      ++ (if body.isEmpty then fullLine (level + 1) "break" else Item.renderAll (level + 1) body)
      ++ SwitchCase.renderAll level cases

def Catch.renderAll (level : Nat) : List Catch → String
  | [] => ""
  | .mk pattern body :: catches =>
    fullLine level
        ("\x7d catch" ++
          (match pattern with
           | none => ""
           | some pattern => " " ++ pattern.render level) ++ " \x7b")
      ++ Item.renderAll (level + 1) body ++ Catch.renderAll level catches
end

def Expr.text (e : Expr) : String := e.render 0

def renderItems (items : List Item) : String := Item.renderAll 0 items

end EntityGen.Code
