import EntityGen.Code.TypeName

/-!
# The tree of generated code

An `Expr` is an expression, an `Item` anything that stands on lines of its
own: a declaration, a statement, a comment or a blank line. The tree is
permissive: any item may stand in any body.
-/

namespace EntityGen.Code

inductive TypeKind where
  | classType (isFinal : Bool)
  | structType
  | enumType (isIndirect : Bool)
  | protocolType
  deriving DecidableEq, Repr

/-- The word written as visibility; `unspecified` writes none. -/
inductive Access where
  | unspecified
  | openAccess
  | publicAccess
  | internalAccess
  | filePrivateAccess
  | privateAccess
  deriving DecidableEq, Repr

inductive PrefixOp where
  | dot
  | tryThrowing
  | tryOptional
  | tryForced
  | throwing
  | awaiting
  | addressOf
  | not
  deriving DecidableEq, Repr

inductive InfixOp where
  | equal
  | notEqual
  | less
  | greater
  | lessOrEqual
  | greaterOrEqual
  | and
  | or
  | nilCoalescing
  | plus
  | minus
  | shiftLeft
  | cast
  | castOptional
  | is
  deriving DecidableEq, Repr

structure Variable where
  name : String
  type : Option TypeName := none
  isImmutable : Bool := true
  isStatic : Bool := false
  isLazy : Bool := false
  isWeak : Bool := false
  deriving DecidableEq

inductive FunctionKind where
  | named (name : String)
  | initializer (isConvenience isFailable : Bool)
  | operator (symbol : String)
  | subscript
  deriving DecidableEq, Repr

inductive Constraint where
  | conforms (subject requirement : TypeName)
  | equals (left right : TypeName)
  deriving DecidableEq

structure TypeAlias where
  name : TypeName
  value : TypeName
  access : Access := .unspecified
  deriving DecidableEq

inductive Comment where
  | line (text : String)
  | doc (text : String)
  | mark (text : String)
  deriving DecidableEq, Repr

mutual
inductive Expr where
  | name (name : String)
  | type (type : TypeName)
  | nil
  | bool (value : Bool)
  | int (value : Int)
  | float (value : Float)
  | string (value : String)
  | array (elements : List Expr)
  | dictionary (entries : List Entry)
  | closure (parameters : List String) (body : List Item)
  | member (base : Expr) (name : String)
  | call (callee : Expr) (arguments : List Argument)
  | index (base : Expr) (position : Expr)
  | prefixed (op : PrefixOp) (operand : Expr)
  | infixed (left : Expr) (op : InfixOp) (right : Expr)
  | optionalChain (base : Expr)
  | forceUnwrap (base : Expr)
  | tuple (elements : List Argument)

structure Entry where
  key : Expr
  value : Expr

structure Argument where
  label : Option String := none
  value : Expr

inductive Item where
  | type (decl : TypeDecl)
  | extension (decl : Extension)
  | property (decl : Property)
  | function (decl : Function)
  | typeAlias (decl : TypeAlias)
  | enumCase (decl : EnumCase)
  | comment (comment : Comment)
  | blank
  | branch (conditions : List Condition) (body : List Item) (orElse : Option (List Item))
  | guard (conditions : List Condition) (orElse : List Item)
  | switch (subject : Expr) (cases : List SwitchCase)
  | doCatch (body : List Item) (catches : List Catch)
  | assign (target : Expr) (value : Expr)
  | returns (value : Option Expr)
  | expr (value : Expr)

structure TypeDecl where
  name : TypeName
  kind : TypeKind
  access : Access := .unspecified
  inherited : List TypeName := []
  body : List Item := []
  isObjC : Bool := false

structure Extension where
  name : TypeName
  access : Access := .unspecified
  inherited : List TypeName := []
  constraints : List Constraint := []
  body : List Item := []

/-- A property. With a body it is computed. -/
structure Property where
  var : Variable
  access : Access := .unspecified
  setterAccess : Option Access := none
  value : Option Expr := none
  body : Option (List Item) := none
  isObjC : Bool := false

structure Parameter where
  label : Option String := none
  name : String
  type : TypeName
  default : Option Expr := none
  isInOut : Bool := false
  isEscaping : Bool := false

structure Function where
  kind : FunctionKind
  access : Access := .unspecified
  parameters : List Parameter := []
  genericParameters : List TypeName := []
  constraints : List Constraint := []
  isThrowing : Bool := false
  isAsync : Bool := false
  isStatic : Bool := false
  isOverride : Bool := false
  isMutating : Bool := false
  hasDiscardableResult : Bool := false
  result : Option TypeName := none
  body : List Item := []

structure EnumCase where
  name : String
  associated : List TypeName := []
  rawValue : Option Expr := none

inductive Condition where
  | test (value : Expr)
  | binding (name : String) (value : Expr)

inductive Pattern where
  | default
  | tag (name : String)
  | bindings (name : String) (bound : List String)
  | value (value : Expr)

structure SwitchCase where
  pattern : Pattern
  body : List Item := []

/-- One `catch` clause; without a pattern it catches everything. -/
structure Catch where
  pattern : Option Expr := none
  body : List Item := []
end

instance : Inhabited Expr := ⟨.nil⟩
instance : Inhabited Item := ⟨.blank⟩

end EntityGen.Code
