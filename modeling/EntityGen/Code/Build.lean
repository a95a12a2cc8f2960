import EntityGen.Code.Tree

/-!
# Building code

Short forms for the expressions that generated code is made of, and the
settings of declarations that imply others: a lazy or weak variable is
mutable, a computed property is not a constant, an operator is static.
-/

namespace EntityGen.Code

namespace Argument

def unlabelled (value : Expr) : Argument := { value }

def labelled (label : String) (value : Expr) : Argument := { label := some label, value }

end Argument

namespace Expr

/-- The implicit member `.name`. -/
def dot (name : String) : Expr := .prefixed .dot (.name name)

/-- The case `.none` of an optional. -/
def absent : Expr := dot "none"

def selfRef : Expr := .name "self"

def callEmpty (callee : Expr) : Expr := .call callee []

def method (base : Expr) (name : String) (arguments : List Argument) : Expr :=
  .call (.member base name) arguments

/-- A call with one closure as its only argument. -/
def callClosure (callee : Expr) (parameters : List String) (body : List Item) : Expr :=
  .call callee [.unlabelled (.closure parameters body)]

def optionalIf (e : Expr) (condition : Bool) : Expr :=
  if condition then .optionalChain e else e

def equals (left right : Expr) : Expr := .infixed left .equal right
def notEquals (left right : Expr) : Expr := .infixed left .notEqual right
def and (left right : Expr) : Expr := .infixed left .and right
def or (left right : Expr) : Expr := .infixed left .or right
def orElse (left right : Expr) : Expr := .infixed left .nilCoalescing right

def tryThrowing (operand : Expr) : Expr := .prefixed .tryThrowing operand
def tryOptional (operand : Expr) : Expr := .prefixed .tryOptional operand
def throwing (operand : Expr) : Expr := .prefixed .throwing operand
def awaiting (operand : Expr) : Expr := .prefixed .awaiting operand
def addressOf (operand : Expr) : Expr := .prefixed .addressOf operand
def negated (operand : Expr) : Expr := .prefixed .not operand

def isAbsent : Expr → Bool
  | .nil => true
  | .prefixed .dot (.name "none") => true
  | _ => false

def isImplicitMember : Expr → Bool
  | .prefixed .dot _ => true
  | _ => false

end Expr

def TypeName.construct (t : TypeName) (arguments : List Argument) : Expr :=
  .call (.type t) arguments

namespace Item

def constant (name : String) (value : Expr) : Item :=
  .property { var := { name }, value := some value }

def returning (value : Expr) : Item := .returns (some value)

def assignOwn (name : String) (value : Expr) : Item :=
  .assign (.member .selfRef name) value

/-- Groups of items with a blank line between each two. -/
def grouped (groups : List (List Item)) : List Item :=
  [.blank].intercalate groups

end Item

namespace Variable

def withLazy (v : Variable) (isLazy : Bool) : Variable :=
  { v with isLazy, isImmutable := v.isImmutable && !isLazy }

def withWeak (v : Variable) (isWeak : Bool) : Variable :=
  { v with isWeak, isImmutable := v.isImmutable && !isWeak }

def reference (v : Variable) : Expr := .name v.name

end Variable

def Property.withBody (p : Property) (body : List Item) : Property :=
  { p with body := some body, var := { p.var with isImmutable := false } }

namespace Function

def named (name : String) : Function := { kind := .named name }

def initializer : Function := { kind := .initializer false false }

def operator (symbol : String) : Function :=
  { kind := .operator symbol, isStatic := true }

def name? (f : Function) : Option String :=
  match f.kind with
  | .named name => some name
  | _ => none

end Function

/-- A list with one more entry, unless it holds that entry already. -/
def addDistinct {α : Type} [DecidableEq α] (entries : List α) (entry : α) : List α :=
  if entry ∈ entries then entries else entries ++ [entry]

def addAllDistinct {α : Type} [DecidableEq α] (entries more : List α) : List α :=
  more.foldl addDistinct entries

def TypeDecl.inheriting (t : TypeDecl) (types : List TypeName) : TypeDecl :=
  { t with inherited := addAllDistinct t.inherited types }

def Extension.inheriting (e : Extension) (types : List TypeName) : Extension :=
  { e with inherited := addAllDistinct e.inherited types }

end EntityGen.Code
