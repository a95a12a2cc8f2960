import EntityGen.Code.Tree

/-!
# Effects of code

Which expressions and items may throw or wait. A closure has the effects of
its calls, not of its construction, so its body does not count; `try?` and
`try!` absorb what their operand throws.
-/

namespace EntityGen.Code

mutual
/-- Evaluating the expression may throw. -/
def Expr.mayThrow : Expr → Bool
  | .name _ | .type _ | .nil | .bool _ | .int _ | .float _ | .string _ | .closure _ _ => false
  | .array elements => Expr.anyMayThrow elements
  | .dictionary entries => Entry.anyMayThrow entries
  | .member base _ | .optionalChain base | .forceUnwrap base => base.mayThrow
  | .call callee arguments => callee.mayThrow || Argument.anyMayThrow arguments
  | .index base position => base.mayThrow || position.mayThrow
  | .prefixed .tryThrowing _ | .prefixed .throwing _ => true
  | .prefixed .tryOptional _ | .prefixed .tryForced _ => false
  | .prefixed .dot operand | .prefixed .awaiting operand | .prefixed .addressOf operand
  | .prefixed .not operand => operand.mayThrow
  | .infixed left _ right => left.mayThrow || right.mayThrow
  | .tuple elements => Argument.anyMayThrow elements

def Expr.anyMayThrow : List Expr → Bool
  | [] => false
  | e :: es => e.mayThrow || Expr.anyMayThrow es

def Entry.anyMayThrow : List Entry → Bool
  | [] => false
  | .mk key value :: entries => key.mayThrow || value.mayThrow || Entry.anyMayThrow entries

def Argument.anyMayThrow : List Argument → Bool
  | [] => false
  | .mk _ value :: arguments => value.mayThrow || Argument.anyMayThrow arguments
end

mutual
def Expr.mayAwait : Expr → Bool
  | .name _ | .type _ | .nil | .bool _ | .int _ | .float _ | .string _ | .closure _ _ => false
  | .array elements => Expr.anyMayAwait elements
  | .dictionary entries => Entry.anyMayAwait entries
  | .member base _ | .optionalChain base | .forceUnwrap base => base.mayAwait
  | .call callee arguments => callee.mayAwait || Argument.anyMayAwait arguments
  | .index base position => base.mayAwait || position.mayAwait
  | .prefixed op operand => op == .awaiting || operand.mayAwait
  | .infixed left _ right => left.mayAwait || right.mayAwait
  | .tuple elements => Argument.anyMayAwait elements

def Expr.anyMayAwait : List Expr → Bool
  | [] => false
  | e :: es => e.mayAwait || Expr.anyMayAwait es

def Entry.anyMayAwait : List Entry → Bool
  | [] => false
  | .mk key value :: entries => key.mayAwait || value.mayAwait || Entry.anyMayAwait entries

def Argument.anyMayAwait : List Argument → Bool
  | [] => false
  | .mk _ value :: arguments => value.mayAwait || Argument.anyMayAwait arguments
end

def Condition.mayThrow : Condition → Bool
  | .test value | .binding _ value => value.mayThrow

def Expr.optionMayThrow : Option Expr → Bool
  | none => false
  | some e => e.mayThrow

mutual
/-- Running the item may throw. Declarations run nothing but the value of a
property; a `catch` without a pattern absorbs what its `do` body throws. -/
def Item.mayThrow : Item → Bool
  | .property (.mk _ _ _ value _ _) => Expr.optionMayThrow value
  | .branch conditions body none => conditions.any Condition.mayThrow || Item.anyMayThrow body
  | .branch conditions body (some orElse) =>
    conditions.any Condition.mayThrow || Item.anyMayThrow body || Item.anyMayThrow orElse
  | .guard conditions orElse => conditions.any Condition.mayThrow || Item.anyMayThrow orElse
  | .switch subject cases => subject.mayThrow || SwitchCase.anyMayThrow cases
  | .doCatch body catches =>
    (!catches.any (·.pattern.isNone) && Item.anyMayThrow body) || Catch.anyMayThrow catches
  | .assign _ value => value.mayThrow
  | .returns value => Expr.optionMayThrow value
  | .expr value => value.mayThrow
  | .type _ | .extension _ | .function _ | .typeAlias _ | .enumCase _ | .comment _ | .blank => false

def Item.anyMayThrow : List Item → Bool
  | [] => false
  | item :: items => item.mayThrow || Item.anyMayThrow items

def SwitchCase.anyMayThrow : List SwitchCase → Bool
  | [] => false
  | .mk _ body :: cases => Item.anyMayThrow body || SwitchCase.anyMayThrow cases

def Catch.anyMayThrow : List Catch → Bool
  | [] => false
  | .mk _ body :: catches => Item.anyMayThrow body || Catch.anyMayThrow catches
end

end EntityGen.Code
