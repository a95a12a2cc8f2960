import EntityGen.Code.Tree

/-!
# Structural equality of code

Two items are equal when they are built alike from equal parts. Float literals
compare as numbers: no `NaN` equals anything, and the two zeros are equal.
-/

namespace EntityGen.Code

mutual
def Expr.same : Expr → Expr → Bool
  | .name a, .name b => a == b
  | .type a, .type b => decide (a = b)
  | .nil, .nil => true
  | .bool a, .bool b => a == b
  | .int a, .int b => a == b
  | .float a, .float b => a == b
  | .string a, .string b => a == b
  | .array as, .array bs => Expr.sameAll as bs
  | .dictionary as, .dictionary bs => Entry.sameAll as bs
  | .closure ps as, .closure qs bs => ps == qs && Item.sameAll as bs
  | .member a n, .member b m => n == m && a.same b
  | .call f as, .call g bs => f.same g && Argument.sameAll as bs
  | .index a i, .index b j => a.same b && i.same j
  | .prefixed o a, .prefixed p b => o == p && a.same b
  | .infixed a o a', .infixed b p b' => o == p && a.same b && a'.same b'
  | .optionalChain a, .optionalChain b => a.same b
  | .forceUnwrap a, .forceUnwrap b => a.same b
  | .tuple as, .tuple bs => Argument.sameAll as bs
  | _, _ => false
termination_by structural a => a

def Expr.sameAll : List Expr → List Expr → Bool
  | [], [] => true
  | a :: as, b :: bs => a.same b && Expr.sameAll as bs
  | _, _ => false
termination_by structural a => a

def Expr.sameOption : Option Expr → Option Expr → Bool
  | none, none => true
  | some a, some b => a.same b
  | _, _ => false
termination_by structural a => a

def Entry.sameAll : List Entry → List Entry → Bool
  | [], [] => true
  | .mk k v :: as, .mk k' v' :: bs => k.same k' && v.same v' && Entry.sameAll as bs
  | _, _ => false
termination_by structural a => a

def Argument.sameAll : List Argument → List Argument → Bool
  | [], [] => true
  | .mk l v :: as, .mk l' v' :: bs => l == l' && v.same v' && Argument.sameAll as bs
  | _, _ => false
termination_by structural a => a

def Item.same : Item → Item → Bool
  | .type a, .type b => a.same b
  | .extension a, .extension b => a.same b
  | .property a, .property b => a.same b
  | .function a, .function b => a.same b
  | .typeAlias a, .typeAlias b => decide (a = b)
  | .enumCase a, .enumCase b => a.same b
  | .comment a, .comment b => decide (a = b)
  | .blank, .blank => true
  | .branch cs as os, .branch ds bs ps =>
    Condition.sameAll cs ds && Item.sameAll as bs && Item.sameOption os ps
  | .guard cs as, .guard ds bs => Condition.sameAll cs ds && Item.sameAll as bs
  | .switch s cs, .switch t ds => s.same t && SwitchCase.sameAll cs ds
  | .doCatch as cs, .doCatch bs ds => Item.sameAll as bs && Catch.sameAll cs ds
  | .assign t v, .assign t' v' => t.same t' && v.same v'
  | .returns a, .returns b => Expr.sameOption a b
  | .expr a, .expr b => a.same b
  | _, _ => false
termination_by structural a => a

def Item.sameAll : List Item → List Item → Bool
  | [], [] => true
  | a :: as, b :: bs => a.same b && Item.sameAll as bs
  | _, _ => false
termination_by structural a => a

def Item.sameOption : Option (List Item) → Option (List Item) → Bool
  | none, none => true
  | some as, some bs => Item.sameAll as bs
  | _, _ => false
termination_by structural a => a

def TypeDecl.same : TypeDecl → TypeDecl → Bool
  | .mk name kind access inherited body isObjC, .mk name' kind' access' inherited' body' isObjC' =>
    decide (name = name' ∧ kind = kind' ∧ access = access' ∧ inherited = inherited'
      ∧ isObjC = isObjC') && Item.sameAll body body'
termination_by structural a => a

def Extension.same : Extension → Extension → Bool
  | .mk name access inherited constraints body, .mk name' access' inherited' constraints' body' =>
    decide (name = name' ∧ access = access' ∧ inherited = inherited' ∧ constraints = constraints')
      && Item.sameAll body body'
termination_by structural a => a

def Property.same : Property → Property → Bool
  | .mk var access setter value body isObjC, .mk var' access' setter' value' body' isObjC' =>
    decide (var = var' ∧ access = access' ∧ setter = setter' ∧ isObjC = isObjC')
      && Expr.sameOption value value' && Item.sameOption body body'
termination_by structural a => a

def Parameter.sameAll : List Parameter → List Parameter → Bool
  | [], [] => true
  | .mk label name type default isInOut isEscaping :: as,
    .mk label' name' type' default' isInOut' isEscaping' :: bs =>
    decide (label = label' ∧ name = name' ∧ type = type' ∧ isInOut = isInOut'
      ∧ isEscaping = isEscaping') && Expr.sameOption default default' && Parameter.sameAll as bs
  | _, _ => false
termination_by structural a => a

def Function.same : Function → Function → Bool
  | .mk kind access parameters generic constraints throwing async static override mutating
      discardable result body,
    .mk kind' access' parameters' generic' constraints' throwing' async' static' override'
      mutating' discardable' result' body' =>
    decide (kind = kind' ∧ access = access' ∧ generic = generic' ∧ constraints = constraints'
      ∧ throwing = throwing' ∧ async = async' ∧ static = static' ∧ override = override'
      ∧ mutating = mutating' ∧ discardable = discardable' ∧ result = result')
      && Parameter.sameAll parameters parameters' && Item.sameAll body body'
termination_by structural a => a

def EnumCase.same : EnumCase → EnumCase → Bool
  | .mk name associated rawValue, .mk name' associated' rawValue' =>
    decide (name = name' ∧ associated = associated') && Expr.sameOption rawValue rawValue'
termination_by structural a => a

def Condition.sameAll : List Condition → List Condition → Bool
  | [], [] => true
  | .test a :: as, .test b :: bs => a.same b && Condition.sameAll as bs
  | .binding n a :: as, .binding m b :: bs => n == m && a.same b && Condition.sameAll as bs
  | _, _ => false
termination_by structural a => a

def Pattern.same : Pattern → Pattern → Bool
  | .default, .default => true
  | .tag a, .tag b => a == b
  | .bindings a vs, .bindings b ws => a == b && vs == ws
  | .value a, .value b => a.same b
  | _, _ => false
termination_by structural a => a

def SwitchCase.sameAll : List SwitchCase → List SwitchCase → Bool
  | [], [] => true
  | .mk p as :: cs, .mk q bs :: ds => p.same q && Item.sameAll as bs && SwitchCase.sameAll cs ds
  | _, _ => false
termination_by structural a => a

def Catch.sameAll : List Catch → List Catch → Bool
  | [], [] => true
  | .mk p as :: cs, .mk q bs :: ds =>
    Expr.sameOption p q && Item.sameAll as bs && Catch.sameAll cs ds
  | _, _ => false
termination_by structural a => a
end

end EntityGen.Code
