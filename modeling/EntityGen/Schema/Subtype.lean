import EntityGen.Schema.Scalar

/-!
# Subtypes

A subtype is an enumeration, a set of options or a value with members.
-/

namespace EntityGen.Schema

/-- A case of an enumeration or an option of a set. An unused one keeps its
place but is not emitted. -/
structure Choice where
  name : String
  isUnused : Bool := false
  deriving DecidableEq, Repr

inductive MemberType where
  | scalar (scalar : Scalar)
  | subtype (name : String)
  deriving DecidableEq, Repr

/-- A member of a value. Its key is its name unless another is given. -/
structure Member where
  name : String
  type : MemberType
  key : String := name
  isOptional : Bool := false
  isArray : Bool := false
  deriving DecidableEq, Repr

inductive SubtypeItems where
  | cases (cases : List Choice)
  | options (options : List Choice)
  | members (members : List Member)
  deriving DecidableEq, Repr

structure Subtype where
  name : String
  items : SubtypeItems
  deriving DecidableEq, Repr

namespace Subtype

def isEnum (s : Subtype) : Bool :=
  match s.items with
  | .cases _ => true
  | _ => false

def isOptionSet (s : Subtype) : Bool :=
  match s.items with
  | .options _ => true
  | _ => false

def isStruct (s : Subtype) : Bool :=
  match s.items with
  | .members _ => true
  | _ => false

def usedCases (s : Subtype) : List Choice :=
  match s.items with
  | .cases cases => cases.filter fun c => !c.isUnused
  | _ => []

/-- The used options with their bits. An unused option keeps its bit. -/
def optionBits (s : Subtype) : List (Choice × Nat) :=
  match s.items with
  | .options options => options.zipIdx.filter fun (o, _) => !o.isUnused
  | _ => []

end Subtype
end EntityGen.Schema
