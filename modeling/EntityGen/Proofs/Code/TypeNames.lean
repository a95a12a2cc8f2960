import EntityGen.Proofs.Code.Parts

/-!
# Types that code mentions

Types stand where something is declared, where it is annotated, and in
expressions that make or pass them. A type mentions its own name and those of
its arguments; what is put around it has no name.
-/

namespace EntityGen.Code

-- ---------------------------------------------------------------------------
-- Types
-- ---------------------------------------------------------------------------

namespace TypeName

mutual
def mentions : TypeName → List String
  | .mk name parameters _ _ => name :: mentionsOf parameters

def mentionsOf : List TypeName → List String
  | [] => []
  | t :: ts => t.mentions ++ mentionsOf ts
end

def Each (p : String → Prop) (t : TypeName) : Prop := ∀ name ∈ t.mentions, p name

variable {p : String → Prop} {t : TypeName}

theorem forall_mem_mentionsOf {ts : List TypeName} :
    (∀ name ∈ mentionsOf ts, p name) ↔ ∀ t ∈ ts, t.Each p := by
  induction ts with
  | nil => simp [mentionsOf]
  | cons t ts ih => rw [mentionsOf, List.forall_mem_append, List.forall_mem_cons, ih, Each]

theorem each_iff : t.Each p ↔ p t.name ∧ ∀ u ∈ t.parameters, u.Each p := by
  obtain ⟨name, parameters, wrappers, isMetatype⟩ := t
  rw [← forall_mem_mentionsOf, Each, mentions, List.forall_mem_cons]

@[simp] theorem each_mk {name : String} {parameters : List TypeName} {wrappers : List Wrapper}
    {isMetatype : Bool} :
    (mk name parameters wrappers isMetatype).Each p ↔ p name ∧ ∀ u ∈ parameters, u.Each p :=
  each_iff

@[simp] theorem each_optional : t.optional.Each p ↔ t.Each p := by
  rw [each_iff, each_iff (t := t)]
  rfl

@[simp] theorem each_optionalIf {condition : Bool} :
    (t.optionalIf condition).Each p ↔ t.Each p := by
  cases condition <;> simp [optionalIf]

@[simp] theorem each_array : t.array.Each p ↔ t.Each p := by
  rw [each_iff, each_iff (t := t)]
  rfl

@[simp] theorem each_metatype : t.metatype.Each p ↔ t.Each p := by
  rw [each_iff, each_iff (t := t)]
  rfl

@[simp] theorem each_unwrapped : t.unwrapped.Each p ↔ t.Each p := by
  rw [unwrapped]
  split
  · rw [each_iff, each_iff (t := t)]
  · rfl

@[simp] theorem each_anySequence : (anySequence t).Each p ↔ p "AnySequence" ∧ t.Each p := by
  simp [anySequence]

@[simp] theorem each_lazy : (lazy t).Each p ↔ p "Lazy" ∧ t.Each p := by
  simp [lazy]

@[simp] theorem each_dictionary {u : TypeName} :
    (dictionary t u).Each p ↔ p "Dictionary" ∧ t.Each p ∧ u.Each p := by
  simp [dictionary]

end TypeName

-- ---------------------------------------------------------------------------
-- Parts
-- ---------------------------------------------------------------------------

def Constraint.types : Constraint → List TypeName
  | .conforms subject requirement => [subject, requirement]
  | .equals left right => [left, right]

/-- The types written in a part itself, not in the parts of it. -/
def Part.types : Part → List TypeName
  | .expr (.type t) => [t]
  | .expr _ => []
  | .item (.type decl) => decl.name :: decl.inherited
  | .item (.extension decl) =>
    decl.name :: (decl.inherited ++ decl.constraints.flatMap Constraint.types)
  | .item (.property decl) => decl.var.type.toList
  | .item (.function f) =>
    f.parameters.map (·.type) ++ f.genericParameters ++ f.constraints.flatMap Constraint.types
      ++ f.result.toList
  | .item (.typeAlias decl) => [decl.name, decl.value]
  | .item (.enumCase decl) => decl.associated
  | .item _ => []

/-- Every name that the types of the part mention has the property. -/
def Part.MentionsOnly (p : String → Prop) (part : Part) : Prop := ∀ t ∈ part.types, t.Each p

abbrev Expr.MentionsOnly (p : String → Prop) (e : Expr) : Prop := e.Each (Part.MentionsOnly p)

abbrev Item.MentionsOnly (p : String → Prop) (i : Item) : Prop := i.Each (Part.MentionsOnly p)

-- ---------------------------------------------------------------------------
-- Files
-- ---------------------------------------------------------------------------

namespace SourceFile

def mentions (file : SourceFile) : List String :=
  (Item.partsOf file.body).flatMap fun part => part.types.flatMap TypeName.mentions

theorem forall_mem_mentions {file : SourceFile} {p : String → Prop} :
    (∀ name ∈ file.mentions, p name) ↔ ∀ i ∈ file.body, i.MentionsOnly p := by
  simp only [Item.MentionsOnly, ← Item.forall_mem_partsOf, mentions, List.forall_mem_flatMap]
  rfl

def declarations (file : SourceFile) : List String :=
  file.body.filterMap fun
    | .type decl => some decl.name.name
    | _ => none

end SourceFile
end EntityGen.Code
