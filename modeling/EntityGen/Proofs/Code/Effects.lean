import EntityGen.Proofs.Code.Parts

/-!
# Declared effects

A function declares what its body does: it is marked as throwing exactly if the
body may throw, and as asynchronous exactly if the body waits somewhere outside
of its closures. A computed property cannot be marked, so its body must not
throw.
-/

namespace EntityGen.Code

-- ---------------------------------------------------------------------------
-- Waiting
-- ---------------------------------------------------------------------------

def Condition.mayAwait : Condition → Bool
  | .test value | .binding _ value => value.mayAwait

def Pattern.mayAwait : Pattern → Bool
  | .default | .tag _ | .bindings _ _ => false
  | .value e => e.mayAwait

def Expr.optionMayAwait : Option Expr → Bool
  | none => false
  | some e => e.mayAwait

mutual
def Item.mayAwait : Item → Bool
  | .property (.mk _ _ _ value _ _) => Expr.optionMayAwait value
  | .branch conditions body none => conditions.any Condition.mayAwait || Item.anyMayAwait body
  | .branch conditions body (some orElse) =>
    conditions.any Condition.mayAwait || Item.anyMayAwait body || Item.anyMayAwait orElse
  | .guard conditions orElse => conditions.any Condition.mayAwait || Item.anyMayAwait orElse
  | .switch subject cases => subject.mayAwait || SwitchCase.anyMayAwait cases
  | .doCatch body catches => Item.anyMayAwait body || Catch.anyMayAwait catches
  | .assign target value => target.mayAwait || value.mayAwait
  | .returns value => Expr.optionMayAwait value
  | .expr value => value.mayAwait
  | .type _ | .extension _ | .function _ | .typeAlias _ | .enumCase _ | .comment _ | .blank => false

def Item.anyMayAwait : List Item → Bool
  | [] => false
  | item :: items => item.mayAwait || Item.anyMayAwait items

def SwitchCase.anyMayAwait : List SwitchCase → Bool
  | [] => false
  | .mk pattern body :: cases =>
    pattern.mayAwait || Item.anyMayAwait body || SwitchCase.anyMayAwait cases

def Catch.anyMayAwait : List Catch → Bool
  | [] => false
  | .mk pattern body :: catches =>
    Expr.optionMayAwait pattern || Item.anyMayAwait body || Catch.anyMayAwait catches
end

attribute [simp] Expr.mayThrow Expr.mayAwait Condition.mayThrow Condition.mayAwait
  Expr.optionMayThrow Expr.optionMayAwait Item.mayThrow Item.mayAwait

@[simp] theorem Pattern.mayAwait_default : Pattern.mayAwait .default = false := rfl

@[simp] theorem Pattern.mayAwait_tag (name : String) : Pattern.mayAwait (.tag name) = false := rfl

@[simp] theorem Pattern.mayAwait_bindings (name : String) (bound : List String) :
    Pattern.mayAwait (.bindings name bound) = false := rfl

@[simp] theorem Pattern.mayAwait_value (e : Expr) : Pattern.mayAwait (.value e) = e.mayAwait := rfl

-- ---------------------------------------------------------------------------
-- Effects of lists
-- ---------------------------------------------------------------------------

@[simp] theorem Expr.anyMayThrow_eq (es : List Expr) :
    Expr.anyMayThrow es = es.any Expr.mayThrow := by
  induction es with
  | nil => rfl
  | cons e es ih => simp [Expr.anyMayThrow, ih]

@[simp] theorem Expr.anyMayAwait_eq (es : List Expr) :
    Expr.anyMayAwait es = es.any Expr.mayAwait := by
  induction es with
  | nil => rfl
  | cons e es ih => simp [Expr.anyMayAwait, ih]

@[simp] theorem Entry.anyMayThrow_eq (entries : List Entry) :
    Entry.anyMayThrow entries = entries.any fun a => a.key.mayThrow || a.value.mayThrow := by
  induction entries with
  | nil => rfl
  | cons a entries ih =>
    obtain ⟨key, value⟩ := a
    simp [Entry.anyMayThrow, ih]

@[simp] theorem Argument.anyMayThrow_eq (arguments : List Argument) :
    Argument.anyMayThrow arguments = arguments.any (·.value.mayThrow) := by
  induction arguments with
  | nil => rfl
  | cons a arguments ih =>
    obtain ⟨label, value⟩ := a
    simp [Argument.anyMayThrow, ih]

@[simp] theorem Argument.anyMayAwait_eq (arguments : List Argument) :
    Argument.anyMayAwait arguments = arguments.any (·.value.mayAwait) := by
  induction arguments with
  | nil => rfl
  | cons a arguments ih =>
    obtain ⟨label, value⟩ := a
    simp [Argument.anyMayAwait, ih]

@[simp] theorem Item.anyMayThrow_eq (items : List Item) :
    Item.anyMayThrow items = items.any Item.mayThrow := by
  induction items with
  | nil => rfl
  | cons i items ih => simp [Item.anyMayThrow, ih]

@[simp] theorem Item.anyMayAwait_eq (items : List Item) :
    Item.anyMayAwait items = items.any Item.mayAwait := by
  induction items with
  | nil => rfl
  | cons i items ih => simp [Item.anyMayAwait, ih]

@[simp] theorem SwitchCase.anyMayThrow_eq (cases : List SwitchCase) :
    SwitchCase.anyMayThrow cases = cases.any fun c => c.body.any Item.mayThrow := by
  induction cases with
  | nil => rfl
  | cons c cases ih =>
    obtain ⟨pattern, body⟩ := c
    simp [SwitchCase.anyMayThrow, ih]

@[simp] theorem SwitchCase.anyMayAwait_eq (cases : List SwitchCase) :
    SwitchCase.anyMayAwait cases =
      cases.any fun c => c.pattern.mayAwait || c.body.any Item.mayAwait := by
  induction cases with
  | nil => rfl
  | cons c cases ih =>
    obtain ⟨pattern, body⟩ := c
    simp [SwitchCase.anyMayAwait, ih]

@[simp] theorem Catch.anyMayThrow_eq (catches : List Catch) :
    Catch.anyMayThrow catches = catches.any fun c => c.body.any Item.mayThrow := by
  induction catches with
  | nil => rfl
  | cons c catches ih =>
    obtain ⟨pattern, body⟩ := c
    simp [Catch.anyMayThrow, ih]

@[simp] theorem Catch.anyMayAwait_eq (catches : List Catch) :
    Catch.anyMayAwait catches =
      catches.any fun c => Expr.optionMayAwait c.pattern || c.body.any Item.mayAwait := by
  induction catches with
  | nil => rfl
  | cons c catches ih =>
    obtain ⟨pattern, body⟩ := c
    simp [Catch.anyMayAwait, ih]

-- ---------------------------------------------------------------------------
-- Declarations
-- ---------------------------------------------------------------------------

/-- The marks of the function are the effects of its body. -/
def Function.EffectsExact (f : Function) : Prop :=
  f.isThrowing = Item.anyMayThrow f.body ∧ f.isAsync = Item.anyMayAwait f.body

/-- The part declares its effects, if it has any to declare. -/
def Part.EffectsExact : Part → Prop
  | .item (.function f) => f.EffectsExact
  | .item (.property p) => ∀ body, p.body = some body → Item.anyMayThrow body = false
  | _ => True

abbrev Item.EffectsExact (i : Item) : Prop := i.Each Part.EffectsExact

/-- Evaluating the expression neither throws nor waits. -/
structure Expr.Quiet (e : Expr) : Prop where
  throws : e.mayThrow = false
  awaits : e.mayAwait = false
  parts : e.Each Part.EffectsExact

structure Item.Quiet (i : Item) : Prop where
  throws : i.mayThrow = false
  awaits : i.mayAwait = false
  parts : i.EffectsExact

section
attribute [local simp] Part.EffectsExact

namespace Expr

theorem quiet_name (x : String) : (name x).Quiet := by
  constructor <;> simp

theorem quiet_type (t : TypeName) : (type t).Quiet := by
  constructor <;> simp

variable {e : Expr}

theorem Quiet.member (h : e.Quiet) (x : String) : (Expr.member e x).Quiet := by
  constructor <;> simp [h.throws, h.awaits, h.parts]

theorem Quiet.call {arguments : List Argument} (h : e.Quiet)
    (ha : ∀ a ∈ arguments, a.value.Quiet) : (Expr.call e arguments).Quiet := by
  constructor
  · simpa [h.throws] using fun a h => (ha a h).throws
  · simpa [h.awaits] using fun a h => (ha a h).awaits
  · simpa [h.parts] using fun a h => (ha a h).parts

theorem Quiet.item (h : e.Quiet) : (Item.expr e).Quiet := by
  constructor <;> simp [h.throws, h.awaits, h.parts]

theorem Quiet.returning (h : e.Quiet) : (Item.returning e).Quiet := by
  constructor <;> simp [h.throws, h.awaits, h.parts]

end Expr
end

theorem Item.any_mayThrow_of_quiet {items : List Item} (h : ∀ i ∈ items, i.Quiet) :
    items.any Item.mayThrow = false := by
  simpa using fun i hi => (h i hi).throws

theorem Item.any_mayAwait_of_quiet {items : List Item} (h : ∀ i ∈ items, i.Quiet) :
    items.any Item.mayAwait = false := by
  simpa using fun i hi => (h i hi).awaits

theorem Function.effectsExact_of_quiet {f : Function} (hthrow : f.isThrowing = false)
    (hasync : f.isAsync = false)
    (hparameters : ∀ p ∈ f.parameters, p.Each Part.EffectsExact)
    (hbody : ∀ i ∈ f.body, i.Quiet) : (Item.function f).EffectsExact := by
  refine Item.each_function.mpr ⟨⟨?_, ?_⟩, hparameters, fun i hi => (hbody i hi).parts⟩
  · rw [hthrow, Item.anyMayThrow_eq, Item.any_mayThrow_of_quiet hbody]
  · rw [hasync, Item.anyMayAwait_eq, Item.any_mayAwait_of_quiet hbody]

theorem Property.effectsExact_of_quiet {p : Property} {body : List Item} (hvalue : p.value = none)
    (hbody : p.body = some body) (h : ∀ i ∈ body, i.Quiet) : (Item.property p).EffectsExact := by
  refine Item.each_property.mpr ⟨?_, by simp [hvalue], ?_⟩
  · intro body' hb
    obtain rfl : body = body' := by simpa [hbody] using hb
    rw [Item.anyMayThrow_eq, Item.any_mayThrow_of_quiet h]
  · intro body' hb
    obtain rfl : body = body' := by simpa [hbody] using hb
    exact fun i hi => (h i hi).parts

theorem Item.blank_effectsExact : Item.blank.EffectsExact := by
  simp [Part.EffectsExact]

end EntityGen.Code
