import EntityGen.Emit.Error
import Mathlib.Data.List.Forall2

/-!
# Results of checks and generators

A generator succeeds step by step, so its success reads as the success of each
step, and its failure as the failure of one of them. `FailsOnly p x` bounds the
failures of `x`, again step by step.
-/

namespace EntityGen

universe u v

variable {ε : Type u} {α β : Type v}

-- ---------------------------------------------------------------------------
-- Success
-- ---------------------------------------------------------------------------

theorem ok_bind {a : α} {f : α → Except ε β} : (Except.ok a >>= f) = f a := rfl

theorem pure_eq_ok {a : α} : (pure a : Except ε α) = .ok a := rfl

theorem bind_ok {x : Except ε α} {f : α → Except ε β} {b : β} :
    x >>= f = .ok b ↔ ∃ a, x = .ok a ∧ f a = .ok b := by
  cases x <;> simp [bind, Except.bind]

theorem pure_ok {a b : α} : (pure a : Except ε α) = .ok b ↔ a = b := by
  simp [pure, Except.pure]

theorem map_ok {x : Except ε α} {f : α → β} {b : β} :
    f <$> x = .ok b ↔ ∃ a, x = .ok a ∧ f a = b := by
  cases x <;> simp [Functor.map, Except.map]

theorem throw_ok {e : ε} {a : α} : (throw e : Except ε α) = .ok a ↔ False :=
  ⟨nofun, False.elim⟩

theorem ite_throw_ok {c : Prop} [Decidable c] {e : ε} {x : PUnit → Except ε α} {a : α} :
    (if c then throw e >>= x else x ⟨⟩) = .ok a ↔ ¬c ∧ x ⟨⟩ = .ok a := by
  split
  · next h => simp [h, bind_ok, throw_ok]
  · next h => simp [h]

theorem toOption_eq_some {x : Except ε α} {a : α} : x.toOption = some a ↔ x = .ok a := by
  cases x <;> simp [Except.toOption]

/-- A result with a property, from an evaluation of both. -/
theorem exists_ok_of_decide {x : Except ε α} {p : α → Prop} [DecidablePred p]
    (h : (x.toOption.map fun a => decide (p a)) = some true) : ∃ a, x = .ok a ∧ p a := by
  obtain ⟨a, ha, hp⟩ := Option.map_eq_some_iff.mp h
  exact ⟨a, toOption_eq_some.mp ha, of_decide_eq_true hp⟩

theorem schema_ok {x : Except Schema.Error α} {a : α} :
    (liftM x : Except Emit.Error α) = .ok a ↔ x = .ok a := by
  cases x <;> simp [liftM, monadLift, MonadLift.monadLift, Except.mapError]

theorem document_ok {x : Except Document.Error α} {a : α} :
    (liftM x : Except Emit.Error α) = .ok a ↔ x = .ok a := by
  cases x <;> simp [liftM, monadLift, MonadLift.monadLift, Except.mapError]

theorem mapM_ok {xs : List α} {f : α → Except ε β} {ys : List β} :
    xs.mapM f = .ok ys ↔ List.Forall₂ (fun x y => f x = .ok y) xs ys := by
  induction xs generalizing ys with
  | nil => cases ys <;> simp [pure_ok]
  | cons x xs ih =>
    simp only [List.mapM_cons, bind_ok, pure_ok, List.forall₂_cons_left_iff, ih]
    constructor
    · rintro ⟨y, hy, zs, hzs, rfl⟩
      exact ⟨y, zs, hy, hzs, rfl⟩
    · rintro ⟨y, zs, hy, hzs, rfl⟩
      exact ⟨y, hy, zs, hzs, rfl⟩

theorem forall_mem_of_mapM_ok {xs : List α} {f : α → Except ε β} {ys : List β} {p : β → Prop}
    (h : xs.mapM f = .ok ys) (hp : ∀ x ∈ xs, ∀ y, f x = .ok y → p y) : ∀ y ∈ ys, p y := by
  replace h := mapM_ok.mp h
  induction h with
  | nil => simp
  | cons hy _ ih =>
    simp only [List.forall_mem_cons] at hp ⊢
    exact ⟨hp.1 _ hy, ih hp.2⟩

theorem exists_mapM_ok {xs : List α} {f : α → Except ε β} (h : ∀ x ∈ xs, ∃ y, f x = .ok y) :
    ∃ ys, xs.mapM f = .ok ys := by
  induction xs with
  | nil => exact ⟨[], rfl⟩
  | cons x xs ih =>
    obtain ⟨⟨y, hy⟩, hxs⟩ := List.forall_mem_cons.mp h
    obtain ⟨ys, hys⟩ := ih hxs
    exact ⟨y :: ys, mapM_ok.mpr (.cons hy (mapM_ok.mp hys))⟩

theorem exists_of_mapM_ok {xs : List α} {f : α → Except ε β} {ys : List β}
    (h : xs.mapM f = .ok ys) {x : α} (hx : x ∈ xs) : ∃ y ∈ ys, f x = .ok y := by
  replace h := mapM_ok.mp h
  induction h with
  | nil => cases hx
  | cons hy _ ih =>
    rcases List.mem_cons.mp hx with rfl | hx
    · exact ⟨_, List.mem_cons_self, hy⟩
    · obtain ⟨y, hmem, hy⟩ := ih hx
      exact ⟨y, List.mem_cons_of_mem _ hmem, hy⟩

theorem map_eq_of_mapM_ok {γ : Type*} {xs : List α} {f : α → Except ε β} {ys : List β}
    {g : α → γ} {g' : β → γ} (h : xs.mapM f = .ok ys)
    (hg : ∀ x ∈ xs, ∀ y, f x = .ok y → g' y = g x) : ys.map g' = xs.map g := by
  replace h := mapM_ok.mp h
  induction h with
  | nil => rfl
  | cons hy _ ih =>
    simp only [List.forall_mem_cons] at hg
    simp only [List.map_cons, hg.1 _ hy, ih hg.2]

theorem exists_of_forall₂ {R : α → β → Prop} {xs : List α} {ys : List β}
    (h : List.Forall₂ R xs ys) {y : β} (hy : y ∈ ys) : ∃ x ∈ xs, R x y := by
  induction h with
  | nil => cases hy
  | cons hr _ ih =>
    rcases List.mem_cons.mp hy with rfl | hy
    · exact ⟨_, List.mem_cons_self, hr⟩
    · obtain ⟨x, hx, hr⟩ := ih hy
      exact ⟨x, List.mem_cons_of_mem _ hx, hr⟩

theorem forM_ok {xs : List α} {f : α → Except ε PUnit} :
    xs.forM f = .ok ⟨⟩ ↔ ∀ x ∈ xs, f x = .ok ⟨⟩ := by
  induction xs with
  | nil => simp [pure_ok]
  | cons x xs ih =>
    rw [List.forall_mem_cons, ← ih]
    constructor
    · intro h
      obtain ⟨_, hx, hxs⟩ := bind_ok.mp h
      exact ⟨hx, hxs⟩
    · rintro ⟨hx, hxs⟩
      exact bind_ok.mpr ⟨_, hx, hxs⟩

-- ---------------------------------------------------------------------------
-- Failure
-- ---------------------------------------------------------------------------

/-- Whatever `x` fails with satisfies `p`. -/
def FailsOnly (p : ε → Prop) (x : Except ε α) : Prop := ∀ e, x = .error e → p e

namespace FailsOnly

variable {p : ε → Prop}

theorem ok (a : α) : FailsOnly p (.ok a) := nofun

theorem pure (a : α) : FailsOnly p (Pure.pure a) := nofun

theorem error {e : ε} (h : p e) : FailsOnly p (.error e : Except ε α) := by
  rintro _ ⟨⟩
  exact h

theorem bind {x : Except ε α} {f : α → Except ε β} (hx : FailsOnly p x)
    (hf : ∀ a, x = .ok a → FailsOnly p (f a)) : FailsOnly p (x >>= f) := by
  cases x with
  | error e => exact error (hx e rfl)
  | ok a => exact hf a rfl

theorem ite {c : Prop} [Decidable c] {x y : Except ε α} (hx : c → FailsOnly p x)
    (hy : ¬c → FailsOnly p y) : FailsOnly p (if c then x else y) := by
  split
  · next h => exact hx h
  · next h => exact hy h

theorem map {x : Except ε α} {f : α → β} (hx : FailsOnly p x) : FailsOnly p (f <$> x) := by
  cases x with
  | error e => exact error (hx e rfl)
  | ok a => exact ok (f a)

theorem mapM {xs : List α} {f : α → Except ε β} (h : ∀ x ∈ xs, FailsOnly p (f x)) :
    FailsOnly p (xs.mapM f) := by
  induction xs with
  | nil => exact pure []
  | cons x xs ih =>
    obtain ⟨hx, hxs⟩ := List.forall_mem_cons.mp h
    rw [List.mapM_cons]
    exact bind hx fun y _ => bind (ih hxs) fun ys _ => pure (y :: ys)

theorem forM {xs : List α} {f : α → Except ε PUnit} (h : ∀ x ∈ xs, FailsOnly p (f x)) :
    FailsOnly p (xs.forM f) := by
  induction xs with
  | nil => exact pure PUnit.unit
  | cons x xs ih =>
    obtain ⟨hx, hxs⟩ := List.forall_mem_cons.mp h
    exact bind hx fun _ _ => ih hxs

theorem mono {q : ε → Prop} {x : Except ε α} (h : FailsOnly p x) (hpq : ∀ e, p e → q e) :
    FailsOnly q x :=
  fun e he => hpq e (h e he)

theorem exists_ok {x : Except ε α} (h : FailsOnly (fun _ => False) x) : ∃ a, x = .ok a := by
  cases x with
  | error e => exact (h e rfl).elim
  | ok a => exact ⟨a, rfl⟩

theorem schema {p : Emit.Error → Prop} {x : Except Schema.Error α} (h : ∃ a, x = .ok a) :
    FailsOnly p (liftM x : Except Emit.Error α) := by
  obtain ⟨a, rfl⟩ := h
  exact ok a

end FailsOnly
end EntityGen
