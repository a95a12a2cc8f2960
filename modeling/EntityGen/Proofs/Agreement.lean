import EntityGen.Proofs.Results

/-!
# Runs that agree

Two runs agree if both fail or both succeed, and then with results that
correspond. What they fail with may differ. Steps that agree make runs that do.
-/

namespace EntityGen

universe u v

variable {ε : Type u} {α β γ δ : Type v}

def Agree (R : α → β → Prop) : Except ε α → Except ε β → Prop
  | .ok a, .ok b => R a b
  | .error _, .error _ => True
  | _, _ => False

namespace Agree

variable {R : α → β → Prop} {S : γ → δ → Prop} {x : Except ε α} {y : Except ε β}

theorem ok {a : α} {b : β} (h : R a b) : Agree R (.ok a : Except ε α) (.ok b) := h

theorem pure {a : α} {b : β} (h : R a b) :
    Agree R (Pure.pure a : Except ε α) (Pure.pure b) := h

theorem error (e e' : ε) : Agree R (.error e) (.error e') := trivial

theorem refl (x : Except ε α) : Agree Eq x x := by
  cases x with
  | error e => exact error e e
  | ok a => exact ok rfl

theorem symm (h : Agree R x y) : Agree (fun b a => R a b) y x := by
  cases x <;> cases y <;> exact h

theorem imp {R' : α → β → Prop} (h : Agree R x y)
    (hR : ∀ a b, x = .ok a → y = .ok b → R a b → R' a b) : Agree R' x y := by
  cases x <;> cases y
  case ok.ok a b => exact hR a b rfl rfl h
  all_goals exact h

theorem bind {f : α → Except ε γ} {g : β → Except ε δ} (hx : Agree R x y)
    (hf : ∀ a b, R a b → Agree S (f a) (g b)) : Agree S (x >>= f) (y >>= g) := by
  cases x <;> cases y
  case ok.ok a b => exact hf a b hx
  case error.error e e' => exact error e e'
  all_goals exact hx.elim

theorem map {f : α → γ} {g : β → δ} (hx : Agree R x y) (hf : ∀ a b, R a b → S (f a) (g b)) :
    Agree S (f <$> x) (g <$> y) := by
  cases x <;> cases y
  case ok.ok a b => exact hf a b hx
  case error.error e e' => exact error e e'
  all_goals exact hx.elim

theorem guard {c c' : Prop} [Decidable c] [Decidable c'] {e e' : ε} {x : PUnit → Except ε α}
    {y : PUnit → Except ε β} (hc : c ↔ c') (h : ¬c → Agree R (x ⟨⟩) (y ⟨⟩)) :
    Agree R (if c then throw e >>= x else x ⟨⟩) (if c' then throw e' >>= y else y ⟨⟩) := by
  by_cases hholds : c
  · rw [if_pos hholds, if_pos (hc.mp hholds)]
    exact error e e'
  · rw [if_neg hholds, if_neg (mt hc.mpr hholds)]
    exact h hholds

/-- Steps that keep a correspondence of states take corresponding lists from
corresponding states to corresponding states. -/
theorem foldlM {ι κ : Type v} {T : ι → κ → Prop} {f : α → ι → Except ε α}
    {g : β → κ → Except ε β} {is : List ι} {js : List κ} (h : List.Forall₂ T is js)
    (hstep : ∀ i ∈ is, ∀ j a b, T i j → R a b → Agree R (f a i) (g b j)) {a : α} {b : β}
    (hab : R a b) : Agree R (is.foldlM f a) (js.foldlM g b) := by
  induction h generalizing a b with
  | nil => exact ok hab
  | cons hij _ ih =>
    obtain ⟨hfirst, hrest⟩ := List.forall_mem_cons.mp hstep
    rw [List.foldlM_cons, List.foldlM_cons]
    exact bind (hfirst _ a b hij hab) fun _ _ hab => ih hrest hab

theorem trans {T : β → γ → Prop} {U : α → γ → Prop} {z : Except ε γ} (hxy : Agree R x y)
    (hyz : Agree T y z) (hU : ∀ a b c, R a b → T b c → U a c) : Agree U x z := by
  cases x <;> cases y <;> cases z
  case ok.ok.ok a b c => exact hU a b c hxy hyz
  case error.error.error e e' e'' => exact error e e''
  all_goals first | exact hxy.elim | exact hyz.elim

/-- The two steps may change places, but for what `E` does not tell apart. -/
def Commute {ι : Type v} (E : α → α → Prop) (f : α → ι → Except ε α) (i j : ι) : Prop :=
  ∀ a, Agree E (f a i >>= fun b => f b j) (f a j >>= fun b => f b i)

/-- Steps that commute with each other can be made in any order. -/
theorem foldlM_perm {ι : Type v} {E : α → α → Prop} (hE : Equivalence E)
    {f : α → ι → Except ε α} (hstep : ∀ i a b, E a b → Agree E (f a i) (f b i))
    {is js : List ι} (h : is.Perm js) (hcommute : is.Pairwise (Commute E f)) {a b : α}
    (hab : E a b) : Agree E (is.foldlM f a) (js.foldlM f b) := by
  have hsame (is : List ι) {a b : α} (hab : E a b) :
      Agree E (is.foldlM f a) (is.foldlM f b) :=
    foldlM (List.forall₂_same.mpr fun _ _ => rfl) (by rintro i - _ a b rfl; exact hstep i a b) hab
  have hswap {i j : ι} (h : Commute E f i j) : Commute E f j i := fun a =>
    (h a).symm.imp fun _ _ _ _ => hE.symm
  induction h generalizing a b with
  | nil => exact ok hab
  | cons i _ ih =>
    rw [List.foldlM_cons, List.foldlM_cons]
    exact bind (hstep i a b hab) fun _ _ => ih (List.pairwise_cons.mp hcommute).2
  | swap i j is =>
    obtain ⟨hij, -⟩ := List.pairwise_cons.mp hcommute
    have hpair : Agree E (f a j >>= fun a => f a i) (f b i >>= fun b => f b j) :=
      (bind (hstep j a b hab) fun _ _ => hstep i _ _).trans (hij i List.mem_cons_self b)
        fun _ _ _ => hE.trans
    simp only [List.foldlM_cons, ← bind_assoc]
    exact bind hpair fun _ _ => hsame is
  | trans hij _ ih₁ ih₂ =>
    have hmiddle := (hij.pairwise_iff fun h => hswap h).mp hcommute
    exact (ih₁ hcommute hab).trans (ih₂ hmiddle (hE.refl b)) fun _ _ _ => hE.trans

theorem exists_ok {a : α} (h : Agree R x y) (hx : x = .ok a) : ∃ b, y = .ok b ∧ R a b := by
  subst hx
  cases y with
  | error e => exact h.elim
  | ok b => exact ⟨b, rfl, h⟩

theorem toOption_eq {f : α → β} (h : Agree (fun a b => b = f a) x y) :
    y.toOption = x.toOption.map f := by
  cases x <;> cases y
  case ok.ok a b => exact congrArg some h
  case error.error => rfl
  all_goals exact h.elim

end Agree
end EntityGen
