import EntityGen.Code.Build
import Mathlib.Data.List.Nodup
import Mathlib.Data.Set.Function

/-!
# Lists without repetitions

Entries that are added one after the other, each unless it is there already, are
those of the list added, in the order in which they come up first.
-/

namespace EntityGen.Code

variable {α : Type} [DecidableEq α] {entries all more : List α} {x : α}

/-- The list holds the entries of another one, each once and in the order of first use. -/
structure FirstUses (entries all : List α) : Prop where
  nodup : entries.Nodup
  mem_iff (x : α) : x ∈ entries ↔ x ∈ all
  ordered : entries.Pairwise fun x y => all.idxOf x < all.idxOf y

namespace FirstUses

theorem nil : FirstUses ([] : List α) [] where
  nodup := List.nodup_nil
  mem_iff _ := Iff.rfl
  ordered := List.Pairwise.nil

/-- What was used before keeps its place, and what is new comes after all of it. -/
theorem ordered_concat (h : FirstUses entries all) :
    (addDistinct entries x).Pairwise fun y z => (all ++ [x]).idxOf y < (all ++ [x]).idxOf z := by
  have hkept {y : α} (hy : y ∈ entries) : (all ++ [x]).idxOf y = all.idxOf y :=
    List.idxOf_append_of_mem ((h.mem_iff y).mp hy)
  have hentries : entries.Pairwise fun y z => (all ++ [x]).idxOf y < (all ++ [x]).idxOf z := by
    refine h.ordered.imp_of_mem fun hy hz hlt => ?_
    rwa [hkept hy, hkept hz]
  unfold addDistinct
  split
  · exact hentries
  · next hnew =>
    refine List.pairwise_append.mpr ⟨hentries, List.pairwise_singleton _ _, fun y hy z hz => ?_⟩
    obtain rfl := List.mem_singleton.mp hz
    rw [hkept hy, List.idxOf_append_of_notMem fun hz => hnew ((h.mem_iff z).mpr hz)]
    have hbound := List.idxOf_lt_length_of_mem ((h.mem_iff y).mp hy)
    omega

theorem addDistinct (h : FirstUses entries all) :
    FirstUses (addDistinct entries x) (all ++ [x]) where
  nodup := by
    unfold Code.addDistinct
    split
    · exact h.nodup
    · next hnew => simpa [List.concat_eq_append] using h.nodup.concat hnew
  mem_iff y := by
    unfold Code.addDistinct
    split
    · next hx => grind [h.mem_iff]
    · grind [h.mem_iff]
  ordered := h.ordered_concat

theorem addAllDistinct (h : FirstUses entries all) :
    FirstUses (addAllDistinct entries more) (all ++ more) := by
  unfold Code.addAllDistinct
  -- the entries added so far are the first uses of what came before
  induction more generalizing entries all with
  | nil => rwa [List.append_nil]
  | cons x more ih => simpa using ih (h.addDistinct (x := x))

end FirstUses

theorem firstUses_addAllDistinct (all : List α) : FirstUses (addAllDistinct [] all) all :=
  FirstUses.nil.addAllDistinct

-- ---------------------------------------------------------------------------
-- Images
-- ---------------------------------------------------------------------------

section
variable {β : Type} [DecidableEq β] {f : α → β} {s : Set α}

/-- Entries with images of their own may as well be told apart by the images. -/
theorem map_addDistinct (hf : Set.InjOn f s) (hentries : ∀ y ∈ entries, y ∈ s) (hx : x ∈ s) :
    (addDistinct entries x).map f = addDistinct (entries.map f) (f x) := by
  have hmem : f x ∈ entries.map f ↔ x ∈ entries := by
    rw [List.mem_map]
    constructor
    · rintro ⟨y, hy, heq⟩
      rwa [← hf (hentries y hy) hx heq]
    · exact fun hx => ⟨x, hx, rfl⟩
  unfold addDistinct
  simp only [hmem]
  split
  · rfl
  · rw [List.map_append, List.map_singleton]

theorem map_addAllDistinct (hf : Set.InjOn f s) (hentries : ∀ y ∈ entries, y ∈ s)
    (hmore : ∀ y ∈ more, y ∈ s) :
    (addAllDistinct entries more).map f = addAllDistinct (entries.map f) (more.map f) := by
  unfold addAllDistinct
  induction more generalizing entries with
  | nil => rfl
  | cons x more ih =>
    obtain ⟨hx, hmore⟩ := List.forall_mem_cons.mp hmore
    have hadded : ∀ y ∈ addDistinct entries x, y ∈ s := by
      unfold addDistinct
      split
      · exact hentries
      · simpa [or_imp, forall_and] using ⟨hentries, hx⟩
    rw [List.map_cons, List.foldl_cons, List.foldl_cons, ih hadded hmore,
      map_addDistinct hf hentries hx]

theorem map_eraseDups (hf : Set.InjOn f s) (hall : ∀ y ∈ all, y ∈ s) :
    all.eraseDups.map f = (all.map f).eraseDups := by
  induction hn : all.length using Nat.strong_induction_on generalizing all with
  | _ n ih =>
    cases all with
    | nil => rfl
    | cons x all =>
      obtain ⟨hx, hall⟩ := List.forall_mem_cons.mp hall
      have hothers : (all.map f).filter (fun z => !z == f x)
          = (all.filter fun y => !y == x).map f := by
        rw [List.filter_map]
        refine congrArg (List.map f) (List.filter_congr fun y hy => ?_)
        have hiff := hf.eq_iff (hall y hy) hx
        simp [hiff]
      have hlt : (all.filter fun y => !y == x).length < n := by
        rw [← hn]
        exact Nat.lt_succ_of_le (List.length_filter_le _ _)
      rw [List.map_cons, List.eraseDups_cons, List.eraseDups_cons, List.map_cons, hothers,
        ih _ hlt (fun y hy => hall y (List.mem_of_mem_filter hy)) rfl]

end

end EntityGen.Code
