import EntityGen.Proofs.Document.Definitions
import EntityGen.Proofs.Document.Load
import EntityGen.Proofs.Schema.Resolvable
import Mathlib.Data.List.Nodup

/-!
# Names that occur once

An entity is read with each property once, by the name that is written, and
valid enumerations have each case once. No such check is made of options and of
members of values. Valid descriptions have each entity once, so that its name
leads to it.
-/

namespace EntityGen.Schema

/-- The check for repeated names passes exactly if there are none, nor names seen before. -/
theorem firstRepeated?_eq_none {seen names : List String} :
    firstRepeated? seen names = none ↔ names.Nodup ∧ ∀ name ∈ names, name ∉ seen := by
  induction names generalizing seen with
  | nil => simp [firstRepeated?]
  | cons name names ih =>
    rw [firstRepeated?, List.nodup_cons, List.forall_mem_cons]
    split
    · next hseen =>
      exact ⟨nofun, fun h => absurd hseen h.2.1⟩
    · next hseen =>
      rw [ih]
      constructor
      · rintro ⟨hnames, hnot⟩
        refine ⟨⟨fun hname => hnot name hname List.mem_cons_self, hnames⟩, hseen, ?_⟩
        exact fun other hother hin => hnot other hother (List.mem_cons_of_mem _ hin)
      · rintro ⟨⟨hname, hnames⟩, -, hnot⟩
        refine ⟨hnames, fun other hother hin => ?_⟩
        rcases List.mem_cons.mp hin with rfl | hin
        · exact hname hother
        · exact hnot other hother hin

theorem checkUnique_ok {kind : DefinitionKind} {names : List String}
    (h : checkUnique kind names = .ok ()) : names.Nodup := by
  unfold checkUnique at h
  split at h
  · cases h
  · next hnone => exact (firstRepeated?_eq_none.mp hnone).1

theorem checkSubtype_cases_nodup {d : Descriptions} {s : Subtype} {cases : List Choice}
    (h : d.checkSubtype s = .ok ()) (hi : s.items = .cases cases) :
    (cases.map (·.name)).Nodup := by
  simp only [Descriptions.checkSubtype, hi] at h
  split at h
  · cases h
  · split at h
    · cases h
    · next hnone => exact (firstRepeated?_eq_none.mp hnone).1

theorem find?_name_eq_some {α : Type} {nameOf : α → String} {xs : List α}
    (hxs : (xs.map nameOf).Nodup) {name : String} {x : α} :
    xs.find? (fun y => nameOf y == name) = some x ↔ x ∈ xs ∧ nameOf x = name := by
  constructor
  · intro h
    have hname := List.find?_some h
    exact ⟨List.mem_of_find?_eq_some h, beq_iff_eq.mp hname⟩
  · rintro ⟨hx, rfl⟩
    cases hfound : xs.find? (fun y => nameOf y == nameOf x) with
    | none => exact absurd (beq_self_eq_true (nameOf x)) (List.find?_eq_none.mp hfound x hx)
    | some y =>
      have hname := List.find?_some hfound
      rw [List.inj_on_of_nodup_map hxs (List.mem_of_find?_eq_some hfound) hx (beq_iff_eq.mp hname)]

namespace Descriptions

variable {d : Descriptions}

theorem validate_entityNames_nodup (h : d.validate = .ok ()) : (d.entities.map (·.name)).Nodup := by
  obtain ⟨hnames, -⟩ := validate_ok h
  simp only [checkNames, bind_ok] at hnames
  obtain ⟨_, hentities, -⟩ := hnames
  exact checkUnique_ok hentities

theorem name_of_entity? {name : String} {e : Entity} (h : d.entity? name = some e) :
    e.name = name := by
  have hname := List.find?_some h
  exact beq_iff_eq.mp hname

theorem entity?_eq_some (h : (d.entities.map (·.name)).Nodup) {name : String} {e : Entity} :
    d.entity? name = some e ↔ e ∈ d.entities ∧ e.name = name :=
  find?_name_eq_some h

end Descriptions
end EntityGen.Schema

namespace EntityGen.Document

open Markup (Node Tag)
open Schema (Entity)

theorem readEntityPart_names {e e' : Entity} {tag : Tag} {children : List Node}
    (he : (e.properties.map (·.name)).Nodup) (h : readEntityPart e tag children = .ok e') :
    (e'.properties.map (·.name)).Nodup := by
  unfold readEntityPart at h
  split at h
  · obtain ⟨identifier, -, h⟩ := bind_ok.mp h
    obtain rfl := pure_ok.mp h
    exact he
  · simp only [ite_throw_ok, bind_ok, pure_ok] at h
    obtain ⟨p, -, hnew, -, -, rfl⟩ := h
    have hnew : p.name ∉ e.properties.map (·.name) := by
      simpa [Entity.property?] using hnew
    rw [List.map_append, List.map_singleton, List.nodup_append]
    exact ⟨he, List.nodup_singleton _, by simpa using hnew⟩
  · cases h

theorem load_propertyNames_nodup {text : String} {d : Schema.Descriptions}
    (h : load text = .ok d) : ∀ e ∈ d.entities, (e.properties.map (·.name)).Nodup := by
  intro e he
  obtain ⟨element, -, hentity⟩ := exists_of_forall₂ ((load_traced h).holds d rfl).entities he
  have hread := hentity.read
  simp only [readEntity, bind_ok] at hread
  obtain ⟨e₀, hattributes, _, _, hparts⟩ := hread
  have hproperties := readEntityAttributes_properties hattributes
  exact foldElements_preserves readEntityPart_names (by simp [hproperties]) hparts

end EntityGen.Document
