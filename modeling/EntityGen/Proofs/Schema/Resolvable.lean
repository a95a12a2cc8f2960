import EntityGen.Proofs.Results
import EntityGen.Schema.Validation

/-!
# Resolvable descriptions

What validation grants: every reference that a definition holds leads to a
definition, and every enumeration has a case to emit. The check goes through the
definitions once; look-ups by name may happen anywhere after it.
-/

namespace EntityGen.Schema

namespace Descriptions

variable {d : Descriptions}

theorem subtype_ok {name source : String} {s : Subtype} :
    d.subtype name source = .ok s ↔ d.subtype? name = some s := by
  unfold subtype
  cases d.subtype? name <;> simp [resolved]

theorem entity_ok {name source : String} {e : Entity} :
    d.entity name source = .ok e ↔ d.entity? name = some e := by
  unfold entity
  cases d.entity? name <;> simp [resolved]

theorem mem_of_subtype? {name : String} {s : Subtype} (h : d.subtype? name = some s) :
    s ∈ d.subtypes :=
  List.mem_of_find?_eq_some h

theorem mem_of_entity? {name : String} {e : Entity} (h : d.entity? name = some e) :
    e ∈ d.entities :=
  List.mem_of_find?_eq_some h

theorem exists_entity? {e : Entity} (he : e ∈ d.entities) : ∃ t, d.entity? e.name = some t := by
  rw [← Option.isSome_iff_exists, entity?, List.find?_isSome]
  exact ⟨e, he, beq_self_eq_true e.name⟩

/-- All references of the descriptions lead somewhere, and every enumeration is emitted. -/
structure Resolvable (d : Descriptions) : Prop where
  usedCase {s : Subtype} {cases : List Choice} (hs : s ∈ d.subtypes) (hi : s.items = .cases cases) :
    s.usedCases ≠ []
  member {s : Subtype} {members : List Member} {m : Member} {name : String} (hs : s ∈ d.subtypes)
    (hi : s.items = .members members) (hm : m ∈ members) (ht : m.type = .subtype name) :
    ∃ t, d.subtype? name = some t
  subtype {e : Entity} {p : Property} {name : String} (he : e ∈ d.entities)
    (hp : p ∈ e.properties) (ht : p.type = .subtype name) : ∃ s, d.subtype? name = some s
  target {e : Entity} {p : Property} {r : Relationship} (he : e ∈ d.entities)
    (hp : p ∈ e.properties) (ht : p.type = .relationship r) :
    ∃ t, d.entity? r.entityName = some t
  equivalent {e : Entity} {name : String} (he : e ∈ d.entities)
    (hi : e.identifier.equivalent = some name) : ∃ t, d.entity? name = some t
  contributor {e : Entity} {c : Contributor} (he : e ∈ d.entities)
    (hc : c ∈ e.identifier.contributors) : ∃ t, d.entity? c.entityName = some t
  payload {e : Endpoint} {p : EndpointPayload} (he : e ∈ d.endpoints) (hp : p ∈ e.payloads) :
    ∃ t, d.entity? p.entityName = some t

theorem Resolvable.equivalentEntity_ok (hd : d.Resolvable) {e : Entity} (he : e ∈ d.entities) :
    ∃ t, d.equivalentEntity e = .ok t := by
  unfold equivalentEntity
  cases hi : e.identifier.equivalent with
  | none => exact ⟨none, rfl⟩
  | some name =>
    obtain ⟨t, ht⟩ := hd.equivalent he hi
    exact ⟨some t, map_ok.mpr ⟨t, entity_ok.mpr ht, rfl⟩⟩

theorem Resolvable.identifierContributors_ok (hd : d.Resolvable) {e : Entity}
    (he : e ∈ d.entities) : ∃ ts, d.identifierContributors e = .ok ts := by
  refine exists_mapM_ok fun c hc => ?_
  obtain ⟨t, ht⟩ := hd.contributor he hc
  exact ⟨t, entity_ok.mpr ht⟩

-- ---------------------------------------------------------------------------
-- Checks
-- ---------------------------------------------------------------------------

theorem checkSubtype_usedCase {s : Subtype} {cases : List Choice} (h : d.checkSubtype s = .ok ())
    (hi : s.items = .cases cases) : s.usedCases ≠ [] := by
  simp only [checkSubtype, hi] at h
  split at h
  · cases h
  · next hused =>
    simp only [Bool.not_eq_true, List.all_eq_false] at hused
    obtain ⟨c, hc, hcu⟩ := hused
    have hmem : c ∈ s.usedCases := by
      simpa [Subtype.usedCases, hi] using ⟨hc, hcu⟩
    exact List.ne_nil_of_mem hmem

theorem checkSubtype_member {s : Subtype} {members : List Member} {m : Member} {name : String}
    (h : d.checkSubtype s = .ok ()) (hi : s.items = .members members) (hm : m ∈ members)
    (ht : m.type = .subtype name) : ∃ t, d.subtype? name = some t := by
  simp only [checkSubtype, hi] at h
  have hmember := forM_ok.mp h m hm
  simp only [checkMember, ht, bind_ok, subtype_ok] at hmember
  obtain ⟨t, ht, -⟩ := hmember
  exact ⟨t, ht⟩

theorem checkEntity_ok {e : Entity} (h : d.checkEntity e = .ok ()) :
    (∃ t, d.equivalentEntity e = .ok t) ∧ (∃ ts, d.identifierContributors e = .ok ts) ∧
      ∀ p ∈ e.properties, d.checkProperty e p = .ok () := by
  simp only [checkEntity, ite_throw_ok, bind_ok] at h
  obtain ⟨-, t, ht, ts, hts, hproperties⟩ := h
  exact ⟨⟨t, ht⟩, ⟨ts, hts⟩, forM_ok.mp hproperties⟩

theorem checkProperty_notReserved {e : Entity} {p : Property} (h : d.checkProperty e p = .ok ()) :
    Text.camelCase p.name ∉ reservedNames := by
  simp only [checkProperty, ite_throw_ok] at h
  exact h.1

theorem checkProperty_subtype {e : Entity} {p : Property} {name : String}
    (h : d.checkProperty e p = .ok ()) (ht : p.type = .subtype name) :
    ∃ s, d.subtype? name = some s := by
  simp only [checkProperty, ite_throw_ok, ht, bind_ok, subtype_ok] at h
  obtain ⟨-, s, hs, -⟩ := h
  exact ⟨s, hs⟩

theorem checkProperty_target {e : Entity} {p : Property} {r : Relationship}
    (h : d.checkProperty e p = .ok ()) (ht : p.type = .relationship r) :
    ∃ t, d.entity? r.entityName = some t := by
  simp only [checkProperty, ite_throw_ok, ht, bind_ok, entity_ok] at h
  obtain ⟨-, t, ht, -⟩ := h
  exact ⟨t, ht⟩

theorem checkPayload_ok {source : String} {p : EndpointPayload}
    (h : d.checkPayload source (some p) = .ok ()) : ∃ t, d.entity? p.entityName = some t := by
  simp only [checkPayload, bind_ok, entity_ok] at h
  obtain ⟨t, ht, -⟩ := h
  exact ⟨t, ht⟩

theorem validate_ok (h : d.validate = .ok ()) :
    d.checkNames = .ok () ∧ (∀ s ∈ d.subtypes, d.checkSubtype s = .ok ()) ∧
      (∀ e ∈ d.entities, d.checkEntity e = .ok ()) ∧
      ∀ e ∈ d.endpoints, d.checkEndpoint e = .ok () := by
  simp only [validate, bind_ok] at h
  obtain ⟨_, hnames, _, hsubtypes, _, hentities, hendpoints⟩ := h
  exact ⟨hnames, forM_ok.mp hsubtypes, forM_ok.mp hentities, forM_ok.mp hendpoints⟩

theorem validate_property (h : d.validate = .ok ()) {e : Entity} (he : e ∈ d.entities)
    {p : Property} (hp : p ∈ e.properties) : d.checkProperty e p = .ok () := by
  obtain ⟨-, -, hentities, -⟩ := validate_ok h
  exact (checkEntity_ok (hentities e he)).2.2 p hp

theorem resolvable_of_validate (h : d.validate = .ok ()) : d.Resolvable := by
  obtain ⟨-, hsubtypes, hentities, hendpoints⟩ := validate_ok h
  constructor
  case usedCase => exact fun hs hi => checkSubtype_usedCase (hsubtypes _ hs) hi
  case member => exact fun hs hi hm ht => checkSubtype_member (hsubtypes _ hs) hi hm ht
  case subtype =>
    intro e p name he hp ht
    exact checkProperty_subtype (validate_property h he hp) ht
  case target =>
    intro e p r he hp ht
    exact checkProperty_target (validate_property h he hp) ht
  case equivalent =>
    intro e name he hi
    obtain ⟨⟨t, ht⟩, -, -⟩ := checkEntity_ok (hentities e he)
    simp only [equivalentEntity, hi, map_ok, entity_ok] at ht
    obtain ⟨t, ht, -⟩ := ht
    exact ⟨t, ht⟩
  case contributor =>
    intro e c he hc
    obtain ⟨-, ⟨ts, hts⟩, -⟩ := checkEntity_ok (hentities e he)
    obtain ⟨t, -, ht⟩ := exists_of_mapM_ok hts hc
    exact ⟨t, entity_ok.mp ht⟩
  case payload =>
    intro e p he hp
    have hchecked := hendpoints e he
    simp only [checkEndpoint, bind_ok] at hchecked
    obtain ⟨_, hread, hwrite⟩ := hchecked
    simp only [Endpoint.payloads, List.mem_append, Option.mem_toList] at hp
    rcases hp with hp | hp
    · rw [hp] at hread
      exact checkPayload_ok hread
    · rw [hp] at hwrite
      exact checkPayload_ok hwrite

end Descriptions
end EntityGen.Schema
