import EntityGen.Proofs.Schema.Consistency
import EntityGen.Proofs.Schema.Expressible
import EntityGen.Proofs.Schema.StoredProperties

/-!
# Well-formed descriptions

What every document grants of its descriptions, before they are validated: names
are unique, subtypes have items, identifiers made of relationships have some, and
neither a relationship that is an array nor an empty key gets in. One definition
at a time is added, and none of them breaks what the others had.

References may still lead nowhere. But look-ups of names that are there find the
definition itself, and validation has no repeated name to report.
-/

namespace EntityGen.Schema

-- ---------------------------------------------------------------------------
-- Invariants
-- ---------------------------------------------------------------------------

structure Entity.WellFormed (e : Entity) : Prop where
  identifier : e.identifier.kind.IsContributed
  propertyNames : (e.properties.map (·.name)).Nodup
  arrays : ∀ p ∈ e.properties, p.isRelationship = true → p.isArray = false

def Endpoint.WellFormed (e : Endpoint) : Prop := ∀ p ∈ e.payloads, "" ∉ p.baseKey

structure Descriptions.WellFormed (d : Descriptions) : Prop where
  entityNames : (d.entities.map (·.name)).Nodup
  subtypeNames : (d.subtypes.map (·.name)).Nodup
  endpointNames : (d.endpoints.map (·.name)).Nodup
  subtypes : ∀ s ∈ d.subtypes, s.items.IsSome
  entities : ∀ e ∈ d.entities, e.WellFormed
  endpoints : ∀ e ∈ d.endpoints, e.WellFormed

theorem nodup_names_concat {α : Type} {name : α → String} {xs : List α} {x : α}
    (hxs : (xs.map name).Nodup) (hnew : xs.find? (fun y => name y == name x) = none) :
    ((xs ++ [x]).map name).Nodup := by
  have hfresh : name x ∉ xs.map name := by
    intro hmem
    obtain ⟨y, hy, hname⟩ := List.mem_map.mp hmem
    exact List.find?_eq_none.mp hnew y hy (beq_iff_eq.mpr hname)
  rw [List.map_append, List.map_singleton, ← List.concat_eq_append]
  exact hxs.concat hfresh

namespace Descriptions.WellFormed

variable {d : Descriptions}

theorem start (version : String) : WellFormed { version } :=
  ⟨.nil, .nil, .nil, by simp, by simp, by simp⟩

theorem addSubtype (hd : d.WellFormed) {s : Subtype} (hs : s.items.IsSome)
    (hnew : d.subtype? s.name = none) : (d.addSubtype s).WellFormed where
  entityNames := hd.entityNames
  subtypeNames := nodup_names_concat hd.subtypeNames hnew
  endpointNames := hd.endpointNames
  subtypes := List.forall_mem_append.mpr ⟨hd.subtypes, List.forall_mem_singleton.mpr hs⟩
  entities := hd.entities
  endpoints := hd.endpoints

theorem addEntity (hd : d.WellFormed) {e : Entity} (he : e.WellFormed)
    (hnew : d.entity? e.name = none) : (d.addEntity e).WellFormed where
  entityNames := nodup_names_concat hd.entityNames hnew
  subtypeNames := hd.subtypeNames
  endpointNames := hd.endpointNames
  subtypes := hd.subtypes
  entities := List.forall_mem_append.mpr ⟨hd.entities, List.forall_mem_singleton.mpr he⟩
  endpoints := hd.endpoints

theorem addEndpoint (hd : d.WellFormed) {e : Endpoint} (he : e.WellFormed)
    (hnew : d.endpoint? e.name = none) : (d.addEndpoint e).WellFormed where
  entityNames := hd.entityNames
  subtypeNames := hd.subtypeNames
  endpointNames := nodup_names_concat hd.endpointNames hnew
  subtypes := hd.subtypes
  entities := hd.entities
  endpoints := List.forall_mem_append.mpr ⟨hd.endpoints, List.forall_mem_singleton.mpr he⟩

theorem validate_ne_duplicate (hd : d.WellFormed) (kind : DefinitionKind) (name : String) :
    d.validate ≠ .error (.duplicate kind name) := by
  intro h
  cases d.failsOnly_validate _ h with
  | duplicate hkind htwice =>
    cases kind with
    | entity => exact htwice.not_nodup hd.entityNames
    | subtype => exact htwice.not_nodup hd.subtypeNames
    | endpoint => exact htwice.not_nodup hd.endpointNames
    | property => exact hkind rfl

end Descriptions.WellFormed
end EntityGen.Schema

namespace EntityGen.Document

open Markup (Node Tag)
open Schema (Contributor Descriptions Endpoint EndpointPayload Entity Identifier IdentifierKind
  IdentifierValue PropertyType Subtype)

-- ---------------------------------------------------------------------------
-- Definitions
-- ---------------------------------------------------------------------------

theorem ItemLists.subtype_isSome {items : ItemLists} {name : String} {s : Subtype}
    (h : items.subtype name = .ok s) : s.items.IsSome := by
  unfold ItemLists.subtype at h
  split at h
  case h_1 => cases h
  case h_2 hcases =>
    cases h
    exact hcases
  case h_3 hoptions =>
    cases h
    exact hoptions
  case h_4 hmembers =>
    cases h
    exact hmembers
  case h_5 => cases h

theorem readSubtype_isSome {tag : Tag} {children : List Node} {s : Subtype}
    (h : readSubtype tag children = .ok s) : s.items.IsSome := by
  simp only [readSubtype, bind_ok] at h
  obtain ⟨name, -, items, -, h⟩ := h
  exact items.subtype_isSome h

theorem identifierKind_isContributed {typeName : String} {value : IdentifierValue}
    {contributors : List Contributor} {kind : IdentifierKind}
    (h : identifierKind typeName value contributors = .ok kind) : kind.IsContributed := by
  unfold identifierKind at h
  split at h
  · cases h
    trivial
  · split at h
    · cases h
    · next hsome =>
      cases h
      exact fun hnil => hsome (List.isEmpty_iff.mpr hnil)
  · obtain ⟨scalar, -, rfl⟩ := map_ok.mp h
    trivial

theorem readIdentifier_isContributed {tag : Tag} {children : List Node} {i : Identifier}
    (h : readIdentifier tag children = .ok i) : i.kind.IsContributed := by
  simp only [readIdentifier, bind_ok, pure_ok] at h
  obtain ⟨value, -, contributors, -, kind, hkind, rfl⟩ := h
  exact identifierKind_isContributed hkind

theorem PropertyAttributes.type_notArray {a : PropertyAttributes} {tag : Tag} {name : String}
    {r : Schema.Relationship} (h : a.type tag name = .ok (.relationship r)) :
    a.isArray = false := by
  unfold PropertyAttributes.type at h
  split at h
  case h_3 =>
    split at h
    · cases h
    · next harray => exact Bool.not_eq_true _ ▸ harray
  all_goals cases h

theorem readProperty_notArray {tag : Tag} {p : Schema.Property} (h : readProperty tag = .ok p)
    (hrelationship : p.isRelationship = true) : p.isArray = false := by
  simp only [readProperty, bind_ok, pure_ok] at h
  obtain ⟨a, -, name, -, type, htype, default, -, rfl⟩ := h
  obtain ⟨r, hr⟩ := Option.isSome_iff_exists.mp hrelationship
  obtain rfl := Schema.Property.relationship?_eq_some.mp hr
  exact PropertyAttributes.type_notArray htype

theorem readEntityPart_wellFormed {e e' : Entity} {tag : Tag} {children : List Node}
    (he : e.WellFormed) (h : readEntityPart e tag children = .ok e') : e'.WellFormed := by
  have hnames := readEntityPart_names he.propertyNames h
  unfold readEntityPart at h
  split at h
  · obtain ⟨identifier, hidentifier, h⟩ := bind_ok.mp h
    obtain rfl := pure_ok.mp h
    exact ⟨readIdentifier_isContributed hidentifier, hnames, he.arrays⟩
  · simp only [ite_throw_ok, bind_ok, pure_ok] at h
    obtain ⟨p, hp, -, -, -, rfl⟩ := h
    refine ⟨he.identifier, hnames, List.forall_mem_append.mpr ⟨he.arrays, ?_⟩⟩
    exact List.forall_mem_singleton.mpr (readProperty_notArray hp)
  · cases h

theorem readEntity_wellFormed {tag : Tag} {children : List Node} {e : Entity}
    (h : readEntity tag children = .ok e) : e.WellFormed := by
  simp only [readEntity, bind_ok] at h
  obtain ⟨e₀, hattributes, _, _, hparts⟩ := h
  refine foldElements_preserves readEntityPart_wellFormed ?_ hparts
  -- attributes alone give neither an identifier nor properties
  refine foldlM_traces (P := fun (_ : List (String × String)) (x : Entity) => x.WellFormed) ?_ ?_
    hattributes
  · intro done x a x' hx hattribute
    obtain ⟨hidentifier, hproperties⟩ := readEntityAttribute_parts hattribute
    exact ⟨hidentifier ▸ hx.identifier, hproperties ▸ hx.propertyNames, hproperties ▸ hx.arrays⟩
  · exact ⟨trivial, .nil, by simp⟩

theorem readPayload_baseKey {element : String} {tag : Tag} {p : EndpointPayload}
    (h : readPayload element tag = .ok p) : "" ∉ p.baseKey := by
  simp only [readPayload, bind_ok, pure_ok] at h
  obtain ⟨layout, -, entityName, -, rfl⟩ := h
  simp [readKeyPath]

theorem readEndpointPart_wellFormed {e e' : Endpoint} {tag : Tag} {children : List Node}
    (he : e.WellFormed) (h : readEndpointPart e tag children = .ok e') : e'.WellFormed := by
  simp only [Endpoint.WellFormed, Endpoint.payloads, List.forall_mem_append, Option.mem_toList]
    at he ⊢
  obtain ⟨hread, hwrite⟩ := he
  unfold readEndpointPart at h
  split at h <;> simp only [bind_ok, pure_ok] at h
  · obtain ⟨p, hp, _, rfl, _, _, rfl⟩ := h
    refine ⟨?_, hwrite⟩
    rintro _ ⟨⟩
    exact readPayload_baseKey hp
  · obtain ⟨p, hp, _, rfl, _, _, rfl⟩ := h
    refine ⟨hread, ?_⟩
    rintro _ ⟨⟩
    exact readPayload_baseKey hp
  · obtain ⟨_, hthrow, _⟩ := h
    cases hthrow

theorem readEndpoint_wellFormed {tag : Tag} {children : List Node} {e : Endpoint}
    (h : readEndpoint tag children = .ok e) : e.WellFormed := by
  simp only [readEndpoint, bind_ok] at h
  obtain ⟨name, -, hparts⟩ := h
  have hstart : Endpoint.WellFormed { name } := by simp [Endpoint.WellFormed, Endpoint.payloads]
  exact foldElements_preserves readEndpointPart_wellFormed hstart hparts

-- ---------------------------------------------------------------------------
-- Documents
-- ---------------------------------------------------------------------------

theorem wellFormed_loadInvariant : LoadInvariant Descriptions.WellFormed where
  root := .start
  version _ hd := ⟨hd.1, hd.2, hd.3, hd.4, hd.5, hd.6⟩
  subtype hd hread hnew := hd.addSubtype (readSubtype_isSome hread) hnew
  entity hd hread hnew := hd.addEntity (readEntity_wellFormed hread) hnew
  endpoint hd hread hnew := hd.addEndpoint (readEndpoint_wellFormed hread) hnew

/-- Loaded descriptions are well formed, looking up the name of a definition finds that
definition and no other, and validation reports no repeated name. -/
theorem load_wellFormed {text : String} {d : Descriptions} (h : load text = .ok d) :
    d.WellFormed ∧
    (∀ name e, d.entity? name = some e ↔ e ∈ d.entities ∧ e.name = name) ∧
    (∀ name s, d.subtype? name = some s ↔ s ∈ d.subtypes ∧ s.name = name) ∧
    (∀ name e, d.endpoint? name = some e ↔ e ∈ d.endpoints ∧ e.name = name) ∧
    ∀ kind name, d.validate ≠ .error (.duplicate kind name) := by
  have hd := wellFormed_loadInvariant.load h
  exact ⟨hd, fun _ _ => Schema.find?_name_eq_some hd.entityNames,
    fun _ _ => Schema.find?_name_eq_some hd.subtypeNames,
    fun _ _ => Schema.find?_name_eq_some hd.endpointNames, hd.validate_ne_duplicate⟩

def notedItems : String :=
  "<descriptions version='1'><entities><entity name='item'/></entities>"
    ++ "<endpoints><endpoint name='notes'><read entity='note' baseKey='data..notes'/></endpoint>"
    ++ "</endpoints><entities><entity name='note'><identifier type='relationships'>"
    ++ "<relationship entity='item'/></identifier></entity></entities></descriptions>"

theorem exists_load_notedItems : ∃ d, load notedItems = .ok d ∧
    d.entities.map (·.name) = ["item", "note"] ∧
      d.endpoints.flatMap (·.payloads.map (·.baseKey)) = [["data", "notes"]] := by
  have htext : notedItems = _ :=
    Markup.append_eq_ofList (Markup.append_eq_ofList (Markup.append_eq_ofList rfl rfl) rfl) rfl
  rw [load, Markup.nodes_of_ofList htext]
  exact exists_ok_of_decide (by decide +kernel)

theorem load_wellFormed_notedItems : ∃ d, load notedItems = .ok d ∧
    d.endpoints.flatMap (·.payloads.map (·.baseKey)) = [["data", "notes"]] ∧ d.WellFormed ∧
    (∃ e, d.entity? "note" = some e) ∧ ∀ kind name, d.validate ≠ .error (.duplicate kind name) := by
  obtain ⟨d, hd, hnames, hkeys⟩ := exists_load_notedItems
  obtain ⟨hwellFormed, hentity, -, -, hvalidate⟩ := load_wellFormed hd
  obtain ⟨e, he, hname⟩ : ∃ e ∈ d.entities, e.name = "note" := List.mem_map.mp (by simp [hnames])
  exact ⟨d, hd, hkeys, hwellFormed, ⟨e, (hentity "note" e).mpr ⟨he, hname⟩⟩, hvalidate⟩

end EntityGen.Document
