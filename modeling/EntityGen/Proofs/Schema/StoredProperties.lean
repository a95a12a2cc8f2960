import EntityGen.Schema.Entity

/-!
# Storage order

Storing moves the relationships of an entity behind its values and changes
nothing else about the order in which properties are declared.
-/

namespace EntityGen.Schema

theorem Property.relationship?_eq_some {p : Property} {r : Relationship} :
    p.relationship? = some r ↔ p.type = .relationship r := by
  unfold relationship?
  cases p.type <;> simp

namespace Entity

theorem map_fst_relationships (e : Entity) :
    e.relationships.map Prod.fst = e.properties.filter Property.isRelationship := by
  unfold relationships
  induction e.properties with
  | nil => rfl
  | cons p properties ih =>
    cases hp : p.relationship? with
    | none => simpa [hp, Property.isRelationship] using ih
    | some r => simpa [hp, Property.isRelationship] using ih

theorem storedProperties_eq (e : Entity) :
    e.storedProperties = e.properties.filter (fun p => !p.isRelationship)
      ++ e.properties.filter Property.isRelationship := by
  rw [storedProperties, values, map_fst_relationships]

theorem storedProperties_perm (e : Entity) : e.storedProperties.Perm e.properties := by
  rw [storedProperties_eq]
  exact List.perm_append_comm.trans (List.filter_append_perm Property.isRelationship e.properties)

theorem mem_storedProperties {e : Entity} {p : Property} :
    p ∈ e.storedProperties ↔ p ∈ e.properties :=
  e.storedProperties_perm.mem_iff

theorem filter_value_storedProperties (e : Entity) :
    e.storedProperties.filter (fun p => !p.isRelationship)
      = e.properties.filter fun p => !p.isRelationship := by
  rw [storedProperties_eq, List.filter_append, List.filter_filter, List.filter_filter]
  simp

theorem filter_relationship_storedProperties (e : Entity) :
    e.storedProperties.filter Property.isRelationship
      = e.properties.filter Property.isRelationship := by
  rw [storedProperties_eq, List.filter_append, List.filter_filter, List.filter_filter]
  simp

end Entity
end EntityGen.Schema
