import EntityGen.Emit.Types
import EntityGen.Proofs.Results
import EntityGen.Proofs.Schema.Resolvable

/-!
# Look-ups after validation

The generators look up every reference anew. If the descriptions are resolvable
none of these look-ups fails.
-/

namespace EntityGen.Emit

open Schema (Descriptions Entity Member Subtype)

variable {d : Descriptions} {e : Entity} {p : Schema.Property} {q : Error → Prop}

-- ---------------------------------------------------------------------------
-- Types
-- ---------------------------------------------------------------------------

theorem subtype_failsOnly {name source : String} (h : ∃ s, d.subtype? name = some s) :
    FailsOnly q (liftM (d.subtype name source) : Except Error Subtype) := by
  obtain ⟨s, hs⟩ := h
  exact .schema ⟨s, Descriptions.subtype_ok.mpr hs⟩

theorem subtype?_of_subtype {name source : String} {s : Subtype}
    (h : (liftM (d.subtype name source) : Except Error Subtype) = .ok s) :
    d.subtype? name = some s :=
  Descriptions.subtype_ok.mp (schema_ok.mp h)

theorem entity_failsOnly {name source : String} (h : ∃ e, d.entity? name = some e) :
    FailsOnly q (liftM (d.entity name source) : Except Error Entity) := by
  obtain ⟨e, he⟩ := h
  exact .schema ⟨e, Descriptions.entity_ok.mpr he⟩

theorem elementType_failsOnly (hd : d.Resolvable) (he : e ∈ d.entities) (hp : p ∈ e.properties) :
    FailsOnly q (elementType d e p) := by
  unfold elementType
  split
  · exact .pure _
  · next name ht =>
    exact .bind (subtype_failsOnly (hd.subtype he hp ht)) fun _ _ => .pure _
  · next r ht =>
    exact .bind (entity_failsOnly (hd.target he hp ht)) fun _ _ => .pure _

theorem valueType_failsOnly (hd : d.Resolvable) (he : e ∈ d.entities) (hp : p ∈ e.properties) :
    FailsOnly q (valueType d e p) :=
  .map (elementType_failsOnly hd he hp)

theorem propertyType_failsOnly (hd : d.Resolvable) (he : e ∈ d.entities) (hp : p ∈ e.properties) :
    FailsOnly q (propertyType d e p) :=
  .bind (valueType_failsOnly hd he hp) fun _ _ => .pure _

theorem memberType_failsOnly (hd : d.Resolvable) {s : Subtype} {members : List Member} {m : Member}
    (hs : s ∈ d.subtypes) (hi : s.items = .members members) (hm : m ∈ members) :
    FailsOnly q (memberType d s m) := by
  unfold memberType
  split
  · exact .bind (.pure _) fun _ _ => .pure _
  · next name ht =>
    refine .bind (subtype_failsOnly (hd.member hs hi hm ht)) fun _ _ => ?_
    exact .bind (.pure _) fun _ _ => .pure _

-- ---------------------------------------------------------------------------
-- Cases
-- ---------------------------------------------------------------------------

theorem firstUsedCase_failsOnly (hd : d.Resolvable) {s : Subtype} {cases : List Schema.Choice}
    (hs : s ∈ d.subtypes) (hi : s.items = .cases cases) : FailsOnly q (firstUsedCase s) := by
  have henum : s.isEnum = true := by simp [Subtype.isEnum, hi]
  have hused := hd.usedCase hs hi
  unfold firstUsedCase
  refine .ite (fun _ => ?_) fun hn => absurd henum hn
  split
  · exact .ok _
  · next hnone => exact absurd hnone hused

end EntityGen.Emit
