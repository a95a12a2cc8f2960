import EntityGen.Schema.Descriptions
import Mathlib.Data.List.Basic
import Mathlib.Tactic.MkIffOfInductiveProp

/-!
# Descriptions that a document can express

Definitions that share a name, a subtype without items or a default of another
type stand in no document. Neither do characters that would end a value.
-/

namespace EntityGen.Schema

-- ---------------------------------------------------------------------------
-- Texts
-- ---------------------------------------------------------------------------

def MemberType.texts : MemberType → List String
  | .scalar _ => []
  | .subtype name => [name]

def Member.texts (m : Member) : List String := [m.name, m.key] ++ m.type.texts

def SubtypeItems.texts : SubtypeItems → List String
  | .cases choices | .options choices => choices.map (·.name)
  | .members values => values.flatMap Member.texts

def Subtype.texts (s : Subtype) : List String := s.name :: s.items.texts

def Contributor.texts (c : Contributor) : List String := [c.variableName, c.entityName]

def Identifier.texts (i : Identifier) : List String :=
  i.key :: i.equivalent.toList ++ i.contributors.flatMap Contributor.texts

def PropertyType.texts : PropertyType → List String
  | .scalar _ => []
  | .subtype name => [name]
  | .relationship r => [r.entityName]

def DefaultValue.texts : DefaultValue → List String
  | .string text => [text]
  | .enumCase name => [name]
  | _ => []

def Property.texts (p : Property) : List String :=
  [p.name, p.key] ++ p.type.texts ++ p.default.toList.flatMap DefaultValue.texts

def Entity.texts (e : Entity) : List String :=
  e.name :: e.clientQueue.toList ++ e.legacyPreviousName.toList ++ e.identifier.texts
    ++ e.properties.flatMap Property.texts

def EndpointPayload.texts (p : EndpointPayload) : List String :=
  p.entityName :: p.entityKey.toList ++ p.baseKey

def Endpoint.texts (e : Endpoint) : List String :=
  e.name :: e.payloads.flatMap EndpointPayload.texts

def Descriptions.texts (d : Descriptions) : List String :=
  d.version :: d.versionHistory ++ d.subtypes.flatMap Subtype.texts
    ++ d.entities.flatMap Entity.texts ++ d.endpoints.flatMap Endpoint.texts

/-- The text can be the value of an attribute as it stands. -/
def IsPlain (text : String) : Prop := ∀ c ∈ text.toList, c ∉ ['<', '>', '&', '"']

instance : DecidablePred IsPlain := fun text => List.decidableBAll _ text.toList

-- ---------------------------------------------------------------------------
-- Conditions
-- ---------------------------------------------------------------------------

def IsInt64 (n : Int) : Prop := -9223372036854775808 ≤ n ∧ n < 9223372036854775808

instance : DecidablePred IsInt64 := fun _ => inferInstanceAs (Decidable (_ ∧ _))

/-- The default can be given for the type. A text or a case `nil` would be the absent
value. -/
def DefaultValue.Fits : DefaultValue → PropertyType → Prop
  | .nil, _ => True
  | .bool _, .scalar .bool => True
  | .int value, .scalar .int => IsInt64 value
  | .currentDate, .scalar .date => True
  | .string text, .scalar .string | .string text, .scalar .url | .string text, .scalar .color =>
    text ≠ "nil"
  | .enumCase name, .subtype _ => name ≠ "nil"
  | _, _ => False

instance (default : DefaultValue) (type : PropertyType) : Decidable (default.Fits type) := by
  unfold DefaultValue.Fits
  split <;> infer_instance

def SubtypeItems.IsSome : SubtypeItems → Prop
  | .cases choices | .options choices => choices ≠ []
  | .members values => values ≠ []

instance (items : SubtypeItems) : Decidable items.IsSome := by
  unfold SubtypeItems.IsSome
  split <;> infer_instance

/-- An identifier of relationships has one. -/
def IdentifierKind.IsContributed : IdentifierKind → Prop
  | .relationships _ contributors => contributors ≠ []
  | _ => True

instance (kind : IdentifierKind) : Decidable kind.IsContributed := by
  unfold IdentifierKind.IsContributed
  split <;> infer_instance

@[mk_iff]
structure Property.Expressible (p : Property) : Prop where
  array : p.isRelationship = true → p.isArray = false
  default : ∀ default ∈ p.default, default.Fits p.type

@[mk_iff]
structure Entity.Expressible (e : Entity) : Prop where
  identifier : e.identifier.kind.IsContributed
  names : (e.properties.map (·.name)).Nodup
  properties : ∀ p ∈ e.properties, p.Expressible

/-- The keys can stand between dots. -/
def EndpointPayload.Expressible (p : EndpointPayload) : Prop :=
  ∀ key ∈ p.baseKey, key ≠ "" ∧ '.' ∉ key.toList

@[mk_iff]
structure Descriptions.Expressible (d : Descriptions) : Prop where
  entityNames : (d.entities.map (·.name)).Nodup
  subtypeNames : (d.subtypes.map (·.name)).Nodup
  endpointNames : (d.endpoints.map (·.name)).Nodup
  subtypes : ∀ s ∈ d.subtypes, s.items.IsSome
  entities : ∀ e ∈ d.entities, e.Expressible
  endpoints : ∀ e ∈ d.endpoints, ∀ p ∈ e.payloads, p.Expressible
  texts : ∀ text ∈ d.texts, IsPlain text

instance (p : Property) : Decidable p.Expressible := decidable_of_iff' _ (p.expressible_iff)

instance (e : Entity) : Decidable e.Expressible := decidable_of_iff' _ (e.expressible_iff)

instance (p : EndpointPayload) : Decidable p.Expressible :=
  inferInstanceAs (Decidable (∀ key ∈ p.baseKey, _))

instance (d : Descriptions) : Decidable d.Expressible := decidable_of_iff' _ (d.expressible_iff)

end EntityGen.Schema
