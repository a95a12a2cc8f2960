import EntityGen.Emit.EndpointFile
import EntityGen.Emit.PayloadFile
import EntityGen.Proofs.Code.TypeNames
import EntityGen.Proofs.Emit.Labels
import EntityGen.Proofs.Emit.QuietValues
import EntityGen.Proofs.Schema.Resolvable

/-!
# Types that emitted code mentions

Entities, payloads and payloads of endpoints mention types of the libraries,
types of the definitions that they refer to, and payloads of entities. An entity
takes its own payload, a payload embeds those of its targets, and an endpoint
decodes those of its entities.
-/

namespace EntityGen.Emit

open Code
open Schema (Descriptions Endpoint EndpointPayload Entity PropertyType Relationship Scalar Subtype)

-- ---------------------------------------------------------------------------
-- Names
-- ---------------------------------------------------------------------------

/-- Types of the libraries, and those that are declared inside of emitted types. -/
def commonTypes : List String :=
  ["AnySequence", "Bool", "CodingKey", "Color", "Date", "Decodable", "Decoder", "Double", "Entity",
    "EntityContainer", "EntityIndexValue", "Equatable", "Float", "Identifier", "IndexName", "Int",
    "Keys", "Lazy", "Milliseconds", "NestedKeys", "Seconds", "String", "URL",
    "VoidEntityIdentifier", "VoidIndexName"]

/-- What files of entities, payloads and endpoints may mention if they refer to the payloads
of some entities only. -/
inductive Known (d : Descriptions) (payloads : Entity → Prop) : String → Prop
  | common {name : String} (h : name ∈ commonTypes) : Known d payloads name
  | identifier (name : String) : Known d payloads (identifierTypeNamed name).name
  | index (name : String) : Known d payloads (indexNameType name).name
  | entity {e : Entity} (he : e ∈ d.entities) : Known d payloads (entityType e.name).name
  | subtype {s : Subtype} (hs : s ∈ d.subtypes) : Known d payloads (subtypeType s.name).name
  | endpoint {e : Endpoint} (he : e ∈ d.endpoints) (side : PayloadSide) :
      Known d payloads (endpointPayloadType e.name side).name
  | payload {e : Entity} (he : e ∈ d.entities) (hp : payloads e) :
      Known d payloads (payloadType e.name).name

section
variable {d : Descriptions} {payloads : Entity → Prop}

theorem known_of_common {name : String} (h : commonTypes.contains name = true) :
    Known d payloads name :=
  .common (by simpa using h)

attribute [local simp] known_of_common commonTypes Part.MentionsOnly Part.types

-- ---------------------------------------------------------------------------
-- Types of values
-- ---------------------------------------------------------------------------

variable {e : Entity} {p : Schema.Property} {t : TypeName}

theorem scalarType_mentions (scalar : Scalar) :
    (scalarType scalar).Each (Known d payloads) := by
  cases scalar <;> simp [scalarType, TypeName.string, TypeName.int, TypeName.date, TypeName.double,
    TypeName.float, TypeName.bool, TypeName.url, colorType]

theorem identifierType_mentions (e : Entity) :
    (identifierType e).Each (Known d payloads) := by
  unfold identifierType
  split
  · simp
  · simpa [identifierTypeNamed] using Known.identifier e.name

theorem elementType_mentions (h : elementType d e p = .ok t) :
    t.Each (Known d payloads) := by
  unfold elementType at h
  split at h
  · obtain rfl := pure_ok.mp h
    exact scalarType_mentions _
  · simp only [bind_ok, schema_ok, Descriptions.subtype_ok, pure_ok] at h
    obtain ⟨s, hs, rfl⟩ := h
    simpa [subtypeType] using Known.subtype (Descriptions.mem_of_subtype? hs)
  · simp only [bind_ok, pure_ok] at h
    obtain ⟨target, -, rfl⟩ := h
    exact identifierType_mentions target

theorem sequenceIf_mentions {condition : Bool} (h : t.Each (Known d payloads)) :
    (sequenceIf condition t).Each (Known d payloads) := by
  cases condition <;> simpa [sequenceIf] using h

theorem propertyType_mentions (h : propertyType d e p = .ok t) :
    t.Each (Known d payloads) := by
  simp only [propertyType, valueType, bind_ok, map_ok, pure_ok] at h
  obtain ⟨value, ⟨element, helement, rfl⟩, rfl⟩ := h
  have hvalue : (sequenceIf p.isCollection element).Each (Known d payloads) :=
    sequenceIf_mentions (elementType_mentions helement)
  cases p.isLazy <;> simpa using hvalue

theorem fieldElementType_embedded {r : Relationship} (h : fieldElementType d e p = .ok t)
    (hr : p.relationship? = some r) (hembedded : r.idOnly = false) :
    ∃ target, d.entity? r.entityName = some target ∧ target.isRemote = true ∧
      t = payloadType target.name := by
  simp only [fieldElementType, hr, hembedded, Bool.false_eq_true, if_false,
    Descriptions.relationshipTarget, bind_ok, schema_ok, Descriptions.entity_ok] at h
  obtain ⟨target, htarget, h⟩ := h
  split at h
  · next hremote => exact ⟨target, htarget, hremote, (pure_ok.mp h).symm⟩
  · cases h

theorem fieldType_mentions (h : fieldType d e p = .ok t) (hremote : ∀ e, e.isRemote → payloads e) :
    t.Each (Known d payloads) := by
  simp only [fieldType, bind_ok, pure_ok] at h
  obtain ⟨element, helement, rfl⟩ := h
  have hmentions : element.Each (Known d payloads) := by
    cases hr : p.relationship? with
    | none =>
      simp only [fieldElementType, hr] at helement
      exact elementType_mentions helement
    | some r =>
      cases hid : r.idOnly with
      | true =>
        simp only [fieldElementType, hr, hid, if_true] at helement
        exact elementType_mentions helement
      | false =>
        obtain ⟨target, htarget, htr, rfl⟩ := fieldElementType_embedded helement hr hid
        simpa [payloadType] using
          Known.payload (Descriptions.mem_of_entity? htarget) (hremote target htr)
  simpa using sequenceIf_mentions hmentions

theorem defaultValue_mentions (default : Schema.DefaultValue) (type : PropertyType) :
    (defaultValue default type).MentionsOnly (Known d payloads) := by
  cases default with
  | int n =>
    simp only [defaultValue]
    split <;> simp
  | string text =>
    simp only [defaultValue]
    split <;> simp [urlValue, colorValue, TypeName.url, colorType]
  | _ => simp [defaultValue, TypeName.date]

-- ---------------------------------------------------------------------------
-- Members
-- ---------------------------------------------------------------------------

theorem mentionsOnly_grouped {known : String → Prop} {groups : List (List Item)} :
    (∀ i ∈ Item.grouped groups, i.MentionsOnly known) ↔
      ∀ g ∈ groups, ∀ i ∈ g, i.MentionsOnly known :=
  Item.forall_mem_grouped (by simp)

theorem constantProperty_mentionsOnly {known : String → Prop} {name : String} :
    (constantProperty name t).MentionsOnly known ↔ t.Each known := by
  simp [constantProperty]

theorem memberwiseInitializer_mentions {members : List (String × TypeName)}
    (h : ∀ m ∈ members, m.2.Each (Known d payloads)) :
    (Item.function (memberwiseInitializer members)).MentionsOnly (Known d payloads) := by
  refine Item.each_function.mpr ⟨?_, ?_, ?_⟩
  · simpa [memberwiseInitializer] using fun type name hm => h (name, type) hm
  · exact List.forall_mem_map.mpr fun m _ => by simp
  · exact List.forall_mem_map.mpr fun m _ => by simp

-- ---------------------------------------------------------------------------
-- Entities
-- ---------------------------------------------------------------------------

theorem storedMembers_mentions {members : List (String × TypeName)}
    (h : storedMembers d e = .ok members) : ∀ m ∈ members, m.2.Each (Known d payloads) := by
  simp only [storedMembers, bind_ok, pure_ok] at h
  obtain ⟨typed, htyped, rfl⟩ := h
  have hproperties : ∀ m ∈ typed, m.2.Each (Known d payloads) := by
    refine forall_mem_of_mapM_ok htyped fun p _ m hm => ?_
    simp only [bind_ok, pure_ok] at hm
    obtain ⟨type, htype, rfl⟩ := hm
    exact propertyType_mentions htype
  split
  · exact hproperties
  · exact List.forall_mem_cons.mpr ⟨identifierType_mentions e, hproperties⟩

theorem initializerArguments_mentions {identifier : Expr} {value : Schema.Property → Expr}
    (hi : identifier.MentionsOnly (Known d payloads))
    (hv : ∀ p, (value p).MentionsOnly (Known d payloads)) :
    ∀ a ∈ initializerArguments e identifier value, a.value.MentionsOnly (Known d payloads) := by
  intro a ha
  rcases List.mem_append.mp ha with ha | ha
  · split at ha
    · cases ha
    · obtain rfl := List.mem_singleton.mp ha
      exact hi
  · obtain ⟨p, -, rfl⟩ := List.mem_map.mp ha
    exact hv p

theorem payloadValue_mentions {field : Expr} (h : field.MentionsOnly (Known d payloads)) :
    (payloadValue p field).MentionsOnly (Known d payloads) := by
  unfold payloadValue
  split
  · exact h
  · next r hr =>
    split
    · exact h
    · cases r.association <;> cases p.isOptional <;> cases p.isLazy <;>
        simpa [embeddedIdentifiers, Expr.optionalIf] using h

theorem entityType_mentions (he : e ∈ d.entities) : (entityType e.name).Each (Known d payloads) := by
  simpa [entityType] using Known.entity he

theorem entityClass_mentions (he : e ∈ d.entities) {decl : TypeDecl}
    (h : entityClass d e = .ok decl) : (Item.type decl).MentionsOnly (Known d payloads) := by
  simp only [entityClass, bind_ok, pure_ok] at h
  obtain ⟨members, hmembers, rfl⟩ := h
  have hmembers : ∀ m ∈ members, m.2.Each (Known d payloads) := storedMembers_mentions hmembers
  have hindex : (if e.properties.isEmpty then ({ name := "VoidIndexName" } : TypeName)
      else indexNameType e.name).Each (Known d payloads) := by
    split
    · simp
    · simpa [indexNameType] using Known.index e.name
  refine Item.each_type.mpr ⟨by simpa using entityType_mentions he, mentionsOnly_grouped.mpr ?_⟩
  simp only [List.forall_mem_cons, forall_mem_nil_iff, and_true]
  refine ⟨⟨?_, ?_⟩, ?_, memberwiseInitializer_mentions hmembers⟩
  · simpa [publicAlias] using identifierType_mentions e
  · simpa [publicAlias] using hindex
  · rw [List.forall_mem_append, List.forall_mem_map]
    refine ⟨?_, fun m hm => constantProperty_mentionsOnly.mpr (hmembers m hm)⟩
    split
    · simpa [voidIdentifierProperty] using identifierType_mentions e
    · simp

theorem payloadInitializer_mentions (he : e ∈ d.entities) (hp : payloads e) :
    (Item.extension (payloadInitializer e)).MentionsOnly (Known d payloads) := by
  have harguments : ∀ a ∈ initializerArguments e (.member (.name "payload") "identifier")
      (fun p => payloadValue p (.member (.name "payload") (memberName p.name))),
      a.value.MentionsOnly (Known d payloads) :=
    initializerArguments_mentions (by simp) fun p => payloadValue_mentions (by simp)
  have hpayload : (payloadType e.name).Each (Known d payloads) := by
    simpa [payloadType] using Known.payload he hp
  simpa [payloadInitializer] using ⟨entityType_mentions he, hpayload, harguments⟩

theorem equatable_mentions (he : e ∈ d.entities) :
    (Item.extension (equatable e)).MentionsOnly (Known d payloads) := by
  simpa [equatable, equalityCheck, TypeName.bool, or_imp, forall_and]
    using entityType_mentions he

theorem indexNameEnum_mentions (e : Entity) :
    (Item.type (indexNameEnum e)).MentionsOnly (Known d payloads) := by
  simpa [indexNameEnum, indexNameType] using Known.index e.name

theorem wrapped_mentions {case : String} {value : Expr}
    (h : value.MentionsOnly (Known d payloads)) :
    (wrapped case value).MentionsOnly (Known d payloads) := by
  simpa [wrapped] using h

section
variable {value result : Expr}

theorem elementIndexValue_mentions (h : elementIndexValue d e p value = .ok result)
    (hv : value.MentionsOnly (Known d payloads)) : result.MentionsOnly (Known d payloads) := by
  unfold elementIndexValue at h
  split at h
  · obtain rfl := pure_ok.mp h
    exact wrapped_mentions hv
  · simp only [bind_ok, pure_ok] at h
    obtain ⟨subtype, -, rfl⟩ := h
    exact wrapped_mentions (wrapped_mentions hv)
  · simp only [bind_ok, pure_ok] at h
    obtain ⟨target, -, rfl⟩ := h
    exact wrapped_mentions (wrapped_mentions hv)

theorem collectionIndexValue_mentions (h : collectionIndexValue d e p value = .ok result)
    (hv : value.MentionsOnly (Known d payloads)) : result.MentionsOnly (Known d payloads) := by
  unfold collectionIndexValue at h
  split at h
  · simp only [bind_ok, pure_ok] at h
    obtain ⟨element, helement, rfl⟩ := h
    have he : element.MentionsOnly (Known d payloads) :=
      elementIndexValue_mentions helement (by simp)
    exact wrapped_mentions (by simpa using ⟨hv, he⟩)
  · exact elementIndexValue_mentions h hv

theorem indexValue_mentions (h : indexValue d e p value = .ok result)
    (hv : value.MentionsOnly (Known d payloads)) : result.MentionsOnly (Known d payloads) := by
  simp only [indexValue, bind_ok] at h
  obtain ⟨projected, hprojected, h⟩ := h
  have hp : projected.MentionsOnly (Known d payloads) :=
    collectionIndexValue_mentions hprojected (by simp)
  split at h
  · obtain rfl := pure_ok.mp h
    cases p.isOptional <;> exact wrapped_mentions (by simpa using ⟨hv, hp⟩)
  · split at h
    · obtain rfl := pure_ok.mp h
      exact wrapped_mentions (by simpa using ⟨hv, hp⟩)
    · exact collectionIndexValue_mentions h hv

end

theorem indexValueAccessor_mentions (he : e ∈ d.entities) {ext : Extension}
    (h : indexValueAccessor d e = .ok ext) :
    (Item.extension ext).MentionsOnly (Known d payloads) := by
  simp only [indexValueAccessor, bind_ok, pure_ok] at h
  obtain ⟨cases, hcases, rfl⟩ := h
  have hcases : ∀ c ∈ cases, c.pattern.Each (Part.MentionsOnly (Known d payloads)) ∧
      ∀ i ∈ c.body, i.MentionsOnly (Known d payloads) := by
    refine forall_mem_of_mapM_ok hcases fun p _ c hc => ?_
    simp only [indexValueCase, bind_ok, pure_ok] at hc
    obtain ⟨value, hvalue, rfl⟩ := hc
    have hvalue : value.MentionsOnly (Known d payloads) := indexValue_mentions hvalue (by simp)
    simpa using hvalue
  have hindex : (indexNameType e.name).Each (Known d payloads) := by
    simpa [indexNameType] using Known.index e.name
  refine Item.each_extension.mpr ⟨by simpa using entityType_mentions he,
    List.forall_mem_singleton.mpr (Item.each_function.mpr ⟨?_, by simp, ?_⟩)⟩
  · simpa using hindex
  · simpa using hcases

theorem merging_mentions (he : e ∈ d.entities) :
    (Item.extension (merging e)).MentionsOnly (Known d payloads) := by
  have hvalue (p : Schema.Property) : (mergedValue p).MentionsOnly (Known d payloads) := by
    unfold mergedValue
    cases p.isLazy <;> simp
  have harguments : ∀ a ∈ initializerArguments e (.member (.name "updated") "identifier")
      mergedValue, a.value.MentionsOnly (Known d payloads) :=
    initializerArguments_mentions (by simp) hvalue
  simpa [merging] using ⟨entityType_mentions he, harguments⟩

theorem entityItems_mentions (he : e ∈ d.entities) {items : List Item}
    (h : entityItems d e = .ok items) (hremote : e.isRemote → payloads e) :
    ∀ i ∈ items, i.MentionsOnly (Known d payloads) := by
  obtain ⟨decl, index, hdecl, hindex, rfl⟩ := entityItems_ok h
  simp only [List.forall_mem_append, List.forall_mem_singleton]
  refine ⟨⟨⟨⟨entityClass_mentions he hdecl, ?_⟩, equatable_mentions he⟩, ?_⟩, ?_⟩
  · split
    · next hr => simpa using payloadInitializer_mentions he (hremote hr)
    · simp
  · intro i hi
    rcases hindex i hi with rfl | ⟨accessor, haccessor, rfl⟩
    · exact indexNameEnum_mentions e
    · exact indexValueAccessor_mentions he haccessor
  · split
    · simpa using merging_mentions he
    · simp

-- ---------------------------------------------------------------------------
-- Decoding
-- ---------------------------------------------------------------------------

theorem decodeFrom_mentions {container method : String} {key : Option String}
    (h : t.Each (Known d payloads)) :
    (decodeFrom container method t key).MentionsOnly (Known d payloads) := by
  cases key <;> simpa [decodeFrom, forKey] using h

theorem decodingInitializer_mentions {access : Access} {body : List Item}
    (h : ∀ i ∈ body, i.MentionsOnly (Known d payloads)) :
    (Item.function (decodingInitializer access body)).MentionsOnly (Known d payloads) := by
  simpa [decodingInitializer, decoderParameter] using h

theorem keyedDecoding_mentions : keyedDecoding.MentionsOnly (Known d payloads) := by
  simp [keyedDecoding, decodingContainer, keyedBy]

theorem valueDecoding_mentions : valueDecoding.MentionsOnly (Known d payloads) := by
  simp [valueDecoding, decodingContainer]

theorem keysEnum_mentions {name : String} {cases : List EnumCase} (hname : Known d payloads name)
    (h : ∀ c ∈ cases, c.associated = [] ∧
      ∀ value, c.rawValue = some value → value.MentionsOnly (Known d payloads)) :
    (Item.type (keysEnum name cases)).MentionsOnly (Known d payloads) := by
  refine Item.each_type.mpr ⟨by simpa [keysEnum, TypeName.string] using hname,
    List.forall_mem_map.mpr fun c hc => Item.each_enumCase.mpr ⟨?_, (h c hc).2⟩⟩
  simp [(h c hc).1]

theorem singleKeyEnum_mentions {name case key : String} (hname : Known d payloads name) :
    (Item.type (singleKeyEnum name case key)).MentionsOnly (Known d payloads) :=
  keysEnum_mentions hname (by simp)

theorem codingKeys_mentions (keys : List (String × String)) :
    (Item.type (codingKeys keys)).MentionsOnly (Known d payloads) := by
  refine keysEnum_mentions (by simp) (List.forall_mem_map.mpr fun key _ => ⟨rfl, ?_⟩)
  intro value hvalue
  simp only [codingKey] at hvalue
  split at hvalue
  · cases hvalue
  · cases hvalue
    simp

-- ---------------------------------------------------------------------------
-- Payloads
-- ---------------------------------------------------------------------------

theorem decodeField_mentions (h : t.Each (Known d payloads)) :
    (decodeField p t).MentionsOnly (Known d payloads) := by
  have hdecode (method : String) {t : TypeName} (h : t.Each (Known d payloads)) :
      (decodeFrom "container" method t (some (memberName p.name))).MentionsOnly
        (Known d payloads) :=
    decodeFrom_mentions h
  unfold decodeField
  split
  · simpa using hdecode _ h
  split
  · next default hd =>
    obtain ⟨value, rfl⟩ := presentDefault?_eq_defaultValue hd
    simpa using ⟨hdecode _ (TypeName.each_unwrapped.mpr h), defaultValue_mentions value p.type⟩
  · split
    · simpa using hdecode _ (TypeName.each_unwrapped.mpr h)
    · simpa using hdecode _ h

theorem payloadFields_mentions {fields : List PayloadField} (h : payloadFields d e = .ok fields)
    (hremote : ∀ e, e.isRemote → payloads e) :
    ∀ f ∈ fields, f.type.Each (Known d payloads) ∧ f.decoding.MentionsOnly (Known d payloads) := by
  simp only [payloadFields, bind_ok, pure_ok] at h
  obtain ⟨own, hown, rfl⟩ := h
  rw [List.forall_mem_append]
  constructor
  · intro f hf
    simp only [identifierField?, Option.mem_toList, Option.map_eq_some_iff] at hf
    obtain ⟨value, -, rfl⟩ := hf
    have htype : (identifierType e).Each (Known d payloads) := identifierType_mentions e
    have hvalue : (identifierValueType value).Each (Known d payloads) := by
      cases value <;> simp [identifierValueType, TypeName.int, TypeName.string]
    refine ⟨htype, ?_⟩
    simpa [decodeIdentifier, remoteValue] using ⟨htype, decodeFrom_mentions hvalue⟩
  · refine forall_mem_of_mapM_ok hown fun p _ f hf => ?_
    simp only [payloadField, bind_ok, pure_ok] at hf
    obtain ⟨type, htype, rfl⟩ := hf
    have htype := fieldType_mentions htype hremote
    refine ⟨?_, by simpa using decodeField_mentions htype⟩
    cases p.isLazy <;> simpa using htype

theorem payloadStruct_mentions (he : e ∈ d.entities) (hp : payloads e) {decl : TypeDecl}
    (h : payloadStruct d e = .ok decl) (hremote : ∀ e, e.isRemote → payloads e) :
    (Item.type decl).MentionsOnly (Known d payloads) := by
  simp only [payloadStruct, bind_ok, pure_ok] at h
  obtain ⟨fields, hfields, rfl⟩ := h
  have hfields := payloadFields_mentions hfields hremote
  refine Item.each_type.mpr ⟨by simpa [payloadType] using Known.payload he hp,
    mentionsOnly_grouped.mpr ?_⟩
  simp only [List.forall_mem_cons, forall_mem_nil_iff, and_true]
  refine ⟨List.forall_mem_map.mpr fun f hf => constantProperty_mentionsOnly.mpr (hfields f hf).1,
    codingKeys_mentions _, decodingInitializer_mentions ?_⟩
  exact List.forall_mem_cons.mpr
    ⟨keyedDecoding_mentions, List.forall_mem_map.mpr fun f hf => (hfields f hf).2⟩

-- ---------------------------------------------------------------------------
-- Endpoints
-- ---------------------------------------------------------------------------

theorem decodeRequired_mentions {container : String} {key : Option String}
    (h : t.Each (Known d payloads)) :
    (decodeRequired container t key).MentionsOnly (Known d payloads) := by
  simpa [decodeRequired] using decodeFrom_mentions h

theorem entityContainer_mentions {element : TypeName} (h : element.Each (Known d payloads))
    (entityKey : String) :
    (Item.type (entityContainer element entityKey)).MentionsOnly (Known d payloads) := by
  refine Item.each_type.mpr
    ⟨by simp [entityContainer, entityContainerType], mentionsOnly_grouped.mpr ?_⟩
  simp only [List.forall_mem_cons, forall_mem_nil_iff, and_true]
  refine ⟨by simpa using h, singleKeyEnum_mentions (by simp), decodingInitializer_mentions ?_⟩
  simp only [List.forall_mem_cons, forall_mem_nil_iff, and_true]
  exact ⟨keyedDecoding_mentions, by simpa using decodeRequired_mentions h⟩

theorem placeTypes_mentions {element : TypeName} (h : element.Each (Known d payloads))
    (place : PayloadPlace) :
    ∀ t ∈ placeTypes element place, (Item.type t).MentionsOnly (Known d payloads) := by
  cases place with
  | root => exact forall_mem_nil_iff.mpr trivial
  | keyed key => exact List.forall_mem_singleton.mpr (singleKeyEnum_mentions (by simp))
  | nested outer inner =>
    exact List.forall_mem_cons.mpr ⟨singleKeyEnum_mentions (by simp),
      List.forall_mem_singleton.mpr (singleKeyEnum_mentions (by simp))⟩
  | list listKey entityKey =>
    exact List.forall_mem_cons.mpr ⟨entityContainer_mentions h entityKey,
      List.forall_mem_map.mpr fun key _ => singleKeyEnum_mentions (by simp)⟩

theorem placeDecoding_mentions {field : String} (h : t.Each (Known d payloads))
    (place : PayloadPlace) :
    ∀ i ∈ placeDecoding (.name field) t place, i.MentionsOnly (Known d payloads) := by
  cases place with
  | root =>
    simpa [placeDecoding] using ⟨valueDecoding_mentions, decodeRequired_mentions h⟩
  | keyed key =>
    simpa [placeDecoding] using ⟨keyedDecoding_mentions, decodeRequired_mentions h⟩
  | nested outer inner =>
    simpa [placeDecoding, keyedBy, forKey] using ⟨keyedDecoding_mentions, decodeRequired_mentions h⟩
  | list listKey entityKey =>
    have hcontainers : entityContainerType.array.Each (Known d payloads) := by
      simp [entityContainerType]
    have hopen : (if listKey.isSome then keyedDecoding else valueDecoding).MentionsOnly
        (Known d payloads) := by
      split
      · exact keyedDecoding_mentions
      · exact valueDecoding_mentions
    simpa [placeDecoding, listedEntities] using ⟨hopen, decodeRequired_mentions hcontainers⟩

/-- A payload of an endpoint holds one payload of its entity or a sequence of them. -/
theorem endpointPayload_ok {endpoint : Endpoint} {payload : EndpointPayload} {side : PayloadSide}
    {decl : TypeDecl} (h : endpointPayload d endpoint payload side = .ok decl) :
    ∃ entity field isSequence place, d.entity? payload.entityName = some entity ∧
      decl.name = endpointPayloadType endpoint.name side ∧
      decl.inherited = [{ name := "Decodable" }] ∧
      let type := sequenceIf isSequence (payloadType entity.name)
      decl.body = Item.grouped
        ([[constantProperty field type]]
          ++ (placeTypes (payloadType entity.name) place).map (fun t => [Item.type t])
          ++ [[Item.function (decodingInitializer .publicAccess
            (placeDecoding (.name field) type place))]]) := by
  simp only [endpointPayload, bind_ok, schema_ok, Descriptions.entity_ok, pure_ok] at h
  obtain ⟨entity, hfound, place, -, rfl⟩ := h
  by_cases hsingle : payload.layout = .single
  · exact ⟨entity, "entity", false, place, hfound, rfl, rfl, by simp [hsingle, sequenceIf]⟩
  · exact ⟨entity, "entities", true, place, hfound, rfl, rfl, by simp [hsingle, sequenceIf]⟩

theorem endpointPayload_mentions {endpoint : Endpoint} (he : endpoint ∈ d.endpoints)
    {payload : EndpointPayload} {side : PayloadSide} {decl : TypeDecl}
    (h : endpointPayload d endpoint payload side = .ok decl)
    (hentity : ∀ e, d.entity? payload.entityName = some e → payloads e) :
    (Item.type decl).MentionsOnly (Known d payloads) := by
  obtain ⟨entity, field, isSequence, place, hfound, hname, hinherited, hbody⟩ :=
    endpointPayload_ok h
  have helement : (payloadType entity.name).Each (Known d payloads) := by
    simpa [payloadType] using
      Known.payload (Descriptions.mem_of_entity? hfound) (hentity entity hfound)
  have hendpoint : (endpointPayloadType endpoint.name side).Each (Known d payloads) := by
    simpa [endpointPayloadType] using Known.endpoint he side
  have htype : (sequenceIf isSequence (payloadType entity.name)).Each (Known d payloads) :=
    sequenceIf_mentions helement
  refine Item.each_type.mpr ⟨by simpa [hname, hinherited] using hendpoint, ?_⟩
  rw [hbody, mentionsOnly_grouped]
  simp only [List.forall_mem_append, List.forall_mem_map, List.forall_mem_singleton]
  exact ⟨⟨constantProperty_mentionsOnly.mpr htype, placeTypes_mentions helement place⟩,
    decodingInitializer_mentions (placeDecoding_mentions htype place)⟩

end
end EntityGen.Emit
