import EntityGen.Emit.EndpointFile
import EntityGen.Emit.IdentifierFile
import EntityGen.Proofs.Emit.QuietValues

/-!
# Effects of coding

Decoding throws since opening a container does, encoding throws since it
encodes at least one value. Both marks are fixed, so each is matched here
against the bodies that stand below it.
-/

namespace EntityGen.Emit

open Code
open Schema (Choice Descriptions Endpoint EndpointPayload Entity IdentifierValue Member Subtype)

attribute [local simp] Part.EffectsExact Function.EffectsExact Property.parts or_imp forall_and

theorem effectsExact_grouped {groups : List (List Item)} :
    (∀ i ∈ Item.grouped groups, i.EffectsExact) ↔ ∀ g ∈ groups, ∀ i ∈ g, i.EffectsExact :=
  Item.forall_mem_grouped Item.blank_effectsExact

-- ---------------------------------------------------------------------------
-- Containers
-- ---------------------------------------------------------------------------

theorem decodingInitializer_exact {access : Access} {method : String} {opening : List Argument}
    {body : List Item} (hopen : ∀ a ∈ opening, a.value.Quiet)
    (hawait : ∀ i ∈ body, i.mayAwait = false) (hbody : ∀ i ∈ body, i.EffectsExact) :
    (Item.function (decodingInitializer access
      (decodingContainer method opening :: body))).EffectsExact := by
  have ha : ∀ a ∈ opening, a.value.mayAwait = false := fun a h => (hopen a h).awaits
  have hp : ∀ a ∈ opening, a.value.Each Part.EffectsExact := fun a h => (hopen a h).parts
  simpa [decodingInitializer, decodingContainer, decoderParameter] using
    ⟨⟨ha, hawait⟩, hp, hbody⟩

theorem encodingFunction_exact {container : Item} {body : List Item}
    (hopen : container.Quiet) (hthrow : ∃ i ∈ body, i.mayThrow = true)
    (hawait : ∀ i ∈ body, i.mayAwait = false) (hbody : ∀ i ∈ body, i.EffectsExact) :
    (Item.function (encodingFunction (container :: body))).EffectsExact := by
  have ht : body.any Item.mayThrow = true := by simpa using hthrow
  have ha : body.any Item.mayAwait = false := by simpa using hawait
  simpa [encodingFunction, encoderParameter, hopen.throws, hopen.awaits, ht, ha] using
    ⟨hopen.parts, hbody⟩

theorem encodingContainer_quiet {method : String} {opening : List Argument}
    (hopen : ∀ a ∈ opening, a.value.Quiet) : (encodingContainer method opening).Quiet := by
  constructor
  · simpa [encodingContainer] using fun a h => (hopen a h).throws
  · simpa [encodingContainer] using fun a h => (hopen a h).awaits
  · simpa [encodingContainer] using fun a h => (hopen a h).parts

theorem keyedBy_quiet (keys : String) : (keyedBy keys).value.Quiet := by
  constructor <;> simp [keyedBy]

theorem decodeFrom_quiet (container method : String) (type : TypeName) (key : Option String) :
    (decodeFrom container method type key).Quiet := by
  cases key <;> constructor <;> simp [decodeFrom, forKey]

theorem encodeValue_mayThrow (method : String) (value : Expr) (key : Option String) :
    (encodeValue method value key).mayThrow = true := by
  simp [encodeValue]

theorem encodeValue_mayAwait {value : Expr} (method : String) (key : Option String)
    (h : value.Quiet) : (encodeValue method value key).mayAwait = false := by
  cases key <;> simp [encodeValue, forKey, h.awaits]

theorem encodeValue_exact {value : Expr} (method : String) (key : Option String)
    (h : value.Quiet) : (encodeValue method value key).EffectsExact := by
  cases key <;> simp [encodeValue, forKey, h.parts]

theorem keysEnum_exact (name : String) (cases : List EnumCase)
    (h : ∀ c ∈ cases, ∀ value, c.rawValue = some value → value.Each Part.EffectsExact) :
    (Item.type (keysEnum name cases)).EffectsExact := by
  simpa [keysEnum] using h

theorem singleKeyEnum_exact (name case key : String) :
    (Item.type (singleKeyEnum name case key)).EffectsExact :=
  keysEnum_exact _ _ (by simp)

theorem codingKeys_exact (keys : List (String × String)) :
    (Item.type (codingKeys keys)).EffectsExact := by
  apply keysEnum_exact
  intro c hc
  obtain ⟨⟨name, key⟩, -, rfl⟩ := List.mem_map.mp hc
  simp only [codingKey]
  split <;> simp

-- ---------------------------------------------------------------------------
-- Subtypes
-- ---------------------------------------------------------------------------

theorem constantProperty_exact (name : String) (type : TypeName) :
    (constantProperty name type).EffectsExact := by
  simp [constantProperty]

theorem memberwiseInitializer_exact (members : List (String × TypeName)) :
    (Item.function (memberwiseInitializer members)).EffectsExact := by
  apply Function.effectsExact_of_quiet rfl rfl
  · intro p hp
    obtain ⟨⟨name, type⟩, -, rfl⟩ := List.mem_map.mp hp
    simp
  · intro i hi
    obtain ⟨⟨name, type⟩, -, rfl⟩ := List.mem_map.mp hi
    constructor <;> simp

theorem rawValueProperty_exact (used : List Choice) :
    (Item.property (rawValueProperty used)).EffectsExact := by
  apply Property.effectsExact_of_quiet rfl rfl
  simp only [List.forall_mem_singleton]
  constructor <;> simp

/-- The initializer throws since the last branch refuses what no case stands for. -/
theorem rawValueInitializer_exact (s : Subtype) (cases : List Choice) :
    (Item.function (rawValueInitializer s cases)).EffectsExact := by
  have hbranch : ∀ c, (rawValueBranch s c).pattern.mayAwait = false ∧
      (rawValueBranch s c).pattern.Each Part.EffectsExact ∧
      ∀ i ∈ (rawValueBranch s c).body, i.mayAwait = false ∧ i.EffectsExact := by
    intro c
    simp only [rawValueBranch, raiseSubtypeError]
    split <;> simp
  refine Item.each_function.mpr ⟨⟨?_, ?_⟩, by simp [rawValueInitializer], ?_⟩
  · simp [rawValueInitializer, raiseSubtypeError]
  · simpa [rawValueInitializer, raiseSubtypeError] using
      ⟨fun c _ => (hbranch c).1, fun c _ i hi => ((hbranch c).2.2 i hi).1⟩
  · simpa [rawValueInitializer, raiseSubtypeError] using
      ⟨fun c _ => (hbranch c).2.1, fun c _ i hi => ((hbranch c).2.2 i hi).2⟩

theorem rawValueCoding_exact (type : TypeName) :
    (Item.extension (rawValueCoding type)).EffectsExact := by
  have hraw : (Expr.name "rawValue").Quiet := by constructor <;> simp
  refine Item.each_extension.mpr ⟨trivial, effectsExact_grouped.mpr ?_⟩
  simp only [List.forall_mem_cons, forall_mem_nil_iff, and_true]
  constructor
  · apply decodingInitializer_exact
    · simp
    · simp [decodeFrom]
    · simp [decodeFrom]
  · apply encodingFunction_exact
    · exact encodingContainer_quiet (by simp)
    · exact ⟨_, List.mem_singleton_self _, encodeValue_mayThrow ..⟩
    · simpa using encodeValue_mayAwait _ _ hraw
    · simpa using encodeValue_exact _ _ hraw

theorem enumItems_exact {s : Subtype} {cases : List Choice} {items : List Item}
    (h : enumItems s cases = .ok items) : ∀ i ∈ items, i.EffectsExact := by
  unfold enumItems at h
  split at h
  · cases h
  cases h
  have hdeclared : (Item.type (caseDeclaration (subtypeType s.name) s.usedCases)).EffectsExact := by
    simp [caseDeclaration]
  simp only [List.forall_mem_cons, forall_mem_nil_iff, and_true]
  refine ⟨hdeclared, ?_, rawValueCoding_exact _⟩
  refine Item.each_extension.mpr ⟨trivial, effectsExact_grouped.mpr ?_⟩
  simp only [List.forall_mem_cons, forall_mem_nil_iff, and_true]
  exact ⟨rawValueProperty_exact _, rawValueInitializer_exact s cases⟩

theorem optionProperty_exact (type : TypeName) (option : Choice) (bit : Nat) :
    (Item.property (optionProperty type option bit)).EffectsExact := by
  simp [optionProperty]

theorem optionSet_exact (s : Subtype) : (Item.type (optionSet s)).EffectsExact := by
  refine Item.each_type.mpr ⟨trivial, effectsExact_grouped.mpr ?_⟩
  simp only [List.forall_mem_cons, forall_mem_nil_iff, and_true]
  refine ⟨by simp, by simp, ?_, ?_⟩
  · rintro i hi
    obtain ⟨⟨option, bit⟩, -, rfl⟩ := List.mem_map.mp hi
    exact optionProperty_exact _ option bit
  · simp only [Item.each_property, Option.some.injEq, forall_eq', Expr.each_array,
      List.forall_mem_map]
    simp

theorem decodeMember_mayAwait (m : Member) (type : TypeName) :
    (decodeMember m type).mayAwait = false := by
  simp [decodeMember, (decodeFrom_quiet ..).awaits]

theorem decodeMember_exact (m : Member) (type : TypeName) :
    (decodeMember m type).EffectsExact := by
  simp [decodeMember, (decodeFrom_quiet ..).parts]

/-- A value without members would encode nothing and so not throw. -/
theorem valueStruct_exact {d : Descriptions} {s : Subtype} {members : List Member} {t : TypeDecl}
    (h : valueStruct d s members = .ok t) (hm : members ≠ []) : (Item.type t).EffectsExact := by
  simp only [valueStruct, bind_ok, pure_ok] at h
  obtain ⟨typed, -, rfl⟩ := h
  have hname : ∀ m : Member, (Expr.name (memberName m.name)).Quiet := by
    intro m
    constructor <;> simp
  refine Item.each_type.mpr ⟨trivial, effectsExact_grouped.mpr ?_⟩
  simp only [List.forall_mem_cons, forall_mem_nil_iff, and_true]
  refine ⟨?_, memberwiseInitializer_exact _, codingKeys_exact _, ?_, ?_⟩
  · intro i hi
    obtain ⟨⟨name, type⟩, -, rfl⟩ := List.mem_map.mp hi
    exact constantProperty_exact name type
  · apply decodingInitializer_exact
    · simpa using keyedBy_quiet "Keys"
    · intro i hi
      obtain ⟨⟨m, type⟩, -, rfl⟩ := List.mem_map.mp hi
      exact decodeMember_mayAwait m type
    · intro i hi
      obtain ⟨⟨m, type⟩, -, rfl⟩ := List.mem_map.mp hi
      exact decodeMember_exact m type
  · apply encodingFunction_exact
    · exact encodingContainer_quiet (by simpa using keyedBy_quiet "Keys")
    · obtain ⟨m, hm⟩ := List.exists_mem_of_ne_nil _ hm
      exact ⟨_, List.mem_map_of_mem hm, encodeValue_mayThrow ..⟩
    · simpa [encodeMember] using fun m _ => encodeValue_mayAwait _ _ (hname m)
    · simpa [encodeMember] using fun m _ => encodeValue_exact _ _ (hname m)

theorem subtypeItems_exact {d : Descriptions} {s : Subtype} {items : List Item}
    (h : subtypeItems d s = .ok items) (hm : s.items ≠ .members []) :
    ∀ i ∈ items, i.EffectsExact := by
  unfold subtypeItems at h
  split at h
  · exact enumItems_exact h
  · cases h
    simpa using optionSet_exact s
  · next members hmembers =>
    simp only [bind_ok, pure_ok] at h
    obtain ⟨t, ht, rfl⟩ := h
    have hne : members ≠ [] := by
      rintro rfl
      exact hm hmembers
    simpa using valueStruct_exact ht hne

-- ---------------------------------------------------------------------------
-- Identifiers
-- ---------------------------------------------------------------------------

theorem selfInit_quiet {arguments : List Argument} (h : ∀ a ∈ arguments, a.value.Quiet) :
    (Item.expr (Expr.selfRef.method "init" arguments)).Quiet :=
  (((Expr.quiet_name _).member _).call h).item

theorem constant_exact {value : Expr} (name : String) (h : value.Each Part.EffectsExact) :
    (Item.constant name value).EffectsExact := by
  simpa using h

theorem decodeConstant_exact (name : String) (type : TypeName) :
    (decodeConstant name type).EffectsExact :=
  constant_exact name (by simpa using (decodeFrom_quiet ..).parts)

theorem decodeConstant_mayAwait (name : String) (type : TypeName) :
    (decodeConstant name type).mayAwait = false := by
  simp [decodeConstant, (decodeFrom_quiet ..).awaits]

theorem identifierInitializer_exact (type valueType : TypeName) :
    (Item.function (identifierInitializer type valueType)).EffectsExact := by
  simp [identifierInitializer]

theorem identifierArguments_quiet {value typeID : Expr} (hv : value.Quiet) (ht : typeID.Quiet) :
    ∀ a ∈ identifierArguments value typeID, a.value.Quiet := by
  simpa [identifierArguments] using ⟨hv, ht⟩

theorem effectsExact_kind {f : Function} (kind : FunctionKind)
    (h : (Item.function f).EffectsExact) :
    (Item.function { f with kind }).EffectsExact := by
  obtain ⟨⟨ht, ha⟩, hp, hb⟩ := Item.each_function.mp h
  exact Item.each_function.mpr ⟨⟨ht, ha⟩, hp, hb⟩

theorem identifierDecoding_exact (valueType : TypeName) :
    (Item.function (identifierDecoding valueType)).EffectsExact := by
  have hinit : (Item.expr (Expr.selfRef.method "init"
      (identifierArguments (.name "value") (.name "identifierTypeID")))).Quiet :=
    selfInit_quiet (identifierArguments_quiet (Expr.quiet_name _) (Expr.quiet_name _))
  refine effectsExact_kind _ (decodingInitializer_exact ?_ ?_ ?_)
  · simpa using keyedBy_quiet "Keys"
  · simp only [List.forall_mem_cons, forall_mem_nil_iff, and_true]
    exact ⟨decodeConstant_mayAwait _ _, decodeConstant_mayAwait _ _, hinit.awaits⟩
  · simp only [List.forall_mem_cons, forall_mem_nil_iff, and_true]
    exact ⟨decodeConstant_exact _ _, decodeConstant_exact _ _, hinit.parts⟩

theorem identifierEncoding_exact : (Item.function identifierEncoding).EffectsExact := by
  have hproperty : (Expr.member (.name "property") "value").Quiet := (Expr.quiet_name _).member _
  have htype : (Expr.name "identifierTypeID").Quiet := Expr.quiet_name _
  apply encodingFunction_exact
  · exact encodingContainer_quiet (by simpa using keyedBy_quiet "Keys")
  · exact ⟨_, List.mem_cons_self, encodeValue_mayThrow ..⟩
  · simpa using ⟨encodeValue_mayAwait _ _ hproperty, encodeValue_mayAwait _ _ htype⟩
  · simpa using ⟨encodeValue_exact _ _ hproperty, encodeValue_exact _ _ htype⟩

theorem identifierUpdate_exact (type : TypeName) :
    (Item.function (identifierUpdate type)).EffectsExact := by
  simp [identifierUpdate]

theorem comparison_exact {symbol : String} {type : TypeName} {result : Expr} (h : result.Quiet) :
    (Item.function (comparison symbol type result)).EffectsExact := by
  apply Function.effectsExact_of_quiet rfl rfl
  · simp [comparison]
  · simpa [comparison] using h.returning

theorem identifierHash_exact : (Item.function identifierHash).EffectsExact := by
  simp [identifierHash, combineIntoHash]

theorem identifierClass_exact (e : Entity) (value : IdentifierValue) :
    (Item.type (identifierClass e value)).EffectsExact := by
  refine Item.each_type.mpr ⟨trivial, effectsExact_grouped.mpr ?_⟩
  simp only [List.forall_mem_cons, forall_mem_nil_iff, and_true]
  refine ⟨by simp [publicAlias], by simp [identifierProperties, constantProperty],
    identifierInitializer_exact _ _, ?_, identifierDecoding_exact _, identifierEncoding_exact,
    identifierUpdate_exact _, comparison_exact ?_, identifierHash_exact, comparison_exact ?_⟩
  · exact keysEnum_exact _ _ (by simp)
  · constructor <;> simp [ofLeft, ofRight]
  · constructor <;> simp [ofLeft, ofRight]

theorem conversionExtension_exact {d : Descriptions} {c : Conversion} {ext : Extension}
    (h : conversionExtension d c = .ok ext) : (Item.extension ext).EffectsExact := by
  simp only [conversionExtension, bind_ok, pure_ok] at h
  obtain ⟨target, -, source, -, rfl⟩ := h
  refine Item.each_extension.mpr ⟨trivial, List.forall_mem_singleton.mpr ?_⟩
  apply Function.effectsExact_of_quiet rfl rfl
  · simp
  · have hidentifier (x : String) : (Expr.member (.name "identifier") x).Quiet :=
      (Expr.quiet_name _).member x
    simp only [List.forall_mem_singleton]
    refine selfInit_quiet (identifierArguments_quiet ?_ (hidentifier _))
    split
    · exact hidentifier _
    · exact ((hidentifier "value").member _).call (by simp)

-- ---------------------------------------------------------------------------
-- Payloads
-- ---------------------------------------------------------------------------

theorem decodeField_exact (p : Schema.Property) (type : TypeName) :
    (decodeField p type).mayAwait = false ∧ (decodeField p type).Each Part.EffectsExact := by
  have hdecode (method : String) (type : TypeName) :=
    decodeFrom_quiet "container" method type (some (memberName p.name))
  unfold decodeField
  split
  · simpa using ⟨(hdecode ..).awaits, (hdecode ..).parts⟩
  split
  · next default hd =>
    have hq := presentDefault?_quiet hd
    simpa [hq.awaits, hq.parts] using ⟨(hdecode ..).awaits, (hdecode ..).parts⟩
  · split <;> simpa using ⟨(hdecode ..).awaits, (hdecode ..).parts⟩

theorem payloadFields_exact {d : Descriptions} {e : Entity} {fields : List PayloadField}
    (h : payloadFields d e = .ok fields) :
    ∀ f ∈ fields, f.decoding.mayAwait = false ∧ f.decoding.EffectsExact := by
  simp only [payloadFields, bind_ok, pure_ok] at h
  obtain ⟨properties, hp, rfl⟩ := h
  rw [List.forall_mem_append]
  constructor
  · intro f hf
    simp only [identifierField?, Option.mem_toList, Option.map_eq_some_iff] at hf
    obtain ⟨value, -, rfl⟩ := hf
    have hdecoded := decodeFrom_quiet "container" "decode" (identifierValueType value)
      (some "identifier")
    simp [decodeIdentifier, remoteValue, hdecoded.awaits, hdecoded.parts]
  · refine forall_mem_of_mapM_ok hp fun p _ f hf => ?_
    simp only [payloadField, bind_ok, pure_ok] at hf
    obtain ⟨type, -, rfl⟩ := hf
    simpa using decodeField_exact p type

theorem payloadStruct_exact {d : Descriptions} {e : Entity} {t : TypeDecl}
    (h : payloadStruct d e = .ok t) : (Item.type t).EffectsExact := by
  simp only [payloadStruct, bind_ok, pure_ok] at h
  obtain ⟨fields, hf, rfl⟩ := h
  have hfields := payloadFields_exact hf
  refine Item.each_type.mpr ⟨trivial, effectsExact_grouped.mpr ?_⟩
  simp only [List.forall_mem_cons, forall_mem_nil_iff, and_true]
  refine ⟨?_, codingKeys_exact _, decodingInitializer_exact ?_ ?_ ?_⟩
  · intro i hi
    obtain ⟨f, -, rfl⟩ := List.mem_map.mp hi
    exact constantProperty_exact _ _
  · simpa using keyedBy_quiet "Keys"
  · simpa using fun f hf => (hfields f hf).1
  · simpa using fun f hf => (hfields f hf).2

-- ---------------------------------------------------------------------------
-- Endpoints
-- ---------------------------------------------------------------------------

theorem decodeRequired_exact (container : String) (type : TypeName) (key : Option String) :
    (decodeRequired container type key).mayAwait = false ∧
      (decodeRequired container type key).Each Part.EffectsExact := by
  have h := decodeFrom_quiet container "decode" type key
  simpa [decodeRequired] using ⟨h.awaits, h.parts⟩

theorem entityContainer_exact (element : TypeName) (entityKey : String) :
    (Item.type (entityContainer element entityKey)).EffectsExact := by
  have hentity := decodeRequired_exact "container" element (some "entity")
  refine Item.each_type.mpr ⟨trivial, effectsExact_grouped.mpr ?_⟩
  simp only [List.forall_mem_cons, forall_mem_nil_iff, and_true]
  refine ⟨by simp, singleKeyEnum_exact _ _ _, decodingInitializer_exact ?_ ?_ ?_⟩
  · simpa using keyedBy_quiet "Keys"
  · simpa using hentity.1
  · simpa using hentity.2

theorem placeTypes_exact (element : TypeName) (place : PayloadPlace) :
    ∀ t ∈ placeTypes element place, (Item.type t).EffectsExact := by
  cases place with
  | root => simp [placeTypes]
  | keyed key => exact List.forall_mem_singleton.mpr (singleKeyEnum_exact _ _ _)
  | nested outer inner =>
    exact List.forall_mem_cons.mpr ⟨singleKeyEnum_exact _ _ _,
      List.forall_mem_singleton.mpr (singleKeyEnum_exact _ _ _)⟩
  | list listKey entityKey =>
    refine List.forall_mem_cons.mpr ⟨entityContainer_exact _ _, ?_⟩
    intro t ht
    obtain ⟨key, -, rfl⟩ := List.mem_map.mp ht
    exact singleKeyEnum_exact _ _ _

theorem placeDecoding_exact (access : Access) {field : Expr} (hf : field.Quiet) (type : TypeName)
    (place : PayloadPlace) :
    (Item.function (decodingInitializer access (placeDecoding field type place))).EffectsExact := by
  have hkeys : ∀ a ∈ [keyedBy "Keys"], a.value.Quiet := by simpa using keyedBy_quiet "Keys"
  cases place with
  | root =>
    have h := decodeRequired_exact "container" type none
    apply decodingInitializer_exact (by simp)
    · simp [hf.awaits, h.1]
    · simp [hf.parts, h.2]
  | keyed key =>
    have h := decodeRequired_exact "container" type (some "payload")
    apply decodingInitializer_exact hkeys
    · simp [hf.awaits, h.1]
    · simp [hf.parts, h.2]
  | nested outer inner =>
    have h := decodeRequired_exact "nested" type (some "payload")
    apply decodingInitializer_exact hkeys
    · simp [hf.awaits, h.1, keyedBy, forKey]
    · simp [hf.parts, h.2, keyedBy, forKey]
  | list listKey entityKey =>
    cases listKey with
    | none =>
      have h := decodeRequired_exact "container" entityContainerType.array none
      apply decodingInitializer_exact (by simp)
      · simp [hf.awaits, h.1, listedEntities]
      · simp [hf.parts, h.2, listedEntities]
    | some key =>
      have h := decodeRequired_exact "container" entityContainerType.array (some "payload")
      apply decodingInitializer_exact hkeys
      · simp [hf.awaits, h.1, listedEntities]
      · simp [hf.parts, h.2, listedEntities]

theorem endpointPayload_exact {d : Descriptions} {endpoint : Endpoint} {p : EndpointPayload}
    {side : PayloadSide} {t : TypeDecl} (h : endpointPayload d endpoint p side = .ok t) :
    (Item.type t).EffectsExact := by
  simp only [endpointPayload, bind_ok, pure_ok] at h
  obtain ⟨entity, -, place, -, rfl⟩ := h
  refine Item.each_type.mpr ⟨trivial, effectsExact_grouped.mpr ?_⟩
  simp only [List.forall_mem_append, List.forall_mem_singleton, List.forall_mem_map]
  exact ⟨⟨constantProperty_exact _ _, placeTypes_exact _ place⟩,
    placeDecoding_exact _ (Expr.quiet_name _) _ place⟩

end EntityGen.Emit
