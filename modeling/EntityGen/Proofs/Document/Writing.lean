import EntityGen.Document.Load
import EntityGen.Proofs.Document.DefaultText
import EntityGen.Proofs.Markup.Writing

/-!
# Written descriptions

Every field of every definition is written as an attribute, whether or not it has
the value that is assumed without one. Only what is absent has no attribute.
-/

namespace EntityGen.Document

open Markup (IsWord Node Tag)
open Schema (Association Choice Contributor DefaultValue Descriptions Endpoint EndpointPayload
  Entity Identifier IdentifierKind IdentifierValue IsPlain Member MemberType PropertyType Subtype
  SubtypeItems)

-- ---------------------------------------------------------------------------
-- Elements
-- ---------------------------------------------------------------------------

def leaf (name : String) (attributes : List (String × String)) : Node :=
  .element { name, attributes } true []

def branch (name : String) (attributes : List (String × String)) (children : List Node) : Node :=
  .element { name, attributes } false children

def given (name : String) (value : Option String) : List (String × String) :=
  value.toList.map fun text => (name, text)

def versionElement (version : String) : Node := leaf "version" [("name", version)]

-- Subtypes

def choiceAttributes (c : Choice) : List (String × String) :=
  [("name", c.name), ("unused", flagText c.isUnused)]

def choiceElement (element : String) (c : Choice) : Node := leaf element (choiceAttributes c)

def memberTypeAttribute : MemberType → String × String
  | .scalar scalar => ("type", scalar.name)
  | .subtype name => ("subtype", name)

def memberAttributes (m : Member) : List (String × String) :=
  [("name", m.name), memberTypeAttribute m.type, ("key", m.key),
    ("optional", flagText m.isOptional), ("array", flagText m.isArray)]

def memberElement (m : Member) : Node := leaf "property" (memberAttributes m)

def itemElements : SubtypeItems → List Node
  | .cases cases => cases.map (choiceElement "case")
  | .options options => options.map (choiceElement "option")
  | .members members => members.map memberElement

def subtypeElement (s : Subtype) : Node :=
  branch "subtype" [("name", s.name)] (itemElements s.items)

-- Entities

def identifierValueName : IdentifierValue → String
  | .int => "int"
  | .string => "string"

def identifierKindName : IdentifierKind → String
  | .void => "void"
  | .scalar value => identifierValueName value
  | .relationships _ _ => "relationships"

def contributorElement (c : Contributor) : Node :=
  leaf "relationship" [("name", c.variableName), ("entity", c.entityName)]

def identifierAttributes (i : Identifier) : List (String × String) :=
  [("type", identifierKindName i.kind), ("valueType", identifierValueName (i.value?.getD .int)),
    ("key", i.key)] ++ given "equivalent" i.equivalent

def identifierElement (i : Identifier) : Node :=
  branch "identifier" (identifierAttributes i) (i.contributors.map contributorElement)

def associationName : Association → String
  | .toOne => "toOne"
  | .toMany => "toMany"

def typeAttributes : PropertyType → List (String × String)
  | .scalar scalar => [("type", scalar.name)]
  | .subtype name => [("subtype", name)]
  | .relationship r =>
    [("relationship", r.entityName), ("association", associationName r.association),
     ("idOnly", flagText r.idOnly)]

def propertyAttributes (p : Schema.Property) : List (String × String) :=
  [("name", p.name)] ++ typeAttributes p.type
    ++ [("key", p.key), ("optional", flagText p.isOptional), ("lazy", flagText p.isLazy),
        ("array", flagText p.isArray)]
    ++ given "default" (p.default.map defaultText)
    ++ [("useForEquality", flagText p.isUsedForEquality), ("logError", flagText p.logsError)]

def propertyElement (p : Schema.Property) : Node := leaf "property" (propertyAttributes p)

def entityAttributes (e : Entity) : List (String × String) :=
  [("name", e.name), ("persist", flagText e.isPersisted), ("remote", flagText e.isRemote),
    ("mutable", flagText e.isMutable)]
    ++ given "queue" e.clientQueue
    ++ [("lastRemoteRead", flagText e.hasLastRemoteRead)]
    ++ given "legacyPreviousName" e.legacyPreviousName

def entityElement (e : Entity) : Node :=
  branch "entity" (entityAttributes e)
    (identifierElement e.identifier :: e.properties.map propertyElement)

-- Endpoints

def payloadAttributes (p : EndpointPayload) : List (String × String) :=
  [("entity", p.entityName)] ++ given "entityKey" p.entityKey
    ++ [("structure", p.layout.name), ("baseKey", ".".intercalate p.baseKey)]

def payloadElement (element : String) (p : EndpointPayload) : Node :=
  leaf element (payloadAttributes p)

def endpointElement (e : Endpoint) : Node :=
  branch "endpoint" [("name", e.name)]
    ((e.read.map (payloadElement "read")).toList ++ (e.write.map (payloadElement "write")).toList)

-- Descriptions

def rootElement (d : Descriptions) : Node :=
  branch "descriptions" [("version", d.version)]
    [branch "versions" [] (d.versionHistory.map versionElement),
     branch "subtypes" [] (d.subtypes.map subtypeElement),
     branch "entities" [] (d.entities.map entityElement),
     branch "endpoints" [] (d.endpoints.map endpointElement)]

/-- The document that says everything of the descriptions. -/
def document (d : Descriptions) : String := String.ofList (Markup.writtenAll [rootElement d])

-- ---------------------------------------------------------------------------
-- Every element can be written
-- ---------------------------------------------------------------------------

def Quotable (text : String) : Prop := '"' ∉ text.toList

instance : DecidablePred Quotable := fun text => inferInstanceAs (Decidable ('"' ∉ text.toList))

theorem quotable_of_isPlain {text : String} (h : IsPlain text) : Quotable text :=
  fun hquote => h '"' hquote (by decide)

theorem flagText_quotable (value : Bool) : Quotable (flagText value) := by
  cases value <;> decide

theorem scalarName_quotable (scalar : Schema.Scalar) : Quotable scalar.name := by
  cases scalar <;> decide

theorem repr_quotable (n : Nat) : Quotable n.repr := by
  intro hquote
  rw [Nat.toList_repr] at hquote
  exact absurd (Nat.isDigit_of_mem_toDigits (by decide) (by decide) hquote) (by decide)

theorem defaultText_quotable {default : DefaultValue} {type : PropertyType}
    (hfits : default.Fits type) (h : ∀ text ∈ default.texts, Quotable text) :
    Quotable (defaultText default) := by
  cases default with
  | nil | currentDate => decide
  | bool value => exact flagText_quotable value
  | int value =>
    cases value with
    | ofNat n => exact repr_quotable n
    | negSucc n =>
      have hdigits := repr_quotable (n + 1)
      simpa [Quotable, defaultText, Int.repr] using hdigits
  | float value => cases type <;> exact hfits.elim
  | string text => exact h text List.mem_cons_self
  | enumCase name => exact h name List.mem_cons_self

theorem intercalate_quotable {keys : List String} (h : ∀ key ∈ keys, Quotable key) :
    Quotable (".".intercalate keys) := by
  induction keys with
  | nil => decide
  | cons key rest ih =>
    obtain ⟨hkey, hrest⟩ := List.forall_mem_cons.mp h
    cases rest with
    | nil => rwa [String.intercalate_singleton]
    | cons =>
      rw [String.intercalate_cons_cons]
      simp only [Quotable, String.toList_append, List.mem_append, not_or]
      exact ⟨⟨hkey, by decide⟩, ih hrest⟩

theorem forall_mem_given {name : String} {value : Option String} {P : String × String → Prop} :
    (∀ a ∈ given name value, P a) ↔ ∀ text ∈ value.toList, P (name, text) := by
  simp [given]

theorem given_sublist (name : String) (value : Option String) :
    ((given name value).map Prod.fst).Sublist [name] := by
  cases value <;> simp [given]

def formatWords : List String :=
  ["descriptions", "versions", "subtypes", "entities", "endpoints", "version", "subtype", "case",
   "option", "property", "entity", "identifier", "relationship", "endpoint", "read", "write",
   "name", "unused", "type", "valueType", "key", "equivalent", "optional", "lazy", "array",
   "default", "useForEquality", "logError", "association", "idOnly", "persist", "remote",
   "mutable", "queue", "lastRemoteRead", "legacyPreviousName", "entityKey", "structure", "baseKey"]

theorem formatWords_isWord : ∀ word ∈ formatWords, IsWord word := by
  decide +kernel

theorem writable_of_sublist {name : String} {attributes : List (String × String)}
    (names : List String) (hnames : names.Nodup) (hwords : name :: names ⊆ formatWords)
    (hsome : (attributes.map Prod.fst).Sublist names) (hvalues : ∀ a ∈ attributes, Quotable a.2) :
    Tag.Writable { name, attributes } where
  name := formatWords_isWord name (hwords List.mem_cons_self)
  words := fun a ha =>
    have hmem : a.1 ∈ names := hsome.subset (List.mem_map_of_mem ha)
    formatWords_isWord a.1 (hwords (List.mem_cons_of_mem name hmem))
  distinct := hnames.sublist hsome
  values := hvalues

theorem versionElement_writable {version : String} (h : Quotable version) :
    (versionElement version).Writable :=
  .empty (writable_of_sublist ["name"] (by simp) (by simp [formatWords]) (.refl _)
    (by simpa using h))

theorem choiceElement_writable {element : String} {c : Choice} (helement : element ∈ formatWords)
    (h : Quotable c.name) : (choiceElement element c).Writable := by
  have hwords : [element, "name", "unused"] ⊆ formatWords :=
    List.cons_subset.mpr ⟨helement, by simp [formatWords]⟩
  refine .empty (writable_of_sublist ["name", "unused"] (by simp) hwords (.refl _) ?_)
  simp only [choiceAttributes, List.forall_mem_cons]
  exact ⟨h, flagText_quotable _, nofun⟩

theorem memberElement_writable {m : Member} (h : ∀ text ∈ m.texts, Quotable text) :
    (memberElement m).Writable := by
  obtain ⟨name, type, key, isOptional, isArray⟩ := m
  cases type with
  | scalar scalar =>
    refine .empty (writable_of_sublist ["name", "type", "key", "optional", "array"]
      (by simp) (by simp [formatWords]) (.refl _) ?_)
    simp only [memberAttributes, List.forall_mem_cons]
    exact ⟨h name (by simp [Member.texts]), scalarName_quotable scalar,
      h key (by simp [Member.texts]), flagText_quotable _, flagText_quotable _, nofun⟩
  | subtype subtype =>
    refine .empty (writable_of_sublist ["name", "subtype", "key", "optional", "array"]
      (by simp) (by simp [formatWords]) (.refl _) ?_)
    simp only [memberAttributes, List.forall_mem_cons]
    exact ⟨h name (by simp [Member.texts]), h subtype (by simp [Member.texts, MemberType.texts]),
      h key (by simp [Member.texts]), flagText_quotable _, flagText_quotable _, nofun⟩

theorem subtypeElement_writable {s : Subtype} (h : ∀ text ∈ s.texts, Quotable text) :
    (subtypeElement s).Writable := by
  obtain ⟨name, items⟩ := s
  obtain ⟨hname, hitems⟩ := List.forall_mem_cons.mp h
  refine .element (writable_of_sublist ["name"] (by simp) (by simp [formatWords]) (.refl _)
    (by simpa using hname)) ?_
  cases items with
  | cases choices =>
    refine List.forall_mem_map.mpr fun c hc => choiceElement_writable (by simp [formatWords]) ?_
    exact hitems c.name (List.mem_map_of_mem hc)
  | options choices =>
    refine List.forall_mem_map.mpr fun c hc => choiceElement_writable (by simp [formatWords]) ?_
    exact hitems c.name (List.mem_map_of_mem hc)
  | members values =>
    refine List.forall_mem_map.mpr fun m hm => memberElement_writable fun text htext => ?_
    exact hitems text (List.mem_flatMap.mpr ⟨m, hm, htext⟩)

theorem identifierValueName_quotable (value : IdentifierValue) :
    Quotable (identifierValueName value) := by
  cases value <;> decide

theorem identifierKindName_quotable (kind : IdentifierKind) :
    Quotable (identifierKindName kind) := by
  cases kind with
  | void => decide
  | scalar value => exact identifierValueName_quotable value
  | relationships value contributors => exact (by decide : Quotable "relationships")

theorem contributorElement_writable {c : Contributor} (h : ∀ text ∈ c.texts, Quotable text) :
    (contributorElement c).Writable := by
  refine .empty (writable_of_sublist ["name", "entity"] (by simp) (by simp [formatWords]) (.refl _)
    ?_)
  simpa [Contributor.texts] using h

theorem identifierElement_writable {i : Identifier} (h : ∀ text ∈ i.texts, Quotable text) :
    (identifierElement i).Writable := by
  simp only [Identifier.texts, List.cons_append, List.forall_mem_cons, List.forall_mem_append,
    List.forall_mem_flatMap] at h
  obtain ⟨hkey, hequivalent, hcontributors⟩ := h
  refine .element (writable_of_sublist ["type", "valueType", "key", "equivalent"] (by simp)
    (by simp [formatWords]) ?names ?values) ?children
  case names =>
    rw [identifierAttributes, List.map_append]
    exact (List.Sublist.refl _).append (given_sublist "equivalent" _)
  case values =>
    simp only [identifierAttributes, List.forall_mem_append, List.forall_mem_cons, forall_mem_given]
    exact ⟨⟨identifierKindName_quotable _, identifierValueName_quotable _, hkey, nofun⟩,
      hequivalent⟩
  case children =>
    exact List.forall_mem_map.mpr fun c hc => contributorElement_writable (hcontributors c hc)

theorem associationName_quotable (association : Association) :
    Quotable (associationName association) := by
  cases association <;> decide

theorem typeAttributes_quotable {type : PropertyType} (h : ∀ text ∈ type.texts, Quotable text) :
    ∀ a ∈ typeAttributes type, Quotable a.2 := by
  cases type with
  | scalar scalar => simpa [typeAttributes] using scalarName_quotable scalar
  | subtype name => simpa [typeAttributes, PropertyType.texts] using h
  | relationship r =>
    simp only [typeAttributes, List.forall_mem_cons]
    exact ⟨h r.entityName List.mem_cons_self, associationName_quotable _, flagText_quotable _,
      List.forall_mem_nil _⟩

theorem typeAttributes_sublist (type : PropertyType) : ((typeAttributes type).map Prod.fst).Sublist
    ["type", "subtype", "relationship", "association", "idOnly"] := by
  cases type <;> simp [typeAttributes]

theorem propertyElement_writable {p : Schema.Property} (hp : p.Expressible)
    (h : ∀ text ∈ p.texts, Quotable text) : (propertyElement p).Writable := by
  simp only [Schema.Property.texts, List.forall_mem_append, List.forall_mem_cons,
    List.forall_mem_flatMap] at h
  obtain ⟨⟨⟨hname, hkey, -⟩, htype⟩, hdefault⟩ := h
  refine .empty (writable_of_sublist
    ["name", "type", "subtype", "relationship", "association", "idOnly", "key", "optional", "lazy",
      "array", "default", "useForEquality", "logError"] (by simp) (by simp [formatWords]) ?names
    ?values)
  case names =>
    simp only [propertyAttributes, List.map_append]
    have hfirst := (List.Sublist.refl ["name"]).append (typeAttributes_sublist p.type)
    exact ((hfirst.append (.refl _)).append (given_sublist "default" _)).append (.refl _)
  case values =>
    simp only [propertyAttributes, List.forall_mem_append, List.forall_mem_cons, forall_mem_given]
    refine ⟨⟨⟨⟨⟨hname, nofun⟩, typeAttributes_quotable htype⟩, hkey, flagText_quotable _,
      flagText_quotable _, flagText_quotable _, nofun⟩, ?_⟩, flagText_quotable _,
      flagText_quotable _, nofun⟩
    intro text htext
    obtain ⟨default, hsome, rfl⟩ := Option.map_eq_some_iff.mp (Option.mem_toList.mp htext)
    exact defaultText_quotable (hp.default default hsome)
      (hdefault default (Option.mem_toList.mpr hsome))

theorem entityElement_writable {e : Entity} (he : e.Expressible)
    (h : ∀ text ∈ e.texts, Quotable text) : (entityElement e).Writable := by
  simp only [Entity.texts, List.cons_append, List.forall_mem_append, List.forall_mem_cons,
    List.forall_mem_flatMap] at h
  obtain ⟨hname, ⟨⟨hqueue, hlegacy⟩, hidentifier⟩, hproperties⟩ := h
  refine .element (writable_of_sublist
    ["name", "persist", "remote", "mutable", "queue", "lastRemoteRead", "legacyPreviousName"]
    (by simp) (by simp [formatWords]) ?names ?values) ?children
  case names =>
    simp only [entityAttributes, List.map_append]
    exact (((List.Sublist.refl _).append (given_sublist "queue" _)).append (.refl _)).append
      (given_sublist "legacyPreviousName" _)
  case values =>
    simp only [entityAttributes, List.forall_mem_append, List.forall_mem_cons, forall_mem_given]
    exact ⟨⟨⟨⟨hname, flagText_quotable _, flagText_quotable _, flagText_quotable _, nofun⟩, hqueue⟩,
      flagText_quotable _, nofun⟩, hlegacy⟩
  case children =>
    refine List.forall_mem_cons.mpr ⟨identifierElement_writable hidentifier, ?_⟩
    exact List.forall_mem_map.mpr fun p hp =>
      propertyElement_writable (he.properties p hp) (hproperties p hp)

theorem payloadElement_writable {element : String} {p : EndpointPayload}
    (helement : element ∈ formatWords) (h : ∀ text ∈ p.texts, Quotable text) :
    (payloadElement element p).Writable := by
  simp only [EndpointPayload.texts, List.cons_append, List.forall_mem_append,
    List.forall_mem_cons] at h
  obtain ⟨hentity, hkey, hkeys⟩ := h
  have hlayout : Quotable p.layout.name := by cases p.layout <;> decide
  have hwords : [element, "entity", "entityKey", "structure", "baseKey"] ⊆ formatWords :=
    List.cons_subset.mpr ⟨helement, by simp [formatWords]⟩
  refine .empty (writable_of_sublist ["entity", "entityKey", "structure", "baseKey"] (by simp)
    hwords ?names ?values)
  case names =>
    simp only [payloadAttributes, List.map_append]
    exact ((List.Sublist.refl ["entity"]).append (given_sublist "entityKey" _)).append (.refl _)
  case values =>
    simp only [payloadAttributes, List.forall_mem_append, List.forall_mem_cons, forall_mem_given]
    exact ⟨⟨⟨hentity, nofun⟩, hkey⟩, hlayout, intercalate_quotable hkeys, nofun⟩

theorem endpointElement_writable {e : Endpoint} (h : ∀ text ∈ e.texts, Quotable text) :
    (endpointElement e).Writable := by
  simp only [Endpoint.texts, Endpoint.payloads, List.forall_mem_cons, List.forall_mem_flatMap,
    List.forall_mem_append] at h
  obtain ⟨hname, hread, hwrite⟩ := h
  refine .element (writable_of_sublist ["name"] (by simp) (by simp [formatWords]) (.refl _)
    (by simpa using hname)) ?_
  have hpayload : ∀ element payload, element ∈ formatWords →
      (∀ p ∈ Option.toList payload, ∀ text ∈ p.texts, Quotable text) →
      ∀ node ∈ (Option.map (payloadElement element) payload).toList, node.Writable := by
    intro element payload helement hpayload
    cases payload with
    | none => simp
    | some p => simpa using payloadElement_writable helement (by simpa using hpayload)
  exact List.forall_mem_append.mpr
    ⟨hpayload "read" e.read (by simp [formatWords]) hread,
      hpayload "write" e.write (by simp [formatWords]) hwrite⟩

theorem rootElement_writable {d : Descriptions} (hd : d.Expressible) :
    (rootElement d).Writable := by
  have h : ∀ text ∈ d.texts, Quotable text := fun text htext =>
    quotable_of_isPlain (hd.texts text htext)
  simp only [Descriptions.texts, List.cons_append, List.forall_mem_append, List.forall_mem_cons,
    List.forall_mem_flatMap] at h
  obtain ⟨hversion, ⟨⟨hversions, hsubtypes⟩, hentities⟩, hendpoints⟩ := h
  have hsection : ∀ name children, name ∈ formatWords → (∀ node ∈ children, node.Writable) →
      (branch name [] children).Writable := fun name children hname hchildren =>
    .element (writable_of_sublist [] .nil (by simpa using hname) (.refl _) nofun) hchildren
  refine .element (writable_of_sublist ["version"] (by simp) (by simp [formatWords]) (.refl _)
    (by simpa using hversion)) ?_
  simp only [List.forall_mem_cons]
  refine ⟨hsection _ _ (by simp [formatWords]) ?versions,
    hsection _ _ (by simp [formatWords]) ?subtypes, hsection _ _ (by simp [formatWords]) ?entities,
    hsection _ _ (by simp [formatWords]) ?endpoints, nofun⟩
  case versions =>
    exact List.forall_mem_map.mpr fun v hv => versionElement_writable (hversions v hv)
  case subtypes =>
    exact List.forall_mem_map.mpr fun s hs => subtypeElement_writable (hsubtypes s hs)
  case entities =>
    exact List.forall_mem_map.mpr fun e he =>
      entityElement_writable (hd.entities e he) (hentities e he)
  case endpoints =>
    exact List.forall_mem_map.mpr fun e he => endpointElement_writable (hendpoints e he)

/-- The document is read as the elements that it is written from. -/
theorem nodes_document {d : Descriptions} (hd : d.Expressible) :
    Markup.nodes (document d) = [rootElement d] :=
  Markup.nodes_writtenAll (by simpa using rootElement_writable hd)

end EntityGen.Document
