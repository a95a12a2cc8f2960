import EntityGen.Proofs.Document.Writing
import EntityGen.Proofs.Results
import EntityGen.Proofs.Text.Parts

/-!
# Loading written descriptions

What a document expresses is what is loaded from it: each reader gives back the
definition that its element was written from, and goes on as if the rest of the
definitions followed.
-/

namespace EntityGen.Document

open Markup (Node)
open Schema (Association Choice Contributor DefaultValue Descriptions Endpoint EndpointPayload
  Entity Identifier IdentifierKind IdentifierValue Member MemberType PayloadStructure PropertyType
  Scalar Subtype SubtypeItems)

-- ---------------------------------------------------------------------------
-- Readers
-- ---------------------------------------------------------------------------

theorem readBool_flagText (element name : String) (value : Bool) :
    readBool element name (flagText value) = .ok value := by
  rw [readBool, readBool?_flagText, accepted]

theorem accepted_some {α : Type} (element name value : String) (a : α) :
    accepted element name value (some a) = .ok a := rfl

theorem foldElements_append {α : Type} (nodes nodes' : List Node) (a : α)
    (step : α → Markup.Tag → List Node → Except Error α) :
    foldElements (nodes ++ nodes') a step
      = foldElements nodes a step >>= fun a => foldElements nodes' a step :=
  List.foldlM_append

theorem foldElements_singleton {α : Type} (tag : Markup.Tag) (isEmpty : Bool) (children : List Node)
    (a : α) (step : α → Markup.Tag → List Node → Except Error α) :
    foldElements [.element tag isEmpty children] a step = step a tag children := by
  rw [foldElements, List.foldlM_cons]
  exact bind_pure _

/-- If every element takes the state of what precedes it to that with its own, all of
them take the first state to the last. -/
theorem foldElements_map {α β : Type} {step : α → Markup.Tag → List Node → Except Error α}
    (element : β → Node) (state : List β → α) (xs : List β)
    (h : ∀ done x rest, done ++ x :: rest = xs →
      foldElements [element x] (state done) step = .ok (state (done ++ [x]))) :
    foldElements (xs.map element) (state []) step = .ok (state xs) := by
  suffices ∀ done rest, done ++ rest = xs →
      foldElements (rest.map element) (state done) step = .ok (state xs) from this [] xs rfl
  -- The induction is on the elements still to be read; `done` keeps those before them.
  intro done rest hxs
  induction rest generalizing done with
  | nil =>
    rw [List.append_nil] at hxs
    subst hxs
    rfl
  | cons x rest ih =>
    have hstep := h done x rest hxs
    have hrest := ih (done ++ [x]) (by simpa using hxs)
    rw [List.map_cons, ← List.singleton_append, foldElements_append, hstep, ok_bind, hrest]

theorem find?_name_eq_none {α : Type} {name : α → String} {done : List α} {x : α} {rest : List α}
    (h : ((done ++ x :: rest).map name).Nodup) : done.find? (fun y => name y == name x) = none := by
  rw [List.map_append, List.map_cons, List.nodup_append] at h
  refine List.find?_eq_none.mpr fun y hy heq => ?_
  exact h.2.2 (name y) (List.mem_map_of_mem hy) (name x) List.mem_cons_self (beq_iff_eq.mp heq)

-- ---------------------------------------------------------------------------
-- Subtypes
-- ---------------------------------------------------------------------------

theorem readChoice_written (element : String) (c : Choice) :
    readChoice element { name := element, attributes := choiceAttributes c } = .ok c := by
  simp only [readChoice, foldAttributes, choiceAttributes, List.foldlM_cons, List.foldlM_nil,
    readBool_flagText, ok_bind, pure_eq_ok]
  rfl

theorem readMember_written (m : Member) :
    readMember { name := "property", attributes := memberAttributes m } = .ok m := by
  obtain ⟨name, type, key, isOptional, isArray⟩ := m
  cases type with
  | scalar scalar =>
    simp only [readMember, foldAttributes, memberAttributes, List.foldlM_cons, List.foldlM_nil,
      memberTypeAttribute, MemberAttributes.read, readBool_flagText, Scalar.ofName?_name,
      accepted_some, ok_bind, pure_eq_ok]
    rfl
  | subtype subtype =>
    simp only [readMember, foldAttributes, memberAttributes, List.foldlM_cons, List.foldlM_nil,
      memberTypeAttribute, MemberAttributes.read, readBool_flagText, ok_bind, pure_eq_ok]
    rfl

def itemLists : SubtypeItems → ItemLists
  | .cases choices => { cases := choices }
  | .options choices => { options := choices }
  | .members values => { members := values }

theorem readItems_written (items : SubtypeItems) :
    foldElements (itemElements items) {} ItemLists.read = .ok (itemLists items) := by
  cases items with
  | cases choices =>
    refine foldElements_map (choiceElement "case") (fun done => itemLists (.cases done)) choices
      fun done c rest _ => ?_
    rw [choiceElement, leaf, foldElements_singleton]
    simp only [ItemLists.read, readChoice_written, ok_bind, pure_eq_ok]
    rfl
  | options choices =>
    refine foldElements_map (choiceElement "option") (fun done => itemLists (.options done)) choices
      fun done c rest _ => ?_
    rw [choiceElement, leaf, foldElements_singleton]
    simp only [ItemLists.read, readChoice_written, ok_bind, pure_eq_ok]
    rfl
  | members values =>
    refine foldElements_map memberElement (fun done => itemLists (.members done)) values
      fun done m rest _ => ?_
    rw [memberElement, leaf, foldElements_singleton]
    simp only [ItemLists.read, readMember_written, ok_bind, pure_eq_ok]
    rfl

theorem readSubtype_written {s : Subtype} (h : s.items.IsSome) :
    readSubtype { name := "subtype", attributes := [("name", s.name)] } (itemElements s.items)
      = .ok s := by
  obtain ⟨name, items⟩ := s
  have hname : required { name := "subtype", attributes := [("name", name)] } "subtype" "name"
    = .ok name := rfl
  rw [readSubtype, hname, ok_bind, readItems_written, ok_bind]
  cases items with
  | cases choices =>
    obtain ⟨c, rest, rfl⟩ := List.exists_cons_of_ne_nil h
    rfl
  | options choices =>
    obtain ⟨c, rest, rfl⟩ := List.exists_cons_of_ne_nil h
    rfl
  | members values =>
    obtain ⟨m, rest, rfl⟩ := List.exists_cons_of_ne_nil h
    rfl

-- ---------------------------------------------------------------------------
-- Entities
-- ---------------------------------------------------------------------------

theorem readContributors_written (contributors : List Contributor) :
    readContributors (contributors.map contributorElement) = .ok contributors := by
  refine foldElements_map contributorElement id contributors fun done c rest _ => ?_
  rw [contributorElement, leaf, foldElements_singleton]
  rfl

theorem readIdentifier_written {i : Identifier} (h : i.kind.IsContributed) :
    readIdentifier { name := "identifier", attributes := identifierAttributes i }
      (i.contributors.map contributorElement) = .ok i := by
  obtain ⟨kind, key, equivalent⟩ := i
  rw [readIdentifier, readContributors_written]
  cases kind with
  | void => cases equivalent <;> rfl
  | scalar value => cases value <;> cases equivalent <;> rfl
  | relationships value contributors =>
    obtain ⟨c, rest, rfl⟩ := List.exists_cons_of_ne_nil h
    cases value <;> cases equivalent <;> rfl

def restrictedAttributes (p : Schema.Property) : PropertyAttributes :=
  let common : PropertyAttributes :=
    { isOptional := p.isOptional, isLazy := p.isLazy, isArray := p.isArray
      isUsedForEquality := p.isUsedForEquality, logsError := p.logsError }
  match p.type with
  | .scalar scalar => { common with scalar := some scalar }
  | .subtype _ => common
  | .relationship r => { common with association := r.association, idOnly := r.idOnly }

theorem readAssociation?_name (association : Association) :
    readAssociation? (associationName association) = some association := by
  cases association <;> rfl

theorem foldlM_given {α : Type} {name : String} {step : α → String → String → Except Error α}
    (h : ∀ a value, step a name value = .ok a) (value : Option String) (a : α) :
    (given name value).foldlM (fun a (name, value) => step a name value) a = .ok a := by
  cases value with
  | none => rfl
  | some text =>
    rw [given, Option.toList_some, List.map_singleton, List.foldlM_cons]
    dsimp only
    rw [h]
    rfl

theorem foldAttributes_property (p : Schema.Property) :
    foldAttributes { name := "property", attributes := propertyAttributes p } {}
      PropertyAttributes.read = .ok (restrictedAttributes p) := by
  have hdefault : ∀ (a : PropertyAttributes) (value : String), a.read "default" value = .ok a :=
    fun _ _ => rfl
  obtain ⟨name, type, key, isArray, isOptional, isLazy, default, isUsedForEquality, logsError⟩ := p
  simp only [foldAttributes, propertyAttributes, List.foldlM_append, foldlM_given hdefault]
  cases type with
  | scalar scalar =>
    simp only [typeAttributes, List.foldlM_cons, List.foldlM_nil, PropertyAttributes.read,
      readBool_flagText, Scalar.ofName?_name, accepted_some, ok_bind, pure_eq_ok]
    rfl
  | subtype subtype =>
    simp only [typeAttributes, List.foldlM_cons, List.foldlM_nil, PropertyAttributes.read,
      readBool_flagText, ok_bind, pure_eq_ok]
    rfl
  | relationship r =>
    simp only [typeAttributes, List.foldlM_cons, List.foldlM_nil, PropertyAttributes.read,
      readBool_flagText, readAssociation?_name, accepted_some, ok_bind, pure_eq_ok]
    rfl

theorem propertyType_written {p : Schema.Property} (hp : p.Expressible) :
    (restrictedAttributes p).type { name := "property", attributes := propertyAttributes p } p.name
      = .ok p.type := by
  obtain ⟨name, type, key, isArray, isOptional, isLazy, default, isUsedForEquality, logsError⟩ := p
  cases type with
  | scalar scalar => cases default <;> rfl
  | subtype subtype => cases default <;> rfl
  | relationship r =>
    obtain rfl : isArray = false := hp.array rfl
    cases default <;> rfl

theorem lookup_default (p : Schema.Property) :
    (propertyAttributes p).lookup "default" = p.default.map defaultText := by
  obtain ⟨name, type, key, isArray, isOptional, isLazy, default, isUsedForEquality, logsError⟩ := p
  cases type <;> cases default <;> rfl

theorem lookup_key (p : Schema.Property) : (propertyAttributes p).lookup "key" = some p.key := by
  obtain ⟨name, type, key, isArray, isOptional, isLazy, default, isUsedForEquality, logsError⟩ := p
  cases type <;> rfl

theorem readDefault_written {type : PropertyType} {default : Option DefaultValue}
    (h : ∀ d ∈ default, d.Fits type) :
    readDefault type (default.map defaultText) = .ok default := by
  cases default with
  | none => rfl
  | some d =>
    rw [Option.map_some, readDefault, defaultOfText?_defaultText (h d rfl), accepted_some]
    rfl

theorem readProperty_written {p : Schema.Property} (hp : p.Expressible) :
    readProperty { name := "property", attributes := propertyAttributes p } = .ok p := by
  have hname : required { name := "property", attributes := propertyAttributes p } "property" "name"
      = .ok p.name := rfl
  rw [readProperty, foldAttributes_property, ok_bind, hname, ok_bind, propertyType_written hp,
    ok_bind, lookup_default, readDefault_written hp.default, ok_bind, lookup_key]
  obtain ⟨name, type, key, isArray, isOptional, isLazy, default, isUsedForEquality, logsError⟩ := p
  cases type <;> rfl

def withoutParts (e : Entity) : Entity :=
  { e with identifier := { kind := .scalar .int }, properties := [] }

theorem foldAttributes_entity (e : Entity) :
    foldAttributes { name := "entity", attributes := entityAttributes e }
      { name := "", identifier := { kind := .scalar .int } } readEntityAttribute
      = .ok (withoutParts e) := by
  obtain ⟨name, identifier, isPersisted, isRemote, isMutable, clientQueue, properties,
    hasLastRemoteRead, legacyPreviousName⟩ := e
  cases clientQueue <;> cases legacyPreviousName <;>
    simp only [foldAttributes, entityAttributes, withoutParts, List.foldlM_append, List.foldlM_cons,
      List.foldlM_nil, given, Option.toList_none, Option.toList_some, List.map_nil, List.map_cons,
      readEntityAttribute, readBool_flagText, ok_bind, pure_eq_ok]

theorem readProperties_written {e : Entity} (he : e.Expressible) :
    foldElements (e.properties.map propertyElement) { e with properties := [] } readEntityPart
      = .ok e := by
  refine foldElements_map propertyElement (fun done => { e with properties := done }) e.properties
    fun done p rest hproperties => ?_
  have hnew : done.find? (fun q => q.name == p.name) = none :=
    find?_name_eq_none (hproperties ▸ he.names)
  have hp := he.properties p (hproperties ▸ List.mem_append_right _ List.mem_cons_self)
  rw [propertyElement, leaf, foldElements_singleton]
  simp only [readEntityPart, readProperty_written hp, ok_bind, Entity.property?, hnew]
  rfl

theorem readEntity_written {e : Entity} (he : e.Expressible) :
    readEntity { name := "entity", attributes := entityAttributes e }
      (identifierElement e.identifier :: e.properties.map propertyElement) = .ok e := by
  have hname : required { name := "entity", attributes := entityAttributes e } "entity" "name"
      = .ok e.name := rfl
  -- The identifier replaces the one that is assumed, then the properties are added.
  have hidentifier : readEntityPart (withoutParts e)
      { name := "identifier", attributes := identifierAttributes e.identifier }
      (e.identifier.contributors.map contributorElement) = .ok { e with properties := [] } := by
    simp only [readEntityPart, readIdentifier_written he.identifier, ok_bind]
    rfl
  rw [readEntity, foldAttributes_entity, ok_bind, hname, ok_bind, ← List.singleton_append,
    foldElements_append, identifierElement, branch, foldElements_singleton, hidentifier, ok_bind,
    readProperties_written he]

-- ---------------------------------------------------------------------------
-- Endpoints
-- ---------------------------------------------------------------------------

theorem readKeyPath_intercalate {keys : List String}
    (h : ∀ key ∈ keys, key ≠ "" ∧ '.' ∉ key.toList) :
    readKeyPath (".".intercalate keys) = keys := by
  by_cases hnone : keys = []
  · subst hnone
    decide
  · have hparts : Text.parts '.' (".".intercalate keys) = keys :=
      Text.parts_intercalate hnone fun key hkey => (h key hkey).2
    rw [readKeyPath, hparts, List.filter_eq_self]
    exact fun key hkey => decide_eq_true (h key hkey).1

theorem readPayload_written {element : String} {p : EndpointPayload} (hp : p.Expressible) :
    readPayload element { name := element, attributes := payloadAttributes p } = .ok p := by
  have hread : readPayload element { name := element, attributes := payloadAttributes p }
      = .ok { p with baseKey := readKeyPath (".".intercalate p.baseKey) } := by
    obtain ⟨entityName, entityKey, layout, baseKey⟩ := p
    cases entityKey <;> cases layout <;> rfl
  rw [hread, readKeyPath_intercalate hp]

theorem readEndpoint_written {e : Endpoint} (he : ∀ p ∈ e.payloads, p.Expressible) :
    readEndpoint { name := "endpoint", attributes := [("name", e.name)] }
      ((e.read.map (payloadElement "read")).toList ++ (e.write.map (payloadElement "write")).toList)
      = .ok e := by
  obtain ⟨name, read, write⟩ := e
  have hread : foldElements (read.map (payloadElement "read")).toList { name } readEndpointPart
      = .ok { name, read } := by
    cases read with
    | none => rfl
    | some p =>
      have hp : p.Expressible := he p (by simp [Endpoint.payloads])
      rw [Option.map_some, Option.toList_some, payloadElement, leaf, foldElements_singleton]
      simp only [readEndpointPart, readPayload_written hp, ok_bind]
      rfl
  have hwrite : foldElements (write.map (payloadElement "write")).toList { name, read }
      readEndpointPart = .ok { name, read, write } := by
    cases write with
    | none => rfl
    | some p =>
      have hp : p.Expressible := he p (by simp [Endpoint.payloads])
      rw [Option.map_some, Option.toList_some, payloadElement, leaf, foldElements_singleton]
      simp only [readEndpointPart, readPayload_written hp, ok_bind]
      rfl
  have hname : required { name := "endpoint", attributes := [("name", name)] } "endpoint" "name"
      = .ok name := rfl
  rw [readEndpoint, hname, ok_bind, foldElements_append, hread, ok_bind, hwrite]

-- ---------------------------------------------------------------------------
-- Sections
-- ---------------------------------------------------------------------------

theorem readVersions_written (d : Descriptions) :
    foldElements (d.versionHistory.map versionElement) { d with versionHistory := [] } readVersion
      = .ok d := by
  refine foldElements_map versionElement (fun done => { d with versionHistory := done })
    d.versionHistory fun done version rest _ => ?_
  rw [versionElement, leaf, foldElements_singleton]
  rfl

theorem readSubtypes_written {d : Descriptions} (hnames : (d.subtypes.map (·.name)).Nodup)
    (hd : ∀ s ∈ d.subtypes, s.items.IsSome) :
    foldElements (d.subtypes.map subtypeElement) { d with subtypes := [] } readSubtypeInto
      = .ok d := by
  refine foldElements_map subtypeElement (fun done => { d with subtypes := done }) d.subtypes
    fun done s rest hsubtypes => ?_
  have hnew : done.find? (fun other => other.name == s.name) = none :=
    find?_name_eq_none (hsubtypes ▸ hnames)
  have hs := hd s (hsubtypes ▸ List.mem_append_right _ List.mem_cons_self)
  rw [subtypeElement, branch, foldElements_singleton]
  simp only [readSubtypeInto, ne_eq, not_true_eq_false, if_false, readSubtype_written hs, ok_bind,
    Descriptions.subtype?, hnew]
  rfl

theorem readEntities_written {d : Descriptions} (hnames : (d.entities.map (·.name)).Nodup)
    (hd : ∀ e ∈ d.entities, e.Expressible) :
    foldElements (d.entities.map entityElement) { d with entities := [] } readEntityInto
      = .ok d := by
  refine foldElements_map entityElement (fun done => { d with entities := done }) d.entities
    fun done e rest hentities => ?_
  have hnew : done.find? (fun other => other.name == e.name) = none :=
    find?_name_eq_none (hentities ▸ hnames)
  have he := hd e (hentities ▸ List.mem_append_right _ List.mem_cons_self)
  rw [entityElement, branch, foldElements_singleton]
  simp only [readEntityInto, ne_eq, not_true_eq_false, if_false, readEntity_written he, ok_bind,
    Descriptions.entity?, hnew]
  rfl

theorem readEndpoints_written {d : Descriptions} (hnames : (d.endpoints.map (·.name)).Nodup)
    (hd : ∀ e ∈ d.endpoints, ∀ p ∈ e.payloads, p.Expressible) :
    foldElements (d.endpoints.map endpointElement) { d with endpoints := [] } readEndpointInto
      = .ok d := by
  refine foldElements_map endpointElement (fun done => { d with endpoints := done }) d.endpoints
    fun done e rest hendpoints => ?_
  have hnew : done.find? (fun other => other.name == e.name) = none :=
    find?_name_eq_none (hendpoints ▸ hnames)
  have he := hd e (hendpoints ▸ List.mem_append_right _ List.mem_cons_self)
  rw [endpointElement, branch, foldElements_singleton]
  simp only [readEndpointInto, ne_eq, not_true_eq_false, if_false, readEndpoint_written he, ok_bind,
    Descriptions.endpoint?, hnew]
  rfl

theorem readSection_written {d d' : Descriptions} {name : String} {children : List Node}
    {read : Descriptions → Markup.Tag → List Node → Except Error Descriptions}
    (hname : name ≠ "descriptions") (hreader : sectionReader? name = some read)
    (h : foldElements children d read = .ok d') :
    readNode (some d) (branch name [] children) = .ok (some d') := by
  rw [branch, readNode, if_neg hname]
  unfold readSection
  simp only [hreader, h]
  rfl

/-- What the descriptions express is loaded from their document. -/
theorem load_document {d : Descriptions} (hd : d.Expressible) : load (document d) = .ok d := by
  obtain ⟨version, versionHistory, entities, subtypes, endpoints⟩ := d
  -- Every section fills one list and leaves what the sections before it filled.
  have hroot : readRoot { name := "descriptions", attributes := [("version", version)] }
      = .ok { version } := rfl
  have hversions : readNode (some { version })
      (branch "versions" [] (versionHistory.map versionElement))
      = .ok (some { version, versionHistory }) :=
    readSection_written (by decide) rfl (readVersions_written { version, versionHistory })
  have hsubtypes : readNode (some { version, versionHistory })
      (branch "subtypes" [] (subtypes.map subtypeElement))
      = .ok (some { version, versionHistory, subtypes }) :=
    have hread := readSubtypes_written (d := { version, versionHistory, subtypes }) hd.subtypeNames
      hd.subtypes
    readSection_written (by decide) rfl hread
  have hentities : readNode (some { version, versionHistory, subtypes })
      (branch "entities" [] (entities.map entityElement))
      = .ok (some { version, versionHistory, subtypes, entities }) :=
    have hread := readEntities_written (d := { version, versionHistory, subtypes, entities })
      hd.entityNames hd.entities
    readSection_written (by decide) rfl hread
  have hendpoints : readNode (some { version, versionHistory, subtypes, entities })
      (branch "endpoints" [] (endpoints.map endpointElement))
      = .ok (some { version, versionHistory, subtypes, entities, endpoints }) :=
    readSection_written (by decide) rfl (readEndpoints_written hd.endpointNames hd.endpoints)
  rw [load, nodes_document hd, ofNodes, rootElement, branch]
  simp only [readNodes, readNode, if_true, hroot, hversions, hsubtypes, hentities, hendpoints,
    ok_bind, pure_eq_ok]

def journal : Descriptions where
  version := "2"
  versionHistory := ["1", "2"]
  subtypes :=
    [{ name := "mood", items := .cases [{ name := "calm" }, { name := "old", isUnused := true }] },
     { name := "flags", items := .options [{ name := "starred" }] },
     { name := "place",
       items := .members
        [{ name := "street", type := .scalar .string, key := "st", isOptional := true },
         { name := "moods", type := .subtype "mood", isArray := true }] }]
  entities :=
    [{ name := "entry"
       identifier := { kind := .scalar .int, equivalent := some "page" }
       isPersisted := true
       clientQueue := some "background"
       legacyPreviousName := some "note"
       properties :=
        [{ name := "title", type := .scalar .string, key := "t", default := some (.string "new") },
         { name := "rank", type := .scalar .int, default := some (.int (-3)) },
         { name := "written", type := .scalar .date, default := some .currentDate },
         { name := "mood", type := .subtype "mood", default := some (.enumCase "calm") },
         { name := "places", type := .subtype "place", isArray := true, isLazy := true },
         { name := "pages", isOptional := true, default := some .nil,
           type := .relationship { entityName := "page", association := .toMany } }] },
     { name := "page"
       identifier :=
        { kind := .relationships .string [{ variableName := "entry", entityName := "entry" }] } }]
  endpoints :=
    [{ name := "entries"
       read := some
        { entityName := "entry", layout := .nestedArray, entityKey := some "entry",
          baseKey := ["data", "entries"] }
       write := some { entityName := "entry" } }]

theorem load_document_journal : journal.Expressible ∧ load (document journal) = .ok journal :=
  have hexpressible : journal.Expressible := by decide +kernel
  ⟨hexpressible, load_document hexpressible⟩

end EntityGen.Document
