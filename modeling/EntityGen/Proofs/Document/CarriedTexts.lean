import EntityGen.Proofs.Document.AttributeSteps
import EntityGen.Proofs.Document.Definitions
import EntityGen.Proofs.Document.Load
import EntityGen.Proofs.Markup.Tags

/-!
# Where texts come from

Every free text of a description is the value of one attribute of the tag that
defines it, as the value stands there. The attributes of numbers, flags and words
for types are not free.
-/

namespace EntityGen.Document

open Markup (Tag Node)
open Schema (Choice Contributor DefaultValue Descriptions Endpoint EndpointPayload Entity Identifier
  Member Property Subtype SubtypeItems)

-- ---------------------------------------------------------------------------
-- Carried texts
-- ---------------------------------------------------------------------------

section
variable (attributes : List (String × String)) (name : String)

def Carries (value : String) : Prop := (name, value) ∈ attributes

/-- The value stands in an attribute of the name, or there is no such attribute and it is
the one for that. -/
def CarriesOr (missing value : String) : Prop :=
  Carries attributes name value ∨ (∀ other, ¬Carries attributes name other) ∧ value = missing

/-- The value stands in an attribute of the name, if there is one. -/
def CarriesOption : Option String → Prop
  | some value => Carries attributes name value
  | none => ∀ value, ¬Carries attributes name value

end

structure CarriesMember (tag : Tag) (m : Member) : Prop where
  name : Carries tag.attributes "name" m.name
  key : CarriesOr tag.attributes "key" m.name m.key
  subtype {name : String} (h : m.type = .subtype name) : Carries tag.attributes "subtype" name

inductive CarriesItems (es : List Element) : SubtypeItems → Prop
  | cases {choices : List Choice} :
    List.Forall₂ (fun (e : Element) c => Carries e.tag.attributes "name" c.name)
      (named "case" es) choices →
    CarriesItems es (.cases choices)
  | options {choices : List Choice} :
    List.Forall₂ (fun (e : Element) c => Carries e.tag.attributes "name" c.name)
      (named "option" es) choices →
    CarriesItems es (.options choices)
  | members {values : List Member} :
    List.Forall₂ (fun (e : Element) m => CarriesMember e.tag m) (named "property" es) values →
    CarriesItems es (.members values)

structure CarriesSubtype (element : Element) (s : Subtype) : Prop where
  name : Carries element.tag.attributes "name" s.name
  items : CarriesItems (elements element.children) s.items

structure CarriesContributor (tag : Tag) (c : Contributor) : Prop where
  entity : Carries tag.attributes "entity" c.entityName
  name : CarriesOr tag.attributes "name" c.entityName c.variableName

structure CarriesIdentifier (element : Element) (i : Identifier) : Prop where
  key : CarriesOr element.tag.attributes "key" "id" i.key
  equivalent : CarriesOption element.tag.attributes "equivalent" i.equivalent
  contributors {value : Schema.IdentifierValue} {contributors : List Contributor}
    (h : i.kind = .relationships value contributors) :
    List.Forall₂ (fun (e : Element) c => CarriesContributor e.tag c) (elements element.children)
      contributors

structure CarriesProperty (tag : Tag) (p : Property) : Prop where
  name : Carries tag.attributes "name" p.name
  key : CarriesOr tag.attributes "key" p.name p.key
  subtype {name : String} (h : p.type = .subtype name) : Carries tag.attributes "subtype" name
  relationship {r : Schema.Relationship} (h : p.type = .relationship r) :
    Carries tag.attributes "relationship" r.entityName
  default {value : DefaultValue} (h : p.default = some value) :
    ∀ text ∈ value.texts, Carries tag.attributes "default" text

structure CarriesEntity (element : Element) (e : Entity) : Prop where
  name : Carries element.tag.attributes "name" e.name
  queue : CarriesOption element.tag.attributes "queue" e.clientQueue
  legacyPreviousName :
    CarriesOption element.tag.attributes "legacyPreviousName" e.legacyPreviousName
  identifier {i : Element} (h : (named "identifier" (elements element.children)).getLast? = some i) :
    CarriesIdentifier i e.identifier
  properties : List.Forall₂ (fun (p : Element) q => CarriesProperty p.tag q)
    (named "property" (elements element.children)) e.properties

structure CarriesPayload (tag : Tag) (p : EndpointPayload) : Prop where
  entity : Carries tag.attributes "entity" p.entityName
  entityKey : CarriesOption tag.attributes "entityKey" p.entityKey
  baseKey : ∃ path, CarriesOr tag.attributes "baseKey" "" path ∧ p.baseKey = readKeyPath path

structure CarriesEndpoint (element : Element) (e : Endpoint) : Prop where
  name : Carries element.tag.attributes "name" e.name
  reads : Option.Rel (fun (p : Element) q => CarriesPayload p.tag q)
    (named "read" (elements element.children)).getLast? e.read
  writes : Option.Rel (fun (p : Element) q => CarriesPayload p.tag q)
    (named "write" (elements element.children)).getLast? e.write

def roots (ps : List Passage) : List Tag :=
  ps.filterMap fun p => match p with
    | .root tag => some tag
    | _ => none

/-- The descriptions have their texts from the last `descriptions` tag and the sections
after it. -/
structure CarriesDescriptions (ps : List Passage) (d : Descriptions) : Prop where
  version : ∃ tag, (roots ps).getLast? = some tag ∧ Carries tag.attributes "version" d.version
  versionHistory : List.Forall₂ (fun (e : Element) v => Carries e.tag.attributes "name" v)
    (definitions (sections (latest ps)) "versions") d.versionHistory
  subtypes : List.Forall₂ CarriesSubtype (definitions (sections (latest ps)) "subtypes") d.subtypes
  entities : List.Forall₂ CarriesEntity (definitions (sections (latest ps)) "entities") d.entities
  endpoints : List.Forall₂ CarriesEndpoint (definitions (sections (latest ps)) "endpoints")
    d.endpoints

-- ---------------------------------------------------------------------------
-- Attributes
-- ---------------------------------------------------------------------------

section
variable {attributes : List (String × String)} {name value : String}

theorem carries_of_lookup (h : attributes.lookup name = some value) :
    Carries attributes name value := by
  obtain ⟨before, after, rfl, -⟩ := List.lookup_eq_some_iff.mp h
  exact List.mem_append_right before List.mem_cons_self

theorem carriesOption_lookup : CarriesOption attributes name (attributes.lookup name) := by
  cases h : attributes.lookup name with
  | some value => exact carries_of_lookup h
  | none =>
    intro value hvalue
    have hne := List.lookup_eq_none_iff.mp h (name, value) hvalue
    simp at hne

theorem carriesOr_getD (missing : String) :
    CarriesOr attributes name missing ((attributes.lookup name).getD missing) := by
  have h : CarriesOption attributes name (attributes.lookup name) := carriesOption_lookup
  cases hvalue : attributes.lookup name with
  | some value => exact .inl (carries_of_lookup hvalue)
  | none =>
    rw [hvalue] at h
    exact .inr ⟨h, rfl⟩

end

-- ---------------------------------------------------------------------------
-- Subtypes
-- ---------------------------------------------------------------------------

theorem readChoice_carries {element : String} {tag : Tag} {c : Choice}
    (h : readChoice element tag = .ok c) : Carries tag.attributes "name" c.name := by
  simp only [readChoice, bind_ok, pure_ok, required_ok] at h
  obtain ⟨_, -, name, hname, rfl⟩ := h
  exact carries_of_lookup hname

theorem readMember_carries {tag : Tag} {m : Member} (h : readMember tag = .ok m) :
    CarriesMember tag m := by
  simp only [readMember, bind_ok, required_ok] at h
  obtain ⟨a, ha, name, hname, h⟩ := h
  split at h
  · cases h
  · next type htype =>
    obtain rfl := pure_ok.mp h
    refine ⟨carries_of_lookup hname, carriesOr_getD name, ?_⟩
    rintro subtype rfl
    exact MemberAttributes.read_gives ha _ htype

structure CarriesLists (es : List Element) (items : ItemLists) : Prop where
  cases : List.Forall₂ (fun (e : Element) c => Carries e.tag.attributes "name" c.name)
    (named "case" es) items.cases
  options : List.Forall₂ (fun (e : Element) c => Carries e.tag.attributes "name" c.name)
    (named "option" es) items.options
  members : List.Forall₂ (fun (e : Element) m => CarriesMember e.tag m)
    (named "property" es) items.members

section
variable {α : Type} {R : Element → α → Prop} {es : List Element} {e : Element} {name : String}
  {xs : List α}

theorem rel_named_self {x : α} (h : List.Forall₂ R (named name es) xs) (hname : e.tag.name = name)
    (hx : R e x) : List.Forall₂ R (named name (es ++ [e])) (xs ++ [x]) := by
  rw [named_concat_self hname]
  exact List.rel_append h (.cons hx .nil)

theorem rel_named_of_ne (h : List.Forall₂ R (named name es) xs) {other : String}
    (htag : e.tag.name = other) (hne : other ≠ name) :
    List.Forall₂ R (named name (es ++ [e])) xs := by
  rwa [named_concat_of_ne (htag ▸ hne)]

end

theorem ItemLists.read_carries {es : List Element} {items items' : ItemLists} {e : Element}
    (hitems : CarriesLists es items) (h : items.read e.tag e.children = .ok items') :
    CarriesLists (es ++ [e]) items' := by
  obtain ⟨hcases, hoptions, hmembers⟩ := hitems
  unfold ItemLists.read at h
  split at h <;> simp only [bind_ok, pure_ok] at h
  · next htag =>
    obtain ⟨c, hc, _, rfl, -, -, rfl⟩ := h
    exact ⟨rel_named_self hcases htag (readChoice_carries hc),
      rel_named_of_ne hoptions htag (by decide), rel_named_of_ne hmembers htag (by decide)⟩
  · next htag =>
    obtain ⟨c, hc, _, rfl, -, -, rfl⟩ := h
    exact ⟨rel_named_of_ne hcases htag (by decide),
      rel_named_self hoptions htag (readChoice_carries hc),
      rel_named_of_ne hmembers htag (by decide)⟩
  · next htag =>
    obtain ⟨m, hm, _, rfl, -, -, rfl⟩ := h
    exact ⟨rel_named_of_ne hcases htag (by decide), rel_named_of_ne hoptions htag (by decide),
      rel_named_self hmembers htag (readMember_carries hm)⟩
  · obtain ⟨_, hthrow, -⟩ := h
    cases hthrow

theorem readSubtype_carries {e : Element} {s : Subtype}
    (h : readSubtype e.tag e.children = .ok s) : CarriesSubtype e s := by
  simp only [readSubtype, bind_ok, required_ok] at h
  obtain ⟨name, hname, items, hitems, h⟩ := h
  have hlists := foldElements_traces (P := CarriesLists) ItemLists.read_carries
    ⟨.nil, .nil, .nil⟩ hitems
  obtain ⟨hcases, hoptions, hmembers⟩ := hlists
  unfold ItemLists.subtype at h
  split at h <;> cases h
  · exact ⟨carries_of_lookup hname, .cases hcases⟩
  · exact ⟨carries_of_lookup hname, .options hoptions⟩
  · exact ⟨carries_of_lookup hname, .members hmembers⟩

-- ---------------------------------------------------------------------------
-- Entities
-- ---------------------------------------------------------------------------

theorem readContributor_carries {tag : Tag} {c : Contributor} (h : readContributor tag = .ok c) :
    CarriesContributor tag c := by
  simp only [readContributor, bind_ok, pure_ok, required_ok] at h
  obtain ⟨entityName, hentity, rfl⟩ := h
  exact ⟨carries_of_lookup hentity, carriesOr_getD entityName⟩

theorem readContributors_carries {children : List Node} {contributors : List Contributor}
    (h : readContributors children = .ok contributors) :
    List.Forall₂ (fun (e : Element) c => CarriesContributor e.tag c) (elements children)
      contributors := by
  refine foldElements_traces (P := List.Forall₂ fun (e : Element) c => CarriesContributor e.tag c)
    ?_ .nil h
  intro done cs e cs' hcs h
  simp only [ite_throw_ok, bind_ok, pure_ok] at h
  obtain ⟨-, c, hc, -, -, rfl⟩ := h
  exact List.rel_append hcs (.cons (readContributor_carries hc) .nil)

theorem readIdentifier_carries {e : Element} {i : Identifier}
    (h : readIdentifier e.tag e.children = .ok i) : CarriesIdentifier e i := by
  simp only [readIdentifier, bind_ok, pure_ok] at h
  obtain ⟨value, -, contributors, hcontributors, kind, hkind, rfl⟩ := h
  refine ⟨carriesOr_getD "id", carriesOption_lookup, ?_⟩
  rintro _ cs rfl
  have hsame : contributors = cs := by
    unfold identifierKind at hkind
    split at hkind
    · cases hkind
    · split at hkind <;> cases hkind
      rfl
    · obtain ⟨_, -, hkind⟩ := map_ok.mp hkind
      cases hkind
  exact hsame ▸ readContributors_carries hcontributors

theorem PropertyAttributes.type_carries {a : PropertyAttributes} {tag : Tag} {name : String}
    {type : Schema.PropertyType} (h : a.type tag name = .ok type) :
    (∀ {subtype}, type = .subtype subtype → Carries tag.attributes "subtype" subtype) ∧
      ∀ {r}, type = .relationship r → Carries tag.attributes "relationship" r.entityName := by
  unfold PropertyAttributes.type at h
  split at h
  · cases h
    exact ⟨nofun, nofun⟩
  · next hsubtype _ =>
    cases h
    refine ⟨?_, nofun⟩
    rintro _ ⟨⟩
    exact carries_of_lookup hsubtype
  · next hrelationship =>
    split at h <;> cases h
    refine ⟨nofun, ?_⟩
    rintro _ ⟨⟩
    exact carries_of_lookup hrelationship
  · cases h
  · cases h

theorem texts_of_defaultOfText? {type : Schema.PropertyType} {text : String} {value : DefaultValue}
    (h : defaultOfText? type text = some value) : ∀ other ∈ value.texts, other = text := by
  cases type with
  | scalar scalar =>
    simp only [defaultOfText?, DefaultValue.ofScalarText?] at h
    split at h
    · cases h
      simp [DefaultValue.texts]
    · cases scalar with
      | bool | int | double | float | seconds | milliseconds =>
        obtain ⟨_, -, rfl⟩ := Option.map_eq_some_iff.mp h
        simp [DefaultValue.texts]
      | date =>
        obtain ⟨-, hdate⟩ := Option.ite_none_right_eq_some.mp h
        cases hdate
        simp [DefaultValue.texts]
      | string | url | color =>
        cases h
        simp [DefaultValue.texts]
  | subtype name =>
    cases h
    unfold DefaultValue.ofCaseText
    split <;> simp [DefaultValue.texts]
  | relationship r =>
    obtain ⟨-, hnil⟩ := Option.ite_none_right_eq_some.mp h
    cases hnil
    simp [DefaultValue.texts]

theorem readProperty_carries {tag : Tag} {p : Property} (h : readProperty tag = .ok p) :
    CarriesProperty tag p := by
  simp only [readProperty, bind_ok, pure_ok, required_ok] at h
  obtain ⟨a, -, name, hname, type, htype, default, hdefault, rfl⟩ := h
  obtain ⟨hsubtype, hrelationship⟩ := a.type_carries htype
  refine ⟨carries_of_lookup hname, carriesOr_getD name, hsubtype, hrelationship, ?_⟩
  rintro value rfl text htext
  cases hlookup : tag.attributes.lookup "default" with
  | none =>
    rw [hlookup] at hdefault
    cases hdefault
  | some other =>
    rw [hlookup] at hdefault
    obtain ⟨_, haccepted, hsome⟩ := map_ok.mp hdefault
    cases hsome
    rw [texts_of_defaultOfText? (accepted_ok.mp haccepted) text htext]
    exact carries_of_lookup hlookup

/-- What the attributes of an entity have set: the texts of those that were read. -/
structure EntityTexts (attributes : List (String × String)) (e : Entity) : Prop where
  name {value : String} (h : Carries attributes "name" value) : Carries attributes "name" e.name
  queue : CarriesOption attributes "queue" e.clientQueue
  legacyPreviousName : CarriesOption attributes "legacyPreviousName" e.legacyPreviousName

theorem carries_concat_of_ne {attributes : List (String × String)} {name other value text : String}
    (hne : other ≠ name) :
    Carries (attributes ++ [(other, text)]) name value ↔ Carries attributes name value := by
  simp [Carries, Ne.symm hne]

theorem CarriesOption.concat {attributes : List (String × String)} {name other text : String}
    {value : Option String} (h : CarriesOption attributes name value) (hne : other ≠ name) :
    CarriesOption (attributes ++ [(other, text)]) name value := by
  cases value with
  | some value => exact (carries_concat_of_ne hne).mpr h
  | none => exact fun value hvalue => h value ((carries_concat_of_ne hne).mp hvalue)

theorem readEntityAttribute_texts {attributes : List (String × String)} {e e' : Entity}
    {a : String × String} (he : EntityTexts attributes e)
    (h : readEntityAttribute e a.1 a.2 = .ok e') : EntityTexts (attributes ++ [a]) e' := by
  obtain ⟨name, text⟩ := a
  obtain ⟨hname, hqueue, hlegacy⟩ := he
  have hself : Carries (attributes ++ [(name, text)]) name text :=
    List.mem_append_right attributes List.mem_cons_self
  -- an attribute of another name leaves the name of the entity alone
  have hsame {e : Entity} (hne : name ≠ "name")
      (hname : ∀ {value}, Carries attributes "name" value → Carries attributes "name" e.name)
      {value : String} (h : Carries (attributes ++ [(name, text)]) "name" value) :
      Carries (attributes ++ [(name, text)]) "name" e.name :=
    (carries_concat_of_ne hne).mpr (hname ((carries_concat_of_ne hne).mp h))
  dsimp only at h
  unfold readEntityAttribute at h
  split at h
  case h_5 =>
    cases h
    exact ⟨fun _ => hself, hqueue.concat (by decide), hlegacy.concat (by decide)⟩
  case h_6 =>
    cases h
    exact ⟨hsame (by decide) hname, hself, hlegacy.concat (by decide)⟩
  case h_7 =>
    cases h
    exact ⟨hsame (by decide) hname, hqueue.concat (by decide), hself⟩
  case h_8 hnot₁ hnot₂ hnot₃ =>
    cases h
    exact ⟨hsame hnot₁ hname, hqueue.concat hnot₂, hlegacy.concat hnot₃⟩
  all_goals
    obtain ⟨_, -, h⟩ := bind_ok.mp h
    obtain rfl := pure_ok.mp h
    exact ⟨hsame (by decide) hname, hqueue.concat (by decide), hlegacy.concat (by decide)⟩

theorem readEntityPart_texts {attributes : List (String × String)} {e e' : Entity} {tag : Tag}
    {children : List Node} (he : EntityTexts attributes e)
    (h : readEntityPart e tag children = .ok e') : EntityTexts attributes e' := by
  unfold readEntityPart at h
  split at h
  · obtain ⟨_, -, h⟩ := bind_ok.mp h
    obtain rfl := pure_ok.mp h
    exact ⟨he.name, he.queue, he.legacyPreviousName⟩
  · simp only [ite_throw_ok, bind_ok, pure_ok] at h
    obtain ⟨_, -, -, -, -, rfl⟩ := h
    exact ⟨he.name, he.queue, he.legacyPreviousName⟩
  · cases h

theorem EntityOf.carries {element : Element} {e : Entity} (h : EntityOf element e) :
    CarriesEntity element e := by
  have hread := h.read
  simp only [readEntity, bind_ok, required_ok] at hread
  obtain ⟨e₀, hattributes, name, hname, hparts⟩ := hread
  have hstart : EntityTexts element.tag.attributes e₀ :=
    foldlM_traces (P := EntityTexts) readEntityAttribute_texts
      ⟨by simp [Carries], by simp [CarriesOption, Carries], by simp [CarriesOption, Carries]⟩
      hattributes
  have htexts := foldElements_preserves readEntityPart_texts hstart hparts
  refine ⟨htexts.name (carries_of_lookup hname), htexts.queue, htexts.legacyPreviousName, ?_, ?_⟩
  · exact fun hi => readIdentifier_carries (h.identifier hi)
  · exact h.property.imp fun _ _ => readProperty_carries

-- ---------------------------------------------------------------------------
-- Endpoints
-- ---------------------------------------------------------------------------

theorem readPayload_carries {element : String} {tag : Tag} {p : EndpointPayload}
    (h : readPayload element tag = .ok p) : CarriesPayload tag p := by
  simp only [readPayload, bind_ok, pure_ok, required_ok] at h
  obtain ⟨_, -, entityName, hentity, rfl⟩ := h
  exact ⟨carries_of_lookup hentity, carriesOption_lookup, _, carriesOr_getD "", rfl⟩

theorem readEndpointPart_name {e e' : Endpoint} {tag : Tag} {children : List Node}
    (h : readEndpointPart e tag children = .ok e') : e'.name = e.name := by
  unfold readEndpointPart at h
  split at h <;> simp only [bind_ok, pure_ok] at h
  · obtain ⟨_, -, _, rfl, -, -, rfl⟩ := h
    rfl
  · obtain ⟨_, -, _, rfl, -, -, rfl⟩ := h
    rfl
  · obtain ⟨_, hthrow, -⟩ := h
    cases hthrow

theorem payload_carries {element : String} {e : Option Element} {p : Option EndpointPayload}
    (h : Option.Rel (fun (e : Element) p => readPayload element e.tag = .ok p) e p) :
    Option.Rel (fun (e : Element) p => CarriesPayload e.tag p) e p := by
  cases h with
  | none => exact .none
  | some h => exact .some (readPayload_carries h)

theorem EndpointOf.carries {element : Element} {e : Endpoint} (h : EndpointOf element e) :
    CarriesEndpoint element e := by
  have hread := h.read
  simp only [readEndpoint, bind_ok, required_ok] at hread
  obtain ⟨name, hname, hparts⟩ := hread
  have hsame : e.name = name := foldElements_preserves (P := fun e => e.name = name)
    (fun he hpart => (readEndpointPart_name hpart).trans he) rfl hparts
  exact ⟨hsame ▸ carries_of_lookup hname, payload_carries h.reads, payload_carries h.writes⟩

-- ---------------------------------------------------------------------------
-- Documents
-- ---------------------------------------------------------------------------

theorem child_version {name : String}
    {read : Descriptions → Tag → List Node → Except Error Descriptions}
    (hname : sectionReader? name = some read) {d d' : Descriptions} {tag : Tag}
    {children : List Node} (h : read d tag children = .ok d') : d'.version = d.version := by
  unfold sectionReader? at hname
  split at hname <;> cases hname
  · simp only [readVersion, ite_throw_ok, bind_ok, pure_ok] at h
    obtain ⟨-, _, -, -, -, rfl⟩ := h
    rfl
  · simp only [readSubtypeInto, ite_throw_ok, bind_ok, pure_ok] at h
    obtain ⟨-, _, -, -, rfl⟩ := h
    rfl
  · simp only [readEntityInto, ite_throw_ok, bind_ok, pure_ok] at h
    obtain ⟨-, _, -, -, rfl⟩ := h
    rfl
  · simp only [readEndpointInto, ite_throw_ok, bind_ok, pure_ok] at h
    obtain ⟨-, _, -, -, rfl⟩ := h
    rfl

def CarriesVersion (ps : List Passage) (d : Option Descriptions) : Prop :=
  ∀ x ∈ d, ∃ tag, (roots ps).getLast? = some tag ∧ Carries tag.attributes "version" x.version

theorem readPassage_version {ps : List Passage} {d d' : Option Descriptions} {p : Passage}
    (hd : CarriesVersion ps d) (h : readPassage d p = .ok d') : CarriesVersion (ps ++ [p]) d' := by
  cases p with
  | root tag =>
    obtain ⟨root, hroot, rfl⟩ := map_ok.mp h
    simp only [readRoot, bind_ok, pure_ok, required_ok] at hroot
    obtain ⟨version, hversion, rfl⟩ := hroot
    rintro _ ⟨⟩
    exact ⟨tag, by simp [roots], carries_of_lookup hversion⟩
  | body tag isEmpty children =>
    have hroots : roots (ps ++ [Passage.body tag isEmpty children]) = roots ps := by simp [roots]
    unfold CarriesVersion
    rw [hroots]
    replace h : readSection d tag isEmpty children = .ok d' := h
    unfold readSection at h
    split at h
    · cases h
    · cases h
    · cases h
      exact hd
    · next d read hname =>
      obtain ⟨x, hx, rfl⟩ := map_ok.mp h
      have hsame : x.version = d.version :=
        foldElements_preserves (P := fun x => x.version = d.version)
          (fun hx hchild => (child_version hname hchild).trans hx) rfl hx
      rintro _ ⟨⟩
      rw [hsame]
      exact hd d rfl
  | fault e => cases h

/-- Descriptions have all their free texts from the tags that define them. -/
theorem ofNodes_carries {nodes : List Node} {d : Descriptions} (h : ofNodes nodes = .ok d) :
    CarriesDescriptions (passagesOf nodes) d := by
  have hholds := (ofNodes_traced h).holds d rfl
  refine ⟨?_, ?_, ?_, ?_, ?_⟩
  · exact ofNodes_traces (P := CarriesVersion) readPassage_version (by simp [CarriesVersion]) h d rfl
  · exact hholds.versions.imp fun _ _ hv => carries_of_lookup hv.2
  · exact hholds.subtypes.imp fun _ _ hs => readSubtype_carries hs.2
  · exact hholds.entities.imp fun _ _ => EntityOf.carries
  · exact hholds.endpoints.imp fun _ _ => EndpointOf.carries

end EntityGen.Document
