import EntityGen.Document.Load
import EntityGen.Proofs.Results
import Mathlib.Data.List.DropRight

/-!
# The definitions of a document

A document is a series of `descriptions` tags and sections. What it describes
is defined by the sections after the last of these tags: one definition for
each of their elements, in document order. A part that a definition has only
once is the last of its kind.
-/

namespace EntityGen.Document

open Markup (Tag Node)
open Schema (Descriptions Endpoint EndpointPayload Entity Subtype)

-- ---------------------------------------------------------------------------
-- Elements
-- ---------------------------------------------------------------------------

structure Element where
  tag : Tag
  children : List Node

def element? : Node → Option Element
  | .failed _ => none
  | .element tag _ children => some { tag, children }

def elements (nodes : List Node) : List Element := nodes.filterMap element?

def named (name : String) (es : List Element) : List Element :=
  es.filter fun e => e.tag.name = name

theorem named_concat_self {name : String} {e : Element} (h : e.tag.name = name)
    (es : List Element) : named name (es ++ [e]) = named name es ++ [e] := by
  simp [named, h]

theorem named_concat_of_ne {name : String} {e : Element} (h : e.tag.name ≠ name)
    (es : List Element) : named name (es ++ [e]) = named name es := by
  simp [named, h]

theorem accepted_ok {β : Type} {element name value : String} {o : Option β} {b : β} :
    accepted element name value o = .ok b ↔ o = some b := by
  cases o <;> simp [accepted]

/-- What holds of the items read so far and the value read from them, step by step. -/
theorem foldlM_traces {ι α : Type} {f : α → ι → Except Error α} {P : List ι → α → Prop}
    (hstep : ∀ {done a i b}, P done a → f a i = .ok b → P (done ++ [i]) b)
    {items : List ι} {a b : α} (ha : P [] a) (h : items.foldlM f a = .ok b) : P items b := by
  suffices hrun : ∀ {items done a}, P done a → items.foldlM f a = .ok b → P (done ++ items) b from
    hrun ha h
  intro items
  induction items with
  | nil =>
    intro done a ha h
    obtain rfl := pure_ok.mp h
    simpa using ha
  | cons i items ih =>
    intro done a ha h
    obtain ⟨a', hi, hitems⟩ := bind_ok.mp h
    simpa using ih (hstep ha hi) hitems

theorem foldElements_ok {α : Type} {step : α → Tag → List Node → Except Error α}
    {children : List Node} {a b : α} (h : foldElements children a step = .ok b) :
    (elements children).foldlM (fun a e => step a e.tag e.children) a = .ok b := by
  induction children generalizing a with
  | nil => exact h
  | cons node nodes ih =>
    obtain ⟨a', hnode, hnodes⟩ := bind_ok.mp h
    cases node with
    | failed e => cases hnode
    | element tag isEmpty children => exact bind_ok.mpr ⟨a', hnode, ih hnodes⟩

theorem foldElements_traces {α : Type} {step : α → Tag → List Node → Except Error α}
    {P : List Element → α → Prop}
    (hstep : ∀ {done a e b}, P done a → step a e.tag e.children = .ok b → P (done ++ [e]) b)
    {children : List Node} {a b : α} (ha : P [] a) (h : foldElements children a step = .ok b) :
    P (elements children) b :=
  foldlM_traces hstep ha (foldElements_ok h)

-- ---------------------------------------------------------------------------
-- Entities and endpoints
-- ---------------------------------------------------------------------------

/-- The entity has a property for each property element, and its identifier is
the last one given. -/
structure EntityOf (element : Element) (e : Entity) : Prop where
  name : element.tag.name = "entity"
  read : readEntity element.tag element.children = .ok e
  identifier {i : Element}
    (h : (named "identifier" (elements element.children)).getLast? = some i) :
    readIdentifier i.tag i.children = .ok e.identifier
  property : List.Forall₂ (fun (p : Element) q => readProperty p.tag = .ok q)
    (named "property" (elements element.children)) e.properties

theorem readEntityAttribute_parts {e e' : Entity} {name value : String}
    (h : readEntityAttribute e name value = .ok e') :
    e'.identifier = e.identifier ∧ e'.properties = e.properties := by
  unfold readEntityAttribute at h
  split at h
  all_goals
    first
    | cases h
      exact ⟨rfl, rfl⟩
    | obtain ⟨_, _, h⟩ := bind_ok.mp h
      obtain rfl := pure_ok.mp h
      exact ⟨rfl, rfl⟩

theorem readEntityAttributes_properties {tag : Tag} {e e' : Entity}
    (h : foldAttributes tag e readEntityAttribute = .ok e') : e'.properties = e.properties :=
  foldlM_traces (P := fun (_ : List (String × String)) x => x.properties = e.properties)
    (fun he hattribute => (readEntityAttribute_parts hattribute).2.trans he) rfl h

theorem readEntity_parts {element : Element} {e : Entity} (hname : element.tag.name = "entity")
    (h : readEntity element.tag element.children = .ok e) : EntityOf element e := by
  have hread := h
  simp only [readEntity, bind_ok] at h
  obtain ⟨e₀, hattributes, _, _, hparts⟩ := h
  have hproperties := readEntityAttributes_properties hattributes
  have hboth := foldElements_traces (P := fun done (e : Entity) =>
    (∀ i, (named "identifier" done).getLast? = some i →
      readIdentifier i.tag i.children = .ok e.identifier) ∧
    List.Forall₂ (fun (p : Element) q => readProperty p.tag = .ok q) (named "property" done)
      e.properties) ?_ ⟨by simp [named], by simp [named, hproperties]⟩ hparts
  · exact ⟨hname, hread, fun hi => hboth.1 _ hi, hboth.2⟩
  · rintro done e part e' ⟨hidentifier, hproperty⟩ hpart
    unfold readEntityPart at hpart
    split at hpart
    · next htag =>
      obtain ⟨identifier, hi, hpart⟩ := bind_ok.mp hpart
      obtain rfl := pure_ok.mp hpart
      rw [named_concat_self htag, named_concat_of_ne (by simp [htag])]
      refine ⟨fun i hlast => ?_, hproperty⟩
      obtain rfl : part = i := by simpa using hlast
      exact hi
    · next htag =>
      simp only [ite_throw_ok, bind_ok, pure_ok] at hpart
      obtain ⟨p, hp, -, -, -, rfl⟩ := hpart
      rw [named_concat_self htag, named_concat_of_ne (by simp [htag])]
      exact ⟨hidentifier, List.rel_append hproperty (.cons hp .nil)⟩
    · cases hpart

/-- The payloads of the endpoint are the last ones given. -/
structure EndpointOf (element : Element) (e : Endpoint) : Prop where
  name : element.tag.name = "endpoint"
  read : readEndpoint element.tag element.children = .ok e
  reads : Option.Rel (fun (p : Element) q => readPayload "read" p.tag = .ok q)
    (named "read" (elements element.children)).getLast? e.read
  writes : Option.Rel (fun (p : Element) q => readPayload "write" p.tag = .ok q)
    (named "write" (elements element.children)).getLast? e.write

theorem readEndpoint_parts {element : Element} {e : Endpoint}
    (hname : element.tag.name = "endpoint")
    (h : readEndpoint element.tag element.children = .ok e) : EndpointOf element e := by
  have hread := h
  simp only [readEndpoint, bind_ok] at h
  obtain ⟨name, -, hparts⟩ := h
  have hboth := foldElements_traces (P := fun done (e : Endpoint) =>
    Option.Rel (fun (p : Element) q => readPayload "read" p.tag = .ok q)
      (named "read" done).getLast? e.read ∧
    Option.Rel (fun (p : Element) q => readPayload "write" p.tag = .ok q)
      (named "write" done).getLast? e.write) ?_ ⟨.none, .none⟩ hparts
  · exact ⟨hname, hread, hboth.1, hboth.2⟩
  · rintro done e part e' ⟨hr, hw⟩ hpart
    unfold readEndpointPart at hpart
    split at hpart <;> simp only [bind_ok, pure_ok] at hpart
    · next htag =>
      obtain ⟨p, hp, _, rfl, _, _, rfl⟩ := hpart
      rw [named_concat_self htag, named_concat_of_ne (by simp [htag]), List.getLast?_concat]
      exact ⟨.some hp, hw⟩
    · next htag =>
      obtain ⟨p, hp, _, rfl, _, _, rfl⟩ := hpart
      rw [named_concat_self htag, named_concat_of_ne (by simp [htag]), List.getLast?_concat]
      exact ⟨hr, .some hp⟩
    · obtain ⟨_, hthrow, _⟩ := hpart
      cases hthrow

-- ---------------------------------------------------------------------------
-- Sections
-- ---------------------------------------------------------------------------

def definitions (sections : List Element) (name : String) : List Element :=
  (named name sections).flatMap fun s => elements s.children

theorem definitions_concat (sections : List Element) (s : Element) (name : String) :
    definitions (sections ++ [s]) name
      = definitions sections name ++ if s.tag.name = name then elements s.children else [] := by
  unfold definitions
  split
  · next h => simp [named_concat_self h]
  · next h => simp [named_concat_of_ne h]

/-- The descriptions hold exactly one item for each element that sections of
their kind define. -/
structure Holds (defined : String → List Element) (d : Descriptions) : Prop where
  versions : List.Forall₂
    (fun v name => v.tag.name = "version" ∧ v.tag.attributes.lookup "name" = some name)
    (defined "versions") d.versionHistory
  subtypes : List.Forall₂
    (fun s subtype => s.tag.name = "subtype" ∧ readSubtype s.tag s.children = .ok subtype)
    (defined "subtypes") d.subtypes
  entities : List.Forall₂ EntityOf (defined "entities") d.entities
  endpoints : List.Forall₂ EndpointOf (defined "endpoints") d.endpoints

theorem required_ok {tag : Tag} {element name value : String} :
    required tag element name = .ok value ↔ tag.attributes.lookup name = some value := by
  unfold required
  cases tag.attributes.lookup name <;> simp

theorem Holds.child {name : String} {defined : String → List Element}
    {read : Descriptions → Tag → List Node → Except Error Descriptions}
    (hname : sectionReader? name = some read) {d d' : Descriptions} {e : Element}
    (hd : Holds defined d) (h : read d e.tag e.children = .ok d') :
    Holds (fun x => defined x ++ if name = x then [e] else []) d' := by
  obtain ⟨hversions, hsubtypes, hentities, hendpoints⟩ := hd
  unfold sectionReader? at hname
  split at hname <;> cases hname
  · simp only [readVersion, ite_throw_ok, bind_ok, pure_ok, required_ok, not_not] at h
    obtain ⟨htag, version, hversion, -, -, rfl⟩ := h
    exact ⟨List.rel_append hversions (.cons ⟨htag, hversion⟩ .nil), by simpa using hsubtypes,
      by simpa using hentities, by simpa using hendpoints⟩
  · simp only [readSubtypeInto, ite_throw_ok, bind_ok, pure_ok, not_not] at h
    obtain ⟨htag, s, hs, -, rfl⟩ := h
    simp only [Descriptions.addSubtype]
    exact ⟨by simpa using hversions, List.rel_append hsubtypes (.cons ⟨htag, hs⟩ .nil),
      by simpa using hentities, by simpa using hendpoints⟩
  · simp only [readEntityInto, ite_throw_ok, bind_ok, pure_ok, not_not] at h
    obtain ⟨htag, x, hx, -, rfl⟩ := h
    simp only [Descriptions.addEntity]
    exact ⟨by simpa using hversions, by simpa using hsubtypes,
      List.rel_append hentities (.cons (readEntity_parts htag hx) .nil), by simpa using hendpoints⟩
  · simp only [readEndpointInto, ite_throw_ok, bind_ok, pure_ok, not_not] at h
    obtain ⟨htag, x, hx, -, rfl⟩ := h
    simp only [Descriptions.addEndpoint]
    exact ⟨by simpa using hversions, by simpa using hsubtypes, by simpa using hentities,
      List.rel_append hendpoints (.cons (readEndpoint_parts htag hx) .nil)⟩

theorem Holds.children {name : String} {defined : String → List Element}
    {read : Descriptions → Tag → List Node → Except Error Descriptions}
    (hname : sectionReader? name = some read) {d d' : Descriptions} {children : List Node}
    (hd : Holds defined d) (h : foldElements children d read = .ok d') :
    Holds (fun x => defined x ++ if name = x then elements children else []) d' := by
  refine foldElements_traces
    (P := fun done => Holds fun x => defined x ++ if name = x then done else []) ?_ ?_ h
  · intro done d e d' hd hread
    have hnext := hd.child hname hread
    have hsame : (fun x => (defined x ++ if name = x then done else [])
          ++ if name = x then [e] else [])
        = fun x => defined x ++ if name = x then done ++ [e] else [] := by
      funext x
      split <;> simp
    rwa [hsame] at hnext
  · simpa using hd

-- ---------------------------------------------------------------------------
-- Documents
-- ---------------------------------------------------------------------------

/-- What reading meets in a document one after the other: the tag of a
`descriptions` element, a section, or a fault. -/
inductive Passage where
  | root (tag : Tag)
  | body (tag : Tag) (isEmpty : Bool) (children : List Node)
  | fault (error : Markup.Error)

namespace Passage

def isRoot : Passage → Bool
  | .root _ => true
  | _ => false

def section? : Passage → Option Element
  | .body tag isEmpty children => some { tag, children := if isEmpty then [] else children }
  | _ => none

end Passage

mutual
def passages : Node → List Passage
  | .failed e => [.fault e]
  | .element tag isEmpty children =>
    if tag.name = "descriptions" then .root tag :: passagesOf children
    else [.body tag isEmpty children]

def passagesOf : List Node → List Passage
  | [] => []
  | node :: nodes => passages node ++ passagesOf nodes
end

def sections (ps : List Passage) : List Element := ps.filterMap Passage.section?

/-- The passages after the last `descriptions` tag. -/
def latest (ps : List Passage) : List Passage := ps.rtakeWhile fun p => !p.isRoot

def readPassage (d : Option Descriptions) : Passage → Except Error (Option Descriptions)
  | .root tag => some <$> readRoot tag
  | .body tag isEmpty children => readSection d tag isEmpty children
  | .fault e => .error (.markup e)

mutual
theorem readNode_eq (d : Option Descriptions) (node : Node) :
    readNode d node = (passages node).foldlM readPassage d := by
  match node with
  | .failed e => rfl
  | .element tag isEmpty children =>
    rw [readNode, passages]
    split
    · rw [List.foldlM_cons, readPassage, bind_map_left]
      exact bind_congr fun root => readNodes_eq (some root) children
    · rw [List.foldlM_cons]
      exact (bind_pure _).symm

theorem readNodes_eq (d : Option Descriptions) (nodes : List Node) :
    readNodes d nodes = (passagesOf nodes).foldlM readPassage d := by
  match nodes with
  | [] => rfl
  | node :: nodes =>
    rw [readNodes, passagesOf, List.foldlM_append, readNode_eq d node]
    exact bind_congr fun d => readNodes_eq d nodes
end

/-- What reading some passages leaves, and which of them that stands for. -/
structure Traced (ps : List Passage) (d : Option Descriptions) : Prop where
  holds : ∀ x ∈ d, Holds (definitions (sections (latest ps))) x
  rootless (h : ps.countP Passage.isRoot = 0) : d = none
  unread (h : d = none) : definitions (sections ps) = fun _ => []
  whole (h : ps.countP Passage.isRoot ≤ 1) :
    definitions (sections (latest ps)) = definitions (sections ps)

theorem Traced.root {ps : List Passage} {d : Option Descriptions} {tag : Tag} {root : Descriptions}
    (hd : Traced ps d) (h : readRoot tag = .ok root) :
    Traced (ps ++ [Passage.root tag]) (some root) := by
  have hlatest : latest (ps ++ [Passage.root tag]) = [] := by simp [latest, Passage.isRoot]
  have hsections : sections (ps ++ [Passage.root tag]) = sections ps := by
    simp [sections, Passage.section?]
  constructor
  · obtain ⟨version, -, h⟩ := bind_ok.mp h
    obtain rfl := pure_ok.mp h
    rintro _ ⟨⟩
    rw [hlatest]
    exact ⟨.nil, .nil, .nil, .nil⟩
  · simp [Passage.isRoot]
  · simp
  · intro hcount
    have hnone : ps.countP Passage.isRoot = 0 := by simpa [Passage.isRoot] using hcount
    rw [hlatest, hsections, hd.unread (hd.rootless hnone)]
    rfl

theorem Traced.section {ps : List Passage} {d d' : Option Descriptions} {tag : Tag} {isEmpty : Bool}
    {children : List Node} (hd : Traced ps d) (h : readSection d tag isEmpty children = .ok d') :
    Traced (ps ++ [Passage.body tag isEmpty children]) d' := by
  let s : Element := { tag, children := if isEmpty then [] else children }
  have hlatest : sections (latest (ps ++ [Passage.body tag isEmpty children]))
      = sections (latest ps) ++ [s] := by
    simp [latest, Passage.isRoot, sections, Passage.section?, s]
  have hsections : sections (ps ++ [Passage.body tag isEmpty children]) = sections ps ++ [s] := by
    simp [sections, Passage.section?, s]
  have hcount : (ps ++ [Passage.body tag isEmpty children]).countP Passage.isRoot
      = ps.countP Passage.isRoot := by
    simp [Passage.isRoot]
  have hwhole (hle : ps.countP Passage.isRoot ≤ 1) :
      definitions (sections (latest ps) ++ [s]) = definitions (sections ps ++ [s]) := by
    funext name
    rw [definitions_concat, definitions_concat, hd.whole hle]
  unfold readSection at h
  split at h
  · cases h
  · cases h
  -- without content nothing changes
  · cases h
    have hempty (ss : List Element) : definitions (ss ++ [s]) = definitions ss := by
      funext name
      simp [definitions_concat, s, elements]
    constructor
    · rw [hlatest, hempty]
      exact hd.holds
    · rw [hcount]
      exact hd.rootless
    · rw [hsections, hempty]
      exact hd.unread
    · rw [hcount, hlatest, hsections]
      exact hwhole
  · next d read hname =>
    obtain ⟨x, hx, rfl⟩ := map_ok.mp h
    have hdefined : definitions (sections (latest ps) ++ [s])
        = fun name => definitions (sections (latest ps)) name
          ++ if tag.name = name then elements children else [] := by
      funext name
      simp [definitions_concat, s]
    constructor
    · rintro _ ⟨⟩
      rw [hlatest, hdefined]
      exact (hd.holds d rfl).children hname hx
    · rw [hcount]
      exact fun hnone => absurd (hd.rootless hnone) (Option.some_ne_none d)
    · exact fun hnone => absurd hnone (Option.some_ne_none x)
    · rw [hcount, hlatest, hsections]
      exact hwhole

theorem Traced.passage {ps : List Passage} {d d' : Option Descriptions} {p : Passage}
    (hd : Traced ps d) (h : readPassage d p = .ok d') : Traced (ps ++ [p]) d' := by
  cases p with
  | root tag =>
    obtain ⟨root, hroot, rfl⟩ := map_ok.mp h
    exact hd.root hroot
  | body tag isEmpty children => exact hd.section h
  | fault e => cases h

/-- What holds of the passages read so far and the descriptions read from them, passage
by passage, holds of a document in the end. -/
theorem ofNodes_traces {P : List Passage → Option Descriptions → Prop}
    (hstep : ∀ {ps d p d'}, P ps d → readPassage d p = .ok d' → P (ps ++ [p]) d')
    (hstart : P [] none) {nodes : List Node} {d : Descriptions} (h : ofNodes nodes = .ok d) :
    P (passagesOf nodes) (some d) := by
  obtain ⟨d', hnodes, h⟩ := bind_ok.mp h
  rw [readNodes_eq] at hnodes
  have htraced := foldlM_traces hstep hstart hnodes
  cases d' with
  | none => cases h
  | some x =>
    obtain rfl := pure_ok.mp h
    exact htraced

theorem ofNodes_traced {nodes : List Node} {d : Descriptions} (h : ofNodes nodes = .ok d) :
    Traced (passagesOf nodes) (some d) :=
  ofNodes_traces Traced.passage ⟨nofun, fun _ => rfl, fun _ => rfl, fun _ => rfl⟩ h

theorem load_traced {text : String} {d : Descriptions} (h : load text = .ok d) :
    Traced (passagesOf (Markup.nodes text)) (some d) :=
  ofNodes_traced h

/-- Loaded descriptions hold what the sections after the last `descriptions` tag
define, each definition once and in document order, and with one such tag those
are all sections there are. -/
theorem load_holds {text : String} {d : Descriptions} (h : load text = .ok d) :
    let ps := passagesOf (Markup.nodes text)
    Holds (definitions (sections (latest ps))) d ∧
      (ps.countP Passage.isRoot ≤ 1 →
        definitions (sections (latest ps)) = definitions (sections ps)) :=
  ⟨(load_traced h).holds d rfl, (load_traced h).whole⟩

def twoDescriptions : String :=
  "<descriptions version='1'><entities><entity name='a'/></entities></descriptions>"
    ++ "<descriptions version='1'><entities><entity name='a' mutable='true'/></entities></descriptions>"

theorem exists_load_twoDescriptions : ∃ d, load twoDescriptions = .ok d ∧
    d.entities.map (fun e => (e.name, e.isMutable)) = [("a", true)] := by
  have hload : ((load twoDescriptions).toOption.map fun d =>
      d.entities.map fun e => (e.name, e.isMutable)) = some [("a", true)] := by
    have htext : twoDescriptions = _ := Markup.append_eq_ofList rfl rfl
    rw [load, Markup.nodes_of_ofList htext]
    decide +kernel
  obtain ⟨d, hd, hentities⟩ := Option.map_eq_some_iff.mp hload
  exact ⟨d, toOption_eq_some.mp hd, hentities⟩

/-- The first entity is dropped, though two are defined. -/
theorem load_twoDescriptions :
    (definitions (sections (passagesOf (Markup.nodes twoDescriptions))) "entities").map
        (fun e => (e.tag.name, e.tag.attributes))
      = [("entity", [("name", "a")]), ("entity", [("name", "a"), ("mutable", "true")])] ∧
    ∃ d, load twoDescriptions = .ok d ∧
      d.entities.map (fun e => (e.name, e.isMutable)) = [("a", true)] := by
  refine ⟨?_, exists_load_twoDescriptions⟩
  have htext : twoDescriptions = _ := Markup.append_eq_ofList rfl rfl
  rw [Markup.nodes_of_ofList htext]
  decide +kernel

theorem load_holds_twoDescriptions :
    ∃ d, load twoDescriptions = .ok d ∧
      Holds (definitions (sections (latest (passagesOf (Markup.nodes twoDescriptions))))) d := by
  obtain ⟨d, hd, -⟩ := exists_load_twoDescriptions
  exact ⟨d, hd, (load_holds hd).1⟩

end EntityGen.Document
