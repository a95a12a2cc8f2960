import EntityGen.Proofs.Document.Sections
import EntityGen.Proofs.Markup.Content
import Mathlib.Logic.Relation

/-!
# The order of sections

A section touches the definitions of its own kind alone: it reads none of the
others and leaves them as they are. So sections that stand side by side define what
their contents define, taken together kind by kind, and neither their order among
those of other kinds nor their number matters.

A further `descriptions` element inside of the first starts afresh. Where sections
change sides of it, other definitions are dropped.
-/

namespace EntityGen.Document

open Markup (Node Tag)
open Schema (Descriptions)

-- ---------------------------------------------------------------------------
-- Kinds of sections
-- ---------------------------------------------------------------------------

inductive SectionKind where
  | versions
  | subtypes
  | entities
  | endpoints
  deriving DecidableEq

namespace SectionKind

def name : SectionKind → String
  | .versions => "versions"
  | .subtypes => "subtypes"
  | .entities => "entities"
  | .endpoints => "endpoints"

def read : SectionKind → Descriptions → Tag → List Node → Except Error Descriptions
  | .versions => readVersion
  | .subtypes => readSubtypeInto
  | .entities => readEntityInto
  | .endpoints => readEndpointInto

/-- The descriptions `d` with the definitions of this kind taken from `x`. -/
def replace (d x : Descriptions) : SectionKind → Descriptions
  | .versions => { d with versionHistory := x.versionHistory }
  | .subtypes => { d with subtypes := x.subtypes }
  | .entities => { d with entities := x.entities }
  | .endpoints => { d with endpoints := x.endpoints }

theorem sectionReader?_name (k : SectionKind) : sectionReader? k.name = some k.read := by
  cases k <;> rfl

theorem exists_of_isSome {name : String} (h : (sectionReader? name).isSome) :
    ∃ k : SectionKind, k.name = name := by
  unfold sectionReader? at h
  split at h
  · exact ⟨.versions, rfl⟩
  · exact ⟨.subtypes, rfl⟩
  · exact ⟨.entities, rfl⟩
  · exact ⟨.endpoints, rfl⟩
  · cases h

theorem name_injective {k k' : SectionKind} (h : k.name = k'.name) : k = k' := by
  cases k <;> cases k' <;> first | rfl | exact absurd h (by decide)

variable {k k' : SectionKind} {d x y : Descriptions}

@[simp] theorem replace_self : k.replace d d = d := by cases k <;> rfl

@[simp] theorem replace_replace : k.replace (k.replace d x) y = k.replace d y := by cases k <;> rfl

@[simp] theorem replace_from_replace : k.replace d (k.replace x y) = k.replace d y := by
  cases k <;> rfl

@[simp] theorem version_replace : (k.replace d x).version = d.version := by cases k <;> rfl

theorem replace_comm (h : k ≠ k') :
    k.replace (k'.replace d x) y = k'.replace (k.replace d y) x := by
  cases k <;> cases k' <;> first | rfl | exact absurd rfl h

theorem replace_from_other (h : k ≠ k') : k.replace d (k'.replace x y) = k.replace d x := by
  cases k <;> cases k' <;> first | rfl | exact absurd rfl h

theorem eq_of_replace (hversion : x.version = d.version)
    (h : ∀ k : SectionKind, k.replace d x = d) : x = d := by
  have hversions := congrArg (·.versionHistory) (h .versions)
  have hsubtypes := congrArg (·.subtypes) (h .subtypes)
  have hentities := congrArg (·.entities) (h .entities)
  have hendpoints := congrArg (·.endpoints) (h .endpoints)
  cases d
  cases x
  simp only [replace] at hversion hversions hsubtypes hentities hendpoints
  subst hversion hversions hsubtypes hentities hendpoints
  rfl

-- ---------------------------------------------------------------------------
-- What a section touches
-- ---------------------------------------------------------------------------

/-- An element of a section is read in the same way wherever the definitions of its kind
are the same, and all that changes is these. -/
theorem read_frame {d' : Descriptions} {tag : Tag} {children : List Node}
    (h : k.read d tag children = .ok d') (hx : k.replace x d = x) :
    k.read x tag children = .ok (k.replace x d') := by
  cases k with
  | versions =>
    have hsame : d.versionHistory = x.versionHistory := congrArg (·.versionHistory) hx
    simp only [read, readVersion, ite_throw_ok, bind_ok, pure_ok] at h ⊢
    obtain ⟨htag, version, hversion, _, hignore, rfl⟩ := h
    exact ⟨htag, version, hversion, _, hignore, by rw [replace, hsame]⟩
  | subtypes =>
    have hsame : d.subtypes = x.subtypes := congrArg (·.subtypes) hx
    simp only [read, readSubtypeInto, ite_throw_ok, bind_ok, pure_ok] at h ⊢
    obtain ⟨htag, s, hs, hnew, rfl⟩ := h
    rw [Descriptions.subtype?, hsame] at hnew
    exact ⟨htag, s, hs, hnew, by simp only [replace, Descriptions.addSubtype, hsame]⟩
  | entities =>
    have hsame : d.entities = x.entities := congrArg (·.entities) hx
    simp only [read, readEntityInto, ite_throw_ok, bind_ok, pure_ok] at h ⊢
    obtain ⟨htag, e, he, hnew, rfl⟩ := h
    rw [Descriptions.entity?, hsame] at hnew
    exact ⟨htag, e, he, hnew, by simp only [replace, Descriptions.addEntity, hsame]⟩
  | endpoints =>
    have hsame : d.endpoints = x.endpoints := congrArg (·.endpoints) hx
    simp only [read, readEndpointInto, ite_throw_ok, bind_ok, pure_ok] at h ⊢
    obtain ⟨htag, e, he, hnew, rfl⟩ := h
    rw [Descriptions.endpoint?, hsame] at hnew
    exact ⟨htag, e, he, hnew, by simp only [replace, Descriptions.addEndpoint, hsame]⟩

theorem foldElements_frame {nodes : List Node} {d' : Descriptions}
    (h : foldElements nodes d k.read = .ok d') (hx : k.replace x d = x) :
    foldElements nodes x k.read = .ok (k.replace x d') := by
  induction nodes generalizing d x with
  | nil =>
    obtain rfl := pure_ok.mp h
    exact pure_ok.mpr hx.symm
  | cons node nodes ih =>
    obtain ⟨d₁, hnode, hnodes⟩ := bind_ok.mp h
    cases node with
    | failed e => cases hnode
    | element tag isEmpty children =>
      have hrest := ih hnodes (x := k.replace x d₁) replace_replace
      rw [replace_replace] at hrest
      exact bind_ok.mpr ⟨k.replace x d₁, read_frame hnode hx, hrest⟩

theorem foldElements_eq_replace {nodes : List Node} {d' : Descriptions}
    (h : foldElements nodes d k.read = .ok d') : k.replace d d' = d' := by
  have hsame := foldElements_frame h replace_self
  rw [h] at hsame
  exact (Except.ok.inj hsame).symm

end SectionKind

-- ---------------------------------------------------------------------------
-- Contents
-- ---------------------------------------------------------------------------

def isNamed (name : String) : Node → Bool
  | .element tag _ _ => tag.name = name
  | .failed _ => false

/-- What is read of an element's inside. One written as one tag has none. -/
def content : Node → List Node
  | .element _ isEmpty children => if isEmpty then [] else children
  | .failed _ => []

def contents (name : String) (nodes : List Node) : List Node :=
  (nodes.filter (isNamed name)).flatMap content

theorem IsSection.not_root {node : Node} (h : IsSection node) : ¬isNamed "descriptions" node := by
  cases node with
  | failed e => exact h.elim
  | element tag isEmpty children =>
    intro hname
    have hname : tag.name = "descriptions" := by simpa [isNamed] using hname
    rw [IsSection, hname] at h
    cases h

theorem IsSection.exists_kind {node : Node} (h : IsSection node) :
    ∃ k : SectionKind, isNamed k.name node := by
  cases node with
  | failed e => exact h.elim
  | element tag isEmpty children =>
    obtain ⟨k, hk⟩ := SectionKind.exists_of_isSome h
    exact ⟨k, by simp [isNamed, hk]⟩

theorem isNamed_iff {k k' : SectionKind} {node : Node} (h : isNamed k.name node) :
    isNamed k'.name node ↔ k' = k := by
  cases node with
  | failed e => cases h
  | element tag isEmpty children =>
    have hname : tag.name = k.name := by simpa [isNamed] using h
    simp only [isNamed, hname, decide_eq_true_eq]
    exact ⟨fun h => SectionKind.name_injective h.symm, fun h => h ▸ rfl⟩

theorem readNode_section {k : SectionKind} {node : Node} (h : isNamed k.name node)
    (d : Descriptions) :
    readNode (some d) node = some <$> foldElements (content node) d k.read := by
  cases node with
  | failed e => cases h
  | element tag isEmpty children =>
    have hname : tag.name = k.name := by simpa [isNamed] using h
    have hroot : tag.name ≠ "descriptions" := by
      rw [hname]
      cases k <;> decide
    have hreader : sectionReader? tag.name = some k.read := hname ▸ k.sectionReader?_name
    rw [readNode, if_neg hroot]
    unfold readSection
    cases isEmpty <;> simp only [hreader] <;> rfl

/-- Sections side by side define what the contents of each kind define by themselves. -/
theorem readNodes_sections {nodes : List Node} (hnodes : ∀ node ∈ nodes, IsSection node)
    {d d' : Descriptions} :
    readNodes (some d) nodes = .ok (some d') ↔ d'.version = d.version ∧
      ∀ k : SectionKind, foldElements (contents k.name nodes) d k.read = .ok (k.replace d d') := by
  induction nodes generalizing d with
  | nil =>
    constructor
    · rintro ⟨⟩
      exact ⟨rfl, fun k => congrArg Except.ok SectionKind.replace_self.symm⟩
    · rintro ⟨hversion, h⟩
      have hsame := SectionKind.eq_of_replace hversion fun k => (Except.ok.inj (h k)).symm
      exact congrArg (fun d => Except.ok (some d)) hsame.symm
  | cons node nodes ih =>
    obtain ⟨hnode, hnodes⟩ := List.forall_mem_cons.mp hnodes
    obtain ⟨k₀, hk₀⟩ := hnode.exists_kind
    have hsame : contents k₀.name (node :: nodes) = content node ++ contents k₀.name nodes := by
      simp [contents, hk₀]
    have hother {k : SectionKind} (hk : k ≠ k₀) :
        contents k.name (node :: nodes) = contents k.name nodes := by
      have hnot : ¬isNamed k.name node := fun h => hk ((isNamed_iff hk₀).mp h)
      simp [contents, hnot]
    rw [readNodes, readNode_section hk₀]
    -- the definitions of the first section's kind go on from what it left, all others from `d`
    constructor
    · intro h
      obtain ⟨_, hmap, hrest⟩ := bind_ok.mp h
      obtain ⟨d₁, hfirst, rfl⟩ := map_ok.mp hmap
      obtain ⟨hversion, hkinds⟩ := (ih hnodes).mp hrest
      have hd₁ := SectionKind.foldElements_eq_replace hfirst
      refine ⟨by rw [hversion, ← hd₁, SectionKind.version_replace], fun k => ?_⟩
      by_cases hk : k = k₀
      · subst hk
        rw [hsame, foldElements, List.foldlM_append]
        refine bind_ok.mpr ⟨d₁, hfirst, ?_⟩
        have hrest := hkinds k
        rwa [← hd₁, SectionKind.replace_replace, hd₁] at hrest
      · have hagree : k.replace d d₁ = d := by
          rw [← hd₁, SectionKind.replace_from_other hk, SectionKind.replace_self]
        have hrest := SectionKind.foldElements_frame (hkinds k) hagree
        rwa [SectionKind.replace_from_replace, ← hother hk] at hrest
    · rintro ⟨hversion, hkinds⟩
      have hboth := hkinds k₀
      rw [hsame, foldElements, List.foldlM_append] at hboth
      obtain ⟨d₁, hfirst, hrest⟩ := bind_ok.mp hboth
      have hd₁ := SectionKind.foldElements_eq_replace hfirst
      refine bind_ok.mpr ⟨some d₁, map_ok.mpr ⟨d₁, hfirst, rfl⟩, (ih hnodes).mpr ⟨?_, fun k => ?_⟩⟩
      · rw [hversion, ← hd₁, SectionKind.version_replace]
      · by_cases hk : k = k₀
        · subst hk
          rwa [← hd₁, SectionKind.replace_replace, hd₁]
        · have hagree : k.replace d₁ d = d₁ := by
            rw [← hd₁, SectionKind.replace_comm hk, SectionKind.replace_self]
          have hrest := hkinds k
          rw [hother hk] at hrest
          have hmoved := SectionKind.foldElements_frame hrest hagree
          rwa [SectionKind.replace_from_replace] at hmoved

-- ---------------------------------------------------------------------------
-- Rearranged sections
-- ---------------------------------------------------------------------------

/-- A step of rearranging. Elements with no `descriptions` among them change places, those
of one kind in the order they had, or a section is split into several of its kind. -/
inductive Rearranges : List Node → List Node → Prop
  | moved {before part part' after : List Node} : (∀ node ∈ part, ¬isNamed "descriptions" node) →
    part.Perm part' → (∀ name, part'.filter (isNamed name) = part.filter (isNamed name)) →
    Rearranges (before ++ part ++ after) (before ++ part' ++ after)
  | split {before parts after : List Node} {node : Node} {k : SectionKind} :
    isNamed k.name node → (∀ part ∈ parts, isNamed k.name part) →
    parts.flatMap content = content node →
    Rearranges (before ++ [node] ++ after) (before ++ parts ++ after)

theorem isSection_of_isNamed {k : SectionKind} {node : Node} (h : isNamed k.name node) :
    IsSection node := by
  cases node with
  | failed e => cases h
  | element tag isEmpty children =>
    have hname : tag.name = k.name := by simpa [isNamed] using h
    rw [IsSection, hname, k.sectionReader?_name]
    rfl

/-- What is in the sections of each kind is all that counts. -/
theorem readNodes_of_contents {nodes nodes' : List Node} (hnodes : ∀ node ∈ nodes, IsSection node)
    (hnodes' : ∀ node ∈ nodes', IsSection node)
    (h : ∀ k : SectionKind, contents k.name nodes' = contents k.name nodes) {d d' : Descriptions} :
    readNodes (some d) nodes' = .ok (some d') ↔ readNodes (some d) nodes = .ok (some d') := by
  rw [readNodes_sections hnodes, readNodes_sections hnodes']
  simp only [h]

theorem contents_split {parts : List Node} {node : Node} {k : SectionKind}
    (hnode : isNamed k.name node) (hparts : ∀ part ∈ parts, isNamed k.name part)
    (hcontent : parts.flatMap content = content node) (k' : SectionKind) :
    contents k'.name parts = contents k'.name [node] := by
  by_cases hk : k' = k
  · subst hk
    rw [contents, List.filter_eq_self.mpr hparts, hcontent]
    simp [contents, hnode]
  · have hnone : ∀ part ∈ parts, ¬isNamed k'.name part :=
      fun part hpart h => hk ((isNamed_iff (hparts part hpart)).mp h)
    have hnot : ¬isNamed k'.name node := fun h => hk ((isNamed_iff hnode).mp h)
    rw [contents, List.filter_eq_nil_iff.mpr hnone]
    simp [contents, hnot]

theorem readNodes_append (d : Option Descriptions) (nodes nodes' : List Node) :
    readNodes d (nodes ++ nodes') = readNodes d nodes >>= fun d => readNodes d nodes' := by
  induction nodes generalizing d with
  | nil => rfl
  | cons node nodes ih =>
    rw [List.cons_append, readNodes, readNodes, bind_assoc]
    exact bind_congr fun d => ih d

theorem readNodes_isSome {nodes : List Node} {d : Descriptions} {r : Option Descriptions}
    (h : readNodes (some d) nodes = .ok r) : r.isSome := by
  rw [readNodes_eq] at h
  refine foldlM_traces (P := fun (_ : List Passage) (d : Option Descriptions) => d.isSome) ?_ rfl h
  intro done x p x' hx hp
  obtain ⟨x, rfl⟩ := Option.isSome_iff_exists.mp hx
  cases p with
  | root tag =>
    obtain ⟨root, -, rfl⟩ := map_ok.mp hp
    rfl
  | body tag isEmpty children =>
    simp only [readPassage, readSection] at hp
    split at hp
    · cases hp
    · cases hp
    · cases hp
      rfl
    · obtain ⟨y, -, rfl⟩ := map_ok.mp hp
      rfl
  | fault e => cases hp

theorem readNodes_around {part part' : List Node}
    (h : ∀ d d', readNodes (some d) part' = .ok (some d') ↔ readNodes (some d) part = .ok (some d'))
    (before after : List Node) {d d' : Descriptions} :
    readNodes (some d) (before ++ part' ++ after) = .ok (some d') ↔
      readNodes (some d) (before ++ part ++ after) = .ok (some d') := by
  simp only [readNodes_append, bind_ok]
  refine exists_congr fun r => and_congr_left fun _ => exists_congr fun s =>
    and_congr_right fun hs => ?_
  obtain ⟨x, rfl⟩ := Option.isSome_iff_exists.mp (readNodes_isSome hs)
  constructor
  · intro hpart
    obtain ⟨y, rfl⟩ := Option.isSome_iff_exists.mp (readNodes_isSome hpart)
    exact (h x y).mp hpart
  · intro hpart
    obtain ⟨y, rfl⟩ := Option.isSome_iff_exists.mp (readNodes_isSome hpart)
    exact (h x y).mpr hpart

theorem isSection_of_readNode {node : Node} {d : Descriptions} {r : Option Descriptions}
    (hname : ¬isNamed "descriptions" node) (h : readNode (some d) node = .ok r) :
    IsSection node ∧ r.isSome := by
  cases node with
  | failed e => cases h
  | element tag isEmpty children =>
    rw [readNode, if_neg (by simpa [isNamed] using hname)] at h
    unfold readSection at h
    split at h
    · cases h
    · cases h
    · next hreader =>
      cases h
      exact ⟨by simp [IsSection, hreader], rfl⟩
    · next hreader =>
      obtain ⟨x, -, rfl⟩ := map_ok.mp h
      exact ⟨by simp [IsSection, hreader], rfl⟩

/-- Nothing but `descriptions` elements and sections can be read. -/
theorem isSection_of_readNodes {nodes : List Node} {d d' : Descriptions}
    (hnodes : ∀ node ∈ nodes, ¬isNamed "descriptions" node)
    (h : readNodes (some d) nodes = .ok (some d')) : ∀ node ∈ nodes, IsSection node := by
  induction nodes generalizing d with
  | nil => simp
  | cons node nodes ih =>
    obtain ⟨hname, hnames⟩ := List.forall_mem_cons.mp hnodes
    obtain ⟨r, hnode, hrest⟩ := bind_ok.mp h
    obtain ⟨hsection, hsome⟩ := isSection_of_readNode hname hnode
    obtain ⟨x, rfl⟩ := Option.isSome_iff_exists.mp hsome
    exact List.forall_mem_cons.mpr ⟨hsection, ih hnames hrest⟩

/-- Elements that change places, those of one kind in the order they had, are read alike:
they are sections as soon as they can be read at all. -/
theorem readNodes_moved {part part' : List Node}
    (hnames : ∀ node ∈ part, ¬isNamed "descriptions" node) (hperm : part.Perm part')
    (hkinds : ∀ name, part'.filter (isNamed name) = part.filter (isNamed name))
    (d d' : Descriptions) :
    readNodes (some d) part' = .ok (some d') ↔ readNodes (some d) part = .ok (some d') := by
  have hsame (hsections : ∀ node ∈ part, IsSection node) :
      readNodes (some d) part' = .ok (some d') ↔ readNodes (some d) part = .ok (some d') :=
    readNodes_of_contents hsections (fun node hnode => hsections node (hperm.mem_iff.mpr hnode))
      fun k => by rw [contents, hkinds, contents]
  have hnames' : ∀ node ∈ part', ¬isNamed "descriptions" node :=
    fun node hnode => hnames node (hperm.mem_iff.mpr hnode)
  constructor
  · intro h
    have hsections := isSection_of_readNodes hnames' h
    exact (hsame fun node hnode => hsections node (hperm.mem_iff.mp hnode)).mp h
  · exact fun h => (hsame (isSection_of_readNodes hnames h)).mpr h

theorem Rearranges.readNodes {nodes nodes' : List Node} (h : Rearranges nodes nodes')
    {d d' : Descriptions} :
    readNodes (some d) nodes' = .ok (some d') ↔ readNodes (some d) nodes = .ok (some d') := by
  cases h with
  | @moved before part part' after hnames hperm hkinds =>
    exact readNodes_around (readNodes_moved hnames hperm hkinds) before after
  | @split before parts after node k hnode hparts hcontent =>
    refine readNodes_around (fun d d' => ?_) before after
    have hsection : ∀ x ∈ [node], IsSection x :=
      List.forall_mem_singleton.mpr (isSection_of_isNamed hnode)
    have hsections : ∀ x ∈ parts, IsSection x := fun x hx => isSection_of_isNamed (hparts x hx)
    exact readNodes_of_contents hsection hsections (contents_split hnode hparts hcontent)

-- ---------------------------------------------------------------------------
-- Documents
-- ---------------------------------------------------------------------------

theorem ofNodes_ok {nodes : List Node} {d : Descriptions} :
    ofNodes nodes = .ok d ↔ readNodes none nodes = .ok (some d) := by
  rw [ofNodes, bind_ok]
  constructor
  · rintro ⟨r, hnodes, hsome⟩
    cases r with
    | none => cases hsome
    | some x => rwa [← pure_ok.mp hsome]
  · exact fun h => ⟨some d, h, rfl⟩

theorem ofNodes_root {tag : Tag} {isEmpty : Bool} {children : List Node} {d : Descriptions} :
    ofNodes [.element tag isEmpty children] = .ok d ↔ tag.name = "descriptions" ∧
      ∃ root, readRoot tag = .ok root ∧ readNodes (some root) children = .ok (some d) := by
  have hsingle : readNodes none [.element tag isEmpty children]
      = readNode none (.element tag isEmpty children) := bind_pure _
  rw [ofNodes_ok, hsingle, readNode]
  split
  · next hname =>
    rw [bind_ok]
    exact ⟨fun h => ⟨hname, h⟩, fun h => h.2⟩
  · next hname =>
    refine ⟨fun h => ?_, fun h => absurd h.1 hname⟩
    -- without descriptions nothing but an empty section is accepted, and it makes none
    unfold readSection at h
    split at h
    case h_4 heq _ => cases heq
    all_goals cases h

theorem ofNodes_rearranged {tag : Tag} {isEmpty isEmpty' : Bool} {children children' : List Node}
    (h : Relation.ReflTransGen Rearranges children children') {d : Descriptions} :
    ofNodes [.element tag isEmpty' children'] = .ok d ↔
      ofNodes [.element tag isEmpty children] = .ok d := by
  rw [ofNodes_root, ofNodes_root]
  refine and_congr_right fun _ => exists_congr fun root => and_congr_right fun _ => ?_
  induction h with
  | refl => rfl
  | tail _ hstep ih => exact hstep.readNodes.trans ih

/-- Documents whose elements differ only in how the sections inside of the one at the top
level are arranged are accepted alike, with the same descriptions. -/
theorem load_rearranged {text text' : String} {tag : Tag} {isEmpty isEmpty' : Bool}
    {children children' : List Node} (htext : Markup.nodes text = [.element tag isEmpty children])
    (htext' : Markup.nodes text' = [.element tag isEmpty' children'])
    (h : Relation.ReflTransGen Rearranges children children') (d : Descriptions) :
    load text' = .ok d ↔ load text = .ok d := by
  rw [load, load, htext, htext']
  exact ofNodes_rearranged h

def entitiesTogether : String :=
  "<descriptions version='2'><versions><version name='1'/></versions>"
    ++ "<entities><entity name='a'/><entity name='b'/></entities></descriptions>"

def entitiesApart : String :=
  "<descriptions version='2'><entities><entity name='a'/></entities>"
    ++ "<versions><version name='1'/></versions><entities><entity name='b'/></entities>"
    ++ "</descriptions>"

def aroundRoot : String :=
  "<descriptions version='1'><versions><version name='1'/></versions><descriptions version='2'/>"
    ++ "<entities><entity name='a'/></entities></descriptions>"

def acrossRoot : String :=
  "<descriptions version='1'><entities><entity name='a'/></entities><descriptions version='2'/>"
    ++ "<versions><version name='1'/></versions></descriptions>"

def rootTag (version : String) : Tag :=
  { name := "descriptions", attributes := [("version", version)] }

def versionsSection : Node :=
  .element { name := "versions" } false
    [.element { name := "version", attributes := [("name", "1")] } true []]

def entitiesSection (names : List String) : Node :=
  .element { name := "entities" } false
    (names.map fun name => .element { name := "entity", attributes := [("name", name)] } true [])

theorem nodes_entitiesTogether : Markup.nodes entitiesTogether =
    [.element (rootTag "2") false [versionsSection, entitiesSection ["a", "b"]]] := by
  have htext : entitiesTogether = _ := Markup.append_eq_ofList rfl rfl
  rw [Markup.nodes_of_ofList htext]
  rfl

theorem nodes_entitiesApart : Markup.nodes entitiesApart =
    [.element (rootTag "2") false
      [entitiesSection ["a"], versionsSection, entitiesSection ["b"]]] := by
  have htext : entitiesApart = _ :=
    Markup.append_eq_ofList (Markup.append_eq_ofList rfl rfl) rfl
  rw [Markup.nodes_of_ofList htext]
  rfl

theorem nodes_aroundRoot : Markup.nodes aroundRoot =
    [.element (rootTag "1") false
      [versionsSection, .element (rootTag "2") true [], entitiesSection ["a"]]] := by
  have htext : aroundRoot = _ := Markup.append_eq_ofList rfl rfl
  rw [Markup.nodes_of_ofList htext]
  rfl

theorem nodes_acrossRoot : Markup.nodes acrossRoot =
    [.element (rootTag "1") false
      [entitiesSection ["a"], .element (rootTag "2") true [], versionsSection]] := by
  have htext : acrossRoot = _ := Markup.append_eq_ofList rfl rfl
  rw [Markup.nodes_of_ofList htext]
  rfl

theorem load_rearranged_entitiesApart : ∃ d, load entitiesTogether = .ok d ∧
    d.entities.map (·.name) = ["a", "b"] ∧ load entitiesApart = .ok d := by
  have hsplit : Rearranges ([versionsSection] ++ [entitiesSection ["a", "b"]] ++ [])
      ([versionsSection] ++ [entitiesSection ["a"], entitiesSection ["b"]] ++ []) := by
    have hname (names : List String) : isNamed SectionKind.entities.name (entitiesSection names) :=
      rfl
    exact .split (hname _) (by simp [hname]) rfl
  have hmoved : Rearranges
      ([] ++ [versionsSection, entitiesSection ["a"]] ++ [entitiesSection ["b"]])
      ([] ++ [entitiesSection ["a"], versionsSection] ++ [entitiesSection ["b"]]) := by
    refine .moved (by decide) (.swap _ _ _) fun name => ?_
    by_cases hname : name = "versions"
    · subst hname
      rfl
    · simp [List.filter_cons, isNamed, versionsSection, entitiesSection, Ne.symm hname]
  obtain ⟨d, hd, hentities⟩ : ∃ d, load entitiesTogether = .ok d ∧
      d.entities.map (·.name) = ["a", "b"] := by
    rw [load, nodes_entitiesTogether]
    exact exists_ok_of_decide (by decide +kernel)
  have hsame := load_rearranged nodes_entitiesTogether nodes_entitiesApart
    (.tail (.single hsplit) hmoved) d
  exact ⟨d, hd, hentities, hsame.mpr hd⟩

/-- The sections are the same and those of one kind are in the same order, though other
definitions are dropped. -/
theorem load_acrossRoot :
    (∃ tag sections sections', Markup.nodes aroundRoot = [.element tag false sections] ∧
      Markup.nodes acrossRoot = [.element tag false sections'] ∧ sections.Perm sections' ∧
      ∀ name, sections'.filter (isNamed name) = sections.filter (isNamed name)) ∧
    (∃ d, load aroundRoot = .ok d ∧ d.versionHistory = [] ∧ d.entities.map (·.name) = ["a"]) ∧
    ∃ d, load acrossRoot = .ok d ∧ d.versionHistory = ["1"] ∧ d.entities.map (·.name) = [] := by
  refine ⟨⟨_, _, _, nodes_aroundRoot, nodes_acrossRoot, ?_, fun name => ?_⟩, ?_, ?_⟩
  · exact (List.reverse_perm _).symm
  · by_cases hversions : name = "versions"
    · subst hversions
      rfl
    by_cases hentities : name = "entities"
    · subst hentities
      rfl
    simp [List.filter_cons, isNamed, versionsSection, entitiesSection, Ne.symm hversions,
      Ne.symm hentities]
  · rw [load, nodes_aroundRoot]
    exact exists_ok_of_decide (by decide +kernel)
  · rw [load, nodes_acrossRoot]
    exact exists_ok_of_decide (by decide +kernel)

-- ---------------------------------------------------------------------------
-- Texts
-- ---------------------------------------------------------------------------

def IsSectionText (text : List Char) : Prop :=
  Markup.IsContent text ∧ ∃ node, Markup.contentNodes text = [node] ∧ IsSection node

def hasSection (name : String) (text : List Char) : Bool :=
  (Markup.contentNodes text).any (isNamed name)

theorem filter_flatMap_contentNodes {texts : List (List Char)}
    (h : ∀ text ∈ texts, IsSectionText text) (name : String) :
    (texts.flatMap Markup.contentNodes).filter (isNamed name)
      = (texts.filter (hasSection name)).flatMap Markup.contentNodes := by
  induction texts with
  | nil => rfl
  | cons text texts ih =>
    obtain ⟨⟨-, node, hnode, -⟩, htexts⟩ := List.forall_mem_cons.mp h
    rw [List.flatMap_cons, List.filter_append, ih htexts, List.filter_cons, hasSection, hnode]
    cases hname : isNamed name node <;> simp [hname, hnode]

/-- The texts of sections can be put in another order in the element that holds them, as
long as those of one kind keep theirs. -/
theorem load_movedTexts {opening blanks : List Char} (h : Markup.IsEnclosure opening blanks)
    {texts texts' : List (List Char)} (htexts : ∀ text ∈ texts, IsSectionText text)
    (hperm : texts.Perm texts')
    (hkinds : ∀ name, texts'.filter (hasSection name) = texts.filter (hasSection name))
    (d : Descriptions) : load (Markup.enclosed opening blanks texts') = .ok d ↔
      load (Markup.enclosed opening blanks texts) = .ok d := by
  have htexts' : ∀ text ∈ texts', IsSectionText text :=
    fun text htext => htexts text (hperm.mem_iff.mpr htext)
  rw [load, load, Markup.nodes_enclosed h fun text htext => (htexts text htext).1,
    Markup.nodes_enclosed h fun text htext => (htexts' text htext).1]
  refine ofNodes_rearranged (.single ?_)
  have hnames : ∀ node ∈ texts.flatMap Markup.contentNodes, ¬isNamed "descriptions" node := by
    intro node hnode
    obtain ⟨text, htext, hnode⟩ := List.mem_flatMap.mp hnode
    obtain ⟨-, node', hnode', hsection⟩ := htexts text htext
    rw [hnode'] at hnode
    exact List.mem_singleton.mp hnode ▸ hsection.not_root
  have hmoved : Rearranges ([] ++ texts.flatMap Markup.contentNodes ++ [])
      ([] ++ texts'.flatMap Markup.contentNodes ++ []) := by
    refine .moved hnames (hperm.flatMap_right _) fun name => ?_
    rw [filter_flatMap_contentNodes htexts, filter_flatMap_contentNodes htexts', hkinds]
  simpa using hmoved

end EntityGen.Document
