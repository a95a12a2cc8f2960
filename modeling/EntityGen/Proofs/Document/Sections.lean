import EntityGen.Proofs.Document.Definitions

/-!
# Where sections stand

An accepted document consists of `descriptions` tags and sections, and a section
with content comes after some such tag. Nothing is asked of their nesting: the
document has the shape of one element with its sections as children exactly if it
has one element at the top level and one `descriptions` tag in all.
-/

namespace EntityGen.Document

open Markup (Node Tag)
open Schema (Descriptions)

-- ---------------------------------------------------------------------------
-- Passages
-- ---------------------------------------------------------------------------

namespace Passage

def IsKnown : Passage → Prop
  | .root _ => True
  | .body tag _ _ => (sectionReader? tag.name).isSome
  | .fault _ => False

def hasContent : Passage → Bool
  | .body _ isEmpty _ => !isEmpty
  | _ => false

end Passage

/-- What reading some passages without a fault says about their order. -/
structure Placed (ps : List Passage) (d : Option Descriptions) : Prop where
  known : ∀ p ∈ ps, p.IsKnown
  rooted : d.isSome ↔ ∃ p ∈ ps, p.isRoot
  preceded {before after : List Passage} {p : Passage} (h : ps = before ++ p :: after)
    (hcontent : p.hasContent) : ∃ q ∈ before, q.isRoot

theorem Placed.concat {ps : List Passage} {d d' : Option Descriptions} {p : Passage}
    (hd : Placed ps d) (hknown : p.IsKnown) (hrooted : d'.isSome ↔ d.isSome ∨ p.isRoot)
    (hcontent : p.hasContent → d.isSome) : Placed (ps ++ [p]) d' where
  known := by
    rw [List.forall_mem_append]
    exact ⟨hd.known, by simpa using hknown⟩
  rooted := by
    rw [hrooted, hd.rooted]
    simp [or_and_right, exists_or]
  preceded {before after q} h hq := by
    rcases List.eq_nil_or_concat after with rfl | ⟨after, last, rfl⟩
    · obtain ⟨rfl, hlast⟩ := List.append_inj' h rfl
      obtain rfl : p = q := by simpa using hlast
      exact hd.rooted.mp (hcontent hq)
    · replace h : ps ++ [p] = (before ++ q :: after) ++ [last] := by simpa using h
      obtain ⟨hbefore, -⟩ := List.append_inj' h rfl
      exact hd.preceded hbefore hq

theorem Placed.passage {ps : List Passage} {d d' : Option Descriptions} {p : Passage}
    (hd : Placed ps d) (h : readPassage d p = .ok d') : Placed (ps ++ [p]) d' := by
  cases p with
  | root tag =>
    obtain ⟨root, -, rfl⟩ := map_ok.mp h
    exact hd.concat trivial (by simp [Passage.isRoot]) (by simp [Passage.hasContent])
  | body tag isEmpty children =>
    replace h : readSection d tag isEmpty children = .ok d' := h
    unfold readSection at h
    split at h
    · cases h
    · cases h
    · next hname =>
      cases h
      exact hd.concat (by simp [Passage.IsKnown, hname]) (by simp [Passage.isRoot])
        (by simp [Passage.hasContent])
    · next hname =>
      obtain ⟨x, -, rfl⟩ := map_ok.mp h
      exact hd.concat (by simp [Passage.IsKnown, hname]) (by simp) (by simp)
  | fault e => cases h

theorem ofNodes_placed {nodes : List Node} {d : Descriptions} (h : ofNodes nodes = .ok d) :
    Placed (passagesOf nodes) (some d) :=
  ofNodes_traces Placed.passage ⟨nofun, by simp, by simp⟩ h

-- ---------------------------------------------------------------------------
-- The shape of a document
-- ---------------------------------------------------------------------------

def IsSection : Node → Prop
  | .element tag _ _ => (sectionReader? tag.name).isSome
  | .failed _ => False

/-- The document is one `descriptions` element, and its children are sections. -/
def InOneRoot (nodes : List Node) : Prop :=
  ∃ tag isEmpty children, nodes = [.element tag isEmpty children] ∧ tag.name = "descriptions" ∧
    ∀ node ∈ children, IsSection node

theorem mem_passagesOf {p : Passage} {nodes : List Node} :
    p ∈ passagesOf nodes ↔ ∃ node ∈ nodes, p ∈ passages node := by
  induction nodes with
  | nil => simp [passagesOf]
  | cons node nodes ih => simp [passagesOf, ih]

theorem isSection_iff {node : Node} (hknown : ∀ p ∈ passages node, p.IsKnown) :
    IsSection node ↔ ∀ p ∈ passages node, ¬p.isRoot := by
  cases node with
  | failed e => exact absurd (hknown _ List.mem_cons_self) id
  | element tag isEmpty children =>
    rw [passages] at hknown ⊢
    split
    · next hname =>
      refine ⟨fun h => ?_, fun h => absurd rfl (h (.root tag) List.mem_cons_self)⟩
      rw [IsSection, hname] at h
      cases h
    · next hname =>
      rw [if_neg hname] at hknown
      have hsection : (sectionReader? tag.name).isSome := hknown _ List.mem_cons_self
      simp [IsSection, hsection, Passage.isRoot]

theorem inOneRoot_iff {nodes : List Node} (hknown : ∀ p ∈ passagesOf nodes, p.IsKnown) :
    InOneRoot nodes ↔ nodes.length = 1 ∧ (passagesOf nodes).countP Passage.isRoot = 1 := by
  have hchildren {children : List Node} (hknown : ∀ p ∈ passagesOf children, p.IsKnown) :
      (∀ node ∈ children, IsSection node) ↔ (passagesOf children).countP Passage.isRoot = 0 := by
    simp only [mem_passagesOf] at hknown
    rw [List.countP_eq_zero]
    simp only [mem_passagesOf]
    constructor
    · rintro h p ⟨node, hnode, hp⟩
      exact (isSection_iff fun p hp => hknown p ⟨node, hnode, hp⟩).mp (h node hnode) p hp
    · intro h node hnode
      exact (isSection_iff fun p hp => hknown p ⟨node, hnode, hp⟩).mpr
        fun p hp => h p ⟨node, hnode, hp⟩
  have hroot {tag : Tag} {isEmpty : Bool} {children : List Node} (hname : tag.name = "descriptions") :
      passagesOf [.element tag isEmpty children] = .root tag :: passagesOf children := by
    simp [passagesOf, passages, hname]
  constructor
  · rintro ⟨tag, isEmpty, children, rfl, hname, hsections⟩
    rw [hroot hname] at hknown ⊢
    rw [hchildren (List.forall_mem_cons.mp hknown).2] at hsections
    exact ⟨rfl, by rw [List.countP_cons_of_pos rfl, hsections]⟩
  · rintro ⟨hlength, hcount⟩
    obtain ⟨node, rfl⟩ := List.length_eq_one_iff.mp hlength
    cases node with
    | failed e => exact (hknown (.fault e) List.mem_cons_self).elim
    | element tag isEmpty children =>
      by_cases hname : tag.name = "descriptions"
      · rw [hroot hname] at hknown hcount
        refine ⟨tag, isEmpty, children, rfl, hname, ?_⟩
        rw [List.countP_cons_of_pos rfl] at hcount
        rw [hchildren (List.forall_mem_cons.mp hknown).2]
        exact Nat.succ.inj hcount
      · simp [passagesOf, passages, hname, Passage.isRoot] at hcount

/-- An accepted document consists of `descriptions` tags, at least one, and of sections,
and a section with content comes after such a tag. The sections are the children of one
root exactly if there is one element at the top level and one `descriptions` tag. -/
theorem load_placed {text : String} {d : Descriptions} (h : load text = .ok d) :
    let ps := passagesOf (Markup.nodes text)
    (∀ p ∈ ps, p.IsKnown) ∧ (∃ p ∈ ps, p.isRoot) ∧
      (∀ before p after, ps = before ++ p :: after → p.hasContent → ∃ q ∈ before, q.isRoot) ∧
      (InOneRoot (Markup.nodes text) ↔
        (Markup.nodes text).length = 1 ∧ ps.countP Passage.isRoot = 1) := by
  have hplaced := ofNodes_placed h
  exact ⟨hplaced.known, hplaced.rooted.mp rfl, fun _ _ _ => hplaced.preceded,
    inOneRoot_iff hplaced.known⟩

/-- Sections stand before, after and apart from one `descriptions` element, and another
such element inside it. -/
def scatteredSections : String :=
  "<entities/><descriptions version='1'><descriptions version='2'/></descriptions>"
    ++ "<entities><entity name='a'/></entities>"

theorem exists_load_scatteredSections :
    ∃ d, load scatteredSections = .ok d ∧ d.version = "2" ∧ d.entities.map (·.name) = ["a"] := by
  have htext : scatteredSections = _ := Markup.append_eq_ofList rfl rfl
  rw [load, Markup.nodes_of_ofList htext]
  exact exists_ok_of_decide (by decide +kernel)

theorem length_nodes_scatteredSections : (Markup.nodes scatteredSections).length = 3 := by
  have htext : scatteredSections = _ := Markup.append_eq_ofList rfl rfl
  rw [Markup.nodes_of_ofList htext]
  decide +kernel

theorem load_scatteredSections :
    (∃ d, load scatteredSections = .ok d ∧ d.version = "2" ∧ d.entities.map (·.name) = ["a"]) ∧
      ¬InOneRoot (Markup.nodes scatteredSections) := by
  refine ⟨exists_load_scatteredSections, ?_⟩
  rintro ⟨tag, isEmpty, children, hnodes, -⟩
  have hlength := length_nodes_scatteredSections
  rw [hnodes] at hlength
  cases hlength

theorem load_placed_scatteredSections :
    (∀ p ∈ passagesOf (Markup.nodes scatteredSections), p.IsKnown) ∧
      ∃ p ∈ passagesOf (Markup.nodes scatteredSections), p.isRoot := by
  obtain ⟨d, hd, -⟩ := exists_load_scatteredSections
  obtain ⟨hknown, hrooted, -⟩ := load_placed hd
  exact ⟨hknown, hrooted⟩

end EntityGen.Document
