import EntityGen.Document.Load
import EntityGen.Proofs.Markup.OpenTags

/-!
# Truncated documents

Readers find every fault in the tree of a document, so a document that ends
within a tag is refused. One that ends between tags is not: it says what it
would say with the end tags that it lacks.
-/

namespace EntityGen.Document

open Markup (Tag Node IsTagName faultIn? openTags endTags events)
open Schema (Descriptions)

-- ---------------------------------------------------------------------------
-- Parts
-- ---------------------------------------------------------------------------

theorem ignore_ok {children : List Node} {u : Unit} :
    ignore children = .ok u ↔ faultIn? children = none := by
  unfold ignore
  split
  · next h => simp [h]
  · next h => simp [h]

theorem foldElements_faultless {α : Type} {step : α → Tag → List Node → Except Error α}
    (hstep : ∀ {a tag children b}, step a tag children = .ok b → faultIn? children = none)
    {children : List Node} {a b : α} (h : foldElements children a step = .ok b) :
    faultIn? children = none := by
  induction children generalizing a with
  | nil => rfl
  | cons node nodes ih =>
    obtain ⟨a', hnode, hnodes⟩ := bind_ok.mp h
    cases node with
    | failed e => cases hnode
    | element tag isEmpty children =>
      rw [faultIn?, Node.fault?, hstep hnode, ih hnodes]
      rfl

theorem readContributors_faultless {children : List Node} {contributors : List Schema.Contributor}
    (h : readContributors children = .ok contributors) : faultIn? children = none := by
  refine foldElements_faultless ?_ h
  intro contributors tag children contributors' hstep
  simp only [ite_throw_ok, bind_ok, ignore_ok] at hstep
  obtain ⟨_, _, _, _, hignored, _⟩ := hstep
  exact hignored

theorem readEntity_faultless {tag : Tag} {children : List Node} {e : Schema.Entity}
    (h : readEntity tag children = .ok e) : faultIn? children = none := by
  simp only [readEntity, bind_ok] at h
  obtain ⟨_, _, _, _, h⟩ := h
  refine foldElements_faultless ?_ h
  intro e tag children e' hpart
  unfold readEntityPart at hpart
  split at hpart
  · simp only [readIdentifier, bind_ok] at hpart
    obtain ⟨_, ⟨_, _, _, hcontributors, _⟩, _⟩ := hpart
    exact readContributors_faultless hcontributors
  · simp only [ite_throw_ok, bind_ok, ignore_ok] at hpart
    obtain ⟨_, _, _, _, hignored, _⟩ := hpart
    exact hignored
  · cases hpart

theorem readSubtype_faultless {tag : Tag} {children : List Node} {s : Schema.Subtype}
    (h : readSubtype tag children = .ok s) : faultIn? children = none := by
  simp only [readSubtype, bind_ok] at h
  obtain ⟨_, _, items, h, _⟩ := h
  refine foldElements_faultless ?_ h
  intro items tag children items' hread
  unfold ItemLists.read at hread
  split at hread <;> simp only [bind_ok, ignore_ok] at hread
  · obtain ⟨_, _, _, _, _, hignored, _⟩ := hread
    exact hignored
  · obtain ⟨_, _, _, _, _, hignored, _⟩ := hread
    exact hignored
  · obtain ⟨_, _, _, _, _, hignored, _⟩ := hread
    exact hignored
  · obtain ⟨_, _, _, hignored, _⟩ := hread
    exact hignored

theorem readEndpoint_faultless {tag : Tag} {children : List Node} {e : Schema.Endpoint}
    (h : readEndpoint tag children = .ok e) : faultIn? children = none := by
  simp only [readEndpoint, bind_ok] at h
  obtain ⟨_, _, h⟩ := h
  refine foldElements_faultless ?_ h
  intro e tag children e' hpart
  unfold readEndpointPart at hpart
  split at hpart <;> simp only [bind_ok, ignore_ok] at hpart
  · obtain ⟨_, _, _, _, _, hignored, _⟩ := hpart
    exact hignored
  · obtain ⟨_, _, _, _, _, hignored, _⟩ := hpart
    exact hignored
  · obtain ⟨_, _, _, hignored, _⟩ := hpart
    exact hignored

-- ---------------------------------------------------------------------------
-- Documents
-- ---------------------------------------------------------------------------

theorem sectionReader_faultless {name : String}
    {read : Descriptions → Tag → List Node → Except Error Descriptions}
    (hname : sectionReader? name = some read) {d d' : Descriptions} {tag : Tag}
    {children : List Node} (h : read d tag children = .ok d') : faultIn? children = none := by
  unfold sectionReader? at hname
  split at hname <;> cases hname
  · simp only [readVersion, ite_throw_ok, bind_ok, ignore_ok] at h
    obtain ⟨_, _, _, _, hignored, _⟩ := h
    exact hignored
  · simp only [readSubtypeInto, ite_throw_ok, bind_ok] at h
    obtain ⟨_, s, hs, _⟩ := h
    exact readSubtype_faultless hs
  · simp only [readEntityInto, ite_throw_ok, bind_ok] at h
    obtain ⟨_, e, he, _⟩ := h
    exact readEntity_faultless he
  · simp only [readEndpointInto, ite_throw_ok, bind_ok] at h
    obtain ⟨_, e, he, _⟩ := h
    exact readEndpoint_faultless he

mutual
theorem readNode_faultless {d d' : Option Descriptions} {node : Node} (hnode : node.Closed)
    (h : readNode d node = .ok d') : node.fault? = none := by
  match node with
  | .failed e => cases h
  | .element tag isEmpty children =>
    rw [readNode] at h
    split at h
    · obtain ⟨root, _, h⟩ := bind_ok.mp h
      exact readNodes_faultless hnode.children h
    · unfold readSection at h
      split at h
      · cases h
      · cases h
      · exact hnode.fault?_of_empty
      · next hname =>
        obtain ⟨x, hx, _⟩ := map_ok.mp h
        exact foldElements_faultless (sectionReader_faultless hname) hx

theorem readNodes_faultless {d d' : Option Descriptions} {nodes : List Node}
    (hnodes : ∀ node ∈ nodes, node.Closed) (h : readNodes d nodes = .ok d') :
    faultIn? nodes = none := by
  match nodes with
  | [] => rfl
  | node :: nodes =>
    obtain ⟨hnode, hnodes⟩ := List.forall_mem_cons.mp hnodes
    obtain ⟨d₁, h₁, h⟩ := bind_ok.mp h
    rw [faultIn?, readNode_faultless hnode h₁, readNodes_faultless hnodes h]
    rfl
end

theorem load_faultless {text : String} {d : Descriptions} (h : load text = .ok d) :
    ∀ error, .failed error ∉ events text.toList := by
  intro error herror
  obtain ⟨d', hnodes, -⟩ := bind_ok.mp h
  have hnone : faultIn? (Markup.nodes text) = none :=
    readNodes_faultless (Markup.nodes_closed text) hnodes
  have hsome : (faultIn? (Markup.nodes text)).isSome := Markup.faultIn?_nodesFrom herror [] []
  simp [hnone] at hsome

/-- A document is accepted if it ends between tags and would be accepted with
the end tags that it lacks. It says the same then. -/
theorem load_ok_iff_closed {text : String} {d : Descriptions}
    (hnames : ∀ tag ∈ openTags [] (events text.toList), IsTagName tag.name) :
    load text = .ok d ↔
      (∀ error, .failed error ∉ events text.toList) ∧
      load (text ++ String.ofList (endTags (openTags [] (events text.toList)))) = .ok d := by
  have hclosed (hfaultless : ∀ error, .failed error ∉ events text.toList) :
      load (text ++ String.ofList (endTags (openTags [] (events text.toList)))) = load text := by
    rw [load, load, Markup.nodes, Markup.nodes, String.toList_append, String.toList_ofList,
      Markup.nodes_append_endTags hfaultless hnames]
  constructor
  · intro h
    have hfaultless := load_faultless h
    exact ⟨hfaultless, (hclosed hfaultless).trans h⟩
  · rintro ⟨hfaultless, h⟩
    exact (hclosed hfaultless).symm.trans h

def cutEntity : String :=
  "<descriptions version='1'><entities><entity name='a'><property name='p' type='int'>"

theorem openTags_cutEntity : (openTags [] (events cutEntity.toList)).map Tag.name
    = ["property", "entity", "entities", "descriptions"] := by
  have htext : cutEntity = String.ofList _ := rfl
  rw [htext, String.toList_ofList]
  decide +kernel

theorem exists_load_cutEntity :
    ∃ d, load cutEntity = .ok d ∧ d.entities.map (·.name) = ["a"] := by
  have hload : ((load cutEntity).toOption.map fun d => d.entities.map (·.name)) = some ["a"] := by
    have htext : cutEntity = String.ofList _ := rfl
    rw [load, Markup.nodes_of_ofList htext]
    decide +kernel
  obtain ⟨d, hd, hnames⟩ := Option.map_eq_some_iff.mp hload
  exact ⟨d, toOption_eq_some.mp hd, hnames⟩

/-- Four elements are open at the end, and still the entity is there. -/
theorem load_cutEntity :
    (openTags [] (events cutEntity.toList)).map Tag.name
      = ["property", "entity", "entities", "descriptions"] ∧
    ∃ d, load cutEntity = .ok d ∧ d.entities.map (·.name) = ["a"] :=
  ⟨openTags_cutEntity, exists_load_cutEntity⟩

theorem load_ok_iff_closed_entity :
    (∀ tag ∈ openTags [] (events cutEntity.toList), IsTagName tag.name) ∧
    ∃ d, load cutEntity = .ok d ∧
      load (cutEntity ++ "</property></entity></entities></descriptions>") = .ok d := by
  have hnames : ∀ tag ∈ openTags [] (events cutEntity.toList), IsTagName tag.name := by
    rw [← List.forall_mem_map (f := Tag.name), openTags_cutEntity]
    decide
  have htags : String.ofList (endTags (openTags [] (events cutEntity.toList)))
      = "</property></entity></entities></descriptions>" := by
    rw [endTags, ← List.flatMap_map, openTags_cutEntity]
    decide
  obtain ⟨d, hd, -⟩ := exists_load_cutEntity
  obtain ⟨-, hclosed⟩ := (load_ok_iff_closed hnames).mp hd
  rw [htags] at hclosed
  exact ⟨hnames, d, hd, hclosed⟩

end EntityGen.Document
