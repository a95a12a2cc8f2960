import EntityGen.Proofs.Document.Definitions
import EntityGen.Proofs.Markup.Padding
import Mathlib.Logic.Relation

/-!
# Reading padded documents

What is inside of a leaf says nothing, and neither does whether an element is written
as one tag or as two. A document that starts with a `descriptions` element is
therefore read alike with and without padding: the descriptions are the same, or the
error is.
-/

namespace EntityGen.Document

open Markup (closingTag events IsContent isSpace IsTagText Node Pads SameInside Tag tagName)
open Schema (Descriptions Entity)

/-- The elements that nothing but their tags describes. -/
def leafNames : List String :=
  ["version", "case", "option", "property", "relationship", "read", "write"]

section
variable {leaves : List String} {children children' : List Node}

-- ---------------------------------------------------------------------------
-- Elements
-- ---------------------------------------------------------------------------

theorem ignore_padded {names : List String} (h : SameInside leaves names children children') :
    ignore children' = ignore children := by
  rw [ignore, ignore, h.fault_eq]

/-- Children are read alike if a step makes the same of what is the same inside. -/
theorem foldElements_padded {α : Type} {step : α → Tag → List Node → Except Error α}
    (hstep : ∀ a tag {children children'}, SameInside leaves [tag.name] children children' →
      step a tag children' = step a tag children)
    (h : List.Forall₂ (Node.Padded leaves) children children') (a : α) :
    foldElements children' a step = foldElements children a step := by
  unfold foldElements
  induction h generalizing a with
  | nil => rfl
  | cons hnode _ ih =>
    rw [List.foldlM_cons, List.foldlM_cons]
    cases hnode with
    | failed e => rfl
    | opened tag => exact bind_congr fun a => ih a
    | leaf hleaf hfault =>
      dsimp only
      rw [hstep a _ (.inr ⟨⟨_, List.mem_singleton_self _, hleaf⟩, hfault⟩)]
      exact bind_congr fun a => ih a
    | element tag isEmpty hchildren =>
      dsimp only
      rw [hstep a tag (.inl hchildren)]
      exact bind_congr fun a => ih a

end

-- ---------------------------------------------------------------------------
-- Definitions
-- ---------------------------------------------------------------------------

section
variable {tag : Tag} {children children' : List Node}

theorem readSubtype_padded (h : List.Forall₂ (Node.Padded leafNames) children children') :
    readSubtype tag children' = readSubtype tag children := by
  have hitems : foldElements children' {} ItemLists.read
      = foldElements children {} ItemLists.read := by
    refine foldElements_padded (fun items tag children children' h => ?_) h _
    rw [ItemLists.read, ItemLists.read, ignore_padded h]
  rw [readSubtype, readSubtype, hitems]

theorem readContributors_padded (h : List.Forall₂ (Node.Padded leafNames) children children') :
    readContributors children' = readContributors children := by
  refine foldElements_padded (fun contributors tag children children' h => ?_) h _
  rw [ignore_padded h]

theorem readEntityPart_padded (e : Entity)
    (h : SameInside leafNames [tag.name] children children') :
    readEntityPart e tag children' = readEntityPart e tag children := by
  unfold readEntityPart
  split
  · next hname =>
    rw [hname] at h
    rw [readIdentifier, readIdentifier, readContributors_padded (h.elements (by decide))]
  · rw [ignore_padded h]
  · rfl

theorem readEntity_padded (h : List.Forall₂ (Node.Padded leafNames) children children') :
    readEntity tag children' = readEntity tag children := by
  unfold readEntity
  refine bind_congr fun e => bind_congr fun _ => ?_
  refine foldElements_padded (fun e tag children children' h => ?_) h e
  exact readEntityPart_padded e h

theorem readEndpoint_padded (h : List.Forall₂ (Node.Padded leafNames) children children') :
    readEndpoint tag children' = readEndpoint tag children := by
  unfold readEndpoint
  refine bind_congr fun name => ?_
  refine foldElements_padded (fun e tag children children' h => ?_) h _
  rw [readEndpointPart, readEndpointPart, ignore_padded h]

theorem named_congr {α : Type} {name : String} {e : Error} {x x' : PUnit → Except Error α}
    (h : tag.name = name → x' ⟨⟩ = x ⟨⟩) :
    (if tag.name ≠ name then throw e >>= x' else x' ⟨⟩)
      = if tag.name ≠ name then throw e >>= x else x ⟨⟩ := by
  by_cases hname : tag.name = name
  · rw [if_neg (not_not_intro hname), if_neg (not_not_intro hname), h hname]
  · rw [if_pos hname, if_pos hname]
    rfl

theorem sectionReader_padded {name : String}
    {read : Descriptions → Tag → List Node → Except Error Descriptions}
    (hname : sectionReader? name = some read) (d : Descriptions)
    (h : SameInside leafNames [tag.name] children children') :
    read d tag children' = read d tag children := by
  have hchildren (hleaf : tag.name ∉ leafNames) :
      List.Forall₂ (Node.Padded leafNames) children children' :=
    h.elements (by simpa using hleaf)
  unfold sectionReader? at hname
  split at hname <;> cases hname
  · rw [readVersion, readVersion, ignore_padded h]
  · unfold readSubtypeInto
    refine named_congr fun htag => ?_
    rw [readSubtype_padded (hchildren (by rw [htag]; decide))]
  · unfold readEntityInto
    refine named_congr fun htag => ?_
    rw [readEntity_padded (hchildren (by rw [htag]; decide))]
  · unfold readEndpointInto
    refine named_congr fun htag => ?_
    rw [readEndpoint_padded (hchildren (by rw [htag]; decide))]

end

-- ---------------------------------------------------------------------------
-- Passages
-- ---------------------------------------------------------------------------

/-- The same passages to a reader that has seen a `descriptions` tag. -/
inductive Passage.Padded : Passage → Passage → Prop
  | root (tag : Tag) : Padded (.root tag) (.root tag)
  | fault (error : Markup.Error) : Padded (.fault error) (.fault error)
  | opened (tag : Tag) : Padded (.body tag true []) (.body tag false [])
  | body (tag : Tag) (isEmpty : Bool) {children children' : List Node} :
    SameInside leafNames [tag.name] children children' →
    Padded (.body tag isEmpty children) (.body tag isEmpty children')

mutual
theorem passages_padded {node node' : Node} (h : node.Padded leafNames node') :
    List.Forall₂ Passage.Padded (passages node) (passages node') := by
  match node, h with
  | _, .failed e => exact .cons (.fault e) .nil
  | _, .opened tag =>
    rw [passages, passages]
    split
    · exact .cons (.root tag) .nil
    · exact .cons (.opened tag) .nil
  | .element tag _ _, .leaf hleaf hfault =>
    have hname : tag.name ≠ "descriptions" := fun hname => by
      rw [hname] at hleaf
      exact absurd hleaf (by decide)
    rw [passages, passages, if_neg hname, if_neg hname]
    exact .cons (.body _ _ (.inr ⟨⟨_, List.mem_singleton_self _, hleaf⟩, hfault⟩)) .nil
  | .element tag isEmpty children, .element _ _ hchildren =>
    rw [passages, passages]
    split
    · exact .cons (.root tag) (passagesOf_padded hchildren)
    · exact .cons (.body tag isEmpty (.inl hchildren)) .nil

theorem passagesOf_padded {nodes nodes' : List Node}
    (h : List.Forall₂ (Node.Padded leafNames) nodes nodes') :
    List.Forall₂ Passage.Padded (passagesOf nodes) (passagesOf nodes') := by
  match nodes, h with
  | [], .nil => exact .nil
  | node :: nodes, .cons hnode hnodes =>
    rw [passagesOf, passagesOf]
    exact List.rel_append (passages_padded hnode) (passagesOf_padded hnodes)
end

theorem not_leaf_of_sectionReader? {name : String}
    {read : Descriptions → Tag → List Node → Except Error Descriptions}
    (h : sectionReader? name = some read) : name ∉ leafNames := by
  unfold sectionReader? at h
  split at h <;> cases h <;> decide

theorem readSection_some (d : Descriptions) (tag : Tag) (isEmpty : Bool) (children : List Node) :
    readSection (some d) tag isEmpty children
      = match sectionReader? tag.name with
        | none => .error (.unknownElement tag.name "descriptions")
        | some read =>
          if isEmpty then .ok (some d) else some <$> foldElements children d read := by
  unfold readSection
  cases isEmpty <;> cases sectionReader? tag.name <;> rfl

theorem readPassage_padded {p p' : Passage} (h : p.Padded p') (d : Descriptions) :
    readPassage (some d) p' = readPassage (some d) p := by
  cases h with
  | root tag => rfl
  | fault e => rfl
  | opened tag =>
    -- without children nothing is added, which an empty section says at once
    rw [readPassage, readPassage, readSection_some, readSection_some]
    cases sectionReader? tag.name <;> rfl
  | body tag isEmpty hinside =>
    rw [readPassage, readPassage, readSection_some, readSection_some]
    cases hread : sectionReader? tag.name with
    | none => rfl
    | some read =>
      have hchildren := hinside.elements (by simpa using not_leaf_of_sectionReader? hread)
      have hfold : foldElements _ d read = foldElements _ d read :=
        foldElements_padded (fun d _ => sectionReader_padded hread d) hchildren d
      dsimp only
      rw [hfold]

theorem exists_of_readPassage {d : Descriptions} {p : Passage} {d' : Option Descriptions}
    (h : readPassage (some d) p = .ok d') : ∃ x, d' = some x := by
  cases p with
  | root tag =>
    obtain ⟨root, -, rfl⟩ := map_ok.mp h
    exact ⟨root, rfl⟩
  | fault e => cases h
  | body tag isEmpty children =>
    rw [readPassage, readSection_some] at h
    split at h
    · cases h
    · split at h
      · cases h
        exact ⟨d, rfl⟩
      · obtain ⟨x, -, rfl⟩ := map_ok.mp h
        exact ⟨x, rfl⟩

/-- Without descriptions a section with content is a fault and an empty one is none, so the
passages are read alike only from where there are descriptions. -/
theorem readPassages_padded {ps ps' : List Passage} (h : List.Forall₂ Passage.Padded ps ps')
    (d : Descriptions) : ps'.foldlM readPassage (some d) = ps.foldlM readPassage (some d) := by
  induction h generalizing d with
  | nil => rfl
  | @cons p p' ps ps' hp _ ih =>
    rw [List.foldlM_cons, List.foldlM_cons, readPassage_padded hp d]
    cases hread : readPassage (some d) p with
    | error e => rfl
    | ok d' =>
      obtain ⟨x, rfl⟩ := exists_of_readPassage hread
      exact ih x

-- ---------------------------------------------------------------------------
-- Documents
-- ---------------------------------------------------------------------------

inductive StartsWithRoot : List Node → Prop
  | root {tag : Tag} (isEmpty : Bool) (children nodes : List Node) : tag.name = "descriptions" →
    StartsWithRoot (.element tag isEmpty children :: nodes)

instance : DecidablePred StartsWithRoot
  | .element tag isEmpty children :: nodes =>
    decidable_of_iff (tag.name = "descriptions")
      ⟨.root isEmpty children nodes, fun | .root _ _ _ hname => hname⟩
  | .failed _ :: _ => .isFalse nofun
  | [] => .isFalse nofun

theorem StartsWithRoot.padded {nodes nodes' : List Node} (hroot : StartsWithRoot nodes)
    (h : List.Forall₂ (Node.Padded leafNames) nodes nodes') : StartsWithRoot nodes' := by
  cases hroot with
  | root isEmpty children nodes hname =>
    cases h with
    | cons hnode _ => cases hnode <;> exact .root _ _ _ hname

theorem StartsWithRoot.exists_passages {nodes : List Node} (h : StartsWithRoot nodes) :
    ∃ tag ps, passagesOf nodes = .root tag :: ps := by
  cases h with
  | @root tag isEmpty children nodes hname =>
    rw [passagesOf, passages, if_pos hname]
    exact ⟨tag, _, rfl⟩

theorem ofNodes_padded {nodes nodes' : List Node} (hroot : StartsWithRoot nodes)
    (h : List.Forall₂ (Node.Padded leafNames) nodes nodes') : ofNodes nodes' = ofNodes nodes := by
  obtain ⟨tag, ps, hps⟩ := hroot.exists_passages
  have hpassages := passagesOf_padded h
  rw [hps] at hpassages
  obtain ⟨p, ps', hp, hrest, hps'⟩ := List.forall₂_cons_left_iff.mp hpassages
  cases hp with
  | root tag =>
    -- whatever was there before, the root's tag makes descriptions
    have hread : readNodes none nodes' = readNodes none nodes := by
      rw [readNodes_eq, readNodes_eq, hps, hps', List.foldlM_cons, List.foldlM_cons, readPassage,
        bind_map_left, bind_map_left]
      exact bind_congr fun root => readPassages_padded hrest root
    rw [ofNodes, ofNodes, hread]

/-- Padding a document that starts with a `descriptions` element, step by step, does not
change what is read from it. -/
theorem load_padded {text text' : String}
    (h : Relation.ReflTransGen (Pads leafNames) text text')
    (hroot : StartsWithRoot (Markup.nodes text)) : load text' = load text := by
  have hrun : StartsWithRoot (Markup.nodes text') ∧ load text' = load text := by
    induction h with
    | refl => exact ⟨hroot, rfl⟩
    | tail _ hstep ih =>
      have hnodes := hstep.nodes_padded
      exact ⟨ih.1.padded hnodes, (ofNodes_padded ih.1 hnodes).trans ih.2⟩
  exact hrun.2

def versionFront : String := "<descriptions version='1'><versions><version name='1'>"

def versionNote : String := "<b at='>'>x<i/></b ><!-- <c> -->"

def plainVersions : String :=
  versionFront ++ "</version><version name='2'/></versions></descriptions>"

def notedVersions : String :=
  versionFront ++ versionNote ++ "</version><version name='2'/></versions></descriptions>"

def paddedVersions : String :=
  versionFront ++ versionNote
    ++ "</version><version name='2' ></version ></versions></descriptions>"

theorem isContent_versionNote : IsContent versionNote.toList := by
  have htext : versionNote.toList
      = '<' :: ("b at='>'".toList ++ '>' :: (('x' :: '<' :: ("i".toList ++ '/' :: '>' :: []))
        ++ (closingTag (tagName "b at='>'".toList) [' ']
          ++ ("<!--".toList ++ (" <c> ".toList ++ ("-->".toList ++ [])))))) := by
    decide +kernel
  have hb : IsTagText "b at='>'".toList :=
    ⟨⟨'b', _, rfl, by decide +kernel⟩, by decide +kernel, by decide +kernel⟩
  have hi : IsTagText "i".toList :=
    ⟨⟨'i', _, rfl, by decide +kernel⟩, by decide +kernel, by decide +kernel⟩
  rw [htext]
  refine .element hb (by decide +kernel) (by decide +kernel) (by simp [isSpace]) ?_
    (.comment (by decide +kernel) .nil)
  exact .char (by decide) (by decide) (.empty hi .nil)

theorem events_versionFront : events versionFront.toList
    = [.start { name := "descriptions", attributes := [("version", "1")] },
        .start { name := "versions" },
        .start { name := "version", attributes := [("name", "1")] }] := by
  have htext : versionFront = String.ofList _ := rfl
  rw [htext, String.toList_ofList]
  decide +kernel

theorem pads_notedVersions : Pads leafNames plainVersions notedVersions := by
  refine .filled (by simp [events_versionFront]) ?_ isContent_versionNote
  rw [events_versionFront]
  exact ⟨"version", by decide, by decide⟩

theorem pads_paddedVersions : Pads leafNames notedVersions paddedVersions := by
  have hnoted : notedVersions = versionFront ++ versionNote ++ "</version>"
      ++ ("<" ++ "version name='2'" ++ "/>") ++ "</versions></descriptions>" := by
    decide +kernel
  have hpadded : paddedVersions = versionFront ++ versionNote ++ "</version>"
      ++ ("<" ++ "version name='2' " ++ ">")
      ++ String.ofList (closingTag (tagName "version name='2'".toList) [' '])
      ++ "</versions></descriptions>" := by
    decide +kernel
  have hbefore : events (versionFront ++ versionNote ++ "</version>").toList
      = [.start { name := "descriptions", attributes := [("version", "1")] },
          .start { name := "versions" },
          .start { name := "version", attributes := [("name", "1")] },
          .start { name := "b", attributes := [("at", ">")] }, .empty { name := "i" },
          .close "b", .close "version"] := by
    have htext : versionFront ++ versionNote ++ "</version>" = _ :=
      Markup.append_eq_ofList (Markup.append_eq_ofList rfl rfl) rfl
    rw [htext, String.toList_ofList]
    decide +kernel
  rw [hnoted, hpadded]
  refine .opened (by simp only [hbefore]; simp) ?_
  exact {
    alone := ⟨⟨'v', _, rfl, by decide +kernel⟩, by decide +kernel, by decide +kernel⟩
    start := ⟨⟨'v', _, rfl, by decide +kernel⟩, by decide +kernel, by decide +kernel⟩
    same := by decide +kernel
    name := by decide +kernel
    nonempty := by decide +kernel
    blanks := by simp [isSpace] }

theorem startsWithRoot_plainVersions : StartsWithRoot (Markup.nodes plainVersions) := by
  have htext : plainVersions = _ := Markup.append_eq_ofList rfl rfl
  rw [Markup.nodes_of_ofList htext]
  decide +kernel

theorem exists_load_plainVersions :
    ∃ d, load plainVersions = .ok d ∧ d.versionHistory = ["1", "2"] := by
  have htext : plainVersions = _ := Markup.append_eq_ofList rfl rfl
  rw [load, Markup.nodes_of_ofList htext]
  exact exists_ok_of_decide (by decide +kernel)

theorem load_padded_versions :
    Relation.ReflTransGen (Pads leafNames) plainVersions paddedVersions ∧
      ∃ d, load paddedVersions = .ok d ∧ d.versionHistory = ["1", "2"] := by
  have hpads : Relation.ReflTransGen (Pads leafNames) plainVersions paddedVersions :=
    (Relation.ReflTransGen.single pads_notedVersions).tail pads_paddedVersions
  rw [load_padded hpads startsWithRoot_plainVersions]
  exact ⟨hpads, exists_load_plainVersions⟩

end EntityGen.Document
