import EntityGen.Proofs.Markup.Tags

/-!
# Documents of one shape

Two documents have one shape if they have the same events but for their tags, and
tags in the same places correspond. Their trees are then of one shape as well,
provided that corresponding tags bear one name, since end tags go by names.
-/

namespace EntityGen.Markup

variable {R : Tag → Tag → Prop}

/-- The same events but for tags, which correspond. -/
inductive Event.Alike (R : Tag → Tag → Prop) : Event → Event → Prop
  | start {tag tag' : Tag} : R tag tag' → Alike R (.start tag) (.start tag')
  | empty {tag tag' : Tag} : R tag tag' → Alike R (.empty tag) (.empty tag')
  | close (name : String) : Alike R (.close name) (.close name)
  | failed (error : Error) : Alike R (.failed error) (.failed error)

inductive Node.Alike (R : Tag → Tag → Prop) : Node → Node → Prop
  | failed (error : Error) : Alike R (.failed error) (.failed error)
  | element {tag tag' : Tag} (isEmpty : Bool) {children children' : List Node} :
    R tag tag' → List.Forall₂ (Alike R) children children' →
    Alike R (.element tag isEmpty children) (.element tag' isEmpty children')

structure Frame.Alike (R : Tag → Tag → Prop) (frame frame' : Frame) : Prop where
  tag : R frame.tag frame'.tag
  siblings : List.Forall₂ (Node.Alike R) frame.siblings frame'.siblings

variable {frames frames' : List Frame} {done done' : List Node}

theorem Frame.Alike.close {frame frame' : Frame} (hframe : frame.Alike R frame')
    (hdone : List.Forall₂ (Node.Alike R) done done') :
    List.Forall₂ (Node.Alike R) (.element frame.tag false done.reverse :: frame.siblings)
      (.element frame'.tag false done'.reverse :: frame'.siblings) :=
  .cons (.element false hframe.tag (List.rel_reverse hdone)) hframe.siblings

theorem closeAll_alike (hframes : List.Forall₂ (Frame.Alike R) frames frames')
    (hdone : List.Forall₂ (Node.Alike R) done done') :
    List.Forall₂ (Node.Alike R) (closeAll done frames) (closeAll done' frames') := by
  induction hframes generalizing done done' with
  | nil => exact List.rel_reverse hdone
  | cons hframe _ ih => exact ih (hframe.close hdone)

theorem nodesFrom_alike (hname : ∀ tag tag', R tag tag' → tag'.name = tag.name)
    {events events' : List Event} (h : List.Forall₂ (Event.Alike R) events events')
    (hframes : List.Forall₂ (Frame.Alike R) frames frames')
    (hdone : List.Forall₂ (Node.Alike R) done done') :
    List.Forall₂ (Node.Alike R) (nodesFrom frames done events)
      (nodesFrom frames' done' events') := by
  induction h generalizing frames frames' done done' with
  | nil => exact closeAll_alike hframes hdone
  | cons hevent _ ih =>
    have hfault (e : Error) :
        List.Forall₂ (Node.Alike R) (.failed e :: done) (.failed e :: done') :=
      .cons (.failed e) hdone
    cases hevent with
    | start htag => exact ih (.cons ⟨htag, hdone⟩ hframes) .nil
    | empty htag => exact ih hframes (.cons (.element true htag .nil) hdone)
    | failed e => exact closeAll_alike hframes (hfault e)
    | close name =>
      cases hframes with
      | nil => exact closeAll_alike .nil (hfault _)
      | cons hframe hrest =>
        rw [nodesFrom, nodesFrom, hname _ _ hframe.tag]
        split
        · exact ih hrest (hframe.close hdone)
        · exact closeAll_alike (.cons hframe hrest) (hfault _)

theorem nodes_alike (hname : ∀ tag tag', R tag tag' → tag'.name = tag.name) {text text' : String}
    (h : List.Forall₂ (Event.Alike R) (events text.toList) (events text'.toList)) :
    List.Forall₂ (Node.Alike R) (nodes text) (nodes text') :=
  nodesFrom_alike hname h .nil .nil

-- ---------------------------------------------------------------------------
-- Known tags
-- ---------------------------------------------------------------------------

mutual
theorem Node.Alike.and {Q : Tag → Prop} {node node' : Node} (h : node.Alike R node')
    (hnode : ∀ tag ∈ node.tags, Q tag) :
    node.Alike (fun tag tag' => Q tag ∧ R tag tag') node' := by
  match node, h with
  | _, .failed e => exact .failed e
  | .element tag isEmpty children, .element _ htag hchildren =>
    obtain ⟨hfirst, hrest⟩ := List.forall_mem_cons.mp hnode
    exact .element isEmpty ⟨hfirst, htag⟩ (alike_and hchildren hrest)

theorem alike_and {Q : Tag → Prop} {nodes nodes' : List Node}
    (h : List.Forall₂ (Node.Alike R) nodes nodes') (hnodes : ∀ tag ∈ tagsOf nodes, Q tag) :
    List.Forall₂ (Node.Alike fun tag tag' => Q tag ∧ R tag tag') nodes nodes' := by
  match nodes, h with
  | [], .nil => exact .nil
  | node :: nodes, .cons hnode hrest =>
    obtain ⟨hfirst, hothers⟩ := List.forall_mem_append.mp hnodes
    exact .cons (hnode.and hfirst) (alike_and hrest hothers)
end

-- ---------------------------------------------------------------------------
-- Faults
-- ---------------------------------------------------------------------------

mutual
theorem Node.Alike.fault?_eq {node node' : Node} (h : node.Alike R node') :
    node'.fault? = node.fault? := by
  match node, h with
  | _, .failed e => rfl
  | .element _ _ children, .element _ _ hchildren =>
    rw [Node.fault?, Node.fault?, faultIn?_alike hchildren]

theorem faultIn?_alike {nodes nodes' : List Node}
    (h : List.Forall₂ (Node.Alike R) nodes nodes') : faultIn? nodes' = faultIn? nodes := by
  match nodes, h with
  | [], .nil => rfl
  | node :: nodes, .cons hnode hnodes =>
    rw [faultIn?, faultIn?, hnode.fault?_eq, faultIn?_alike hnodes]
end

end EntityGen.Markup
