import EntityGen.Proofs.Markup.Content

/-!
# Padded documents

A document is padded where an element that is one tag is written as two, or where
content is put into an element that is a leaf. Its elements are then those of the
document as it was, but for what leaves have inside, and faults stay where they are.
-/

namespace EntityGen.Markup

variable {leaves : List String}

-- ---------------------------------------------------------------------------
-- Nodes
-- ---------------------------------------------------------------------------

/-- The same elements but for what is inside of leaves, which have the same faults in them. -/
inductive Node.Padded (leaves : List String) : Node → Node → Prop
  | failed (error : Error) : Padded leaves (.failed error) (.failed error)
  | opened (tag : Tag) : Padded leaves (.element tag true []) (.element tag false [])
  | leaf {tag : Tag} {children children' : List Node} : tag.name ∈ leaves →
    faultIn? children' = faultIn? children →
    Padded leaves (.element tag false children) (.element tag false children')
  | element (tag : Tag) (isEmpty : Bool) {children children' : List Node} :
    List.Forall₂ (Padded leaves) children children' →
    Padded leaves (.element tag isEmpty children) (.element tag isEmpty children')

mutual
theorem Node.Padded.fault?_eq {node node' : Node} (h : node.Padded leaves node') :
    node'.fault? = node.fault? := by
  match node, h with
  | _, .failed e => rfl
  | _, .opened tag => rfl
  | _, .leaf _ hfault => exact hfault
  | .element _ _ children, .element _ _ hchildren =>
    rw [Node.fault?, Node.fault?, faultIn?_padded hchildren]

theorem faultIn?_padded {nodes nodes' : List Node}
    (h : List.Forall₂ (Node.Padded leaves) nodes nodes') : faultIn? nodes' = faultIn? nodes := by
  match nodes, h with
  | [], .nil => rfl
  | node :: nodes, .cons hnode hnodes =>
    rw [faultIn?, faultIn?, hnode.fault?_eq, faultIn?_padded hnodes]
end

mutual
theorem Node.Padded.refl (node : Node) : node.Padded leaves node := by
  match node with
  | .failed e => exact .failed e
  | .element tag isEmpty children => exact .element tag isEmpty (padded_refl children)

theorem padded_refl (nodes : List Node) : List.Forall₂ (Node.Padded leaves) nodes nodes := by
  match nodes with
  | [] => exact .nil
  | node :: nodes => exact .cons (.refl node) (padded_refl nodes)
end

-- ---------------------------------------------------------------------------
-- Open elements
-- ---------------------------------------------------------------------------

def InLeaf (leaves names : List String) : Prop := ∃ name ∈ names, name ∈ leaves

/-- The siblings inside of the open elements. Within a leaf only their faults count. -/
def SameInside (leaves names : List String) (nodes nodes' : List Node) : Prop :=
  List.Forall₂ (Node.Padded leaves) nodes nodes' ∨
    InLeaf leaves names ∧ faultIn? nodes' = faultIn? nodes

def openNames (frames : List Frame) : List String := frames.map fun frame => frame.tag.name

/-- The same elements are open in both, and at each level the siblings are the same so far. -/
inductive SameOpen (leaves : List String) :
    List Frame → List Node → List Frame → List Node → Prop
  | bottom {done done' : List Node} : SameInside leaves [] done.reverse done'.reverse →
    SameOpen leaves [] done [] done'
  | frame (tag : Tag) {siblings siblings' done done' : List Node} {frames frames' : List Frame} :
    SameOpen leaves frames siblings frames' siblings' →
    SameInside leaves (tag.name :: openNames frames) done.reverse done'.reverse →
    SameOpen leaves ({ tag, siblings } :: frames) done ({ tag, siblings := siblings' } :: frames')
      done'

section
variable {names : List String} {nodes nodes' : List Node} {node node' : Node}
  {frames frames' : List Frame} {done done' : List Node}

theorem SameInside.fault_eq (h : SameInside leaves names nodes nodes') :
    faultIn? nodes' = faultIn? nodes := by
  rcases h with h | ⟨-, h⟩
  · exact faultIn?_padded h
  · exact h

/-- In elements that are no leaves nothing but what is inside of leaves differs. -/
theorem SameInside.elements (h : SameInside leaves names nodes nodes')
    (hnames : ∀ name ∈ names, name ∉ leaves) : List.Forall₂ (Node.Padded leaves) nodes nodes' := by
  rcases h with h | ⟨⟨name, hname, hleaf⟩, -⟩
  · exact h
  · exact absurd hleaf (hnames name hname)

theorem SameInside.append {more more' : List Node} (h : SameInside leaves names nodes nodes')
    (hmore : SameInside leaves names more more') :
    SameInside leaves names (nodes ++ more) (nodes' ++ more') := by
  have hfault : faultIn? (nodes' ++ more') = faultIn? (nodes ++ more) := by
    rw [faultIn?_append, faultIn?_append, h.fault_eq, hmore.fault_eq]
  rcases h with h | ⟨hleaf, -⟩
  · rcases hmore with hmore | ⟨hleaf, -⟩
    · exact .inl (List.rel_append h hmore)
    · exact .inr ⟨hleaf, hfault⟩
  · exact .inr ⟨hleaf, hfault⟩

theorem SameInside.close (tag : Tag) (h : SameInside leaves (tag.name :: names) nodes nodes') :
    SameInside leaves names [.element tag false nodes] [.element tag false nodes'] := by
  rcases h with h | ⟨hleaf, hfault⟩
  · exact .inl (.cons (.element tag false h) .nil)
  · obtain ⟨name, hname, hleaf⟩ := hleaf
    rcases List.mem_cons.mp hname with rfl | hname
    · exact .inl (.cons (.leaf hleaf hfault) .nil)
    · refine .inr ⟨⟨name, hname, hleaf⟩, ?_⟩
      simp only [faultIn?, Node.fault?, hfault]

theorem SameOpen.inside (h : SameOpen leaves frames done frames' done') :
    SameInside leaves (openNames frames) done.reverse done'.reverse := by
  cases h with
  | bottom hdone => exact hdone
  | frame tag _ hdone => exact hdone

theorem SameOpen.of_done (h : SameOpen leaves frames done frames' done') {more more' : List Node}
    (hmore : SameInside leaves (openNames frames) more.reverse more'.reverse) :
    SameOpen leaves frames more frames' more' := by
  cases h with
  | bottom _ => exact .bottom hmore
  | frame tag hframes _ => exact .frame tag hframes hmore

theorem SameOpen.push (h : SameOpen leaves frames done frames' done')
    (hnode : SameInside leaves (openNames frames) [node] [node']) :
    SameOpen leaves frames (node :: done) frames' (node' :: done') := by
  refine h.of_done ?_
  rw [List.reverse_cons, List.reverse_cons]
  exact h.inside.append hnode

theorem SameOpen.start (h : SameOpen leaves frames done frames' done') (tag : Tag) :
    SameOpen leaves ({ tag, siblings := done } :: frames) []
      ({ tag, siblings := done' } :: frames') [] :=
  .frame tag h (.inl .nil)

theorem SameOpen.refl (frames : List Frame) (done : List Node) :
    SameOpen leaves frames done frames done := by
  induction frames generalizing done with
  | nil => exact .bottom (.inl (padded_refl _))
  | cons frame frames ih => exact .frame frame.tag (ih frame.siblings) (.inl (padded_refl _))

theorem closeAll_padded (h : SameOpen leaves frames done frames' done') :
    List.Forall₂ (Node.Padded leaves) (closeAll done frames) (closeAll done' frames') := by
  induction frames generalizing done frames' done' with
  | nil =>
    cases h with
    | bottom hdone =>
      exact hdone.elements nofun
  | cons frame frames ih =>
    cases h with
    | frame tag hframes hdone =>
      rw [closeAll, closeAll]
      exact ih (hframes.push (hdone.close tag))

theorem nodesFrom_padded (events : List Event) (h : SameOpen leaves frames done frames' done') :
    List.Forall₂ (Node.Padded leaves) (nodesFrom frames done events)
      (nodesFrom frames' done' events) := by
  induction events generalizing frames done frames' done' with
  | nil => exact closeAll_padded h
  | cons event events ih =>
    have hsame (node : Node) : SameInside leaves (openNames frames) [node] [node] :=
      .inl (.cons (.refl node) .nil)
    cases event with
    | start tag => exact ih (h.start tag)
    | empty tag => exact ih (h.push (hsame _))
    | failed e => exact closeAll_padded (h.push (hsame _))
    | close name =>
      cases h with
      | bottom hdone => exact closeAll_padded ((SameOpen.bottom hdone).push (hsame _))
      | frame tag hframes hdone =>
        rw [nodesFrom, nodesFrom]
        split
        · exact ih (hframes.push (hdone.close tag))
        · exact closeAll_padded ((SameOpen.frame tag hframes hdone).push (hsame _))

end

-- ---------------------------------------------------------------------------
-- Texts
-- ---------------------------------------------------------------------------

/-- The text of a tag that stands alone, and that of a start tag for the same element.
White space may follow the name in the end tag. -/
structure IsPair (content opening blanks : List Char) : Prop where
  alone : IsTagText content
  start : IsTagText opening
  same : Tag.ofContent opening = Tag.ofContent content
  name : IsTagName (tagName content)
  nonempty : tagName content ≠ ""
  blanks : ∀ c ∈ blanks, isSpace c = true

/-- A step of padding. An element that is one tag is written as two, or content is put
into an open leaf. -/
inductive Pads (leaves : List String) : String → String → Prop
  | opened {before content opening after : String} {blanks : List Char} :
    (∀ error, .failed error ∉ events before.toList) →
    IsPair content.toList opening.toList blanks →
    Pads leaves (before ++ ("<" ++ content ++ "/>") ++ after)
      (before ++ ("<" ++ opening ++ ">")
        ++ String.ofList (closingTag (tagName content.toList) blanks) ++ after)
  | filled {before content after : String} : (∀ error, .failed error ∉ events before.toList) →
    InLeaf leaves ((openTags [] (events before.toList)).map Tag.name) →
    IsContent content.toList → Pads leaves (before ++ after) (before ++ content ++ after)

/-- Reading breaks off at a fault of the tags, or goes on inside of what is open. -/
theorem nodesFrom_append (frames : List Frame) (done : List Node) (events : List Event) :
    (∃ nodes, ∀ more, nodesFrom frames done (events ++ more) = nodes) ∨
      ∃ frames' done', frames'.map Frame.tag = openTags (frames.map Frame.tag) events ∧
        ∀ more, nodesFrom frames done (events ++ more) = nodesFrom frames' done' more := by
  induction events generalizing frames done with
  | nil => exact .inr ⟨frames, done, rfl, fun _ => rfl⟩
  | cons event events ih =>
    cases event with
    | start tag => exact ih ({ tag, siblings := done } :: frames) []
    | empty tag => exact ih frames _
    | failed e => exact .inl ⟨_, fun _ => rfl⟩
    | close name =>
      cases frames with
      | nil => exact .inl ⟨_, fun _ => rfl⟩
      | cons frame frames =>
        by_cases hname : name = frame.tag.name
        · simp only [List.cons_append, nodesFrom, if_pos hname]
          exact ih frames _
        · simp only [List.cons_append, nodesFrom, if_neg hname]
          exact .inl ⟨_, fun _ => rfl⟩

theorem openNames_eq (frames : List Frame) :
    openNames frames = (frames.map Frame.tag).map Tag.name := by
  rw [openNames, List.map_map]
  rfl

theorem nodesOfEvents_padded {before part part' : List Event}
    (h : ∀ frames done, frames.map Frame.tag = openTags [] before →
      List.Forall₂ (Node.Padded leaves) (nodesFrom frames done part)
        (nodesFrom frames done part')) :
    List.Forall₂ (Node.Padded leaves) (nodesOfEvents (before ++ part))
      (nodesOfEvents (before ++ part')) := by
  unfold nodesOfEvents
  rcases nodesFrom_append [] [] before with ⟨nodes, hbroken⟩ | ⟨frames, done, hopen, hrest⟩
  · rw [hbroken, hbroken]
    exact padded_refl nodes
  · rw [hrest, hrest]
    exact h frames done hopen

theorem nodes_opened {before content opening after : String} {blanks : List Char}
    (hbefore : ∀ error, .failed error ∉ events before.toList)
    (hpair : IsPair content.toList opening.toList blanks) :
    List.Forall₂ (Node.Padded leaves) (nodes (before ++ ("<" ++ content ++ "/>") ++ after))
      (nodes (before ++ ("<" ++ opening ++ ">")
        ++ String.ofList (closingTag (tagName content.toList) blanks) ++ after)) := by
  have halone : (before ++ ("<" ++ content ++ "/>") ++ after).toList
      = before.toList ++ '<' :: (content.toList ++ '/' :: '>' :: after.toList) := by
    simp
  have htags : (before ++ ("<" ++ opening ++ ">")
        ++ String.ofList (closingTag (tagName content.toList) blanks) ++ after).toList
      = before.toList ++ '<' :: (opening.toList ++ '>' ::
        (closingTag (tagName content.toList) blanks ++ after.toList)) := by
    simp
  rw [nodes, nodes, halone, htags, events_append_bracket hbefore, events_append_bracket hbefore,
    hpair.alone.eventsAfter_empty, hpair.start.eventsAfter_start, hpair.same,
    eventsAfter_closingTag hpair.name hpair.nonempty hpair.blanks]
  refine nodesOfEvents_padded fun frames done _ => ?_
  rw [nodesFrom, nodesFrom, tagName, nodesFrom, if_pos rfl]
  exact nodesFrom_padded _ ((SameOpen.refl frames done).push (.inl (.cons (.opened _) .nil)))

theorem nodes_filled {before content after : String}
    (hbefore : ∀ error, .failed error ∉ events before.toList)
    (hleaf : InLeaf leaves ((openTags [] (events before.toList)).map Tag.name))
    (hcontent : IsContent content.toList) :
    List.Forall₂ (Node.Padded leaves) (nodes (before ++ after))
      (nodes (before ++ content ++ after)) := by
  have hne : before.toList ≠ [] := by
    intro hnil
    obtain ⟨name, hname, -⟩ := hleaf
    simp [hnil, events, withoutMark, eventsAfter, openTags] at hname
  obtain ⟨es, hbalanced, hes⟩ := hcontent.exists_balanced
  obtain ⟨more, hfault, hmore⟩ := hbalanced.exists_nodes
  rw [nodes, nodes, String.append_assoc, String.toList_append, String.toList_append,
    String.toList_append, events_append hne hbefore, events_append hne hbefore, hes]
  refine nodesOfEvents_padded fun frames done hopen => ?_
  rw [hmore]
  refine nodesFrom_padded _ ((SameOpen.refl frames done).of_done (.inr ⟨?_, ?_⟩))
  · rw [openNames_eq, hopen]
    exact hleaf
  · rw [List.reverse_append, faultIn?_append, hfault, Option.or_none]

/-- Padding keeps the elements but for what is inside of leaves. -/
theorem Pads.nodes_padded {text text' : String} (h : Pads leaves text text') :
    List.Forall₂ (Node.Padded leaves) (nodes text) (nodes text') := by
  cases h with
  | opened hbefore hpair => exact nodes_opened hbefore hpair
  | filled hbefore hleaf hcontent => exact nodes_filled hbefore hleaf hcontent

end EntityGen.Markup
