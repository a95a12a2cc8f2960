import EntityGen.Markup.Node
import EntityGen.Proofs.Markup.Prefix

/-!
# Elements that a text leaves open

A text may end while elements are open. It is read as if their end tags
followed. Only a fault in what is there makes a difference, and stands in the
tree.
-/

namespace EntityGen.Markup

/-- The tags of the elements that events leave open, the innermost first. -/
def openTags (tags : List Tag) : List Event → List Tag
  | [] => tags
  | .start tag :: events => openTags (tag :: tags) events
  | .close _ :: events => openTags tags.tail events
  | .empty _ :: events | .failed _ :: events => openTags tags events

def closing (tags : List Tag) : List Event := tags.map fun tag => .close tag.name

def endTag (name : String) : List Char := '<' :: '/' :: (name.toList ++ ['>'])

def endTags (tags : List Tag) : List Char := tags.flatMap fun tag => endTag tag.name

/-- A name that an end tag can hold. -/
def IsTagName (name : String) : Prop :=
  ∀ c ∈ name.toList, isSpace c = false ∧ isQuote c = false ∧ c ≠ '>'

instance : DecidablePred IsTagName := fun name => List.decidableBAll _ name.toList

-- ---------------------------------------------------------------------------
-- Nodes
-- ---------------------------------------------------------------------------

/-- Ending the open elements one by one is what happens at the end of the text. -/
theorem nodesFrom_closing (frames : List Frame) (done : List Node) :
    nodesFrom frames done (closing (frames.map Frame.tag)) = closeAll done frames := by
  induction frames generalizing done with
  | nil => rfl
  | cons frame frames ih =>
    simp only [closing, List.map_cons, nodesFrom, if_pos, closeAll]
    exact ih _

/-- End tags for what is open change nothing. -/
theorem nodesFrom_append_closing (frames : List Frame) (done : List Node) (events : List Event) :
    nodesFrom frames done (events ++ closing (openTags (frames.map Frame.tag) events))
      = nodesFrom frames done events := by
  induction events generalizing frames done with
  | nil => exact nodesFrom_closing frames done
  | cons event events ih =>
    cases event with
    | start tag => exact ih ({ tag, siblings := done } :: frames) []
    | empty tag => exact ih frames _
    | failed e => rfl
    | close name =>
      cases frames with
      | nil => rfl
      | cons frame frames =>
        simp only [List.cons_append, nodesFrom]
        split
        · exact ih frames _
        · rfl

-- ---------------------------------------------------------------------------
-- Text
-- ---------------------------------------------------------------------------

theorem tagLength_name {name : List Char} (h : ∀ c ∈ name, isQuote c = false ∧ c ≠ '>')
    (rest : List Char) : tagLength none (name ++ '>' :: rest) = .ok name.length := by
  induction name with
  | nil => rfl
  | cons c name ih =>
    obtain ⟨⟨hquote, hbracket⟩, hname⟩ := List.forall_mem_cons.mp h
    simp only [List.cons_append, tagLength, if_neg hbracket, hquote, Bool.false_eq_true, if_false,
      ih hname]
    rfl

theorem dropWhile_isSpace {text : List Char} (h : ∀ c ∈ text, isSpace c = false) :
    text.dropWhile isSpace = text := by
  cases text with
  | nil => rfl
  | cons c rest => exact List.dropWhile_cons_of_neg (by simp [h c List.mem_cons_self])

theorem closedName_name {name : String} (h : ∀ c ∈ name.toList, isSpace c = false) :
    closedName name.toList = name := by
  unfold closedName
  split
  · exact String.ofList_toList
  · rw [dropWhile_isSpace fun c hc => h c (List.mem_reverse.mp hc), List.reverse_reverse,
      String.ofList_toList]

theorem eventsAfter_closing {content : List Char}
    (h : ∀ c ∈ content, isQuote c = false ∧ c ≠ '>') (rest : List Char) :
    eventsAfter 0 ('<' :: '/' :: (content ++ '>' :: rest))
      = .close (closedName content) :: eventsAfter 0 rest := by
  have hpiece : pieceAt '<' ('/' :: (content ++ '>' :: rest)) =
      .ok (some (.close (closedName content)), ('/' :: (content ++ ['>'])).length) := by
    simp [pieceAt, markupPiece, closingPiece, tagLength_name h rest, bind, Except.bind, pure,
      Except.pure, Except.map]
  have hrest : '/' :: (content ++ '>' :: rest) = '/' :: (content ++ ['>']) ++ rest := by
    simp
  rw [eventsAfter, hpiece, hrest]
  dsimp only
  rw [eventsAfter_length]
  rfl

theorem eventsAfter_endTag {name : String} (h : IsTagName name) (rest : List Char) :
    eventsAfter 0 (endTag name ++ rest) = .close name :: eventsAfter 0 rest := by
  have hname : closedName name.toList = name := closedName_name fun c hc => (h c hc).1
  have htext : endTag name ++ rest = '<' :: '/' :: (name.toList ++ '>' :: rest) := by
    simp [endTag]
  rw [htext, eventsAfter_closing fun c hc => (h c hc).2, hname]

theorem eventsAfter_endTags {tags : List Tag} (h : ∀ tag ∈ tags, IsTagName tag.name) :
    eventsAfter 0 (endTags tags) = closing tags := by
  induction tags with
  | nil => rfl
  | cons tag tags ih =>
    obtain ⟨htag, htags⟩ := List.forall_mem_cons.mp h
    rw [endTags, List.flatMap_cons, eventsAfter_endTag htag]
    exact congrArg _ (ih htags)

/-- A text that ends between tags is read as if the end tags that it lacks followed. -/
theorem nodes_append_endTags {text : List Char} (h : ∀ error, .failed error ∉ events text)
    (hnames : ∀ tag ∈ openTags [] (events text), IsTagName tag.name) :
    nodesOfEvents (events (text ++ endTags (openTags [] (events text))))
      = nodesOfEvents (events text) := by
  cases htext : text with
  | nil => rfl
  | cons c rest =>
    rw [← htext, events_append (by simp [htext]) h, eventsAfter_endTags hnames]
    exact nodesFrom_append_closing [] [] (events text)

-- ---------------------------------------------------------------------------
-- Faults
-- ---------------------------------------------------------------------------

theorem faultIn?_append (nodes nodes' : List Node) :
    faultIn? (nodes ++ nodes') = (faultIn? nodes).or (faultIn? nodes') := by
  induction nodes with
  | nil => rfl
  | cons node nodes ih => simp only [List.cons_append, faultIn?, ih, Option.or_assoc]

theorem faultIn?_closeAll (frames : List Frame) {done : List Node}
    (h : (faultIn? done.reverse).isSome) : (faultIn? (closeAll done frames)).isSome := by
  induction frames generalizing done with
  | nil => exact h
  | cons frame frames ih =>
    apply ih
    simp [faultIn?_append, faultIn?, Node.fault?, h]

theorem faultIn?_nodesFrom {events : List Event} {error : Error} (h : .failed error ∈ events)
    (frames : List Frame) (done : List Node) :
    (faultIn? (nodesFrom frames done events)).isSome := by
  induction events generalizing frames done with
  | nil => cases h
  | cons event events ih =>
    cases event with
    | start tag => exact ih (List.mem_of_ne_of_mem (by simp) h) _ _
    | empty tag => exact ih (List.mem_of_ne_of_mem (by simp) h) _ _
    | failed e => exact faultIn?_closeAll frames (by simp [faultIn?_append, faultIn?, Node.fault?])
    | close name =>
      cases frames with
      | nil => exact faultIn?_closeAll [] (by simp [faultIn?_append, faultIn?, Node.fault?])
      | cons frame frames =>
        rw [nodesFrom]
        split
        · exact ih (List.mem_of_ne_of_mem (by simp) h) _ _
        · exact faultIn?_closeAll _ (by simp [faultIn?_append, faultIn?, Node.fault?])

-- ---------------------------------------------------------------------------
-- Elements written as one tag
-- ---------------------------------------------------------------------------

/-- No element at any depth that is written as one tag has children. -/
inductive Node.Closed : Node → Prop
  | failed (error : Error) : Closed (.failed error)
  | empty (tag : Tag) : Closed (.element tag true [])
  | element (tag : Tag) {children : List Node} :
    (∀ node ∈ children, Closed node) → Closed (.element tag false children)

theorem Node.Closed.children {tag : Tag} {isEmpty : Bool} {children : List Node}
    (h : (Node.element tag isEmpty children).Closed) : ∀ node ∈ children, node.Closed := by
  cases h with
  | empty => simp
  | element _ h => exact h

theorem Node.Closed.fault?_of_empty {tag : Tag} {children : List Node}
    (h : (Node.element tag true children).Closed) :
    (Node.element tag true children).fault? = none := by
  cases h
  rfl

theorem closeAll_closed {frames : List Frame} {done : List Node}
    (hdone : ∀ node ∈ done, node.Closed)
    (hframes : ∀ frame ∈ frames, ∀ node ∈ frame.siblings, node.Closed) :
    ∀ node ∈ closeAll done frames, node.Closed := by
  induction frames generalizing done with
  | nil => simpa [closeAll] using hdone
  | cons frame frames ih =>
    obtain ⟨hframe, hframes⟩ := List.forall_mem_cons.mp hframes
    refine ih (List.forall_mem_cons.mpr ⟨.element frame.tag ?_, hframe⟩) hframes
    simpa using hdone

theorem nodesFrom_closed {frames : List Frame} {done : List Node} (events : List Event)
    (hdone : ∀ node ∈ done, node.Closed)
    (hframes : ∀ frame ∈ frames, ∀ node ∈ frame.siblings, node.Closed) :
    ∀ node ∈ nodesFrom frames done events, node.Closed := by
  induction events generalizing frames done with
  | nil => exact closeAll_closed hdone hframes
  | cons event events ih =>
    cases event with
    | start tag => exact ih (by simp) (List.forall_mem_cons.mpr ⟨hdone, hframes⟩)
    | empty tag => exact ih (List.forall_mem_cons.mpr ⟨.empty tag, hdone⟩) hframes
    | failed e => exact closeAll_closed (List.forall_mem_cons.mpr ⟨.failed e, hdone⟩) hframes
    | close name =>
      cases frames with
      | nil => exact closeAll_closed (List.forall_mem_cons.mpr ⟨.failed _, hdone⟩) hframes
      | cons frame frames =>
        rw [nodesFrom]
        split
        · obtain ⟨hframe, hframes⟩ := List.forall_mem_cons.mp hframes
          refine ih (List.forall_mem_cons.mpr ⟨.element frame.tag ?_, hframe⟩) hframes
          simpa using hdone
        · exact closeAll_closed (List.forall_mem_cons.mpr ⟨.failed _, hdone⟩) hframes

theorem nodes_closed (text : String) : ∀ node ∈ nodes text, node.Closed :=
  nodesFrom_closed (events text.toList) (by simp) (by simp)

end EntityGen.Markup
