import EntityGen.Markup.Event

/-!
# The elements of a document

End tags close the innermost open element and name it. A document may end
while elements are open; they end with it. A fault stands in the tree at the
place where reading stopped.
-/

namespace EntityGen.Markup

/-- An element, or the fault at which the document broke off. `isEmpty` marks
an element written as one tag. -/
inductive Node where
  | element (tag : Tag) (isEmpty : Bool) (children : List Node)
  | failed (error : Error)

/-- An element still open, and its elder siblings in reverse. -/
structure Frame where
  tag : Tag
  siblings : List Node

/-- Ends all open elements. `done` holds the children of the innermost one in reverse. -/
def closeAll (done : List Node) : List Frame → List Node
  | [] => done.reverse
  | frame :: frames => closeAll (.element frame.tag false done.reverse :: frame.siblings) frames

def nodesFrom (frames : List Frame) (done : List Node) : List Event → List Node
  | [] => closeAll done frames
  | .failed e :: _ => closeAll (.failed e :: done) frames
  | .start tag :: rest => nodesFrom ({ tag, siblings := done } :: frames) [] rest
  | .empty tag :: rest => nodesFrom frames (.element tag true [] :: done) rest
  | .close name :: rest =>
    match frames with
    | [] => closeAll (.failed (.unmatchedEnd name) :: done) []
    | frame :: frames =>
      if name = frame.tag.name then
        nodesFrom frames (.element frame.tag false done.reverse :: frame.siblings) rest
      else closeAll (.failed (.mismatchedEnd frame.tag.name name) :: done) (frame :: frames)

def nodesOfEvents (events : List Event) : List Node := nodesFrom [] [] events

def nodes (text : String) : List Node := nodesOfEvents (events text.toList)

/-- For the evaluation of literals, which are lists of characters to begin with. -/
theorem nodes_of_ofList {text : String} {characters : List Char}
    (h : text = String.ofList characters) : nodes text = nodesOfEvents (events characters) := by
  rw [h, nodes, String.toList_ofList]

theorem append_eq_ofList {a b : String} {as bs : List Char} (ha : a = String.ofList as)
    (hb : b = String.ofList bs) : a ++ b = String.ofList (as ++ bs) := by
  rw [ha, hb, String.ofList_append]

mutual
def Node.fault? : Node → Option Error
  | .failed e => some e
  | .element _ _ children => faultIn? children

def faultIn? : List Node → Option Error
  | [] => none
  | node :: nodes => node.fault?.or (faultIn? nodes)
end

end EntityGen.Markup
