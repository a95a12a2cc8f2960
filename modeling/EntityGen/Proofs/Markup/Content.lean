import EntityGen.Proofs.Markup.Writing

/-!
# Well-formed content

Content is what may stand inside of an element: text, references, comments,
character data, instructions and elements with content of their own. Read
anywhere, it adds elements without faults and leaves open what was open before.
-/

namespace EntityGen.Markup

-- ---------------------------------------------------------------------------
-- Content
-- ---------------------------------------------------------------------------

/-- The marker stands after the text and not before its end. -/
def EndsAt (marker : String) (text : List Char) : Prop :=
  offsetOf? marker.toList (text ++ marker.toList) = some text.length

instance (marker : String) : DecidablePred (EndsAt marker) :=
  fun _ => inferInstanceAs (Decidable (_ = _))

/-- An end tag. White space may follow the name. -/
def closingTag (name : String) (blanks : List Char) : List Char :=
  '<' :: '/' :: (name.toList ++ (blanks ++ ['>']))

def tagName (content : List Char) : String := (Tag.ofContent content).name

/-- Well-formed content, piece by piece. -/
inductive IsContent : List Char → Prop
  | nil : IsContent []
  | char {c : Char} {rest : List Char} : c ≠ '<' → c ≠ '&' → IsContent rest → IsContent (c :: rest)
  | reference {name rest : List Char} : (∀ c ∈ name, c ≠ ';' ∧ c ≠ '&' ∧ c ≠ '<') →
    IsContent rest → IsContent ('&' :: (name ++ ';' :: rest))
  | comment {text rest : List Char} : EndsAt "-->" text → IsContent rest →
    IsContent ("<!--".toList ++ (text ++ ("-->".toList ++ rest)))
  | characterData {text rest : List Char} : EndsAt "]]>" text → IsContent rest →
    IsContent ("<![CDATA[".toList ++ (text ++ ("]]>".toList ++ rest)))
  | instruction {text rest : List Char} : text.head? ≠ some '>' → EndsAt "?>" text →
    IsContent rest → IsContent ("<?".toList ++ (text ++ ("?>".toList ++ rest)))
  | empty {content rest : List Char} : IsTagText content → IsContent rest →
    IsContent ('<' :: (content ++ '/' :: '>' :: rest))
  | element {content inner blanks rest : List Char} : IsTagText content →
    IsTagName (tagName content) → tagName content ≠ "" → (∀ c ∈ blanks, isSpace c = true) →
    IsContent inner → IsContent rest →
    IsContent ('<' :: (content ++ '>' :: (inner ++ (closingTag (tagName content) blanks ++ rest))))

/-- Every start tag has its end tag. -/
inductive Balanced : List Event → Prop
  | nil : Balanced []
  | empty (tag : Tag) {es : List Event} : Balanced es → Balanced (.empty tag :: es)
  | element (tag : Tag) {inner es : List Event} : Balanced inner → Balanced es →
    Balanced (.start tag :: (inner ++ .close tag.name :: es))

-- ---------------------------------------------------------------------------
-- Pieces of content
-- ---------------------------------------------------------------------------

section
variable {text more : List Char}

theorem eventsAfter_silent {c : Char} (h : pieceAt c (text ++ more) = .ok (none, text.length)) :
    eventsAfter 0 (c :: (text ++ more)) = eventsAfter 0 more := by
  rw [eventsAfter, h]
  dsimp only
  rw [eventsAfter_length]
  rfl

theorem eventsAfter_char {c : Char} (hbracket : c ≠ '<') (hreference : c ≠ '&') :
    eventsAfter 0 (c :: more) = eventsAfter 0 more := by
  simp [eventsAfter, pieceAt, hbracket, hreference]

theorem eventsAfter_reference {name : List Char}
    (h : ∀ c ∈ name, c ≠ ';' ∧ c ≠ '&' ∧ c ≠ '<') (more : List Char) :
    eventsAfter 0 ('&' :: (name ++ ';' :: more)) = eventsAfter 0 more := by
  have hname : (name ++ ';' :: more).takeWhile (fun c => c ≠ ';' && c ≠ '&' && c ≠ '<') = name := by
    rw [List.takeWhile_append_of_pos fun c hc => by simpa [and_assoc] using h c hc]
    simp
  have hpiece : pieceAt '&' ((name ++ [';']) ++ more) = .ok (none, (name ++ [';']).length) := by
    simp only [List.append_assoc, List.singleton_append]
    rw [pieceAt, if_neg (by decide), if_pos rfl, referencePiece, hname]
    simp
  have hevents := eventsAfter_silent hpiece
  rwa [List.append_assoc, List.singleton_append] at hevents

theorem passedOver_of_endsAt {marker : String} {unclosed : Error} (h : EndsAt marker text)
    (opening more : List Char) :
    passedOver opening.length marker unclosed (opening ++ (text ++ (marker.toList ++ more)))
      = .ok (none, opening.length + text.length + marker.length) := by
  obtain ⟨-, hoffset⟩ := offsetOf?_append more h
  rw [List.append_assoc] at hoffset
  rw [passedOver, List.drop_left, hoffset]

/-- What starts with a bracket and a mark and runs to its end marker is passed over. -/
theorem eventsAfter_marked {c : Char} {read : List Char → Piece} {opening : List Char}
    {marker : String} {unclosed : Error} (h : EndsAt marker text)
    (hmark : ∀ rest, markupPiece (c :: rest) = (read rest).map fun (event?, n) => (event?, n + 1))
    (hread : read (opening ++ (text ++ (marker.toList ++ more)))
      = passedOver opening.length marker unclosed (opening ++ (text ++ (marker.toList ++ more)))) :
    eventsAfter 0 ('<' :: c :: (opening ++ (text ++ (marker.toList ++ more))))
      = eventsAfter 0 more := by
  have hlength : (c :: (opening ++ (text ++ marker.toList))).length
      = opening.length + text.length + marker.length + 1 := by
    simp [Nat.add_assoc, ← String.length_toList]
  have hpiece : pieceAt '<' (c :: (opening ++ (text ++ (marker.toList ++ more))))
      = .ok (none, (c :: (opening ++ (text ++ marker.toList))).length) := by
    rw [pieceAt, if_pos rfl, hmark, hread, passedOver_of_endsAt h, hlength]
    rfl
  have hassoc : c :: (opening ++ (text ++ (marker.toList ++ more)))
      = c :: (opening ++ (text ++ marker.toList)) ++ more := by
    simp
  rw [hassoc] at hpiece ⊢
  exact eventsAfter_silent hpiece

theorem eventsAfter_comment (h : EndsAt "-->" text) (more : List Char) :
    eventsAfter 0 ("<!--".toList ++ (text ++ ("-->".toList ++ more))) = eventsAfter 0 more :=
  @eventsAfter_marked text more '!' declarationPiece "--".toList "-->" .unclosedComment h
    (fun _ => rfl) rfl

theorem eventsAfter_characterData (h : EndsAt "]]>" text) (more : List Char) :
    eventsAfter 0 ("<![CDATA[".toList ++ (text ++ ("]]>".toList ++ more))) = eventsAfter 0 more :=
  @eventsAfter_marked text more '!' declarationPiece "[CDATA[".toList "]]>" .unclosedCData h
    (fun _ => rfl) rfl

theorem eventsAfter_instruction (hstart : text.head? ≠ some '>') (h : EndsAt "?>" text)
    (more : List Char) :
    eventsAfter 0 ("<?".toList ++ (text ++ ("?>".toList ++ more))) = eventsAfter 0 more := by
  refine @eventsAfter_marked text more '?' instructionPiece [] "?>"
    (if startsXmlDeclaration (text ++ ("?>".toList ++ more)) then .unclosedXmlDeclaration
     else .unclosedInstruction) h (fun _ => rfl) ?_
  rw [List.nil_append]
  unfold instructionPiece
  split
  · next heq =>
    cases text with
    | nil => cases heq
    | cons c text =>
      obtain ⟨rfl, -⟩ := List.cons.inj heq
      exact absurd rfl hstart
  · rfl

theorem closedName_append {name : String} {blanks : List Char}
    (h : ∀ c ∈ name.toList, isSpace c = false) (hname : name ≠ "")
    (hblanks : ∀ c ∈ blanks, isSpace c = true) : closedName (name.toList ++ blanks) = name := by
  have hne : name.toList ≠ [] := by simpa using hname
  obtain ⟨c, hc⟩ := List.exists_mem_of_ne_nil name.toList hne
  have hsome : ¬(name.toList ++ blanks).all isSpace = true := fun hall => by
    have hspace := List.all_eq_true.mp hall c (List.mem_append_left blanks hc)
    rw [h c hc] at hspace
    cases hspace
  rw [closedName, if_neg hsome, List.reverse_append,
    List.dropWhile_append_of_pos fun c hc => hblanks c (List.mem_reverse.mp hc),
    dropWhile_isSpace fun c hc => h c (List.mem_reverse.mp hc), List.reverse_reverse,
    String.ofList_toList]

theorem eventsAfter_closingTag {name : String} {blanks : List Char} (h : IsTagName name)
    (hname : name ≠ "") (hblanks : ∀ c ∈ blanks, isSpace c = true) (rest : List Char) :
    eventsAfter 0 (closingTag name blanks ++ rest) = .close name :: eventsAfter 0 rest := by
  have hplain : ∀ c ∈ name.toList ++ blanks, isQuote c = false ∧ c ≠ '>' := by
    refine List.forall_mem_append.mpr ⟨fun c hc => (h c hc).2, fun c hc => ?_⟩
    have hspace := hblanks c hc
    simp only [isSpace, Bool.or_eq_true, decide_eq_true_eq] at hspace
    rcases hspace with ((rfl | rfl) | rfl) | rfl <;> decide
  have htext : closingTag name blanks ++ rest
      = '<' :: '/' :: ((name.toList ++ blanks) ++ '>' :: rest) := by
    simp [closingTag]
  rw [htext, eventsAfter_closing hplain,
    closedName_append (fun c hc => (h c hc).1) hname hblanks]

end

-- ---------------------------------------------------------------------------
-- Events of content
-- ---------------------------------------------------------------------------

/-- Content is read as balanced events, and what follows it is read as it is without it. -/
theorem IsContent.exists_balanced {text : List Char} (h : IsContent text) :
    ∃ es, Balanced es ∧ ∀ more, eventsAfter 0 (text ++ more) = es ++ eventsAfter 0 more := by
  induction h with
  | nil => exact ⟨[], .nil, fun more => rfl⟩
  | char hbracket hreference _ ih =>
    obtain ⟨es, hes, hrest⟩ := ih
    refine ⟨es, hes, fun more => ?_⟩
    rw [List.cons_append, eventsAfter_char hbracket hreference, hrest]
  | reference hname _ ih =>
    obtain ⟨es, hes, hrest⟩ := ih
    refine ⟨es, hes, fun more => ?_⟩
    rw [List.cons_append, List.append_assoc, List.cons_append, eventsAfter_reference hname, hrest]
  | comment hends _ ih =>
    obtain ⟨es, hes, hrest⟩ := ih
    refine ⟨es, hes, fun more => ?_⟩
    simp only [List.append_assoc]
    rw [eventsAfter_comment hends, hrest]
  | characterData hends _ ih =>
    obtain ⟨es, hes, hrest⟩ := ih
    refine ⟨es, hes, fun more => ?_⟩
    simp only [List.append_assoc]
    rw [eventsAfter_characterData hends, hrest]
  | instruction hstart hends _ ih =>
    obtain ⟨es, hes, hrest⟩ := ih
    refine ⟨es, hes, fun more => ?_⟩
    simp only [List.append_assoc]
    rw [eventsAfter_instruction hstart hends, hrest]
  | @empty content rest htag _ ih =>
    obtain ⟨es, hes, hrest⟩ := ih
    refine ⟨_, .empty (Tag.ofContent content) hes, fun more => ?_⟩
    rw [List.cons_append, List.append_assoc, List.cons_append, List.cons_append,
      htag.eventsAfter_empty, hrest, List.cons_append]
  | @element content inner blanks rest htag hname hne hblanks _ _ ihInner ihRest =>
    obtain ⟨inside, hinside, hinner⟩ := ihInner
    obtain ⟨es, hes, hrest⟩ := ihRest
    refine ⟨_, .element (Tag.ofContent content) hinside hes, fun more => ?_⟩
    simp only [List.cons_append, List.append_assoc]
    rw [htag.eventsAfter_start, hinner, eventsAfter_closingTag hname hne hblanks, hrest]
    rfl

-- ---------------------------------------------------------------------------
-- Nodes of content
-- ---------------------------------------------------------------------------

/-- Balanced events add elements without a fault to those that are there. -/
theorem Balanced.exists_nodes {es : List Event} (h : Balanced es) :
    ∃ more, faultIn? more.reverse = none ∧ ∀ frames done rest,
      nodesFrom frames done (es ++ rest) = nodesFrom frames (more ++ done) rest := by
  induction h with
  | nil => exact ⟨[], rfl, fun _ _ _ => rfl⟩
  | empty tag _ ih =>
    obtain ⟨more, hfault, hrest⟩ := ih
    refine ⟨more ++ [Node.element tag true []], ?_, fun frames done rest => ?_⟩
    · simp [faultIn?, Node.fault?, hfault]
    · rw [List.cons_append, nodesFrom, hrest, List.append_assoc]
      rfl
  | element tag _ _ ihInner ihRest =>
    obtain ⟨inner, hinnerFault, hinner⟩ := ihInner
    obtain ⟨more, hfault, hrest⟩ := ihRest
    refine ⟨more ++ [Node.element tag false inner.reverse], ?_, fun frames done rest => ?_⟩
    · simp [faultIn?, Node.fault?, hinnerFault, hfault]
    · -- the end tag meets the frame of its own start tag
      simp only [List.cons_append, List.append_assoc]
      rw [nodesFrom, hinner, List.append_nil, nodesFrom, if_pos rfl, hrest]
      rfl

-- ---------------------------------------------------------------------------
-- Content in an element
-- ---------------------------------------------------------------------------

def contentNodes (text : List Char) : List Node := nodesOfEvents (eventsAfter 0 text)

theorem IsContent.nodesFrom_append {text : List Char} (h : IsContent text) (frames : List Frame)
    (done : List Node) (more : List Char) :
    nodesFrom frames done (eventsAfter 0 (text ++ more))
      = nodesFrom frames ((contentNodes text).reverse ++ done) (eventsAfter 0 more) := by
  obtain ⟨es, hbalanced, hes⟩ := h.exists_balanced
  obtain ⟨inside, -, hinside⟩ := hbalanced.exists_nodes
  have halone : contentNodes text = inside.reverse := by
    have htext := hes []
    rw [List.append_nil] at htext
    rw [contentNodes, nodesOfEvents, htext, hinside, List.append_nil]
    rfl
  rw [hes, hinside, halone, List.reverse_reverse]

theorem nodesFrom_flatten {pieces : List (List Char)} (h : ∀ piece ∈ pieces, IsContent piece)
    (frames : List Frame) (done : List Node) (more : List Char) :
    nodesFrom frames done (eventsAfter 0 (pieces.flatten ++ more))
      = nodesFrom frames ((pieces.flatMap contentNodes).reverse ++ done) (eventsAfter 0 more) := by
  induction pieces generalizing done with
  | nil => rfl
  | cons piece pieces ih =>
    obtain ⟨hpiece, hpieces⟩ := List.forall_mem_cons.mp h
    rw [List.flatten_cons, List.append_assoc, hpiece.nodesFrom_append, ih hpieces,
      List.flatMap_cons, List.reverse_append, List.append_assoc]

/-- The texts of a start and an end tag for the same element. -/
structure IsEnclosure (opening blanks : List Char) : Prop where
  start : IsTagText opening
  name : IsTagName (tagName opening)
  nonempty : tagName opening ≠ ""
  blanks : ∀ c ∈ blanks, isSpace c = true

def enclosed (opening blanks : List Char) (pieces : List (List Char)) : String :=
  String.ofList ('<' :: (opening ++ '>' ::
    (pieces.flatten ++ closingTag (tagName opening) blanks)))

theorem nodes_enclosed {opening blanks : List Char} (h : IsEnclosure opening blanks)
    {pieces : List (List Char)} (hpieces : ∀ piece ∈ pieces, IsContent piece) :
    nodes (enclosed opening blanks pieces)
      = [.element (Tag.ofContent opening) false (pieces.flatMap contentNodes)] := by
  have hend := eventsAfter_closingTag h.name h.nonempty h.blanks []
  rw [List.append_nil] at hend
  have hevents (rest : List Char) : events ('<' :: rest) = eventsAfter 0 ('<' :: rest) := rfl
  rw [enclosed, nodes_of_ofList rfl, hevents, h.start.eventsAfter_start, nodesOfEvents, nodesFrom,
    nodesFrom_flatten hpieces, hend, nodesFrom, tagName, if_pos rfl, List.append_nil,
    List.reverse_reverse]
  rfl

end EntityGen.Markup
