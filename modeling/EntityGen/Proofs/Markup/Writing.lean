import EntityGen.Proofs.Markup.OpenTags

/-!
# Written elements

An element is written with every tag on a line of its own and every value in
double quotes. Elements of words and of values without such quotes are read
back as they were.
-/

namespace EntityGen.Markup

-- ---------------------------------------------------------------------------
-- Writing
-- ---------------------------------------------------------------------------

def attributeText (a : String × String) : List Char :=
  ' ' :: (a.1.toList ++ '=' :: '"' :: (a.2.toList ++ ['"']))

def Tag.content (tag : Tag) : List Char := tag.name.toList ++ tag.attributes.flatMap attributeText

mutual
def Node.written : Node → List Char
  | .failed _ => []
  | .element tag true _ => '<' :: (tag.content ++ ['/', '>', '\n'])
  | .element tag false children =>
    '<' :: (tag.content ++ ['>', '\n']) ++ (writtenAll children ++ (endTag tag.name ++ ['\n']))

def writtenAll : List Node → List Char
  | [] => []
  | node :: nodes => node.written ++ writtenAll nodes
end

def IsWord (word : String) : Prop := word ≠ "" ∧ ∀ c ∈ word.toList, c.isAlpha = true

instance : DecidablePred IsWord := fun word =>
  have : Decidable (∀ c ∈ word.toList, c.isAlpha = true) := List.decidableBAll _ _
  inferInstanceAs (Decidable (_ ∧ _))

structure Tag.Writable (tag : Tag) : Prop where
  name : IsWord tag.name
  words : ∀ a ∈ tag.attributes, IsWord a.1
  distinct : (tag.attributes.map Prod.fst).Nodup
  values : ∀ a ∈ tag.attributes, '"' ∉ a.2.toList

inductive Node.Writable : Node → Prop
  | empty {tag : Tag} : tag.Writable → Writable (.element tag true [])
  | element {tag : Tag} {children : List Node} : tag.Writable →
    (∀ node ∈ children, Writable node) → Writable (.element tag false children)

-- ---------------------------------------------------------------------------
-- Words
-- ---------------------------------------------------------------------------

namespace IsWord

variable {word : String}

theorem ne {c d : Char} (h : IsWord word) (hc : c ∈ word.toList) (hd : d.isAlpha = false) :
    c ≠ d := by
  rintro rfl
  rw [h.2 c hc] at hd
  cases hd

theorem not_space {c : Char} (h : IsWord word) (hc : c ∈ word.toList) : isSpace c = false := by
  simp [isSpace, h.ne hc]

theorem not_quote {c : Char} (h : IsWord word) (hc : c ∈ word.toList) : isQuote c = false := by
  simp [isQuote, h.ne hc]

theorem isTagName (h : IsWord word) : IsTagName word :=
  fun _ hc => ⟨h.not_space hc, h.not_quote hc, h.ne hc (by decide)⟩

theorem exists_cons (h : IsWord word) : ∃ c rest, word.toList = c :: rest := by
  refine List.exists_cons_of_ne_nil fun hnil => h.1 ?_
  rw [← String.toList_inj, hnil]
  rfl

end IsWord

-- ---------------------------------------------------------------------------
-- Attributes
-- ---------------------------------------------------------------------------

theorem attributesFrom_name {reversed : List Char} {seen : List String} {name : List Char}
    (h : ∀ c ∈ name, c ≠ '=' ∧ isSpace c = false) (rest : List Char) :
    attributesFrom (.name reversed) seen (name ++ rest)
      = attributesFrom (.name (name.reverse ++ reversed)) seen rest := by
  induction name generalizing reversed with
  | nil => rfl
  | cons c name ih =>
    obtain ⟨⟨hsign, hspace⟩, hname⟩ := List.forall_mem_cons.mp h
    simp only [List.cons_append, attributesFrom, if_neg hsign, hspace, Bool.false_eq_true, if_false,
      ih hname]
    simp

theorem attributesFrom_value {name : String} {quote : Char} {reversed : List Char}
    {seen : List String} {value : List Char} (h : quote ∉ value) (rest : List Char) :
    attributesFrom (.value name quote reversed) seen (value ++ quote :: rest)
      = (name, textOfReversed (value.reverse ++ reversed))
        :: attributesFrom .between seen rest := by
  induction value generalizing reversed with
  | nil => simp [attributesFrom]
  | cons c value ih =>
    rw [List.mem_cons, not_or] at h
    obtain ⟨hquote, hvalue⟩ := h
    simp only [List.cons_append, attributesFrom, if_neg (Ne.symm hquote), ih hvalue]
    simp

theorem attributesFrom_attributeText {a : String × String} {seen : List String}
    (hword : IsWord a.1) (hvalue : '"' ∉ a.2.toList) (hnew : a.1 ∉ seen)
    (rest : List Char) :
    attributesFrom .between seen (attributeText a ++ rest)
      = a :: attributesFrom .between (a.1 :: seen) rest := by
  obtain ⟨name, value⟩ := a
  obtain ⟨c, cs, hcs⟩ := hword.exists_cons
  have hname : textOfReversed ((cs.reverse ++ [c])) = name := by
    rw [textOfReversed, List.reverse_append, List.reverse_reverse, List.reverse_singleton,
      List.singleton_append, ← hcs, String.ofList_toList]
  have hrest : ∀ d ∈ cs, d ≠ '=' ∧ isSpace d = false := fun d hd =>
    have hd : d ∈ name.toList := hcs ▸ List.mem_cons_of_mem c hd
    ⟨hword.ne hd (by decide), hword.not_space hd⟩
  have hspace : isSpace c = false := hword.not_space (hcs ▸ List.mem_cons_self)
  have hblank : isSpace ' ' = true := by decide
  have hsign : isSpace '"' = false := by decide
  have hquote : isQuote '"' = true := by decide
  rw [attributeText]
  simp only [hcs, List.cons_append, List.append_assoc, attributesFrom, hblank, hspace, if_true,
    Bool.false_eq_true, if_false, attributesFrom_name hrest, hname, AttributeScan.afterSign,
    if_neg hnew, hsign, hquote, List.nil_append, attributesFrom_value hvalue]
  simp [textOfReversed]

theorem attributesFrom_attributeTexts {attributes : List (String × String)} {seen : List String}
    (hwords : ∀ a ∈ attributes, IsWord a.1)
    (hvalues : ∀ a ∈ attributes, '"' ∉ a.2.toList)
    (hdistinct : (attributes.map Prod.fst).Nodup) (hnew : ∀ a ∈ attributes, a.1 ∉ seen) :
    attributesFrom .between seen (attributes.flatMap attributeText) = attributes := by
  induction attributes generalizing seen with
  | nil => rfl
  | cons a rest ih =>
    obtain ⟨hword, hwords⟩ := List.forall_mem_cons.mp hwords
    obtain ⟨hvalue, hvalues⟩ := List.forall_mem_cons.mp hvalues
    obtain ⟨hfirst, hnew⟩ := List.forall_mem_cons.mp hnew
    obtain ⟨hother, hdistinct⟩ := List.nodup_cons.mp hdistinct
    rw [List.flatMap_cons, attributesFrom_attributeText hword hvalue hfirst,
      ih hwords hvalues hdistinct]
    intro later hlater
    rw [List.mem_cons, not_or]
    refine ⟨fun heq => hother ?_, hnew later hlater⟩
    rw [← heq]
    exact List.mem_map_of_mem hlater

-- ---------------------------------------------------------------------------
-- Tags
-- ---------------------------------------------------------------------------

theorem tagLength_plain {text : List Char} (h : ∀ c ∈ text, isQuote c = false ∧ c ≠ '>')
    (rest : List Char) :
    tagLength none (text ++ rest) = (· + text.length) <$> tagLength none rest := by
  induction text with
  | nil => simp
  | cons c text ih =>
    obtain ⟨⟨hquote, hbracket⟩, htext⟩ := List.forall_mem_cons.mp h
    simp only [List.cons_append, tagLength, if_neg hbracket, hquote, Bool.false_eq_true, if_false,
      ih htext, Functor.map_map, List.length_cons]
    rfl

theorem tagLength_value {quote : Char} {value : List Char} (h : quote ∉ value) (rest : List Char) :
    tagLength (some quote) (value ++ quote :: rest)
      = (· + (value.length + 1)) <$> tagLength none rest := by
  induction value with
  | nil => simp [tagLength]
  | cons c value ih =>
    rw [List.mem_cons, not_or] at h
    obtain ⟨hquote, hvalue⟩ := h
    simp only [List.cons_append, tagLength, if_neg (Ne.symm hquote), ih hvalue, Functor.map_map,
      List.length_cons]
    rfl

/-- A value that stands in quotes hides its brackets. -/
theorem tagLength_quotedValue {quote : Char} {value : String} (hquote : isQuote quote = true)
    (hvalue : quote ∉ value.toList) (rest : List Char) :
    tagLength none (quote :: (value.toList ++ quote :: rest))
      = (· + (value.toList.length + 2)) <$> tagLength none rest := by
  have hbracket : quote ≠ '>' := by
    rintro rfl
    cases hquote
  rw [tagLength, if_neg hbracket, if_pos hquote, tagLength_value hvalue, Functor.map_map]
  rfl

theorem tagLength_attributeText {a : String × String} (hword : IsWord a.1)
    (hvalue : '"' ∉ a.2.toList) (rest : List Char) :
    tagLength none (attributeText a ++ rest)
      = (· + (attributeText a).length) <$> tagLength none rest := by
  have hname : ∀ c ∈ ' ' :: (a.1.toList ++ ['=']), isQuote c = false ∧ c ≠ '>' := by
    simp only [List.forall_mem_cons, List.forall_mem_append]
    exact ⟨by decide, fun c hc => (hword.isTagName c hc).2, by decide, nofun⟩
  have htext : attributeText a ++ rest
      = (' ' :: (a.1.toList ++ ['='])) ++ ('"' :: (a.2.toList ++ '"' :: rest)) := by
    simp [attributeText]
  rw [htext, tagLength_plain hname, tagLength_quotedValue (by decide) hvalue, Functor.map_map]
  congr 1
  funext n
  simp [attributeText]
  omega

theorem tagLength_attributeTexts {attributes : List (String × String)}
    (hwords : ∀ a ∈ attributes, IsWord a.1) (hvalues : ∀ a ∈ attributes, '"' ∉ a.2.toList)
    (rest : List Char) :
    tagLength none (attributes.flatMap attributeText ++ rest)
      = (· + (attributes.flatMap attributeText).length) <$> tagLength none rest := by
  induction attributes with
  | nil => simp
  | cons a attributes ih =>
    obtain ⟨hword, hwords⟩ := List.forall_mem_cons.mp hwords
    obtain ⟨hvalue, hvalues⟩ := List.forall_mem_cons.mp hvalues
    rw [List.flatMap_cons, List.append_assoc, tagLength_attributeText hword hvalue,
      ih hwords hvalues, Functor.map_map]
    congr 1
    funext n
    simp only [List.length_append]
    omega

section
variable {tag : Tag}

theorem tagLength_content (h : tag.Writable) (rest : List Char) :
    tagLength none (tag.content ++ rest) = (· + tag.content.length) <$> tagLength none rest := by
  rw [Tag.content, List.append_assoc, tagLength_plain fun c hc => (h.name.isTagName c hc).2,
    tagLength_attributeTexts h.words h.values, Functor.map_map]
  congr 1
  funext n
  simp only [List.length_append]
  omega

theorem ofContent_content (h : tag.Writable) : Tag.ofContent tag.content = tag := by
  have hname : ∀ c ∈ tag.name.toList, (!isSpace c) = true := by
    intro c hc
    simp [h.name.not_space hc]
  have hattributes : attributesFrom .between [] (tag.attributes.flatMap attributeText)
      = tag.attributes :=
    attributesFrom_attributeTexts h.words h.values h.distinct (by simp)
  have hblank : (tag.attributes.flatMap attributeText).takeWhile (fun c => !isSpace c) = [] := by
    cases tag.attributes <;> simp [attributeText, isSpace]
  have hkept : (tag.attributes.flatMap attributeText).dropWhile (fun c => !isSpace c)
      = tag.attributes.flatMap attributeText := by
    cases tag.attributes <;> simp [attributeText, isSpace]
  rw [Tag.ofContent, Tag.content, List.takeWhile_append_of_pos hname,
    List.dropWhile_append_of_pos hname, hblank, hkept, hattributes, List.append_nil,
    String.ofList_toList]

theorem getLast?_content_ne_slash (h : tag.Writable) : tag.content.getLast? ≠ some '/' := by
  rcases List.eq_nil_or_concat tag.attributes with hnone | ⟨attributes, a, hsome⟩
  · rw [Tag.content, hnone, List.flatMap_nil, List.append_nil]
    intro hlast
    exact h.name.ne (List.mem_of_getLast? hlast) (by decide) rfl
  · have hquote : attributeText a = ' ' :: (a.1.toList ++ '=' :: '"' :: a.2.toList) ++ ['"'] := by
      simp [attributeText]
    rw [Tag.content, hsome, List.concat_eq_append, List.flatMap_append, List.flatMap_singleton,
      hquote, ← List.append_assoc, ← List.append_assoc, List.getLast?_concat]
    decide

/-- A text that the bracket after it ends, and that starts nothing but a tag. -/
structure IsTagText (content : List Char) : Prop where
  start : ∃ c rest, content = c :: rest ∧ c ∉ ['!', '?', '/']
  length : tagLength none (content ++ ['>']) = .ok content.length
  noSlash : content.getLast? ≠ some '/'

theorem tagLength_of_ends {quote : Option Char} {content : List Char}
    (h : tagLength quote (content ++ ['>']) = .ok content.length) (rest : List Char) :
    tagLength quote (content ++ rest) = (· + content.length) <$> tagLength none rest := by
  induction content generalizing quote with
  | nil =>
    cases quote with
    | none => simp
    | some q => cases h
  | cons c content ih =>
    have hlonger {quote : Option Char}
        (hrest : (· + 1) <$> tagLength quote (content ++ ['>']) = .ok (content.length + 1)) :
        (· + 1) <$> tagLength quote (content ++ rest)
          = (· + (content.length + 1)) <$> tagLength none rest := by
      obtain ⟨n, hn, hlength⟩ := map_ok.mp hrest
      rw [Nat.succ.inj hlength] at hn
      rw [ih hn, Functor.map_map]
      rfl
    rw [List.cons_append] at h ⊢
    cases quote with
    | none =>
      rw [tagLength] at h ⊢
      split at h
      · cases h
      · next hbracket =>
        rw [if_neg hbracket]
        exact hlonger h
    | some q =>
      rw [tagLength] at h ⊢
      exact hlonger h

theorem eventsAfter_openingTag {content rest : List Char}
    (hstart : ∃ c more, content = c :: more ∧ c ∉ ['!', '?', '/'])
    (hlength : tagLength none (content ++ '>' :: rest) = .ok content.length) :
    eventsAfter 0 ('<' :: (content ++ '>' :: rest)) = openingEvent content :: eventsAfter 0 rest := by
  -- No end tag, comment, declaration or instruction starts like this.
  have hopening : markupPiece (content ++ '>' :: rest) = openingPiece (content ++ '>' :: rest) := by
    obtain ⟨c, more, rfl, hc⟩ := hstart
    unfold markupPiece
    split
    · next heq => exact absurd (List.cons.inj heq).1 fun h => hc (by simp [h])
    · next heq => exact absurd (List.cons.inj heq).1 fun h => hc (by simp [h])
    · next heq => exact absurd (List.cons.inj heq).1 fun h => hc (by simp [h])
    · rfl
  have hpiece : pieceAt '<' (content ++ '>' :: rest)
      = .ok (some (openingEvent content), (content ++ ['>']).length) := by
    simp only [pieceAt, if_true, hopening, openingPiece, hlength, bind_ok]
    simp [pure, Except.pure]
  have hsplit : content ++ '>' :: rest = (content ++ ['>']) ++ rest := by
    simp
  rw [eventsAfter, hpiece]
  dsimp only
  rw [hsplit, eventsAfter_length]
  rfl

theorem IsTagText.eventsAfter_start {content : List Char} (h : IsTagText content)
    (rest : List Char) :
    eventsAfter 0 ('<' :: (content ++ '>' :: rest))
      = .start (Tag.ofContent content) :: eventsAfter 0 rest := by
  have hlength : tagLength none (content ++ '>' :: rest) = .ok content.length := by
    rw [tagLength_of_ends h.length]
    simp [tagLength, Functor.map, Except.map]
  rw [eventsAfter_openingTag h.start hlength, openingEvent, if_neg h.noSlash]

theorem IsTagText.eventsAfter_empty {content : List Char} (h : IsTagText content)
    (rest : List Char) :
    eventsAfter 0 ('<' :: (content ++ '/' :: '>' :: rest))
      = .empty (Tag.ofContent content) :: eventsAfter 0 rest := by
  have hlength : tagLength none (content ++ ['/'] ++ '>' :: rest)
      = .ok (content ++ ['/']).length := by
    rw [List.append_assoc, tagLength_of_ends h.length]
    simp [tagLength, Functor.map, Except.map, isQuote]
    omega
  have hstart : ∃ c more, content ++ ['/'] = c :: more ∧ c ∉ ['!', '?', '/'] := by
    obtain ⟨c, more, rfl, hc⟩ := h.start
    exact ⟨c, more ++ ['/'], rfl, hc⟩
  have hevent : openingEvent (content ++ ['/']) = .empty (Tag.ofContent content) := by
    rw [openingEvent, if_pos (by simp), List.dropLast_concat]
  have htext : content ++ '/' :: '>' :: rest = content ++ ['/'] ++ '>' :: rest := by
    simp
  rw [htext, eventsAfter_openingTag hstart hlength, hevent]

/-- A text between brackets that is read to its end, and as the tag. -/
structure SpellsTag (content : List Char) (tag : Tag) : Prop where
  letter : ∃ c rest, content = c :: rest ∧ c.isAlpha = true
  length : ∀ rest, tagLength none (content ++ rest)
    = (· + content.length) <$> tagLength none rest
  noSlash : content.getLast? ≠ some '/'
  read : Tag.ofContent content = tag

theorem Tag.Writable.spellsTag (h : tag.Writable) : SpellsTag tag.content tag where
  letter := by
    obtain ⟨c, name, hname⟩ := h.name.exists_cons
    exact ⟨c, name ++ tag.attributes.flatMap attributeText, by rw [Tag.content, hname]; rfl,
      h.name.2 c (hname ▸ List.mem_cons_self)⟩
  length := tagLength_content h
  noSlash := getLast?_content_ne_slash h
  read := ofContent_content h

theorem SpellsTag.isTagText {content : List Char} (h : SpellsTag content tag) :
    IsTagText content where
  start := by
    obtain ⟨c, rest, rfl, hc⟩ := h.letter
    refine ⟨c, rest, rfl, fun hmem => ?_⟩
    simp only [List.mem_cons, List.not_mem_nil, or_false] at hmem
    rcases hmem with rfl | rfl | rfl <;> exact absurd hc (by decide)
  length := by
    rw [h.length]
    simp [tagLength, Functor.map, Except.map]
  noSlash := h.noSlash

theorem SpellsTag.eventsAfter_start {content : List Char} (h : SpellsTag content tag)
    (rest : List Char) :
    eventsAfter 0 ('<' :: (content ++ '>' :: rest)) = .start tag :: eventsAfter 0 rest :=
  h.read ▸ h.isTagText.eventsAfter_start rest

theorem SpellsTag.eventsAfter_empty {content : List Char} (h : SpellsTag content tag)
    (rest : List Char) :
    eventsAfter 0 ('<' :: (content ++ '/' :: '>' :: rest))
      = .empty tag :: eventsAfter 0 rest :=
  h.read ▸ h.isTagText.eventsAfter_empty rest

theorem eventsAfter_break (rest : List Char) :
    eventsAfter 0 ('\n' :: rest) = eventsAfter 0 rest := by
  simp [eventsAfter, pieceAt]

theorem eventsAfter_start (h : tag.Writable) (rest : List Char) :
    eventsAfter 0 ('<' :: (tag.content ++ ['>', '\n']) ++ rest)
      = .start tag :: eventsAfter 0 rest := by
  rw [← eventsAfter_break rest, ← h.spellsTag.eventsAfter_start]
  simp

theorem eventsAfter_empty (h : tag.Writable) (rest : List Char) :
    eventsAfter 0 ('<' :: (tag.content ++ ['/', '>', '\n']) ++ rest)
      = .empty tag :: eventsAfter 0 rest := by
  rw [← eventsAfter_break rest, ← h.spellsTag.eventsAfter_empty]
  simp

theorem eventsAfter_close (h : tag.Writable) (rest : List Char) :
    eventsAfter 0 (endTag tag.name ++ ['\n'] ++ rest) = .close tag.name :: eventsAfter 0 rest := by
  rw [List.append_assoc, eventsAfter_endTag h.name.isTagName]
  simp [eventsAfter, pieceAt]

end

-- ---------------------------------------------------------------------------
-- Elements
-- ---------------------------------------------------------------------------

/-- The text of the element is read as the element, wherever it stands. -/
def Node.ReadsBack (node : Node) : Prop :=
  ∀ frames done rest, nodesFrom frames done (eventsAfter 0 (node.written ++ rest))
    = nodesFrom frames (node :: done) (eventsAfter 0 rest)

theorem nodesFrom_writtenAll {nodes : List Node} (h : ∀ node ∈ nodes, node.ReadsBack)
    (frames : List Frame) (done : List Node) (rest : List Char) :
    nodesFrom frames done (eventsAfter 0 (writtenAll nodes ++ rest))
      = nodesFrom frames (nodes.reverse ++ done) (eventsAfter 0 rest) := by
  induction nodes generalizing done with
  | nil => rfl
  | cons node nodes ih =>
    obtain ⟨hnode, hnodes⟩ := List.forall_mem_cons.mp h
    rw [writtenAll, List.append_assoc, hnode, ih hnodes]
    simp

theorem Node.Writable.readsBack {node : Node} (h : node.Writable) : node.ReadsBack := by
  induction h with
  | @empty tag htag =>
    intro frames done rest
    rw [Node.written, eventsAfter_empty htag, nodesFrom]
  | @element tag children htag _ ih =>
    -- The children leave the frames as they are, so the end tag meets its own frame.
    intro frames done rest
    rw [Node.written, List.append_assoc, eventsAfter_start htag, nodesFrom, List.append_assoc,
      nodesFrom_writtenAll ih, eventsAfter_close htag, nodesFrom, if_pos rfl]
    simp

/-- Written elements are the elements of their text. -/
theorem nodes_writtenAll {nodes : List Node} (h : ∀ node ∈ nodes, node.Writable) :
    Markup.nodes (String.ofList (writtenAll nodes)) = nodes := by
  -- The text starts with a bracket or is empty, so no byte order mark is taken off.
  have hmark : withoutMark (writtenAll nodes) = writtenAll nodes := by
    cases nodes with
    | nil => rfl
    | cons node nodes =>
      have hnode := h node List.mem_cons_self
      cases hnode <;> simp [writtenAll, Node.written, withoutMark]
  have hread := nodesFrom_writtenAll (fun node hnode => (h node hnode).readsBack) [] [] []
  rw [List.append_nil] at hread
  rw [nodes_of_ofList rfl, events, hmark, nodesOfEvents, hread]
  simp [eventsAfter, nodesFrom, closeAll]

end EntityGen.Markup
