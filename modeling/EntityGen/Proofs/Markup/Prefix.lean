import EntityGen.Markup.Event
import EntityGen.Proofs.Results
import Mathlib.Data.List.TakeWhile

/-!
# Reading the front of a document

What was read to its end is read alike whatever follows. So the events of a
text that ends between tags are the first events of every longer text.
-/

namespace EntityGen.Markup

variable {text more : List Char}

-- ---------------------------------------------------------------------------
-- Markers
-- ---------------------------------------------------------------------------

theorem prefix_of_prefix_append {word : List Char} (h : ¬ word <+: text)
    (hmore : word <+: text ++ more) : text <+: word :=
  (List.prefix_or_prefix_of_prefix hmore (List.prefix_append text more)).resolve_left h

theorem offsetOf?_append (more : List Char) {marker : List Char} {n : Nat}
    (h : offsetOf? marker text = some n) :
    n + marker.length ≤ text.length ∧ offsetOf? marker (text ++ more) = some n := by
  induction text generalizing n with
  | nil => cases h
  | cons c text ih =>
    simp only [List.cons_append, offsetOf?, List.isPrefixOf_iff_prefix] at h ⊢
    split at h
    · next hmarker =>
      cases h
      have hmore : marker <+: c :: (text ++ more) :=
        hmarker.trans (List.prefix_append (c :: text) more)
      exact ⟨by simpa using hmarker.length_le, if_pos hmore⟩
    · next hmarker =>
      obtain ⟨m, hm, rfl⟩ := Option.map_eq_some_iff.mp h
      obtain ⟨hlength, hm⟩ := ih hm
      have hmore : ¬ marker <+: c :: (text ++ more) := by
        intro hmore
        have hpart : c :: text <+: marker := prefix_of_prefix_append hmarker hmore
        have hle := hpart.length_le
        simp only [List.length_cons] at hle
        omega
      exact ⟨by simp; omega, by rw [if_neg hmore, hm]; rfl⟩

theorem tagLength_append (more : List Char) {quote : Option Char} {n : Nat}
    (h : tagLength quote text = .ok n) :
    n < text.length ∧ tagLength quote (text ++ more) = .ok n := by
  induction text generalizing quote n with
  | nil => cases h
  | cons c text ih =>
    rw [List.cons_append]
    cases quote with
    | none =>
      rw [tagLength] at h ⊢
      split at h
      · next hc =>
        cases h
        exact ⟨by simp, if_pos hc⟩
      · next hc =>
        obtain ⟨m, hm, rfl⟩ := map_ok.mp h
        obtain ⟨hlength, hm⟩ := ih hm
        exact ⟨by simpa using hlength, by rw [if_neg hc, hm]; rfl⟩
    | some q =>
      rw [tagLength] at h ⊢
      obtain ⟨m, hm, rfl⟩ := map_ok.mp h
      obtain ⟨hlength, hm⟩ := ih hm
      exact ⟨by simpa using hlength, by rw [hm]; rfl⟩

-- ---------------------------------------------------------------------------
-- Document types
-- ---------------------------------------------------------------------------

theorem DoctypeScan.next?_eq_none {scan : DoctypeScan} {c : Char} :
    scan.next? c text = none ↔ c = '>' ∧ (scan = .outside none ∨ scan = .afterSubset) := by
  cases scan with
  | outside quote =>
    cases quote with
    | none =>
      simp only [next?]
      split_ifs <;> simp_all
    | some q => simp [next?]
  | declaration hasStrings quote =>
    cases quote with
    | none =>
      simp only [next?]
      split_ifs <;> simp
    | some q => simp [next?]
  | subset | comment | instruction =>
    simp only [next?]
    split_ifs <;> simp
  | afterSubset => simp [next?]

theorem mem_of_doctypeLength? {scan : DoctypeScan} {skipped n : Nat}
    (h : doctypeLength? scan skipped text = some n) : '>' ∈ text := by
  induction text generalizing scan skipped n with
  | nil => cases h
  | cons c text ih =>
    cases skipped with
    | succ skipped =>
      obtain ⟨m, hm, -⟩ := Option.map_eq_some_iff.mp h
      exact List.mem_cons_of_mem c (ih hm)
    | zero =>
      rw [doctypeLength?] at h
      cases hnext : scan.next? c text with
      | none =>
        obtain ⟨rfl, -⟩ := DoctypeScan.next?_eq_none.mp hnext
        exact List.mem_cons_self
      | some next =>
        rw [hnext] at h
        obtain ⟨m, hm, -⟩ := Option.map_eq_some_iff.mp h
        exact List.mem_cons_of_mem c (ih hm)

/-- Looking ahead for a word never goes beyond a bracket in the text. -/
theorem isPrefixOf_append_of_mem {word : List Char} (hword : '>' ∉ word.dropLast)
    (h : '>' ∈ text) : word.isPrefixOf (text ++ more) = word.isPrefixOf text := by
  rw [Bool.eq_iff_iff, List.isPrefixOf_iff_prefix, List.isPrefixOf_iff_prefix]
  refine ⟨fun hmore => ?_, fun hprefix => hprefix.trans (List.prefix_append text more)⟩
  by_contra hprefix
  obtain ⟨missing, rfl⟩ := prefix_of_prefix_append hprefix hmore
  cases missing with
  | nil => exact hprefix (by simp)
  | cons c missing =>
    rw [List.dropLast_append_of_ne_nil (List.cons_ne_nil c missing)] at hword
    exact hword (List.mem_append_left _ h)

theorem DoctypeScan.next?_append {scan : DoctypeScan} {c : Char} (h : '>' ∈ text) :
    scan.next? c (text ++ more) = scan.next? c text := by
  have hahead {word : String} (hword : '>' ∉ word.toList.dropLast) :
      word.toList.isPrefixOf (text ++ more) = word.toList.isPrefixOf text :=
    isPrefixOf_append_of_mem hword h
  have hopened : DoctypeScan.opened (text ++ more) = DoctypeScan.opened text := by
    simp (disch := decide) only [DoctypeScan.opened, hahead, List.any_cons, List.any_nil]
  cases scan with
  | outside quote => cases quote <;> rfl
  | subset => simp only [next?, hopened]
  | comment => simp (disch := decide) only [next?, hahead]
  | instruction => simp (disch := decide) only [next?, hahead]
  | declaration hasStrings quote => cases quote <;> rfl
  | afterSubset => rfl

theorem doctypeLength?_append (more : List Char) {scan : DoctypeScan} {skipped n : Nat}
    (h : doctypeLength? scan skipped text = some n) :
    n < text.length ∧ doctypeLength? scan skipped (text ++ more) = some n := by
  induction text generalizing scan skipped n with
  | nil => cases h
  | cons c text ih =>
    cases skipped with
    | succ skipped =>
      obtain ⟨m, hm, rfl⟩ := Option.map_eq_some_iff.mp h
      obtain ⟨hlength, hm⟩ := ih hm
      exact ⟨by simpa using hlength, by rw [List.cons_append, doctypeLength?, hm]; rfl⟩
    | zero =>
      rw [List.cons_append, doctypeLength?]
      rw [doctypeLength?] at h
      cases hnext : scan.next? c text with
      | none =>
        rw [hnext] at h
        cases h
        have hmore : scan.next? c (text ++ more) = none :=
          DoctypeScan.next?_eq_none.mpr (DoctypeScan.next?_eq_none.mp hnext)
        exact ⟨by simp, by rw [hmore]⟩
      | some next =>
        rw [hnext] at h
        obtain ⟨m, hm, rfl⟩ := Option.map_eq_some_iff.mp h
        rw [DoctypeScan.next?_append (mem_of_doctypeLength? hm), hnext]
        obtain ⟨hlength, hm⟩ := ih hm
        exact ⟨by simpa using hlength, by simp only [hm]; rfl⟩

-- ---------------------------------------------------------------------------
-- Pieces
-- ---------------------------------------------------------------------------

/-- What is read lies in the text and does not depend on what follows. -/
def ReadsOn (read : List Char → Piece) : Prop :=
  ∀ ⦃text : List Char⦄ ⦃event? : Option Event⦄ ⦃n : Nat⦄ (more : List Char),
    read text = .ok (event?, n) → n ≤ text.length ∧ read (text ++ more) = .ok (event?, n)

theorem passedOver_append {opening : Nat} {marker : String} {unclosed unclosed' : Error}
    {event? : Option Event} {n : Nat}
    (h : passedOver opening marker unclosed text = .ok (event?, n)) :
    n ≤ text.length ∧ passedOver opening marker unclosed' (text ++ more) = .ok (event?, n) := by
  unfold passedOver at h
  split at h
  · next m hm =>
    cases h
    have hopening : opening ≤ text.length := by
      by_contra hlong
      rw [List.drop_of_length_le (Nat.le_of_not_le hlong)] at hm
      cases hm
    obtain ⟨hlength, hmore⟩ := offsetOf?_append more hm
    rw [List.length_drop, String.length_toList] at hlength
    refine ⟨by omega, ?_⟩
    rw [passedOver, List.drop_append_of_le_length hopening, hmore]
  · cases h

theorem tagPiece_readsOn (event : List Char → Event) :
    ReadsOn fun text => do
      let n ← tagLength none text
      return (some (event (text.take n)), n + 1) := by
  intro text event? n more h
  obtain ⟨m, hm, h⟩ := bind_ok.mp h
  cases h
  obtain ⟨hlength, hmore⟩ := tagLength_append more hm
  refine ⟨hlength, bind_ok.mpr ⟨m, hmore, ?_⟩⟩
  rw [List.take_append_of_le_length (Nat.le_of_lt hlength)]
  rfl

theorem instructionPiece_readsOn : ReadsOn instructionPiece := by
  intro text event? n more h
  cases text with
  | nil => cases h
  | cons c text =>
    by_cases hc : c = '>'
    · subst hc
      cases h
    · have hpiece (rest : List Char) : instructionPiece (c :: rest) = passedOver 0 "?>"
          (if startsXmlDeclaration (c :: rest) then .unclosedXmlDeclaration
           else .unclosedInstruction) (c :: rest) := by
        simp [instructionPiece, hc]
      rw [hpiece] at h
      rw [List.cons_append, hpiece]
      exact passedOver_append h

theorem guarded_readsOn {word : List Char} {opening : Nat} {marker : String}
    {unclosed missing : Error} :
    ReadsOn fun text =>
      if word.isPrefixOf text then passedOver opening marker unclosed text else .error missing := by
  intro text event? n more h
  dsimp only at h ⊢
  split at h
  · next hword =>
    rw [List.isPrefixOf_iff_prefix] at hword
    have hmore : word.isPrefixOf (text ++ more) = true :=
      List.isPrefixOf_iff_prefix.mpr (hword.trans (List.prefix_append text more))
    rw [if_pos hmore]
    exact passedOver_append h
  · cases h

def doctypePiece (text : List Char) : Piece :=
  if (text.take 7).map Char.toUpper = "DOCTYPE".toList then
    match doctypeLength? (.outside none) 0 (text.drop 7) with
    | none => .error .unclosedDoctype
    | some n =>
      if ((text.drop 7).take n).all isSpace then .error .missingDoctypeName
      else .ok (none, 7 + n + 1)
  else .error .unclosedDoctype

theorem doctypePiece_readsOn : ReadsOn doctypePiece := by
  intro text event? n more h
  unfold doctypePiece at h ⊢
  split at h
  · next hword =>
    have hlong : 7 ≤ text.length := by
      have hlength : ((text.take 7).map Char.toUpper).length = 7 := by rw [hword]; rfl
      simp only [List.length_map, List.length_take] at hlength
      omega
    rw [List.take_append_of_le_length hlong, if_pos hword, List.drop_append_of_le_length hlong]
    cases hdoctype : doctypeLength? (.outside none) 0 (text.drop 7) with
    | none =>
      rw [hdoctype] at h
      cases h
    | some m =>
      obtain ⟨hlength, hmore⟩ := doctypeLength?_append more hdoctype
      rw [hdoctype] at h
      dsimp only at h
      rw [hmore]
      dsimp only
      rw [List.take_append_of_le_length (Nat.le_of_lt hlength)]
      rw [List.length_drop] at hlength
      split at h
      · cases h
      · next hname =>
        cases h
        exact ⟨by omega, if_neg hname⟩
  · cases h

theorem declarationPiece_readsOn : ReadsOn declarationPiece := by
  intro text event? n more h
  cases text with
  | nil => cases h
  | cons c text =>
    by_cases hdata : c = '['
    · subst hdata
      exact guarded_readsOn more h
    by_cases hcomment : c = '-'
    · subst hcomment
      exact guarded_readsOn more h
    have hpiece (rest : List Char) : declarationPiece (c :: rest) =
        if c = 'D' || c = 'd' then doctypePiece (c :: rest) else .error .invalidDeclaration := by
      unfold declarationPiece
      split
      · next heq => exact absurd (List.cons.inj heq).1 hdata
      · next heq => exact absurd (List.cons.inj heq).1 hcomment
      · next heq =>
        obtain ⟨rfl, -⟩ := List.cons.inj heq
        rfl
      · next heq => cases heq
    rw [hpiece] at h
    rw [List.cons_append, hpiece]
    split at h
    · next hletter =>
      rw [if_pos hletter]
      exact doctypePiece_readsOn more h
    · cases h

theorem referencePiece_readsOn : ReadsOn referencePiece := by
  intro text event? n more h
  unfold referencePiece at h ⊢
  dsimp only at h ⊢
  generalize hinside : (fun c : Char => c ≠ ';' && c ≠ '&' && c ≠ '<') = inside at h ⊢
  have hend : inside ';' = false := by rw [← hinside]; rfl
  obtain ⟨rest, hrest⟩ := List.takeWhile_prefix inside (l := text)
  generalize hword : text.takeWhile inside = word at h hrest
  have hall : ∀ c ∈ word, inside c = true := by
    rw [← hword]
    exact fun c hc => List.mem_takeWhile_imp hc
  subst hrest
  rw [List.drop_left] at h
  split at h
  · next tail =>
    cases h
    have hmore : (word ++ ';' :: tail ++ more).takeWhile inside = word := by
      rw [List.append_assoc, List.takeWhile_append_of_pos hall, List.cons_append,
        List.takeWhile_cons_of_neg (by simp [hend]), List.append_nil]
    rw [hmore, List.append_assoc, List.drop_left]
    exact ⟨by simp, rfl⟩
  · cases h

theorem longer_append {read : List Char → Piece} (hread : ReadsOn read) {event? : Option Event}
    {n : Nat} (h : ((read text).map fun (event?, n) => (event?, n + 1)) = .ok (event?, n)) :
    n ≤ text.length + 1 ∧
      ((read (text ++ more)).map fun (event?, n) => (event?, n + 1)) = .ok (event?, n) := by
  obtain ⟨⟨event?, m⟩, hm, h⟩ := map_ok.mp h
  cases h
  obtain ⟨hlength, hmore⟩ := hread more hm
  exact ⟨Nat.succ_le_succ hlength, map_ok.mpr ⟨_, hmore, rfl⟩⟩

theorem markupPiece_readsOn : ReadsOn markupPiece := by
  intro text event? n more h
  cases text with
  | nil => cases h
  | cons c text =>
    rw [List.cons_append]
    by_cases hdeclaration : c = '!'
    · subst hdeclaration
      exact longer_append declarationPiece_readsOn h
    by_cases hinstruction : c = '?'
    · subst hinstruction
      exact longer_append instructionPiece_readsOn h
    by_cases hclosing : c = '/'
    · subst hclosing
      exact longer_append (tagPiece_readsOn fun content => .close (closedName content)) h
    have hpiece (rest : List Char) : markupPiece (c :: rest) = openingPiece (c :: rest) := by
      simp [markupPiece, hdeclaration, hinstruction, hclosing]
    rw [hpiece] at h ⊢
    exact tagPiece_readsOn openingEvent more h

theorem pieceAt_readsOn (c : Char) : ReadsOn (pieceAt c) := by
  intro text event? n more h
  unfold pieceAt at h ⊢
  split_ifs at h ⊢
  · exact markupPiece_readsOn more h
  · exact referencePiece_readsOn more h
  · cases h
    exact ⟨Nat.zero_le _, rfl⟩

-- ---------------------------------------------------------------------------
-- Events
-- ---------------------------------------------------------------------------

theorem eventsAfter_length (text more : List Char) :
    eventsAfter text.length (text ++ more) = eventsAfter 0 more := by
  induction text with
  | nil => rfl
  | cons c text ih => simpa [eventsAfter] using ih

/-- If the text ends between pieces, reading goes on there. -/
theorem eventsAfter_append {skipped : Nat} (hskipped : skipped ≤ text.length)
    (h : ∀ error, .failed error ∉ eventsAfter skipped text) :
    eventsAfter skipped (text ++ more) = eventsAfter skipped text ++ eventsAfter 0 more := by
  induction text generalizing skipped with
  | nil =>
    obtain rfl := Nat.le_zero.mp hskipped
    rfl
  | cons c text ih =>
    cases skipped with
    | succ skipped => exact ih (Nat.le_of_succ_le_succ hskipped) h
    | zero =>
      simp only [List.cons_append, eventsAfter] at h ⊢
      cases hpiece : pieceAt c text with
      | error e => simp [hpiece] at h
      | ok piece =>
        obtain ⟨event?, n⟩ := piece
        obtain ⟨hlength, hmore⟩ := pieceAt_readsOn c more hpiece
        simp only [hpiece] at h
        simp only [hmore, List.append_assoc]
        rw [ih hlength fun error herror => h error (List.mem_append_right _ herror)]

theorem withoutMark_append (h : text ≠ []) :
    withoutMark (text ++ more) = withoutMark text ++ more := by
  cases text with
  | nil => exact absurd rfl h
  | cons c text =>
    by_cases hmark : c = '\uFEFF'
    · subst hmark
      rfl
    · simp [withoutMark, hmark]

theorem events_append (htext : text ≠ []) (h : ∀ error, .failed error ∉ events text) :
    events (text ++ more) = events text ++ eventsAfter 0 more := by
  rw [events, withoutMark_append htext]
  exact eventsAfter_append (Nat.zero_le _) h

/-- A bracket is no byte order mark, so the front may be empty. -/
theorem events_append_bracket (h : ∀ error, .failed error ∉ events text) (rest : List Char) :
    events (text ++ '<' :: rest) = events text ++ eventsAfter 0 ('<' :: rest) := by
  cases text with
  | nil => rfl
  | cons c text => exact events_append (List.cons_ne_nil c text) h

end EntityGen.Markup
