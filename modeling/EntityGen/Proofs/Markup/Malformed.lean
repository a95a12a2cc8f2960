import EntityGen.Proofs.Markup.Prefix
import EntityGen.Proofs.Markup.Writing

/-!
# Malformed attributes

An attribute is well-formed if its value is quoted and no other attribute of the
tag has its name. A tag is read as if its malformed attributes were not there: one
without a value, one without quotes, and one whose name was given a value before.
-/

namespace EntityGen.Markup

-- ---------------------------------------------------------------------------
-- Attributes as they are written
-- ---------------------------------------------------------------------------

/-- An attribute of a tag, malformed or not. -/
inductive WrittenAttribute where
  | quoted (name : String) (quote : Char) (value : String)
  | unquoted (name value : String)
  | bare (name : String)
  deriving DecidableEq

/-- Characters in a row that neither are parted nor end a tag. -/
def IsToken (text : String) : Prop :=
  text ≠ "" ∧ (∀ c ∈ text.toList, isSpace c = false ∧ isQuote c = false ∧ c ≠ '>') ∧
    text.toList.getLast? ≠ some '/'

instance : DecidablePred IsToken := fun text =>
  have : Decidable (∀ c ∈ text.toList, isSpace c = false ∧ isQuote c = false ∧ c ≠ '>') :=
    List.decidableBAll _ _
  inferInstanceAs (Decidable (_ ∧ _ ∧ _))

def IsAttributeName (name : String) : Prop := IsToken name ∧ '=' ∉ name.toList

instance : DecidablePred IsAttributeName := fun _ => inferInstanceAs (Decidable (_ ∧ _))

namespace WrittenAttribute

def name : WrittenAttribute → String
  | .quoted name _ _ | .unquoted name _ | .bare name => name

def valueText : WrittenAttribute → List Char
  | .quoted _ quote value => quote :: (value.toList ++ [quote])
  | .unquoted _ value => value.toList
  | .bare _ => []

def text : WrittenAttribute → List Char
  | .quoted name quote value => ' ' :: (name.toList ++ '=' :: quote :: (value.toList ++ [quote]))
  | .unquoted name value => ' ' :: (name.toList ++ '=' :: value.toList)
  | .bare name => ' ' :: name.toList

def signed : WrittenAttribute → List String
  | .quoted name _ _ | .unquoted name _ => [name]
  | .bare _ => []

def IsQuoted : WrittenAttribute → Prop
  | .quoted _ _ _ => True
  | _ => False

def pair? : WrittenAttribute → Option (String × String)
  | .quoted name _ value => some (name, value)
  | _ => none

/-- The attribute starts and ends where it is written to. -/
def Legible : WrittenAttribute → Prop
  | .quoted name quote value => IsAttributeName name ∧ isQuote quote = true ∧ quote ∉ value.toList
  | .unquoted name value => IsAttributeName name ∧ IsToken value
  | .bare name => IsAttributeName name

instance : DecidablePred Legible
  | .quoted _ _ _ => inferInstanceAs (Decidable (_ ∧ _ ∧ _))
  | .unquoted _ _ => inferInstanceAs (Decidable (_ ∧ _))
  | .bare _ => inferInstanceAs (Decidable (IsAttributeName _))

instance : DecidablePred IsQuoted
  | .quoted _ _ _ => .isTrue trivial
  | .unquoted _ _ | .bare _ => .isFalse id

end WrittenAttribute

/-- The attributes in a row start and end where they are written to. A value that is
passed over because of its name ends at the first blank. -/
def AllLegible (seen : List String) : List WrittenAttribute → Prop
  | [] => True
  | a :: rest =>
    a.Legible ∧ (a.name ∈ seen → ∀ c ∈ a.valueText, isSpace c = false) ∧
      AllLegible (a.signed ++ seen) rest

instance AllLegible.decidable (seen : List String) : DecidablePred (AllLegible seen)
  | [] => .isTrue trivial
  | a :: rest =>
    have : Decidable (∀ c ∈ a.valueText, isSpace c = false) := List.decidableBAll _ _
    have := AllLegible.decidable (a.signed ++ seen) rest
    inferInstanceAs (Decidable (_ ∧ _ ∧ _))

/-- The attributes that are well-formed after those that had their sign before. -/
def wellFormed (seen : List String) : List WrittenAttribute → List WrittenAttribute
  | [] => []
  | .quoted name quote value :: rest =>
    if name ∈ seen then wellFormed (name :: seen) rest
    else .quoted name quote value :: wellFormed (name :: seen) rest
  | .unquoted name _ :: rest => wellFormed (name :: seen) rest
  | .bare _ :: rest => wellFormed seen rest

-- ---------------------------------------------------------------------------
-- Reading attributes
-- ---------------------------------------------------------------------------

def AttributeScan.IsResting : AttributeScan → Prop
  | .between | .dropped | .name _ => True
  | _ => False

section
variable {scan : AttributeScan} {seen : List String} {name : String}

theorem attributesFrom_blank (hscan : scan.IsResting) {c : Char} (hspace : isSpace c = false)
    (hsign : c ≠ '=') (rest : List Char) :
    attributesFrom scan seen (' ' :: c :: rest) = attributesFrom (.name [c]) seen rest := by
  have hblank : isSpace ' ' = true := by decide
  cases scan with
  | between | dropped | name => simp [attributesFrom, hblank, hspace, hsign]
  | afterName | beforeValue | value => exact hscan.elim

theorem attributesFrom_spelledName (hscan : scan.IsResting) (hname : IsAttributeName name)
    (rest : List Char) :
    attributesFrom scan seen (' ' :: (name.toList ++ rest))
      = attributesFrom (.name name.toList.reverse) seen rest := by
  have hne : name.toList ≠ [] := by simpa using hname.1.1
  obtain ⟨c, cs, hcs⟩ := List.exists_cons_of_ne_nil hne
  have hplain : ∀ d ∈ c :: cs, d ≠ '=' ∧ isSpace d = false := by
    rw [← hcs]
    exact fun d hd => ⟨fun h => hname.2 (h ▸ hd), (hname.1.2.1 d hd).1⟩
  obtain ⟨⟨hsign, hspace⟩, hrest⟩ := List.forall_mem_cons.mp hplain
  rw [hcs, List.cons_append, attributesFrom_blank hscan hspace hsign, attributesFrom_name hrest,
    List.reverse_cons]

theorem attributesFrom_sign (rest : List Char) :
    attributesFrom (.name name.toList.reverse) seen ('=' :: rest)
      = attributesFrom (.afterSign seen name) (name :: seen) rest := by
  simp [attributesFrom, textOfReversed]

theorem attributesFrom_dropped {text : List Char} (h : ∀ c ∈ text, isSpace c = false)
    (rest : List Char) :
    attributesFrom .dropped seen (text ++ rest) = attributesFrom .dropped seen rest := by
  induction text with
  | nil => rfl
  | cons c text ih =>
    obtain ⟨hc, htext⟩ := List.forall_mem_cons.mp h
    simp only [List.cons_append, attributesFrom, hc, Bool.false_eq_true, if_false, ih htext]

theorem attributesFrom_quoted {quote : Char} {value : String} (hquote : isQuote quote = true)
    (hvalue : quote ∉ value.toList) (rest : List Char) :
    attributesFrom (.beforeValue name) seen (quote :: (value.toList ++ quote :: rest))
      = (name, value) :: attributesFrom .between seen rest := by
  have hspace : isSpace quote = false := by
    simp only [isQuote, Bool.or_eq_true, decide_eq_true_eq] at hquote
    rcases hquote with rfl | rfl <;> decide
  simp [attributesFrom, hspace, hquote, attributesFrom_value hvalue, textOfReversed]

theorem attributesFrom_unquoted {value : String} (hvalue : IsToken value) (rest : List Char) :
    attributesFrom (.beforeValue name) seen (value.toList ++ rest)
      = attributesFrom .dropped seen rest := by
  have hne : value.toList ≠ [] := by simpa using hvalue.1
  obtain ⟨c, cs, hcs⟩ := List.exists_cons_of_ne_nil hne
  have hplain := hvalue.2.1
  rw [hcs] at hplain ⊢
  obtain ⟨⟨hspace, hquote, -⟩, hrest⟩ := List.forall_mem_cons.mp hplain
  simp only [List.cons_append, attributesFrom, hspace, hquote, Bool.false_eq_true, if_false]
  exact attributesFrom_dropped (fun d hd => (hrest d hd).1) rest

end

/-- Malformed attributes are passed over. -/
theorem attributesFrom_texts {as : List WrittenAttribute} {scan : AttributeScan}
    {seen : List String} (h : AllLegible seen as) (hscan : scan.IsResting) :
    attributesFrom scan seen (as.flatMap WrittenAttribute.text)
      = (wellFormed seen as).filterMap WrittenAttribute.pair? := by
  induction as generalizing scan seen with
  | nil => cases scan <;> rfl
  | cons a as ih =>
    obtain ⟨ha, hrepeated, hrest⟩ := h
    cases a with
    | bare name =>
      rw [List.flatMap_cons, WrittenAttribute.text, List.cons_append,
        attributesFrom_spelledName hscan ha, wellFormed]
      exact ih hrest trivial
    | unquoted name value =>
      obtain ⟨hname, hvalue⟩ := ha
      rw [List.flatMap_cons, WrittenAttribute.text, List.cons_append, List.append_assoc,
        attributesFrom_spelledName hscan hname, List.cons_append, attributesFrom_sign, wellFormed,
        AttributeScan.afterSign]
      split
      · rw [attributesFrom_dropped fun c hc => (hvalue.2.1 c hc).1]
        exact ih hrest trivial
      · rw [attributesFrom_unquoted hvalue]
        exact ih hrest trivial
    | quoted name quote value =>
      obtain ⟨hname, hquote, hvalue⟩ := ha
      rw [List.flatMap_cons, WrittenAttribute.text, List.cons_append, List.append_assoc,
        attributesFrom_spelledName hscan hname, List.cons_append, attributesFrom_sign, wellFormed,
        AttributeScan.afterSign]
      split
      · next hseen =>
        have hvalue : ∀ c ∈ quote :: (value.toList ++ [quote]), isSpace c = false := hrepeated hseen
        rw [attributesFrom_dropped hvalue]
        exact ih hrest trivial
      · have hbetween : AttributeScan.between.IsResting := trivial
        replace hrest : AllLegible (name :: seen) as := hrest
        rw [List.cons_append, List.append_assoc, List.singleton_append,
          attributesFrom_quoted hquote hvalue, ih hrest hbetween]
        rfl

-- ---------------------------------------------------------------------------
-- Well-formed attributes
-- ---------------------------------------------------------------------------

/-- The attributes are quoted, and their names differ from each other and those before. -/
def AllWellFormed (seen : List String) (as : List WrittenAttribute) : Prop :=
  (∀ a ∈ as, a.IsQuoted ∧ a.name ∉ seen) ∧ (as.map WrittenAttribute.name).Nodup

instance (seen : List String) : DecidablePred (AllWellFormed seen) :=
  fun _ => inferInstanceAs (Decidable (_ ∧ _))

theorem wellFormed_allWellFormed (seen : List String) (as : List WrittenAttribute) :
    AllWellFormed seen (wellFormed seen as) := by
  induction as generalizing seen with
  | nil => exact ⟨nofun, .nil⟩
  | cons a as ih =>
    -- names that were given a sign stay out of what follows
    have hlater {name : String} (h : AllWellFormed (name :: seen) (wellFormed (name :: seen) as)) :
        AllWellFormed seen (wellFormed (name :: seen) as) := by
      refine ⟨fun a ha => ⟨(h.1 a ha).1, fun hseen => ?_⟩, h.2⟩
      exact (h.1 a ha).2 (List.mem_cons_of_mem _ hseen)
    cases a with
    | bare name => exact ih seen
    | unquoted name value => exact hlater (ih (name :: seen))
    | quoted name quote value =>
      rw [wellFormed]
      split
      · exact hlater (ih (name :: seen))
      · next hnew =>
        refine ⟨List.forall_mem_cons.mpr ⟨⟨trivial, hnew⟩, (hlater (ih _)).1⟩, ?_⟩
        refine List.nodup_cons.mpr ⟨fun hmem => ?_, (ih _).2⟩
        obtain ⟨a, ha, hname⟩ := List.mem_map.mp hmem
        exact ((ih _).1 a ha).2 (List.mem_cons.mpr (.inl hname))

theorem AllWellFormed.rest {seen : List String} {a : WrittenAttribute} {as : List WrittenAttribute}
    (h : AllWellFormed seen (a :: as)) : AllWellFormed (a.name :: seen) as := by
  obtain ⟨hall, hnames⟩ := h
  obtain ⟨-, hrest⟩ := List.forall_mem_cons.mp hall
  obtain ⟨hfirst, hnames⟩ := List.nodup_cons.mp hnames
  refine ⟨fun b hb => ⟨(hrest b hb).1, fun hmem => ?_⟩, hnames⟩
  rcases List.mem_cons.mp hmem with hname | hseen
  · exact hfirst (List.mem_map.mpr ⟨b, hb, hname⟩)
  · exact (hrest b hb).2 hseen

/-- Well-formed attributes stay as they are. -/
theorem wellFormed_of_allWellFormed {seen : List String} {as : List WrittenAttribute}
    (h : AllWellFormed seen as) : wellFormed seen as = as := by
  induction as generalizing seen with
  | nil => rfl
  | cons a as ih =>
    have hrest := h.rest
    obtain ⟨hquoted, hnew⟩ := h.1 a List.mem_cons_self
    cases a with
    | bare | unquoted => exact hquoted.elim
    | quoted name quote value =>
      replace hnew : name ∉ seen := hnew
      replace hrest : AllWellFormed (name :: seen) as := hrest
      rw [wellFormed, if_neg hnew, ih hrest]

theorem wellFormed_eq_self_iff {as : List WrittenAttribute} :
    wellFormed [] as = as ↔ AllWellFormed [] as :=
  ⟨fun h => h ▸ wellFormed_allWellFormed [] as, wellFormed_of_allWellFormed⟩

theorem wellFormed_sublist (seen : List String) (as : List WrittenAttribute) :
    (wellFormed seen as).Sublist as := by
  induction as generalizing seen with
  | nil => exact .slnil
  | cons a as ih =>
    cases a with
    | bare name => exact (ih seen).cons _
    | unquoted name value => exact (ih _).cons _
    | quoted name quote value =>
      rw [wellFormed]
      split
      · exact (ih _).cons _
      · exact (ih _).cons_cons _

theorem allLegible_of_allWellFormed {seen : List String} {as : List WrittenAttribute}
    (h : AllWellFormed seen as) (hlegible : ∀ a ∈ as, a.Legible) : AllLegible seen as := by
  induction as generalizing seen with
  | nil => trivial
  | cons a as ih =>
    have hrest := h.rest
    obtain ⟨hquoted, hnew⟩ := h.1 a List.mem_cons_self
    obtain ⟨ha, has⟩ := List.forall_mem_cons.mp hlegible
    cases a with
    | bare | unquoted => exact hquoted.elim
    | quoted name quote value => exact ⟨ha, fun hmem => absurd hmem hnew, ih hrest has⟩

theorem AllLegible.legible {seen : List String} {as : List WrittenAttribute}
    (h : AllLegible seen as) : ∀ a ∈ as, a.Legible := by
  induction as generalizing seen with
  | nil => exact nofun
  | cons a as ih => exact List.forall_mem_cons.mpr ⟨h.1, ih h.2.2⟩

theorem AllLegible.wellFormed {as : List WrittenAttribute} (h : AllLegible [] as) :
    AllLegible [] (wellFormed [] as) :=
  allLegible_of_allWellFormed (wellFormed_allWellFormed [] as)
    fun a ha => h.legible a ((wellFormed_sublist [] as).subset ha)

-- ---------------------------------------------------------------------------
-- Tags
-- ---------------------------------------------------------------------------

theorem IsToken.open {text : String} (h : IsToken text) :
    ∀ c ∈ text.toList, isQuote c = false ∧ c ≠ '>' :=
  fun c hc => (h.2.1 c hc).2

theorem tagLength_text {a : WrittenAttribute} (h : a.Legible) (rest : List Char) :
    tagLength none (a.text ++ rest) = (· + a.text.length) <$> tagLength none rest := by
  have hblank : isQuote ' ' = false ∧ ' ' ≠ '>' := by decide
  have hsign : isQuote '=' = false ∧ '=' ≠ '>' := by decide
  cases a with
  | bare name => exact tagLength_plain (List.forall_mem_cons.mpr ⟨hblank, h.1.open⟩) rest
  | unquoted name value =>
    obtain ⟨hname, hvalue⟩ := h
    have hopen : ∀ c ∈ ' ' :: (name.toList ++ '=' :: value.toList),
        isQuote c = false ∧ c ≠ '>' := by
      simp only [List.forall_mem_cons, List.forall_mem_append]
      exact ⟨hblank, hname.1.open, hsign, hvalue.open⟩
    exact tagLength_plain hopen rest
  | quoted name quote value =>
    obtain ⟨hname, hquote, hvalue⟩ := h
    have hbefore : ∀ c ∈ ' ' :: (name.toList ++ ['=']), isQuote c = false ∧ c ≠ '>' := by
      simp only [List.forall_mem_cons, List.forall_mem_append]
      exact ⟨hblank, hname.1.open, hsign, nofun⟩
    have htext : WrittenAttribute.text (.quoted name quote value) ++ rest
        = (' ' :: (name.toList ++ ['='])) ++ (quote :: (value.toList ++ quote :: rest)) := by
      simp [WrittenAttribute.text]
    rw [htext, tagLength_plain hbefore, tagLength_quotedValue hquote hvalue, Functor.map_map]
    congr 1
    funext n
    simp [WrittenAttribute.text]
    omega

theorem tagLength_texts {as : List WrittenAttribute} (h : ∀ a ∈ as, a.Legible)
    (rest : List Char) :
    tagLength none (as.flatMap WrittenAttribute.text ++ rest)
      = (· + (as.flatMap WrittenAttribute.text).length) <$> tagLength none rest := by
  induction as with
  | nil => simp
  | cons a as ih =>
    obtain ⟨ha, has⟩ := List.forall_mem_cons.mp h
    rw [List.flatMap_cons, List.append_assoc, tagLength_text ha, ih has, Functor.map_map]
    congr 1
    funext n
    simp only [List.length_append]
    omega

def writtenContent (name : String) (as : List WrittenAttribute) : List Char :=
  name.toList ++ as.flatMap WrittenAttribute.text

def writtenTag (name : String) (as : List WrittenAttribute) (isEmpty : Bool) : List Char :=
  '<' :: (writtenContent name as ++ if isEmpty then ['/', '>'] else ['>'])

section
variable {name : String} {as : List WrittenAttribute}

theorem tagLength_writtenContent (hname : IsWord name) (h : ∀ a ∈ as, a.Legible)
    (rest : List Char) :
    tagLength none (writtenContent name as ++ rest)
      = (· + (writtenContent name as).length) <$> tagLength none rest := by
  rw [writtenContent, List.append_assoc, tagLength_plain fun c hc => (hname.isTagName c hc).2,
    tagLength_texts h, Functor.map_map]
  congr 1
  funext n
  simp only [List.length_append]
  omega

theorem ofContent_writtenContent (hname : IsWord name) (h : AllLegible [] as) :
    Tag.ofContent (writtenContent name as)
      = { name, attributes := (wellFormed [] as).filterMap WrittenAttribute.pair? } := by
  have hletters : ∀ c ∈ name.toList, (!isSpace c) = true := by
    intro c hc
    simp [hname.not_space hc]
  have hblank : (as.flatMap WrittenAttribute.text).takeWhile (fun c => !isSpace c) = [] := by
    rcases as with _ | ⟨_ | _ | _, as⟩ <;> simp [WrittenAttribute.text, isSpace]
  have hkept : (as.flatMap WrittenAttribute.text).dropWhile (fun c => !isSpace c)
      = as.flatMap WrittenAttribute.text := by
    rcases as with _ | ⟨_ | _ | _, as⟩ <;> simp [WrittenAttribute.text, isSpace]
  have hbetween : AttributeScan.between.IsResting := trivial
  rw [Tag.ofContent, writtenContent, List.takeWhile_append_of_pos hletters,
    List.dropWhile_append_of_pos hletters, hblank, hkept, attributesFrom_texts h hbetween,
    List.append_nil, String.ofList_toList]

theorem IsToken.getLast?_append_ne_slash {text : String} (h : IsToken text) (before : List Char) :
    (before ++ text.toList).getLast? ≠ some '/' := by
  have hne : text.toList ≠ [] := by simpa using h.1
  rw [List.getLast?_append_of_ne_nil before hne]
  exact h.2.2

theorem WrittenAttribute.Legible.getLast?_text_ne_slash {a : WrittenAttribute} (h : a.Legible) :
    a.text.getLast? ≠ some '/' := by
  cases a with
  | bare name => exact h.1.getLast?_append_ne_slash [' ']
  | unquoted name value =>
    have hlast := h.2.getLast?_append_ne_slash (' ' :: (name.toList ++ ['=']))
    simpa [WrittenAttribute.text] using hlast
  | quoted name quote value =>
    obtain ⟨-, hquote, -⟩ := h
    have htext : WrittenAttribute.text (.quoted name quote value)
        = ' ' :: (name.toList ++ '=' :: quote :: value.toList) ++ [quote] := by
      simp [WrittenAttribute.text]
    rw [htext, List.getLast?_concat]
    rintro ⟨⟩
    cases hquote

theorem getLast?_writtenContent_ne_slash (hname : IsWord name) (h : ∀ a ∈ as, a.Legible) :
    (writtenContent name as).getLast? ≠ some '/' := by
  rcases List.eq_nil_or_concat as with rfl | ⟨before, a, rfl⟩
  · rw [writtenContent, List.flatMap_nil, List.append_nil]
    intro hlast
    exact hname.ne (List.mem_of_getLast? hlast) (by decide) rfl
  · have hne : a.text ≠ [] := by cases a <;> nofun
    rw [writtenContent, List.concat_eq_append, List.flatMap_append, List.flatMap_singleton,
      ← List.append_assoc, List.getLast?_append_of_ne_nil _ hne]
    exact (h a (by simp)).getLast?_text_ne_slash

theorem spellsTag_writtenContent (hname : IsWord name) (h : AllLegible [] as) :
    SpellsTag (writtenContent name as)
      { name, attributes := (wellFormed [] as).filterMap WrittenAttribute.pair? } where
  letter := by
    obtain ⟨c, word, hword⟩ := hname.exists_cons
    exact ⟨c, word ++ as.flatMap WrittenAttribute.text, by rw [writtenContent, hword]; rfl,
      hname.2 c (hword ▸ List.mem_cons_self)⟩
  length := tagLength_writtenContent hname h.legible
  noSlash := getLast?_writtenContent_ne_slash hname h.legible
  read := ofContent_writtenContent hname h

def openingOf (isEmpty : Bool) (tag : Tag) : Event := if isEmpty then .empty tag else .start tag

theorem eventsAfter_writtenTag (hname : IsWord name) (h : AllLegible [] as) (isEmpty : Bool)
    (rest : List Char) :
    eventsAfter 0 (writtenTag name as isEmpty ++ rest)
      = openingOf isEmpty
          { name, attributes := (wellFormed [] as).filterMap WrittenAttribute.pair? }
        :: eventsAfter 0 rest := by
  have hspells := spellsTag_writtenContent hname h
  cases isEmpty with
  | false =>
    refine Eq.trans ?_ (hspells.eventsAfter_start rest)
    simp [writtenTag]
  | true =>
    refine Eq.trans ?_ (hspells.eventsAfter_empty rest)
    simp [writtenTag]

end

end EntityGen.Markup
