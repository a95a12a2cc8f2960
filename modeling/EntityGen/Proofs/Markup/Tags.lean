import EntityGen.Markup.Node
import EntityGen.Proofs.Results

/-!
# The tags of a document

No name occurs twice among the attributes that are read of a tag. All tags of the
tree are tags of the text, so this holds throughout a document.
-/

namespace EntityGen.Markup

-- ---------------------------------------------------------------------------
-- Attribute names
-- ---------------------------------------------------------------------------

def Tag.Distinct (tag : Tag) : Prop := (tag.attributes.map Prod.fst).Nodup

def AttributeScan.pending? : AttributeScan → Option String
  | .beforeValue named | .value named _ _ => some named
  | _ => none

/-- Of the names that had their sign, none is read but the one whose value is looked
for, and no name is read twice. -/
structure NamesApart (scan : AttributeScan) (seen : List String)
    (attributes : List (String × String)) : Prop where
  distinct : (attributes.map Prod.fst).Nodup
  pending : ∀ a ∈ attributes, a.1 ∈ seen → scan.pending? = some a.1

namespace NamesApart

variable {scan : AttributeScan} {seen : List String} {attributes : List (String × String)}

theorem nil : NamesApart scan seen [] := ⟨.nil, nofun⟩

theorem not_mem (h : NamesApart scan seen attributes) (hnone : scan.pending? = none) :
    ∀ a ∈ attributes, a.1 ∉ seen := by
  intro a ha hseen
  rw [h.pending a ha hseen] at hnone
  cases hnone

theorem congr {scan' : AttributeScan} (h : NamesApart scan seen attributes)
    (hsame : scan'.pending? = scan.pending?) : NamesApart scan' seen attributes :=
  ⟨h.distinct, hsame ▸ h.pending⟩

theorem of_quiet {scan' : AttributeScan} (h : NamesApart scan seen attributes)
    (hnone : scan.pending? = none) : NamesApart scan' seen attributes :=
  ⟨h.distinct, fun a ha hseen => absurd hseen (h.not_mem hnone a ha)⟩

theorem sign {name : String} (h : NamesApart (.afterSign seen name) (name :: seen) attributes)
    (scan : AttributeScan) : NamesApart scan seen attributes := by
  refine ⟨h.distinct, fun a ha hseen => ?_⟩
  have hpending := h.pending a ha (List.mem_cons_of_mem name hseen)
  rw [AttributeScan.afterSign] at hpending
  split at hpending
  · cases hpending
  · next hnew =>
    obtain rfl : name = a.1 := Option.some.inj hpending
    exact absurd hseen hnew

theorem value {name text : String} {quote : Char} {reversed : List Char} (hname : name ∈ seen)
    (h : NamesApart .between seen attributes) :
    NamesApart (.value name quote reversed) seen ((name, text) :: attributes) := by
  have hnew := h.not_mem rfl
  refine ⟨List.nodup_cons.mpr ⟨fun hmem => ?_, h.distinct⟩, ?_⟩
  · obtain ⟨a, ha, rfl⟩ := List.mem_map.mp hmem
    exact hnew a ha hname
  · exact List.forall_mem_cons.mpr ⟨fun _ => rfl, fun a ha hseen => absurd hseen (hnew a ha)⟩

end NamesApart

theorem pending?_afterSign (seen : List String) (name : String) :
    ∀ n ∈ (AttributeScan.afterSign seen name).pending?, n ∈ name :: seen := by
  rw [AttributeScan.afterSign]
  split <;> simp [AttributeScan.pending?]

theorem attributesFrom_namesApart (text : List Char) {scan : AttributeScan} {seen : List String}
    (h : ∀ n ∈ scan.pending?, n ∈ seen) :
    NamesApart scan seen (attributesFrom scan seen text) := by
  induction text generalizing scan seen with
  | nil => exact .nil
  | cons c rest ih =>
    -- Between attributes no value is looked for, so it does not matter where the scan stands.
    have hquiet {scan scan' : AttributeScan} (hscan : scan.pending? = none)
        (hscan' : scan'.pending? = none) : NamesApart scan' seen (attributesFrom scan seen rest) :=
      (ih (by simp [hscan])).congr (hscan'.trans hscan.symm)
    have hsign (name : String) := (ih (pending?_afterSign seen name)).sign
    cases scan with
    | between =>
      rw [attributesFrom]
      split <;> exact hquiet rfl rfl
    | name reversed =>
      rw [attributesFrom]
      split
      · exact hsign _ _
      · split <;> exact hquiet rfl rfl
    | afterName name =>
      rw [attributesFrom]
      split
      · exact hquiet rfl rfl
      · split
        · exact hsign _ _
        · exact hquiet rfl rfl
    | beforeValue name =>
      rw [attributesFrom]
      split
      · exact ih h
      · split
        · have hvalue : NamesApart (.value name c []) seen _ := ih h
          exact hvalue.congr rfl
        · exact (@hquiet .dropped .dropped rfl rfl).of_quiet rfl
    | value name quote reversed =>
      rw [attributesFrom]
      split
      · exact (hquiet rfl rfl).value (h name rfl)
      · have hvalue : NamesApart (.value name quote (c :: reversed)) seen _ := ih h
        exact hvalue.congr rfl
    | dropped =>
      rw [attributesFrom]
      split <;> exact hquiet rfl rfl

theorem Tag.ofContent_distinct (content : List Char) : (Tag.ofContent content).Distinct :=
  (attributesFrom_namesApart _ (by simp [AttributeScan.pending?])).distinct

theorem lookup_eq_some_iff_of_nodup {attributes : List (String × String)}
    (h : (attributes.map Prod.fst).Nodup) {name value : String} :
    attributes.lookup name = some value ↔ (name, value) ∈ attributes := by
  induction attributes with
  | nil => simp
  | cons a attributes ih =>
    obtain ⟨hnew, hrest⟩ := List.nodup_cons.mp h
    rw [List.lookup_cons, List.mem_cons]
    by_cases hname : name = a.1
    · have hlater (value : String) : (a.1, value) ∉ attributes := fun hmem =>
        hnew (List.mem_map.mpr ⟨_, hmem, rfl⟩)
      simp [hname, hlater, Prod.ext_iff, eq_comm]
    · simp [beq_eq_false_iff_ne.mpr hname, ih hrest, Prod.ext_iff, hname]

/-- What is found under a name is the value that the tag gives with it. -/
theorem Tag.Distinct.lookup_eq_some_iff {tag : Tag} (h : tag.Distinct) {name value : String} :
    tag.attributes.lookup name = some value ↔ (name, value) ∈ tag.attributes :=
  lookup_eq_some_iff_of_nodup h

-- ---------------------------------------------------------------------------
-- Tags of events
-- ---------------------------------------------------------------------------

def Event.tag? : Event → Option Tag
  | .start tag | .empty tag => some tag
  | _ => none

theorem openingEvent_distinct (content : List Char) :
    ∀ tag ∈ (openingEvent content).tag?, tag.Distinct := by
  rw [openingEvent]
  split
  · rintro _ ⟨⟩
    exact Tag.ofContent_distinct _
  · rintro _ ⟨⟩
    exact Tag.ofContent_distinct _

def Piece.Distinct (piece : Piece) : Prop :=
  ∀ event? n, piece = .ok (event?, n) → ∀ event ∈ event?, ∀ tag ∈ event.tag?, tag.Distinct

namespace Piece.Distinct

theorem error (e : Error) : Piece.Distinct (.error e) := nofun

theorem silent (n : Nat) : Piece.Distinct (.ok (none, n)) := by
  rintro _ _ ⟨⟩
  exact nofun

theorem longer {piece : Piece} (h : piece.Distinct) :
    Piece.Distinct (piece.map fun (event?, n) => (event?, n + 1)) := by
  intro event? n hpiece
  obtain ⟨⟨event?, m⟩, hm, hmade⟩ := map_ok.mp hpiece
  cases hmade
  exact h event? m hm

end Piece.Distinct

theorem passedOver_distinct (opening : Nat) (marker : String) (unclosed : Error)
    (text : List Char) : (passedOver opening marker unclosed text).Distinct := by
  unfold passedOver
  split
  · exact .silent _
  · exact .error _

theorem declarationPiece_distinct (text : List Char) : (declarationPiece text).Distinct := by
  unfold declarationPiece
  split
  · split
    · exact passedOver_distinct _ _ _ _
    · exact .error _
  · split
    · exact passedOver_distinct _ _ _ _
    · exact .error _
  · split
    · split
      · split
        · exact .error _
        · split
          · exact .error _
          · exact .silent _
      · exact .error _
    · exact .error _
  · exact .error _

theorem instructionPiece_distinct (text : List Char) : (instructionPiece text).Distinct := by
  unfold instructionPiece
  split
  · exact .error _
  · exact passedOver_distinct _ _ _ _

theorem openingPiece_distinct (text : List Char) : (openingPiece text).Distinct := by
  intro event? n h
  obtain ⟨m, -, h⟩ := bind_ok.mp h
  cases h
  rintro _ ⟨⟩
  exact openingEvent_distinct _

theorem closingPiece_distinct (text : List Char) : (closingPiece text).Distinct := by
  intro event? n h
  obtain ⟨m, -, h⟩ := bind_ok.mp h
  cases h
  rintro _ ⟨⟩
  exact nofun

theorem pieceAt_distinct (c : Char) (rest : List Char) : (pieceAt c rest).Distinct := by
  unfold pieceAt
  split
  · unfold markupPiece
    split
    · exact (declarationPiece_distinct _).longer
    · exact (instructionPiece_distinct _).longer
    · exact (closingPiece_distinct _).longer
    · exact openingPiece_distinct _
  · split
    · unfold referencePiece
      dsimp only
      split
      · exact .silent _
      · exact .error _
    · exact .silent _

theorem eventsAfter_distinct (text : List Char) (skipped : Nat) :
    ∀ event ∈ eventsAfter skipped text, ∀ tag ∈ event.tag?, tag.Distinct := by
  induction text generalizing skipped with
  | nil => exact nofun
  | cons c rest ih =>
    cases skipped with
    | succ skipped => exact ih skipped
    | zero =>
      rw [eventsAfter]
      cases hpiece : pieceAt c rest with
      | error e => simp [Event.tag?]
      | ok piece =>
        obtain ⟨event?, n⟩ := piece
        rw [List.forall_mem_append]
        refine ⟨fun event hevent => ?_, ih n⟩
        exact pieceAt_distinct c rest event? n hpiece event (Option.mem_toList.mp hevent)

theorem events_distinct (text : List Char) :
    ∀ event ∈ events text, ∀ tag ∈ event.tag?, tag.Distinct :=
  eventsAfter_distinct _ _

-- ---------------------------------------------------------------------------
-- Tags of elements
-- ---------------------------------------------------------------------------

mutual
def Node.tags : Node → List Tag
  | .failed _ => []
  | .element tag _ children => tag :: tagsOf children

def tagsOf : List Node → List Tag
  | [] => []
  | node :: nodes => node.tags ++ tagsOf nodes
end

theorem mem_tagsOf {tag : Tag} {nodes : List Node} :
    tag ∈ tagsOf nodes ↔ ∃ node ∈ nodes, tag ∈ node.tags := by
  induction nodes with
  | nil => simp [tagsOf]
  | cons node nodes ih => simp [tagsOf, ih]

section
variable {P : Tag → Prop} {frames : List Frame} {done : List Node}

/-- What is known of the tags read so far. -/
structure TagsRead (P : Tag → Prop) (frames : List Frame) (done : List Node) : Prop where
  done : ∀ tag ∈ tagsOf done, P tag
  frames : ∀ frame ∈ frames, P frame.tag ∧ ∀ tag ∈ tagsOf frame.siblings, P tag

namespace TagsRead

theorem add {node : Node} (h : TagsRead P frames done) (hnode : ∀ tag ∈ node.tags, P tag) :
    TagsRead P frames (node :: done) := by
  refine ⟨?_, h.frames⟩
  rw [tagsOf, List.forall_mem_append]
  exact ⟨hnode, h.done⟩

theorem start {tag : Tag} (h : TagsRead P frames done) (htag : P tag) :
    TagsRead P ({ tag, siblings := done } :: frames) [] :=
  ⟨nofun, List.forall_mem_cons.mpr ⟨⟨htag, h.done⟩, h.frames⟩⟩

theorem close {frame : Frame} (h : TagsRead P (frame :: frames) done) :
    TagsRead P frames (.element frame.tag false done.reverse :: frame.siblings) := by
  obtain ⟨⟨htag, hsiblings⟩, hframes⟩ := List.forall_mem_cons.mp h.frames
  refine TagsRead.add ⟨hsiblings, hframes⟩ (List.forall_mem_cons.mpr ⟨htag, fun tag hmem => ?_⟩)
  obtain ⟨node, hnode, hmem⟩ := mem_tagsOf.mp hmem
  exact h.done tag (mem_tagsOf.mpr ⟨node, List.mem_reverse.mp hnode, hmem⟩)

theorem closeAll (h : TagsRead P frames done) : ∀ tag ∈ tagsOf (closeAll done frames), P tag := by
  induction frames generalizing done with
  | nil =>
    intro tag hmem
    obtain ⟨node, hnode, hmem⟩ := mem_tagsOf.mp hmem
    exact h.done tag (mem_tagsOf.mpr ⟨node, List.mem_reverse.mp hnode, hmem⟩)
  | cons frame frames ih => exact ih h.close

theorem nodesFrom {events : List Event} (h : TagsRead P frames done)
    (hevents : ∀ event ∈ events, ∀ tag ∈ event.tag?, P tag) :
    ∀ tag ∈ tagsOf (nodesFrom frames done events), P tag := by
  induction events generalizing frames done with
  | nil => exact h.closeAll
  | cons event events ih =>
    obtain ⟨hevent, hrest⟩ := List.forall_mem_cons.mp hevents
    have hfault (e : Error) : TagsRead P frames (.failed e :: done) := h.add nofun
    cases event with
    | failed e => exact (hfault e).closeAll
    | start tag => exact ih (h.start (hevent tag rfl)) hrest
    | empty tag => exact ih (h.add (by simpa [Node.tags, tagsOf] using hevent tag rfl)) hrest
    | close name =>
      cases frames with
      | nil => exact (hfault _).closeAll
      | cons frame frames =>
        rw [Markup.nodesFrom]
        split
        · exact ih h.close hrest
        · exact (hfault _).closeAll

end TagsRead
end

theorem nodes_distinct (text : String) : ∀ tag ∈ tagsOf (nodes text), tag.Distinct :=
  TagsRead.nodesFrom ⟨nofun, nofun⟩ (events_distinct text.toList)

end EntityGen.Markup
