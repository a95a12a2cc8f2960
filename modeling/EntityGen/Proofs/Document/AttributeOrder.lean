import EntityGen.Proofs.Document.Correspondence
import EntityGen.Proofs.Document.Definitions

/-!
# The order of attributes

Documents that differ in the order of attributes only are accepted alike, with the
same descriptions but for members whose tag gives two types. Of these the later
one counts.
-/

namespace EntityGen.Document

open Markup (Event Node Tag)
open Schema (Descriptions MemberType Scalar)

/-- The same tag, but for the order of its attributes. -/
structure Reordered (tag tag' : Tag) : Prop where
  name : tag'.name = tag.name
  attributes : tag.attributes.Perm tag'.attributes

namespace Reordered

variable {tag tag' : Tag}

theorem distinct (h : Reordered tag tag') (hdistinct : tag.Distinct) : tag'.Distinct :=
  (h.attributes.map Prod.fst).nodup_iff.mp hdistinct

theorem lookup_eq (h : Reordered tag tag') (hdistinct : tag.Distinct) (name : String) :
    tag'.attributes.lookup name = tag.attributes.lookup name := by
  ext value
  rw [(h.distinct hdistinct).lookup_eq_some_iff, hdistinct.lookup_eq_some_iff,
    h.attributes.mem_iff]

/-- Attributes are read in any order to the same effect, if those of different names
commute. -/
theorem foldAttributes {α : Type} {E : α → α → Prop} (hE : Equivalence E)
    {step : α → String → String → Except Error α} (h : Reordered tag tag')
    (hdistinct : tag.Distinct)
    (hstep : ∀ name value a b, E a b → Agree E (step a name value) (step b name value))
    (hcommute : ∀ {x y : String × String}, x.1 ≠ y.1 → Agree.Commute E (paired step) x y)
    (a : α) : Agree E (foldAttributes tag a step) (foldAttributes tag' a step) :=
  Agree.foldlM_perm hE (fun x => hstep x.1 x.2) h.attributes
    ((List.pairwise_map.mp hdistinct).imp hcommute) (hE.refl a)

theorem steady {α : Type} {T : α → α → Prop} {step : α → String → String → Except Error α}
    (h : Reordered tag tag') (hdistinct : tag.Distinct) (hstep : Steady id T step) {a a' : α}
    (ha : T a a') :
    Agree T (Document.foldAttributes tag a step) (Document.foldAttributes tag' a' step) := by
  have hsame : Agree T (Document.foldAttributes tag a step) (Document.foldAttributes tag a' step) := by
    refine Agree.foldlM (List.forall₂_same.mpr fun _ _ => rfl) ?_ ha
    rintro x - _ a a' rfl ha
    exact hstep.respelled x.1 x.2 ha
  have horder := h.foldAttributes eq_equivalence hdistinct
    (by rintro name value a _ rfl; exact .refl _) hstep.ordered a'
  exact hsame.trans horder fun _ _ _ hT heq => heq ▸ hT

end Reordered

-- ---------------------------------------------------------------------------
-- Types of members
-- ---------------------------------------------------------------------------

def OfOneTag (tags : List Tag) (type type' : MemberType) : Prop :=
  ∃ tag ∈ tags, tag.name = "property" ∧ Gives tag.attributes type ∧ Gives tag.attributes type'

/-- The tag of a member has both attributes that give a type. -/
def IsAmbiguous (tag : Tag) : Prop :=
  tag.name = "property" ∧ (tag.attributes.lookup "type").isSome ∧
    (tag.attributes.lookup "subtype").isSome

instance : DecidablePred IsAmbiguous := fun _ => inferInstanceAs (Decidable (_ ∧ _ ∧ _))

/-- A tag with distinct attributes that is not ambiguous gives one type at most. -/
theorem Gives.eq {tag : Tag} (hdistinct : tag.Distinct) (hname : tag.name = "property")
    (h : ¬IsAmbiguous tag) {type type' : MemberType} (htype : Gives tag.attributes type)
    (htype' : Gives tag.attributes type') : type' = type := by
  have hboth {scalar name : String} (hscalar : ("type", scalar) ∈ tag.attributes)
      (hsubtype : ("subtype", name) ∈ tag.attributes) : False := by
    refine h ⟨hname, ?_, ?_⟩
    · rw [hdistinct.lookup_eq_some_iff.mpr hscalar, Option.isSome_some]
    · rw [hdistinct.lookup_eq_some_iff.mpr hsubtype, Option.isSome_some]
  have hsame {name value value' : String} (hvalue : (name, value) ∈ tag.attributes)
      (hvalue' : (name, value') ∈ tag.attributes) : value' = value :=
    Option.some.inj <| (hdistinct.lookup_eq_some_iff.mpr hvalue').symm.trans
      (hdistinct.lookup_eq_some_iff.mpr hvalue)
  cases type with
  | scalar scalar =>
    obtain ⟨value, hvalue, hscalar⟩ := htype
    cases type' with
    | scalar scalar' =>
      obtain ⟨value', hvalue', hscalar'⟩ := htype'
      obtain rfl := hsame hvalue hvalue'
      rw [hscalar] at hscalar'
      rw [Option.some.inj hscalar']
    | subtype name => exact (hboth hvalue htype').elim
  | subtype name =>
    cases type' with
    | scalar scalar =>
      obtain ⟨value, hvalue, -⟩ := htype'
      exact (hboth hvalue htype).elim
    | subtype name' => rw [hsame htype htype']

theorem untyped_equivalence :
    Equivalence fun a a' : MemberAttributes => a.untyped = a'.untyped :=
  ⟨fun _ => rfl, Eq.symm, Eq.trans⟩

theorem MemberAttributes.read_commute {x y : String × String} (hne : x.1 ≠ y.1) :
    Agree.Commute (fun a a' => a.untyped = a'.untyped) (paired read) x y := by
  refine makes.commute fun g g' hg hg' a => ?_
  by_cases htype : GivesType x.1 ∧ GivesType y.1
  · exact change_comm_untyped htype.1 htype.2 hg hg' a
  · rw [change_comm hne htype hg hg' a]

theorem Reordered.members {tags : List Tag} {tag tag' : Tag} (h : Reordered tag tag')
    (hdistinct : tag.Distinct) (hmem : tag ∈ tags) (hname : tag.name = "property") :
    Agree (MemberAttributes.Alike (OfOneTag tags))
      (Document.foldAttributes tag {} MemberAttributes.read)
      (Document.foldAttributes tag' {} MemberAttributes.read) := by
  have huntyped := h.foldAttributes untyped_equivalence hdistinct ?_
    MemberAttributes.read_commute {}
  · refine huntyped.imp fun a a' ha ha' hsame => ?_
    obtain ⟨htype, hoptional, harray⟩ : a.type.isSome = a'.type.isSome ∧
      a.isOptional = a'.isOptional ∧ a.isArray = a'.isArray := by
        simpa [MemberAttributes.untyped] using hsame
    refine ⟨?_, hoptional.symm, harray.symm⟩
    have hgives := MemberAttributes.read_gives ha
    have hgives' := MemberAttributes.read_gives ha'
    cases htype₁ : a.type <;> cases htype₂ : a'.type <;> rw [htype₁, htype₂] at htype
    case none.none => exact .none
    case some.some type type' =>
      exact .some ⟨tag, hmem, hname, hgives type htype₁,
        (hgives' type' htype₂).mono h.attributes.symm.subset⟩
    all_goals cases htype
  · intro name value a b hab
    refine MemberAttributes.makes.respelled (f := id) ?_ hab
    refine (Agree.refl _).imp ?_
    rintro g _ hg - rfl
    exact MemberAttributes.change_untyped hg

-- ---------------------------------------------------------------------------
-- Documents
-- ---------------------------------------------------------------------------

theorem reordered_corresponds (tags : List Tag) :
    Corresponds (fun tag tag' => (tag.Distinct ∧ tag ∈ tags) ∧ Reordered tag tag') id
      (OfOneTag tags) where
  respelling := .id
  name h := h.2.name
  lookup h name := by rw [h.2.lookup_eq h.1.1, Option.map_id]; rfl
  steady h _ _ _ hstep _ _ ha := h.2.steady h.1.1 hstep ha
  members h hname := h.2.members h.1.1 h.1.2 hname

/-- A document whose attributes stand in another order in their tags is accepted as well,
with the same descriptions but for the types of members. A member has a type that its tag
gives, so descriptions differ only where the tag of a member gives two. -/
theorem load_reordered {text text' : String}
    (horder : List.Forall₂ (Event.Alike Reordered) (Markup.events text.toList)
      (Markup.events text'.toList)) {d : Descriptions} (hd : load text = .ok d) :
    ∃ d', load text' = .ok d' ∧
      d.Alike id (OfOneTag (Markup.tagsOf (Markup.nodes text))) d' ∧
      ((∀ tag ∈ Markup.tagsOf (Markup.nodes text), ¬IsAmbiguous tag) → d' = d) := by
  have hnodes := Markup.nodes_alike (fun _ _ h => h.name) horder
  have hknown := Markup.alike_and hnodes
    fun tag htag => And.intro (Markup.nodes_distinct text tag htag) htag
  have hagree := (reordered_corresponds _).ofNodes hknown
  obtain ⟨d', hd', halike⟩ := hagree.exists_ok hd
  refine ⟨d', hd', halike, fun hclear => ?_⟩
  have hfixed : d.mapTexts id = d := Descriptions.mapTexts_of_fixed fun _ _ => rfl
  rw [← hfixed]
  refine halike.eq_mapTexts ?_
  rintro type type' ⟨tag, htag, hname, htype, htype'⟩
  rw [htype.eq (Markup.nodes_distinct text tag htag) hname (hclear tag htag) htype']
  cases type <;> rfl

-- ---------------------------------------------------------------------------
-- One member
-- ---------------------------------------------------------------------------

def oneMember (attributes : String) : String :=
  "<descriptions version='1'><subtypes><subtype name='v'><property name='p' " ++ attributes
    ++ "/></subtype></subtypes></descriptions>"

def oneMemberEvents (attributes : List (String × String)) : List Event :=
  [.start { name := "descriptions", attributes := [("version", "1")] }, .start { name := "subtypes" },
    .start { name := "subtype", attributes := [("name", "v")] },
    .empty { name := "property", attributes := ("name", "p") :: attributes },
    .close "subtype", .close "subtypes", .close "descriptions"]

theorem oneMemberEvents_reordered {attributes attributes' : List (String × String)}
    (h : attributes.Perm attributes') :
    List.Forall₂ (Event.Alike Reordered) (oneMemberEvents attributes)
      (oneMemberEvents attributes') :=
  .cons (.start ⟨rfl, .refl _⟩) <| .cons (.start ⟨rfl, .refl _⟩) <|
    .cons (.start ⟨rfl, .refl _⟩) <| .cons (.empty ⟨rfl, .cons _ h⟩) <|
      .cons (.close _) <| .cons (.close _) <| .cons (.close _) .nil

theorem exists_load_oneMember {text : String} {attributes : List (String × String)}
    (m : Schema.Member) (htext : Markup.events text.toList = oneMemberEvents attributes)
    (h : ((ofNodes (Markup.nodesOfEvents (oneMemberEvents attributes))).toOption.map fun d =>
      decide (d.subtypes = [{ name := "v", items := .members [m] }])) = some true) :
    ∃ d, load text = .ok d ∧ d.subtypes = [{ name := "v", items := .members [m] }] := by
  rw [load, Markup.nodes, htext]
  exact exists_ok_of_decide h

theorem events_oneMember_twoTypes :
    Markup.events (oneMember "type='int' subtype='s'").toList
        = oneMemberEvents [("type", "int"), ("subtype", "s")] ∧
      Markup.events (oneMember "subtype='s' type='int'").toList
        = oneMemberEvents [("subtype", "s"), ("type", "int")] := by
  have htext : oneMember "type='int' subtype='s'" = _ :=
    Markup.append_eq_ofList (Markup.append_eq_ofList rfl rfl) rfl
  have htext' : oneMember "subtype='s' type='int'" = _ :=
    Markup.append_eq_ofList (Markup.append_eq_ofList rfl rfl) rfl
  rw [htext, htext', String.toList_ofList, String.toList_ofList]
  decide +kernel

/-- The member is a value or a number, by which attribute for its type comes last. -/
theorem load_oneMember_twoTypes :
    List.Forall₂ (Event.Alike Reordered) (Markup.events (oneMember "type='int' subtype='s'").toList)
      (Markup.events (oneMember "subtype='s' type='int'").toList) ∧
    (∃ d, load (oneMember "type='int' subtype='s'") = .ok d ∧
      d.subtypes = [{ name := "v", items := .members [{ name := "p", type := .subtype "s" }] }]) ∧
    ∃ d, load (oneMember "subtype='s' type='int'") = .ok d ∧
      d.subtypes = [{ name := "v", items := .members [{ name := "p", type := .scalar .int }] }] := by
  obtain ⟨hevents, hevents'⟩ := events_oneMember_twoTypes
  refine ⟨?_, ?_, ?_⟩
  · rw [hevents, hevents']
    exact oneMemberEvents_reordered (.swap _ _ _)
  · exact exists_load_oneMember _ hevents (by decide +kernel)
  · exact exists_load_oneMember _ hevents' (by decide +kernel)

theorem events_oneMember_oneType :
    Markup.events (oneMember "type='int' optional='true'").toList
        = oneMemberEvents [("type", "int"), ("optional", "true")] ∧
      Markup.events (oneMember "optional='true' type='int'").toList
        = oneMemberEvents [("optional", "true"), ("type", "int")] := by
  have htext : oneMember "type='int' optional='true'" = _ :=
    Markup.append_eq_ofList (Markup.append_eq_ofList rfl rfl) rfl
  have htext' : oneMember "optional='true' type='int'" = _ :=
    Markup.append_eq_ofList (Markup.append_eq_ofList rfl rfl) rfl
  rw [htext, htext', String.toList_ofList, String.toList_ofList]
  decide +kernel

theorem load_reordered_oneType :
    ∃ d, load (oneMember "type='int' optional='true'") = .ok d ∧
      load (oneMember "optional='true' type='int'") = .ok d ∧
      d.subtypes =
        [{ name := "v"
           items := .members [{ name := "p", type := .scalar .int, isOptional := true }] }] := by
  obtain ⟨hevents, hevents'⟩ := events_oneMember_oneType
  have horder : List.Forall₂ (Event.Alike Reordered)
      (Markup.events (oneMember "type='int' optional='true'").toList)
      (Markup.events (oneMember "optional='true' type='int'").toList) := by
    rw [hevents, hevents']
    exact oneMemberEvents_reordered (.swap _ _ _)
  have hclear : ∀ tag ∈ Markup.tagsOf (Markup.nodes (oneMember "type='int' optional='true'")),
      ¬IsAmbiguous tag := by
    rw [Markup.nodes, hevents]
    decide +kernel
  obtain ⟨d, hd, hsubtypes⟩ := exists_load_oneMember
    { name := "p", type := .scalar .int, isOptional := true } hevents (by decide +kernel)
  obtain ⟨d', hd', -, hsame⟩ := load_reordered horder hd
  exact ⟨d, hd, hsame hclear ▸ hd', hsubtypes⟩

end EntityGen.Document
