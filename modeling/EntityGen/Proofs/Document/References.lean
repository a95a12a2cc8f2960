import EntityGen.Code.Render
import EntityGen.Emit.Types
import EntityGen.Proofs.Document.CarriedTexts
import EntityGen.Proofs.Document.Correspondence
import EntityGen.Proofs.Text.Parts

/-!
# References in values

The value of an attribute means what is written. A reference in it stays as it
stands, so a document whose values are spelled with the predefined references
is accepted like one with the texts they stand for, and describes the same but
for the spelling.
-/

namespace EntityGen.Document

open Markup (Node Tag)
open Schema (Descriptions MemberType)

-- ---------------------------------------------------------------------------
-- Spelling
-- ---------------------------------------------------------------------------

def spelledChar : Char → List Char
  | '&' => ['&', 'a', 'm', 'p', ';']
  | '<' => ['&', 'l', 't', ';']
  | '>' => ['&', 'g', 't', ';']
  | '"' => ['&', 'q', 'u', 'o', 't', ';']
  | '\'' => ['&', 'a', 'p', 'o', 's', ';']
  | c => [c]

/-- The text with a reference for every reserved character. -/
def spelled (text : String) : String := String.ofList (text.toList.flatMap spelledChar)

theorem spelledChar_of_not_mem {c : Char} (h : c ∉ reserved) : spelledChar c = [c] := by
  unfold spelledChar
  split <;> simp_all [reserved]

theorem ampersand_mem_spelledChar {c : Char} (h : c ∈ reserved) : '&' ∈ spelledChar c := by
  simp only [reserved, List.mem_cons, List.not_mem_nil, or_false] at h
  rcases h with rfl | rfl | rfl | rfl | rfl <;> decide

/-- A reference ends, so it is seen from the front which character was spelled. -/
theorem spelledChar_append_inj {c d : Char} {cs ds : List Char}
    (h : spelledChar c ++ cs = spelledChar d ++ ds) : c = d ∧ cs = ds := by
  unfold spelledChar at h
  split at h <;> split at h <;>
    simp only [List.cons_append, List.nil_append, List.cons.injEq] at h <;> grind

theorem flatMap_spelledChar_injective : Function.Injective (List.flatMap spelledChar) := by
  have hne (c : Char) (cs : List Char) : spelledChar c ++ cs ≠ [] := by
    unfold spelledChar
    split <;> simp
  intro text
  induction text with
  | nil =>
    intro other h
    cases other with
    | nil => rfl
    | cons d ds => exact absurd h.symm (hne d _)
  | cons c cs ih =>
    intro other h
    cases other with
    | nil => exact absurd h (hne c _)
    | cons d ds =>
      obtain ⟨rfl, hrest⟩ := spelledChar_append_inj h
      rw [ih hrest]

theorem spelled_injective : Function.Injective spelled := by
  intro text other h
  exact String.toList_inj.mp (flatMap_spelledChar_injective (String.ofList_injective h))

theorem length_le_flatMap_spelledChar (text : List Char) :
    text.length ≤ (text.flatMap spelledChar).length := by
  induction text with
  | nil => rfl
  | cons c text ih =>
    have hc : 1 ≤ (spelledChar c).length := by
      unfold spelledChar
      split <;> simp
    simp only [List.flatMap_cons, List.length_append, List.length_cons]
    omega

theorem flatMap_spelledChar_eq_self_iff {text : List Char} :
    text.flatMap spelledChar = text ↔ ∀ c ∈ text, c ∉ reserved := by
  induction text with
  | nil => simp
  | cons c text ih =>
    rw [List.flatMap_cons, List.forall_mem_cons, ← ih]
    by_cases hc : c ∈ reserved
    · -- a reference is longer than the character for which it stands
      have hlonger : 1 < (spelledChar c).length := by
        simp only [reserved, List.mem_cons, List.not_mem_nil, or_false] at hc
        rcases hc with rfl | rfl | rfl | rfl | rfl <;> decide
      have hrest := length_le_flatMap_spelledChar text
      refine ⟨fun h => absurd (congrArg List.length h) ?_, fun h => absurd hc h.1⟩
      simp only [List.length_append, List.length_cons]
      omega
    · simp [spelledChar_of_not_mem hc, hc]

theorem spelled_eq_self_iff {text : String} : spelled text = text ↔ IsUnreserved text := by
  rw [IsUnreserved, ← flatMap_spelledChar_eq_self_iff, spelled, ← String.toList_inj,
    String.toList_ofList]

theorem not_isUnreserved_spelled {text : String} (h : ¬IsUnreserved text) :
    ¬IsUnreserved (spelled text) := by
  simp only [IsUnreserved, not_forall, not_not] at h
  obtain ⟨c, hc, hmem⟩ := h
  refine fun hplain => hplain '&' ?_ (by decide)
  rw [spelled, String.toList_ofList]
  exact List.mem_flatMap.mpr ⟨c, hc, ampersand_mem_spelledChar hmem⟩

-- ---------------------------------------------------------------------------
-- Paths
-- ---------------------------------------------------------------------------

theorem splitParts_append {separator : Char} {part : List Char} (h : separator ∉ part)
    (rest : List Char) :
    Text.splitParts separator (part ++ rest)
      = (Text.splitParts separator rest).modifyHead (part ++ ·) := by
  induction part with
  | nil => cases hrest : Text.splitParts separator rest <;> simp [hrest]
  | cons c part ih =>
    obtain ⟨hc, hpart⟩ := not_or.mp (mt List.mem_cons.mpr h)
    rw [List.cons_append, Text.splitParts, if_neg (Ne.symm hc), ih hpart]
    cases hrest : Text.splitParts separator rest with
    | nil =>
      rw [Text.splitParts_eq_splitOn] at hrest
      exact absurd hrest (List.splitOn_ne_nil _ _)
    | cons first parts => rfl

theorem splitParts_spelled (text : List Char) :
    Text.splitParts '.' (text.flatMap spelledChar)
      = (Text.splitParts '.' text).map (List.flatMap spelledChar) := by
  induction text with
  | nil => rfl
  | cons c text ih =>
    by_cases hc : c = '.'
    · subst hc
      simp [Text.splitParts, spelledChar, ih]
    · have hpoint : '.' ∉ spelledChar c := by
        unfold spelledChar
        split <;> simp [Ne.symm hc]
      rw [List.flatMap_cons, splitParts_append hpoint, ih, Text.splitParts, if_neg hc]
      cases hparts : Text.splitParts '.' text with
      | nil =>
        rw [Text.splitParts_eq_splitOn] at hparts
        exact absurd hparts (List.splitOn_ne_nil _ _)
      | cons part parts => simp

theorem readKeyPath_spelled (text : String) :
    readKeyPath (spelled text) = (readKeyPath text).map spelled := by
  have hempty (text : String) : spelled text = "" ↔ text = "" :=
    spelled_injective.eq_iff' (by decide)
  have hparts : Text.parts '.' (spelled text) = (Text.parts '.' text).map spelled := by
    simp [Text.parts, spelled, splitParts_spelled]
  rw [readKeyPath, readKeyPath, hparts, List.filter_map]
  simp [Function.comp_def, hempty]

theorem respelling_spelled : Respelling spelled where
  injective := spelled_injective
  changed text := by
    by_cases h : IsUnreserved text
    · exact .inl (spelled_eq_self_iff.mpr h)
    · exact .inr ⟨h, not_isUnreserved_spelled h⟩
  keys := readKeyPath_spelled

-- ---------------------------------------------------------------------------
-- Documents
-- ---------------------------------------------------------------------------

structure Respelled (f : String → String) (tag tag' : Tag) : Prop where
  name : tag'.name = tag.name
  attributes : tag'.attributes = tag.attributes.map fun a => (a.1, f a.2)

namespace Respelled

variable {f : String → String} {tag tag' : Tag} {α : Type} {T : α → α → Prop}

theorem lookup_eq (h : Respelled f tag tag') (name : String) :
    tag'.attributes.lookup name = (tag.attributes.lookup name).map f := by
  rw [h.attributes]
  induction tag.attributes with
  | nil => rfl
  | cons a attributes ih =>
    rw [List.map_cons, List.lookup_cons, List.lookup_cons, ih]
    split <;> rfl

theorem foldAttributes {step : α → String → String → Except Error α} (h : Respelled f tag tag')
    (hstep : ∀ name value {a a'}, T a a' → Agree T (step a name value) (step a' name (f value)))
    {a a' : α} (ha : T a a') :
    Agree T (foldAttributes tag a step) (foldAttributes tag' a' step) := by
  have hattributes : List.Forall₂ (fun x y : String × String => y = (x.1, f x.2)) tag.attributes
      tag'.attributes := by
    rw [h.attributes, List.forall₂_map_right_iff]
    exact List.forall₂_same.mpr fun _ _ => rfl
  refine Agree.foldlM hattributes ?_ ha
  rintro x - _ a a' rfl ha
  exact hstep x.1 x.2 ha

end Respelled

theorem respelled_corresponds {f : String → String} (hf : Respelling f) :
    Corresponds (Respelled f) f fun type type' => type' = type.mapTexts f where
  respelling := hf
  name h := h.name
  lookup h := h.lookup_eq
  steady h _ _ _ hstep _ _ ha := h.foldAttributes (fun name value _ _ => hstep.respelled name value) ha
  members h _ := h.foldAttributes
    (fun name value _ _ => MemberAttributes.makes.respelled
      (MemberAttributes.change_respelled hf name value)) ⟨.none, rfl, rfl⟩

/-- Spelling the values of a document with references changes nothing about whether it is
accepted. If the texts stand for descriptions `d`, the loaded descriptions hold the
spelling of each text of `d` in its place: no reference is replaced by what it stands for. -/
theorem load_spelled {meant : List Node} {text : String}
    (h : List.Forall₂ (Node.Alike (Respelled spelled)) meant (Markup.nodes text)) :
    (load text).toOption = (ofNodes meant).toOption.map (Descriptions.mapTexts spelled) ∧
    ∀ d, ofNodes meant = .ok d →
      CarriesDescriptions (passagesOf meant) d ∧
      (d.mapTexts spelled = d ↔ ∀ text ∈ d.texts, IsUnreserved text) ∧
      ∀ e ∈ d.entities, ∀ p ∈ e.properties, ∀ value, p.type = .scalar .string →
        p.default = some (.string value) →
        (Emit.propertyDefault? (p.mapTexts spelled)).map (Code.Expr.render 0)
          = some (Code.quoted (spelled value)) := by
  have hagree := (respelled_corresponds respelling_spelled).ofNodes h
  refine ⟨(hagree.imp fun _ _ _ _ hd => hd.eq_mapTexts fun _ _ => id).toOption_eq, ?_⟩
  intro d hd
  refine ⟨ofNodes_carries hd, ?_, ?_⟩
  · simp only [Descriptions.mapTexts_eq_self_iff, spelled_eq_self_iff]
  · intro e _ p _ value htype hdefault
    simp [Emit.propertyDefault?, Schema.Property.mapTexts, hdefault, htype,
      Schema.PropertyType.mapTexts, Schema.DefaultValue.mapTexts, Emit.defaultValue,
      Emit.scalarOf?, Code.Expr.render]

def spelledDefault : String :=
  "<descriptions version='1'><entities><entity name='a'>"
    ++ "<property name='p' type='string' default='salt &amp; pepper'/></entity></entities></descriptions>"

def defaultEvents (text : String) : List Markup.Event :=
  [.start { name := "descriptions", attributes := [("version", "1")] }, .start { name := "entities" },
    .start { name := "entity", attributes := [("name", "a")] },
    .empty { name := "property", attributes := [("name", "p"), ("type", "string"), ("default", text)] },
    .close "entity", .close "entities", .close "descriptions"]

theorem events_spelledDefault :
    Markup.events spelledDefault.toList = defaultEvents (spelled "salt & pepper") := by
  have htext : spelledDefault = _ := Markup.append_eq_ofList rfl rfl
  rw [htext, String.toList_ofList]
  decide +kernel

def defaultTexts (d : Descriptions) : List String :=
  d.entities.flatMap fun e => e.properties.flatMap fun p =>
    p.default.toList.flatMap Schema.DefaultValue.texts

/-- The default is the spelling and not the text that it stands for. -/
theorem load_spelledDefault :
    spelled "salt & pepper" = "salt &amp; pepper" ∧
    ∃ d, load spelledDefault = .ok d ∧ defaultTexts d = ["salt &amp; pepper"] := by
  refine ⟨by decide +kernel, ?_⟩
  rw [load, Markup.nodes, events_spelledDefault]
  exact exists_ok_of_decide (p := fun d => defaultTexts d = _) (by decide +kernel)

theorem load_spelled_default :
    ∃ d, ofNodes (Markup.nodesOfEvents (defaultEvents "salt & pepper")) = .ok d ∧
      defaultTexts d = ["salt & pepper"] ∧ load spelledDefault = .ok (d.mapTexts spelled) := by
  have hevents : List.Forall₂ (Markup.Event.Alike (Respelled spelled))
      (defaultEvents "salt & pepper") (Markup.events spelledDefault.toList) := by
    rw [events_spelledDefault]
    exact .cons (.start ⟨rfl, by decide +kernel⟩) <| .cons (.start ⟨rfl, rfl⟩) <|
      .cons (.start ⟨rfl, by decide +kernel⟩) <| .cons (.empty ⟨rfl, by decide +kernel⟩) <|
        .cons (.close _) <| .cons (.close _) <| .cons (.close _) .nil
  obtain ⟨d, hd, htexts⟩ : ∃ d,
      ofNodes (Markup.nodesOfEvents (defaultEvents "salt & pepper")) = .ok d ∧
        defaultTexts d = ["salt & pepper"] :=
    exists_ok_of_decide (p := fun d => defaultTexts d = _) (by decide +kernel)
  have hnodes : List.Forall₂ (Node.Alike (Respelled spelled))
      (Markup.nodesOfEvents (defaultEvents "salt & pepper")) (Markup.nodes spelledDefault) :=
    Markup.nodesFrom_alike (fun _ _ h => h.name) hevents .nil .nil
  obtain ⟨hload, -⟩ := load_spelled hnodes
  rw [hd] at hload
  exact ⟨d, hd, htexts, toOption_eq_some.mp hload⟩

end EntityGen.Document
