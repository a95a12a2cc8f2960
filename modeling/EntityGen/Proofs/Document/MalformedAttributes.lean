import EntityGen.Document.Load
import EntityGen.Proofs.Markup.Malformed
import EntityGen.Proofs.Results

/-!
# Documents with malformed attributes

Tags are read leniently wherever they stand, so a malformed attribute is no reason to
refuse a document: it is loaded as the document that lacks the attribute, and a default
takes the place of what the attribute was to say.
-/

namespace EntityGen.Document

open Markup (WrittenAttribute AllLegible AllWellFormed IsWord wellFormed writtenTag events)

/-- A tag means what is left of it without its malformed attributes. These are all there
is to leave out. -/
theorem load_writtenTag {before after name : String} {as : List WrittenAttribute}
    (hbefore : ∀ error, .failed error ∉ events before.toList) (hname : IsWord name)
    (has : AllLegible [] as) (isEmpty : Bool) :
    let kept := wellFormed [] as
    (AllWellFormed [] kept ∧ kept.Sublist as ∧ (kept = as ↔ AllWellFormed [] as)) ∧
      load (before ++ String.ofList (writtenTag name as isEmpty) ++ after)
        = load (before ++ String.ofList (writtenTag name kept isEmpty) ++ after) := by
  have hkept : AllWellFormed [] (wellFormed [] as) := Markup.wellFormed_allWellFormed [] as
  refine ⟨⟨hkept, Markup.wellFormed_sublist [] as, Markup.wellFormed_eq_self_iff⟩, ?_⟩
  have hevents {as : List WrittenAttribute} (has : AllLegible [] as) :
      events (before ++ String.ofList (writtenTag name as isEmpty) ++ after).toList
        = events before.toList ++ Markup.openingOf isEmpty
            { name, attributes := (wellFormed [] as).filterMap WrittenAttribute.pair? }
          :: Markup.eventsAfter 0 after.toList := by
    rw [String.toList_append, String.toList_append, String.toList_ofList, List.append_assoc,
      ← Markup.eventsAfter_writtenTag hname has]
    exact Markup.events_append_bracket hbefore _
  simp only [load, Markup.nodes, hevents has, hevents has.wellFormed,
    Markup.wellFormed_of_allWellFormed hkept]

def carelessFlags : List WrittenAttribute :=
  [.quoted "name" '\'' "a", .unquoted "persist" "true", .bare "lastRemoteRead",
    .quoted "mutable" '\'' "false", .quoted "mutable" '\'' "true"]

def entityFront : String := "<descriptions version='1'><entities>"

def entityBack : String := "</entities></descriptions>"

/-- The flags are set in the document, which is accepted, and not in its entity. -/
theorem load_carelessFlags :
    (∃ d, load (entityFront ++ String.ofList (writtenTag "entity" carelessFlags true)
        ++ entityBack) = .ok d ∧
      d.entities.map (fun e => (e.isPersisted, e.hasLastRemoteRead, e.isMutable))
        = [(false, false, false)]) ∧
      ¬AllWellFormed [] carelessFlags := by
  refine ⟨?_, by decide +kernel⟩
  have htext : entityFront ++ String.ofList (writtenTag "entity" carelessFlags true) ++ entityBack
      = _ := Markup.append_eq_ofList (Markup.append_eq_ofList rfl rfl) rfl
  rw [load, Markup.nodes_of_ofList htext]
  exact exists_ok_of_decide (by decide +kernel)

theorem load_writtenTag_carelessFlags :
    load (entityFront ++ String.ofList (writtenTag "entity" carelessFlags true) ++ entityBack)
      = load (entityFront ++ "<entity name='a' mutable='false'/>" ++ entityBack) := by
  have hfront : events entityFront.toList
      = [.start { name := "descriptions", attributes := [("version", "1")] },
          .start { name := "entities" }] := by
    decide +kernel
  have hkept : "<entity name='a' mutable='false'/>"
      = String.ofList (writtenTag "entity" (wellFormed [] carelessFlags) true) := by
    decide +kernel
  rw [hkept]
  exact (@load_writtenTag entityFront entityBack "entity" carelessFlags (by simp [hfront])
    (by decide +kernel) (by decide +kernel) true).2

end EntityGen.Document
