import EntityGen.Document.Load
import EntityGen.Proofs.Results

/-!
# What loaded descriptions satisfy

Descriptions start from a version alone and grow by one child of a section at a
time. A property of the empty descriptions that every such child preserves
holds of all that a document describes.
-/

namespace EntityGen.Document

open Markup (Tag Node)
open Schema (Descriptions Endpoint Entity Subtype)

-- ---------------------------------------------------------------------------
-- Children
-- ---------------------------------------------------------------------------

theorem foldElements_preserves {α : Type} {step : α → Tag → List Node → Except Error α}
    {P : α → Prop}
    (hstep : ∀ {a tag children b}, P a → step a tag children = .ok b → P b)
    {children : List Node} {a b : α} (ha : P a) (h : foldElements children a step = .ok b) :
    P b := by
  induction children generalizing a with
  | nil =>
    obtain rfl := pure_ok.mp h
    exact ha
  | cons node nodes ih =>
    obtain ⟨a', hnode, hnodes⟩ := bind_ok.mp h
    cases node with
    | failed e => cases hnode
    | element tag isEmpty children => exact ih (hstep ha hnode) hnodes

-- ---------------------------------------------------------------------------
-- Documents
-- ---------------------------------------------------------------------------

/-- What holds of a version alone and survives every definition that a section
adds. A definition is added only if none bears its name. -/
structure LoadInvariant (P : Descriptions → Prop) : Prop where
  root (version : String) : P { version }
  version {d : Descriptions} (version : String) (hd : P d) :
    P { d with versionHistory := d.versionHistory ++ [version] }
  subtype {d : Descriptions} {tag : Tag} {children : List Node} {s : Subtype} (hd : P d)
    (hread : readSubtype tag children = .ok s) (hnew : d.subtype? s.name = none) :
    P (d.addSubtype s)
  entity {d : Descriptions} {tag : Tag} {children : List Node} {e : Entity} (hd : P d)
    (hread : readEntity tag children = .ok e) (hnew : d.entity? e.name = none) :
    P (d.addEntity e)
  endpoint {d : Descriptions} {tag : Tag} {children : List Node} {e : Endpoint} (hd : P d)
    (hread : readEndpoint tag children = .ok e) (hnew : d.endpoint? e.name = none) :
    P (d.addEndpoint e)

namespace LoadInvariant

variable {P : Descriptions → Prop} (hP : LoadInvariant P)
include hP

theorem child {name : String} {read : Descriptions → Tag → List Node → Except Error Descriptions}
    (hname : sectionReader? name = some read) {d d' : Descriptions} {tag : Tag}
    {children : List Node} (hd : P d) (h : read d tag children = .ok d') : P d' := by
  unfold sectionReader? at hname
  split at hname <;> cases hname
  · simp only [readVersion, ite_throw_ok, bind_ok, pure_ok] at h
    obtain ⟨-, version, -, -, -, rfl⟩ := h
    exact hP.version version hd
  · simp only [readSubtypeInto, ite_throw_ok, bind_ok, pure_ok] at h
    obtain ⟨-, s, hs, hnew, rfl⟩ := h
    exact hP.subtype hd hs (by simpa using hnew)
  · simp only [readEntityInto, ite_throw_ok, bind_ok, pure_ok] at h
    obtain ⟨-, e, he, hnew, rfl⟩ := h
    exact hP.entity hd he (by simpa using hnew)
  · simp only [readEndpointInto, ite_throw_ok, bind_ok, pure_ok] at h
    obtain ⟨-, e, he, hnew, rfl⟩ := h
    exact hP.endpoint hd he (by simpa using hnew)

theorem readSection {d d' : Option Descriptions} {tag : Tag} {isEmpty : Bool}
    {children : List Node} (hd : ∀ x ∈ d, P x)
    (h : readSection d tag isEmpty children = .ok d') : ∀ x ∈ d', P x := by
  unfold Document.readSection at h
  split at h
  · cases h
  · cases h
  · cases h
    exact hd
  · next hname =>
    obtain ⟨x, hx, rfl⟩ := map_ok.mp h
    rintro _ ⟨⟩
    exact foldElements_preserves (hP.child hname) (hd _ rfl) hx

omit hP in
mutual
theorem readNode (hP : LoadInvariant P) {d d' : Option Descriptions} (node : Node)
    (hd : ∀ x ∈ d, P x) (h : readNode d node = .ok d') : ∀ x ∈ d', P x := by
  match node with
  | .failed e => cases h
  | .element tag isEmpty children =>
    rw [Document.readNode] at h
    split at h
    -- what was read so far is given up
    · simp only [readRoot, bind_ok, pure_ok] at h
      obtain ⟨root, ⟨version, -, rfl⟩, h⟩ := h
      refine readNodes hP children ?_ h
      rintro _ ⟨⟩
      exact hP.root version
    · exact hP.readSection hd h

theorem readNodes (hP : LoadInvariant P) {d d' : Option Descriptions} (nodes : List Node)
    (hd : ∀ x ∈ d, P x) (h : readNodes d nodes = .ok d') : ∀ x ∈ d', P x := by
  match nodes with
  | [] =>
    cases h
    exact hd
  | node :: nodes =>
    obtain ⟨d₁, hnode, hnodes⟩ := bind_ok.mp h
    exact readNodes hP nodes (readNode hP node hd hnode) hnodes
end

theorem load {text : String} {d : Descriptions} (h : load text = .ok d) : P d := by
  obtain ⟨d', hnodes, h⟩ := bind_ok.mp h
  have hd := hP.readNodes (Markup.nodes text) (by simp) hnodes
  cases d' with
  | none => cases h
  | some x =>
    obtain rfl := pure_ok.mp h
    exact hd x rfl

end LoadInvariant

-- ---------------------------------------------------------------------------
-- Items of subtypes
-- ---------------------------------------------------------------------------

theorem ItemLists.items_ne_members_nil {items : ItemLists} {name : String} {s : Subtype}
    (h : items.subtype name = .ok s) : s.items ≠ .members [] := by
  unfold ItemLists.subtype at h
  split at h
  · cases h
  · cases h
    simp
  · cases h
    simp
  -- the first branch took the case that all lists are empty
  · next hmembers =>
    cases h
    exact fun h => hmembers (Schema.SubtypeItems.members.inj h)
  · cases h

theorem load_items_ne_members_nil {text : String} {d : Descriptions} (h : load text = .ok d) :
    ∀ s ∈ d.subtypes, s.items ≠ .members [] := by
  refine LoadInvariant.load (P := fun d => ∀ s ∈ d.subtypes, s.items ≠ .members []) ?_ h
  constructor
  case root => simp
  case version => exact fun _ hd => hd
  case entity => exact fun hd _ _ => hd
  case endpoint => exact fun hd _ _ => hd
  case subtype =>
    intro d tag children s hd hread _
    simp only [readSubtype, bind_ok] at hread
    obtain ⟨name, -, items, -, hs⟩ := hread
    simpa [Descriptions.addSubtype, or_imp, forall_and] using
      ⟨hd, items.items_ne_members_nil hs⟩

end EntityGen.Document
