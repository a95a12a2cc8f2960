import EntityGen.Proofs.Document.Load
import EntityGen.Schema.Catalog

/-!
# Names in a catalog

Whatever is added in whatever order, an index holds for each name the position
of the first definition that bears it. So no look-up reads past the end of a
list, and what a name once leads to it leads to for good. Look-ups by the index
are those by the list, which is what descriptions that were loaded go by.
-/

namespace EntityGen.Schema

-- ---------------------------------------------------------------------------
-- One kind
-- ---------------------------------------------------------------------------

namespace Definitions

variable {α : Type} {nameOf : α → String}

theorem lookup_entered (index : List (String × Nat)) (name other : String) (position : Nat) :
    (entered index name position).lookup other =
      (index.lookup other).or (if name = other then some position else none) := by
  unfold entered
  split
  · next found hfound =>
    split
    · next hname => rw [← hname, hfound, Option.some_or]
    · rw [Option.or_none]
  · next hnone =>
    by_cases hname : name = other
    · subst hname
      rw [List.lookup_cons_self, hnone, Option.none_or, if_pos rfl]
    · have hother : (other == name) = false := beq_eq_false_iff_ne.mpr (Ne.symm hname)
      rw [List.lookup_cons, hother, if_neg hname, Option.or_none]

/-- The list is what was added, and the index leads to the first of each name. -/
structure Indexed (d : Definitions α nameOf) (added : List α) : Prop where
  items : d.items = added
  lookup (name : String) : d.index.lookup name = added.findIdx? fun a => nameOf a == name

variable {d : Definitions α nameOf} {added : List α}

theorem Indexed.empty : ({} : Definitions α nameOf).Indexed [] := ⟨rfl, fun _ => rfl⟩

theorem Indexed.add (h : d.Indexed added) (a : α) : (d.add a).Indexed (added ++ [a]) where
  items := congrArg (· ++ [a]) h.items
  lookup name := by
    rw [Definitions.add, lookup_entered, h.lookup, h.items, List.findIdx?_append]
    by_cases hname : nameOf a = name <;> simp [hname]

/-- Look-ups answer as they should where `added` is what was added. -/
structure Answers (d : Definitions α nameOf) (added : List α) : Prop where
  /-- The definitions stand in the order in which they were added. -/
  order : d.items = added
  /-- No position leads past the end. -/
  inBounds (name : String) (position : Nat) (h : d.index.lookup name = some position) :
    position < d.items.length
  /-- A name leads to the first definition that was added under it, if there is any. -/
  first (name : String) : d.find? name = .ok (added.find? fun a => nameOf a == name)

theorem Indexed.position_lt (h : d.Indexed added) {name : String} {position : Nat}
    (hposition : d.index.lookup name = some position) : position < d.items.length := by
  rw [h.lookup, List.findIdx?_eq_some_iff_getElem] at hposition
  obtain ⟨hlt, -⟩ := hposition
  rwa [h.items]

theorem Indexed.answers (h : d.Indexed added) : d.Answers added where
  order := h.items
  inBounds _ _ hposition := h.position_lt hposition
  first name := by
    rw [List.find?_eq_bind_findIdx?_getElem?, ← h.lookup, ← h.items]
    cases hposition : d.index.lookup name with
    | none =>
      rw [find?, hposition]
      rfl
    | some position =>
      have hitem := List.getElem?_eq_getElem (h.position_lt hposition)
      simp only [find?, hposition, itemAt, hitem, Option.bind_some]
      rfl

/-- What was found in `d` is found in `d'`, and nothing changes unless something is added. -/
structure Kept (d d' : Definitions α nameOf) (addition : Option α) : Prop where
  found (name : String) (a : α) (h : d.find? name = .ok (some a)) : d'.find? name = .ok (some a)
  others (h : addition = none) (name : String) : d'.find? name = d.find? name

def after (d : Definitions α nameOf) (addition : Option α) : Definitions α nameOf :=
  addition.elim d d.add

@[simp] theorem after_none (d : Definitions α nameOf) : d.after none = d := rfl

@[simp] theorem after_some (d : Definitions α nameOf) (a : α) : d.after (some a) = d.add a := rfl

theorem Indexed.after {β : Type} {kind? : β → Option α} {additions : List β}
    (h : d.Indexed (additions.filterMap kind?)) (b : β) :
    (d.after (kind? b)).Indexed ((additions ++ [b]).filterMap kind?) := by
  rw [List.filterMap_append]
  cases hb : kind? b with
  | none => simpa [hb] using h
  | some a => simpa [hb] using h.add a

theorem Indexed.kept (h : d.Indexed added) (addition : Option α) :
    d.Kept (d.after addition) addition := by
  cases addition with
  | none => exact ⟨fun _ _ h => h, fun _ _ => rfl⟩
  | some a =>
    refine ⟨fun name b hb => ?_, nofun⟩
    rw [h.answers.first, Except.ok.injEq] at hb
    rw [after_some, (h.add a).answers.first, List.find?_append, hb, Option.some_or]

end Definitions

-- ---------------------------------------------------------------------------
-- All kinds
-- ---------------------------------------------------------------------------

inductive Addition where
  | version (version : String)
  | entity (e : Entity)
  | subtype (s : Subtype)
  | endpoint (e : Endpoint)

def Addition.entity? : Addition → Option Entity
  | .entity e => some e
  | _ => none

def Addition.subtype? : Addition → Option Subtype
  | .subtype s => some s
  | _ => none

def Addition.endpoint? : Addition → Option Endpoint
  | .endpoint e => some e
  | _ => none

namespace Catalog

def adding (c : Catalog) : Addition → Catalog
  | .version version => c.addVersion version
  | .entity e => c.addEntity e
  | .subtype s => c.addSubtype s
  | .endpoint e => c.addEndpoint e

def ofAdditions (version : String) (additions : List Addition) : Catalog :=
  additions.foldl adding { version }

/-- Each kind of definitions has its own index, for those of its kind. -/
structure Indexed (c : Catalog) (additions : List Addition) : Prop where
  entities : c.entities.Indexed (additions.filterMap Addition.entity?)
  subtypes : c.subtypes.Indexed (additions.filterMap Addition.subtype?)
  endpoints : c.endpoints.Indexed (additions.filterMap Addition.endpoint?)

theorem adding_after (c : Catalog) (a : Addition) :
    (c.adding a).entities = c.entities.after a.entity? ∧
      (c.adding a).subtypes = c.subtypes.after a.subtype? ∧
      (c.adding a).endpoints = c.endpoints.after a.endpoint? := by
  cases a <;> exact ⟨rfl, rfl, rfl⟩

theorem Indexed.adding {c : Catalog} {additions : List Addition} (h : c.Indexed additions)
    (a : Addition) : (c.adding a).Indexed (additions ++ [a]) := by
  obtain ⟨hentities, hsubtypes, hendpoints⟩ := adding_after c a
  refine ⟨?_, ?_, ?_⟩
  · rw [hentities]
    exact h.entities.after a
  · rw [hsubtypes]
    exact h.subtypes.after a
  · rw [hendpoints]
    exact h.endpoints.after a

theorem indexed_ofAdditions (version : String) (additions : List Addition) :
    (ofAdditions version additions).Indexed additions := by
  have hrun (rest : List Addition) {c : Catalog} {done : List Addition} (h : c.Indexed done) :
      (rest.foldl Catalog.adding c).Indexed (done ++ rest) := by
    induction rest generalizing c done with
    | nil => rwa [List.append_nil]
    | cons a rest ih =>
      rw [List.append_cons]
      exact ih (h.adding a)
  have hnone : Catalog.Indexed { version } [] := ⟨.empty, .empty, .empty⟩
  exact hrun additions hnone

/-- After any additions, names repeated or not, the definitions of each kind stand in order,
every position is in bounds, and a name leads to the first definition of its kind, without
failing. A further addition changes no look-up that succeeded and none of another kind. What
the descriptions alone are asked for by name is what the indexes answer. -/
theorem ofAdditions_answers (version : String) (additions : List Addition) :
    let c := ofAdditions version additions
    (c.entities.Answers (additions.filterMap Addition.entity?) ∧
      c.subtypes.Answers (additions.filterMap Addition.subtype?) ∧
      c.endpoints.Answers (additions.filterMap Addition.endpoint?)) ∧
    (∀ a, c.entities.Kept (c.adding a).entities a.entity? ∧
      c.subtypes.Kept (c.adding a).subtypes a.subtype? ∧
      c.endpoints.Kept (c.adding a).endpoints a.endpoint?) ∧
    ∀ name, c.entity? name = .ok (c.descriptions.entity? name) ∧
      c.subtype? name = .ok (c.descriptions.subtype? name) ∧
      c.endpoint? name = .ok (c.descriptions.endpoint? name) := by
  intro c
  have hc : c.Indexed additions := indexed_ofAdditions version additions
  obtain ⟨hentities, hsubtypes, hendpoints⟩ := hc
  refine ⟨⟨hentities.answers, hsubtypes.answers, hendpoints.answers⟩, fun a => ?_, fun name => ?_⟩
  · rw [(adding_after c a).1, (adding_after c a).2.1, (adding_after c a).2.2]
    exact ⟨hentities.kept _, hsubtypes.kept _, hendpoints.kept _⟩
  · have hentity : c.entity? name = _ := hentities.answers.first name
    have hsubtype : c.subtype? name = _ := hsubtypes.answers.first name
    have hendpoint : c.endpoint? name = _ := hendpoints.answers.first name
    rw [hentity, hsubtype, hendpoint, ← hentities.items, ← hsubtypes.items, ← hendpoints.items]
    exact ⟨rfl, rfl, rfl⟩

/-- Of two entities of one name the first is found, and both are kept. -/
example :
    let zebra : Entity := { name := "zebra", identifier := { kind := .void } }
    let striped : Entity := { zebra with isMutable := true }
    let c := ofAdditions "1" [.entity zebra, .subtype { name := "zebra", items := .cases [] },
      .entity striped]
    c.entities.items = [zebra, striped] ∧ c.entity? "zebra" = .ok (some zebra) ∧
      c.endpoint? "zebra" = .ok none := by
  exact ⟨rfl, rfl, rfl⟩

end Catalog
end EntityGen.Schema

namespace EntityGen.Document

open Schema (Catalog Descriptions)

/-- Loaded descriptions are the content of a catalog. -/
theorem load_catalogued {text : String} {d : Descriptions} (h : load text = .ok d) :
    ∃ version additions, d = (Catalog.ofAdditions version additions).descriptions := by
  have hadd {d : Descriptions} (a : Schema.Addition)
      (hd : ∃ version additions, d = (Catalog.ofAdditions version additions).descriptions) :
      ∃ c : Catalog, d = c.descriptions ∧ ∃ version additions,
        (c.adding a).descriptions = (Catalog.ofAdditions version additions).descriptions := by
    obtain ⟨version, additions, rfl⟩ := hd
    refine ⟨_, rfl, version, additions ++ [a], ?_⟩
    rw [Catalog.ofAdditions, Catalog.ofAdditions, List.foldl_append]
    rfl
  refine LoadInvariant.load (P := fun d => ∃ version additions,
    d = (Catalog.ofAdditions version additions).descriptions) ?_ h
  constructor
  case root => exact fun version => ⟨version, [], rfl⟩
  case version =>
    intro d version hd
    obtain ⟨c, rfl, hc⟩ := hadd (.version version) hd
    exact hc
  case subtype =>
    intro d _ _ s hd _ _
    obtain ⟨c, rfl, hc⟩ := hadd (.subtype s) hd
    exact hc
  case entity =>
    intro d _ _ e hd _ _
    obtain ⟨c, rfl, hc⟩ := hadd (.entity e) hd
    exact hc
  case endpoint =>
    intro d _ _ e hd _ _
    obtain ⟨c, rfl, hc⟩ := hadd (.endpoint e) hd
    exact hc

end EntityGen.Document
