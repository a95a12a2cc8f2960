import EntityGen.Emit.ContainerFile
import EntityGen.Proofs.Code.Distinct
import EntityGen.Proofs.Schema.UniqueNames
import EntityGen.Proofs.Text.Conventions

/-!
# Clashes of declarations

What is declared side by side needs names of its own: the properties of an
entity, the cases, options or members of a subtype and the client queues of the
container. Distinct names may be emitted alike, and options and members may
even be named twice.
-/

namespace EntityGen.Schema

def Subtype.members (s : Subtype) : List Member :=
  match s.items with
  | .members members => members
  | _ => []

/-- The names of the items that are emitted. -/
def Subtype.usedNames (s : Subtype) : List String :=
  s.usedCases.map (·.name) ++ s.optionBits.map (·.1.name) ++ s.members.map (·.name)

def Entity.propertyNames (e : Entity) : List String := e.properties.map (·.name)

theorem Subtype.map_usedNames_nodup (s : Subtype) (emit : String → String) :
    (s.usedNames.map emit).Nodup ↔
      (s.usedCases.map fun c => emit c.name).Nodup ∧
        (s.optionBits.map fun o => emit o.1.name).Nodup ∧
          (s.members.map fun m => emit m.name).Nodup := by
  rcases s with ⟨name, cases | options | items⟩
  all_goals simp [usedNames, usedCases, optionBits, members, Function.comp_def]

theorem Subtype.usedNames_nodup {d : Descriptions} {s : Subtype} (h : d.checkSubtype s = .ok ())
    (henum : s.isEnum = true) : s.usedNames.Nodup := by
  rcases s with ⟨name, cases | options | members⟩
  · have hcases := checkSubtype_cases_nodup h rfl
    simpa [usedNames, usedCases, optionBits, Subtype.members]
      using hcases.sublist (List.filter_sublist.map _)
  · cases henum
  · cases henum

end EntityGen.Schema

namespace EntityGen.Emit

open Schema (Descriptions)

-- ---------------------------------------------------------------------------
-- Scopes
-- ---------------------------------------------------------------------------

/-- The names that are declared side by side. -/
def scopes (d : Descriptions) : List (List String) :=
  d.entities.map (·.propertyNames) ++ d.subtypes.map (·.usedNames) ++ [queueNames d]

/-- No two declarations of a scope have the same name. -/
structure NoClashes (d : Descriptions) : Prop where
  properties : ∀ e ∈ d.entities, (e.properties.map fun p => memberName p.name).Nodup
  cases : ∀ s ∈ d.subtypes, (s.usedCases.map fun c => memberName c.name).Nodup
  options : ∀ s ∈ d.subtypes, (s.optionBits.map fun o => memberName o.1.name).Nodup
  members : ∀ s ∈ d.subtypes, (s.members.map fun m => memberName m.name).Nodup
  queues : ((queueNames d).map queueVariable).Nodup

/-- Distinct names of a scope are emitted differently. -/
def EmittedApart (d : Descriptions) : Prop :=
  ∀ names ∈ scopes d, ∀ a ∈ names, ∀ b ∈ names, memberName a = memberName b → a = b

/-- No option of a set and no member of a value is given twice. -/
def ListedOnce (d : Descriptions) : Prop :=
  ∀ s ∈ d.subtypes, s.isEnum = false → s.usedNames.Nodup

/-- Each scope keeps to one convention for its names. -/
def KeepsConventions (d : Descriptions) : Prop :=
  ∀ names ∈ scopes d,
    (∀ name ∈ names, Text.IsSnakeCase name) ∨ ∀ name ∈ names, Text.IsCamelCase name

theorem noClashes_iff {d : Descriptions} :
    NoClashes d ↔ ∀ names ∈ scopes d, (names.map memberName).Nodup := by
  have hqueues : (queueNames d).map queueVariable
      = ((queueNames d).map memberName).map (· ++ "ClientQueue") := by
    rw [List.map_map]
    rfl
  have happend : Function.Injective fun name : String => name ++ "ClientQueue" :=
    fun _ _ h => (String.append_left_inj _).mp h
  simp only [scopes, List.forall_mem_append, List.forall_mem_map, List.forall_mem_singleton,
    Schema.Subtype.map_usedNames_nodup, Schema.Entity.propertyNames, List.map_map]
  constructor
  · rintro ⟨hproperties, hcases, hoptions, hmembers, hqueue⟩
    rw [hqueues, List.nodup_map_iff happend] at hqueue
    exact ⟨⟨hproperties, fun s hs => ⟨hcases s hs, hoptions s hs, hmembers s hs⟩⟩, hqueue⟩
  · rintro ⟨⟨hproperties, hitems⟩, hqueue⟩
    refine ⟨hproperties, fun s hs => (hitems s hs).1, fun s hs => (hitems s hs).2.1,
      fun s hs => (hitems s hs).2.2, ?_⟩
    rwa [hqueues, List.nodup_map_iff happend]

-- ---------------------------------------------------------------------------
-- Names as they are described
-- ---------------------------------------------------------------------------

theorem scopes_nodup_iff {text : String} {d : Descriptions} (hload : Document.load text = .ok d)
    (hvalid : d.validate = .ok ()) : (∀ names ∈ scopes d, names.Nodup) ↔ ListedOnce d := by
  have hproperties := Document.load_propertyNames_nodup hload
  obtain ⟨-, hsubtypes, -, -⟩ := Schema.Descriptions.validate_ok hvalid
  simp only [scopes, List.forall_mem_append, List.forall_mem_map, List.forall_mem_singleton]
  constructor
  · rintro ⟨⟨-, hitems⟩, -⟩ s hs -
    exact hitems s hs
  · intro hlisted
    refine ⟨⟨hproperties, fun s hs => ?_⟩, (Code.firstUses_addAllDistinct _).nodup⟩
    cases henum : s.isEnum with
    | true => exact Schema.Subtype.usedNames_nodup (hsubtypes s hs) henum
    | false => exact hlisted s hs henum

theorem nodup_map_iff_injOn {names : List String} {emit : String → String} :
    (names.map emit).Nodup ↔
      names.Nodup ∧ ∀ a ∈ names, ∀ b ∈ names, emit a = emit b → a = b := by
  constructor
  · intro h
    exact ⟨h.of_map emit, (List.nodup_map_iff_inj_on (h.of_map emit)).mp h⟩
  · rintro ⟨hnames, hinj⟩
    exact (List.nodup_map_iff_inj_on hnames).mpr hinj

/-- Accepted descriptions declare nothing twice exactly if distinct names are emitted apart
and options and members are given once. One convention per scope keeps names apart. -/
theorem noClashes_iff_emittedApart {text : String} {d : Descriptions}
    (hload : Document.load text = .ok d) (hvalid : d.validate = .ok ()) :
    (NoClashes d ↔ EmittedApart d ∧ ListedOnce d) ∧ (KeepsConventions d → EmittedApart d) := by
  constructor
  · rw [noClashes_iff, ← scopes_nodup_iff hload hvalid]
    simp only [nodup_map_iff_injOn]
    constructor
    · exact fun h => ⟨fun names hnames => (h names hnames).2, fun names hnames => (h names hnames).1⟩
    · exact fun h names hnames => ⟨h.2 names hnames, h.1 names hnames⟩
  · intro hkeeps names hnames a ha b hb hab
    exact Text.camelCase_injOn (hkeeps names hnames) ha hb hab

def conventionalText : String :=
  "<descriptions version='1'><subtypes><subtype name='e'><case name='abC'/><case name='aBc'/>"
    ++ "</subtype></subtypes><entities><entity name='n'><property name='ab_c' type='int'/>"
    ++ "<property name='a_bc' type='int'/></entity></entities></descriptions>"

theorem noClashes_iff_emittedApart_conventional :
    ∃ d, Document.load conventionalText = .ok d ∧ d.validate = .ok () ∧ KeepsConventions d ∧
      ListedOnce d ∧ NoClashes d := by
  have hloaded : ((Document.load conventionalText).toOption.map fun d =>
      decide (d.validate = .ok () ∧
        (∀ names ∈ scopes d, (∀ name ∈ names, Text.IsSnakeCase name) ∨
          ∀ name ∈ names, Text.IsCamelCase name) ∧
        ∀ s ∈ d.subtypes, s.isEnum = false → s.usedNames.Nodup)) = some true := by
    have htext : conventionalText = _ :=
      Markup.append_eq_ofList (Markup.append_eq_ofList rfl rfl) rfl
    rw [Document.load, Markup.nodes_of_ofList htext]
    decide +kernel
  obtain ⟨d, hload, hvalid, hkeeps, hlisted⟩ := exists_ok_of_decide hloaded
  obtain ⟨hiff, happart⟩ := noClashes_iff_emittedApart hload hvalid
  exact ⟨d, hload, hvalid, hkeeps, hlisted, hiff.mpr ⟨happart hkeeps, hlisted⟩⟩

def clashingText : String :=
  "<descriptions version='1'><subtypes><subtype name='e'><case name='a_b'/><case name='aB'/>"
    ++ "</subtype><subtype name='o'><option name='x'/><option name='x'/></subtype>"
    ++ "<subtype name='v'><property name='m' type='int'/><property name='m' type='int'/></subtype>"
    ++ "</subtypes><entities><entity name='n' queue='q_r'><property name='a_b' type='int'/>"
    ++ "<property name='aB' type='int'/></entity><entity name='m' queue='qR'/></entities>"
    ++ "</descriptions>"

/-- Declarations of every kind clash in accepted descriptions. -/
theorem load_clashes :
    ∃ d, Document.load clashingText = .ok d ∧ d.validate = .ok () ∧
      (∃ e ∈ d.entities, ¬(e.properties.map fun p => memberName p.name).Nodup) ∧
      (∃ s ∈ d.subtypes, ¬(s.usedCases.map fun c => memberName c.name).Nodup) ∧
      (∃ s ∈ d.subtypes, ¬(s.optionBits.map fun o => memberName o.1.name).Nodup) ∧
      (∃ s ∈ d.subtypes, ¬(s.members.map fun m => memberName m.name).Nodup) ∧
      (queueNames d).Nodup ∧ ¬((queueNames d).map queueVariable).Nodup := by
  have hclash : ((Document.load clashingText).toOption.map fun d =>
      decide (d.validate = .ok () ∧
        (∃ e ∈ d.entities, ¬(e.properties.map fun p => memberName p.name).Nodup) ∧
        (∃ s ∈ d.subtypes, ¬(s.usedCases.map fun c => memberName c.name).Nodup) ∧
        (∃ s ∈ d.subtypes, ¬(s.optionBits.map fun o => memberName o.1.name).Nodup) ∧
        (∃ s ∈ d.subtypes, ¬(s.members.map fun m => memberName m.name).Nodup) ∧
        (queueNames d).Nodup ∧ ¬((queueNames d).map queueVariable).Nodup)) = some true := by
    have htext : clashingText = _ :=
      Markup.append_eq_ofList (Markup.append_eq_ofList (Markup.append_eq_ofList
        (Markup.append_eq_ofList (Markup.append_eq_ofList rfl rfl) rfl) rfl) rfl) rfl
    rw [Document.load, Markup.nodes_of_ofList htext]
    decide +kernel
  exact exists_ok_of_decide hclash

end EntityGen.Emit
