import EntityGen.Proofs.Schema.UniqueNames
import Mathlib.Data.List.Duplicate

/-!
# Consistent descriptions

Validation accepts exactly the descriptions whose names are unique, whose
references lead somewhere and whose subtypes and defaults can be emitted. What
it reports is a fault that the descriptions have: a reference that leads nowhere
is reported with the name that nothing bears and the field that holds it.
-/

namespace EntityGen.Schema

-- ---------------------------------------------------------------------------
-- References
-- ---------------------------------------------------------------------------

namespace Descriptions

def names (d : Descriptions) : DefinitionKind → List String
  | .entity => d.entities.map (·.name)
  | .subtype => d.subtypes.map (·.name)
  | .endpoint => d.endpoints.map (·.name)
  | .property => d.entities.flatMap fun e => e.properties.map (·.name)

def Defines (d : Descriptions) (kind : DefinitionKind) (name : String) : Prop :=
  name ∈ d.names kind

/-- The field, given as a path with dots, refers by name to a definition of the kind. -/
inductive Refers (d : Descriptions) : DefinitionKind → String → String → Prop
  | member {s : Subtype} {members : List Member} {m : Member} {name : String}
      (hs : s ∈ d.subtypes) (hi : s.items = .members members) (hm : m ∈ members)
      (ht : m.type = .subtype name) : Refers d .subtype name (s.name ++ "." ++ m.name)
  | property {e : Entity} {p : Property} {name : String} (he : e ∈ d.entities)
      (hp : p ∈ e.properties) (ht : p.type = .subtype name) :
      Refers d .subtype name (e.name ++ "." ++ p.name)
  | relationship {e : Entity} {p : Property} {r : Relationship} (he : e ∈ d.entities)
      (hp : p ∈ e.properties) (ht : p.type = .relationship r) :
      Refers d .entity r.entityName (e.name ++ "." ++ p.name)
  | equivalent {e : Entity} {name : String} (he : e ∈ d.entities)
      (hi : e.identifier.equivalent = some name) : Refers d .entity name (e.name ++ ".identifier")
  | contributor {e : Entity} {c : Contributor} (he : e ∈ d.entities)
      (hc : c ∈ e.identifier.contributors) :
      Refers d .entity c.entityName (e.name ++ ".identifier." ++ c.variableName)
  | read {e : Endpoint} {p : EndpointPayload} (he : e ∈ d.endpoints) (hp : e.read = some p) :
      Refers d .entity p.entityName (e.name ++ ".read")
  | write {e : Endpoint} {p : EndpointPayload} (he : e ∈ d.endpoints) (hp : e.write = some p) :
      Refers d .entity p.entityName (e.name ++ ".write")

/-- The descriptions can be emitted as far as names and references decide it. -/
structure Consistent (d : Descriptions) : Prop where
  entityNames : (d.entities.map (·.name)).Nodup
  subtypeNames : (d.subtypes.map (·.name)).Nodup
  endpointNames : (d.endpoints.map (·.name)).Nodup
  usedCase : ∀ s ∈ d.subtypes, ∀ cases, s.items = .cases cases → ∃ c ∈ cases, c.isUnused = false
  caseNames : ∀ s ∈ d.subtypes, ∀ cases, s.items = .cases cases → (cases.map (·.name)).Nodup
  optionCount : ∀ s ∈ d.subtypes, ∀ options, s.items = .options options → options.length ≤ 64
  references : ∀ kind name field, d.Refers kind name field → d.Defines kind name
  equivalents : ∀ e ∈ d.entities, e.identifier.equivalent ≠ some e.name
  propertyNames : ∀ e ∈ d.entities, ∀ p ∈ e.properties, Text.camelCase p.name ≠ "identifier"
  defaults : ∀ e ∈ d.entities, ∀ p ∈ e.properties, ∀ s ∈ d.subtypes, ∀ cases name,
    p.type = .subtype s.name → s.items = .cases cases → p.default = some (.enumCase name) →
      ∃ c ∈ cases, c.name = name ∧ c.isUnused = false

/-- The descriptions have the fault that the error tells of. -/
inductive Fault (d : Descriptions) : Error → Prop
  | duplicate {kind : DefinitionKind} {name : String} (hkind : kind ≠ .property)
      (h : List.Duplicate name (d.names kind)) : Fault d (.duplicate kind name)
  | noUsedCases {s : Subtype} {cases : List Choice} (hs : s ∈ d.subtypes)
      (hi : s.items = .cases cases) (h : ∀ c ∈ cases, c.isUnused = true) :
      Fault d (.noUsedCases s.name)
  | duplicateCase {s : Subtype} {cases : List Choice} {name : String} (hs : s ∈ d.subtypes)
      (hi : s.items = .cases cases) (h : List.Duplicate name (cases.map (·.name))) :
      Fault d (.duplicateCase name s.name)
  | tooManyOptions {s : Subtype} {options : List Choice} (hs : s ∈ d.subtypes)
      (hi : s.items = .options options) (h : 64 < options.length) :
      Fault d (.tooManyOptions s.name options.length)
  | notFound {kind : DefinitionKind} {name field : String} (h : d.Refers kind name field)
      (hnone : ¬d.Defines kind name) : Fault d (.notFound kind name field)
  | selfEquivalence {e : Entity} (he : e ∈ d.entities)
      (h : e.identifier.equivalent = some e.name) : Fault d (.selfEquivalence e.name)
  | reservedProperty {e : Entity} {p : Property} (he : e ∈ d.entities) (hp : p ∈ e.properties)
      (h : Text.camelCase p.name = "identifier") : Fault d (.reservedProperty e.name p.name)
  | unusedDefault {e : Entity} {p : Property} {s : Subtype} {cases : List Choice} {name : String}
      (he : e ∈ d.entities) (hp : p ∈ e.properties) (hs : s ∈ d.subtypes)
      (ht : p.type = .subtype s.name) (hi : s.items = .cases cases)
      (hdefault : p.default = some (.enumCase name))
      (h : ∀ c ∈ cases, c.name = name → c.isUnused = true) :
      Fault d (.unusedDefault name (e.name ++ "." ++ p.name) s.name)

end Descriptions

-- ---------------------------------------------------------------------------
-- Names
-- ---------------------------------------------------------------------------

/-- The name that the check finds occurs twice, or was seen before. -/
theorem duplicate_of_firstRepeated? {seen names : List String} {name : String}
    (h : firstRepeated? seen names = some name) :
    List.Duplicate name names ∨ (name ∈ names ∧ name ∈ seen) := by
  induction names generalizing seen with
  | nil => cases h
  | cons first rest ih =>
    rw [firstRepeated?] at h
    split at h
    · next hseen =>
      cases h
      exact .inr ⟨List.mem_cons_self, hseen⟩
    · rcases ih h with hrest | ⟨hrest, hseen⟩
      · exact .inl (hrest.duplicate_cons first)
      · rcases List.mem_cons.mp hseen with rfl | hseen
        · exact .inl (List.Mem.duplicate_cons_self hrest)
        · exact .inr ⟨List.mem_cons_of_mem first hrest, hseen⟩

theorem duplicate_of_firstRepeated?_nil {names : List String} {name : String}
    (h : firstRepeated? [] names = some name) : List.Duplicate name names := by
  rcases duplicate_of_firstRepeated? h with hnames | ⟨-, hseen⟩
  · exact hnames
  · cases hseen

theorem failsOnly_checkUnique {p : Error → Prop} {kind : DefinitionKind} {names : List String}
    (h : ∀ name, List.Duplicate name names → p (.duplicate kind name)) :
    FailsOnly p (checkUnique kind names) := by
  unfold checkUnique
  split
  · next name hname => exact .error (h name (duplicate_of_firstRepeated?_nil hname))
  · exact .ok ()

namespace Descriptions

variable {d : Descriptions}

theorem defines_of_entity? {name : String} {e : Entity} (h : d.entity? name = some e) :
    d.Defines .entity name :=
  List.mem_map.mpr ⟨e, mem_of_entity? h, name_of_entity? h⟩

theorem name_of_subtype? {name : String} {s : Subtype} (h : d.subtype? name = some s) :
    s.name = name := by
  have hname := List.find?_some h
  exact beq_iff_eq.mp hname

theorem defines_of_subtype? {name : String} {s : Subtype} (h : d.subtype? name = some s) :
    d.Defines .subtype name :=
  List.mem_map.mpr ⟨s, mem_of_subtype? h, name_of_subtype? h⟩

theorem failsOnly_entity {name field : String} (h : d.Refers .entity name field) :
    FailsOnly d.Fault (d.entity name field) := by
  unfold entity
  cases hfound : d.entity? name with
  | some e => exact .ok e
  | none =>
    refine .error (.notFound h fun hdefines => ?_)
    obtain ⟨e, he, hname⟩ := List.mem_map.mp hdefines
    obtain ⟨t, ht⟩ := exists_entity? he
    rw [hname, hfound] at ht
    cases ht

theorem failsOnly_subtype {name field : String} (h : d.Refers .subtype name field) :
    FailsOnly d.Fault (d.subtype name field) := by
  unfold subtype
  cases hfound : d.subtype? name with
  | some s => exact .ok s
  | none =>
    refine .error (.notFound h fun hdefines => ?_)
    obtain ⟨s, hs, hname⟩ := List.mem_map.mp hdefines
    have hnone := List.find?_eq_none.mp hfound s hs
    exact hnone (beq_iff_eq.mpr hname)

-- ---------------------------------------------------------------------------
-- What is reported
-- ---------------------------------------------------------------------------

theorem failsOnly_checkNames : FailsOnly d.Fault d.checkNames := by
  refine .bind (failsOnly_checkUnique ?_) fun _ _ => .bind (failsOnly_checkUnique ?_) fun _ _ =>
    failsOnly_checkUnique ?_
  all_goals
    intro name h
    exact .duplicate nofun h

theorem failsOnly_checkSubtype {s : Subtype} (hs : s ∈ d.subtypes) :
    FailsOnly d.Fault (d.checkSubtype s) := by
  unfold checkSubtype
  split
  case h_1 cases hi =>
    refine .ite (fun hunused => .error (.noUsedCases hs hi ?_)) fun _ => ?_
    · simpa using hunused
    · split
      · next name hname =>
        exact .error (.duplicateCase hs hi (duplicate_of_firstRepeated?_nil hname))
      · exact .ok ()
  case h_2 options hi =>
    exact .ite (fun hcount => .error (.tooManyOptions hs hi hcount)) fun _ => .ok ()
  case h_3 members hi =>
    refine .forM fun m hm => ?_
    unfold checkMember
    split
    · exact .ok ()
    · next name ht => exact .bind (failsOnly_subtype (.member hs hi hm ht)) fun _ _ => .pure ()

theorem failsOnly_checkDefault {e : Entity} {p : Property} {s : Subtype} (he : e ∈ d.entities)
    (hp : p ∈ e.properties) (hs : s ∈ d.subtypes) (ht : p.type = .subtype s.name) :
    FailsOnly d.Fault (checkDefault (e.name ++ "." ++ p.name) p s) := by
  unfold checkDefault
  split
  · next name cases hdefault hi =>
    refine .ite (fun _ => .ok ()) fun hunused => ?_
    refine .error (.unusedDefault he hp hs ht hi hdefault fun c hc hname => ?_)
    simpa [hname] using mt (fun h => List.any_eq_true.mpr ⟨c, hc, h⟩) hunused
  · exact .ok ()

theorem failsOnly_checkProperty {e : Entity} {p : Property} (he : e ∈ d.entities)
    (hp : p ∈ e.properties) : FailsOnly d.Fault (d.checkProperty e p) := by
  unfold checkProperty
  refine .ite (fun hreserved => ?_) fun _ => ?_
  · have hname : Text.camelCase p.name = "identifier" := by simpa [reservedNames] using hreserved
    exact .bind (.error (.reservedProperty he hp hname)) nofun
  · dsimp only
    split
    · exact .pure ()
    · next name ht =>
      refine .bind (failsOnly_subtype (.property he hp ht)) fun s hs => ?_
      have hfound := subtype_ok.mp hs
      rw [← name_of_subtype? hfound] at ht
      exact failsOnly_checkDefault he hp (mem_of_subtype? hfound) ht
    · next r ht =>
      exact .bind (failsOnly_entity (.relationship he hp ht)) fun _ _ => .pure ()

theorem failsOnly_checkEntity {e : Entity} (he : e ∈ d.entities) :
    FailsOnly d.Fault (d.checkEntity e) := by
  have hequivalent : FailsOnly d.Fault (d.equivalentEntity e) := by
    unfold equivalentEntity
    split
    · exact .ok none
    · next name hi => exact .map (failsOnly_entity (.equivalent he hi))
  have hcontributors : FailsOnly d.Fault (d.identifierContributors e) :=
    .mapM fun c hc => failsOnly_entity (.contributor he hc)
  unfold checkEntity
  refine .ite (fun hself => .bind (.error (.selfEquivalence he hself)) ?_) fun _ => ?_
  · rintro _ ⟨⟩
  refine .bind hequivalent fun _ _ => .bind hcontributors fun _ _ => ?_
  exact .forM fun p hp => failsOnly_checkProperty he hp

theorem failsOnly_checkPayload {field : String} {payload : Option EndpointPayload}
    (h : ∀ p, payload = some p → d.Refers .entity p.entityName field) :
    FailsOnly d.Fault (d.checkPayload field payload) := by
  cases payload with
  | none => exact .ok ()
  | some p => exact .bind (failsOnly_entity (h p rfl)) fun _ _ => .pure ()

/-- Validation reports faults that the descriptions have. -/
theorem failsOnly_validate (d : Descriptions) : FailsOnly d.Fault d.validate := by
  refine .bind failsOnly_checkNames fun _ _ => ?_
  refine .bind (.forM fun s hs => failsOnly_checkSubtype hs) fun _ _ => ?_
  refine .bind (.forM fun e he => failsOnly_checkEntity he) fun _ _ => .forM fun e he => ?_
  exact .bind (failsOnly_checkPayload fun p hp => .read he hp) fun _ _ =>
    failsOnly_checkPayload fun p hp => .write he hp

-- ---------------------------------------------------------------------------
-- What is accepted
-- ---------------------------------------------------------------------------

theorem Consistent.not_fault (h : d.Consistent) {error : Error} : ¬d.Fault error := by
  intro hfault
  cases hfault with
  | @duplicate kind name hkind htwice =>
    cases kind with
    | entity => exact htwice.not_nodup h.entityNames
    | subtype => exact htwice.not_nodup h.subtypeNames
    | endpoint => exact htwice.not_nodup h.endpointNames
    | property => exact hkind rfl
  | noUsedCases hs hi hunused =>
    obtain ⟨c, hc, hused⟩ := h.usedCase _ hs _ hi
    rw [hunused c hc] at hused
    cases hused
  | duplicateCase hs hi htwice => exact htwice.not_nodup (h.caseNames _ hs _ hi)
  | tooManyOptions hs hi hcount => exact absurd (h.optionCount _ hs _ hi) (by omega)
  | notFound hrefers hnone => exact hnone (h.references _ _ _ hrefers)
  | selfEquivalence he hself => exact h.equivalents _ he hself
  | reservedProperty he hp hname => exact h.propertyNames _ he _ hp hname
  | unusedDefault he hp hs ht hi hdefault hunused =>
    obtain ⟨c, hc, hname, hused⟩ := h.defaults _ he _ hp _ hs _ _ ht hi hdefault
    rw [hunused c hc hname] at hused
    cases hused

theorem checkSubtype_optionCount {s : Subtype} {options : List Choice}
    (h : d.checkSubtype s = .ok ()) (hi : s.items = .options options) : options.length ≤ 64 := by
  simp only [checkSubtype, hi] at h
  split at h
  · cases h
  · next hcount => exact Nat.le_of_not_lt hcount

theorem checkEntity_notSelf {e : Entity} (h : d.checkEntity e = .ok ()) :
    e.identifier.equivalent ≠ some e.name := by
  simp only [checkEntity, ite_throw_ok] at h
  exact h.1

theorem checkDefault_ok {source name : String} {p : Property} {s : Subtype} {cases : List Choice}
    (h : checkDefault source p s = .ok ()) (hi : s.items = .cases cases)
    (hdefault : p.default = some (.enumCase name)) :
    ∃ c ∈ cases, c.name = name ∧ c.isUnused = false := by
  simp only [checkDefault, hdefault, hi] at h
  split at h
  · next hfound =>
    obtain ⟨c, hc, hused⟩ := List.any_eq_true.mp hfound
    exact ⟨c, hc, by simpa using hused⟩
  · cases h

theorem checkProperty_default {e : Entity} {p : Property} {name : String}
    (h : d.checkProperty e p = .ok ()) (ht : p.type = .subtype name) :
    ∃ s, d.subtype? name = some s ∧ checkDefault (e.name ++ "." ++ p.name) p s = .ok () := by
  simp only [checkProperty, ite_throw_ok, ht, bind_ok, subtype_ok] at h
  exact h.2

theorem subtype?_eq_some (h : (d.subtypes.map (·.name)).Nodup) {s : Subtype}
    (hs : s ∈ d.subtypes) : d.subtype? s.name = some s :=
  (find?_name_eq_some h).mpr ⟨hs, rfl⟩

theorem Resolvable.defines (hd : d.Resolvable) {kind : DefinitionKind} {name field : String}
    (h : d.Refers kind name field) : d.Defines kind name := by
  cases h with
  | member hs hi hm ht =>
    obtain ⟨t, ht⟩ := hd.member hs hi hm ht
    exact defines_of_subtype? ht
  | property he hp ht =>
    obtain ⟨s, hs⟩ := hd.subtype he hp ht
    exact defines_of_subtype? hs
  | relationship he hp ht =>
    obtain ⟨t, ht⟩ := hd.target he hp ht
    exact defines_of_entity? ht
  | equivalent he hi =>
    obtain ⟨t, ht⟩ := hd.equivalent he hi
    exact defines_of_entity? ht
  | contributor he hc =>
    obtain ⟨t, ht⟩ := hd.contributor he hc
    exact defines_of_entity? ht
  | @read e p he hp | @write e p he hp =>
    have hpayload : p ∈ e.payloads := by simp [Endpoint.payloads, hp]
    obtain ⟨t, ht⟩ := hd.payload he hpayload
    exact defines_of_entity? ht

theorem consistent_of_validate (h : d.validate = .ok ()) : d.Consistent := by
  obtain ⟨hnames, hsubtypes, hentities, -⟩ := validate_ok h
  simp only [checkNames, bind_ok] at hnames
  obtain ⟨_, hentityNames, _, hsubtypeNames, hendpointNames⟩ := hnames
  have hnodup := checkUnique_ok hsubtypeNames
  constructor
  case entityNames => exact checkUnique_ok hentityNames
  case subtypeNames => exact hnodup
  case endpointNames => exact checkUnique_ok hendpointNames
  case usedCase =>
    intro s hs cases hi
    have hused := checkSubtype_usedCase (hsubtypes s hs) hi
    obtain ⟨c, hc⟩ := List.exists_mem_of_ne_nil _ hused
    simp only [Subtype.usedCases, hi, List.mem_filter, Bool.not_eq_true'] at hc
    exact ⟨c, hc⟩
  case caseNames =>
    intro s hs cases hi
    exact checkSubtype_cases_nodup (hsubtypes s hs) hi
  case optionCount =>
    intro s hs options hi
    exact checkSubtype_optionCount (hsubtypes s hs) hi
  case references =>
    intro kind name field hrefers
    exact (resolvable_of_validate h).defines hrefers
  case equivalents =>
    intro e he
    exact checkEntity_notSelf (hentities e he)
  case propertyNames =>
    intro e he p hp hname
    refine checkProperty_notReserved (validate_property h he hp) ?_
    rw [hname]
    exact List.mem_singleton_self _
  case defaults =>
    intro e he p hp s hs cases name ht hi hdefault
    obtain ⟨t, ht, hcheck⟩ := checkProperty_default (validate_property h he hp) ht
    rw [subtype?_eq_some hnodup hs] at ht
    cases ht
    exact checkDefault_ok hcheck hi hdefault

/-- Validation accepts exactly the consistent descriptions. Whatever else it answers is a
fault of theirs; where it finds no definition, there is none of that kind and name, and the
field that it blames refers to it. -/
theorem validate_exact (d : Descriptions) :
    (d.validate = .ok () ↔ d.Consistent) ∧
    (∀ error, d.validate = .error error → d.Fault error) ∧
    ∀ kind name field, d.validate = .error (.notFound kind name field) →
      ¬d.Defines kind name ∧ d.Refers kind name field := by
  refine ⟨⟨consistent_of_validate, fun h => ?_⟩, failsOnly_validate d, fun kind name field h => ?_⟩
  · cases hvalidate : d.validate with
    | ok _ => rfl
    | error error => exact absurd (failsOnly_validate d error hvalidate) h.not_fault
  · cases failsOnly_validate d _ h with
    | notFound hrefers hnone => exact ⟨hnone, hrefers⟩

def ownerless : Descriptions where
  version := "1"
  entities :=
    [{ name := "item", identifier := { kind := .void },
       properties := [{ name := "owner",
                        type := .relationship { entityName := "user", association := .toOne } }] }]

theorem validate_exact_ownerless :
    ownerless.validate = .error (.notFound .entity "user" "item.owner") ∧
      ownerless.Fault (.notFound .entity "user" "item.owner") ∧
      ¬ownerless.Defines .entity "user" ∧ ownerless.Refers .entity "user" "item.owner" := by
  have hvalidate : ownerless.validate = .error (.notFound .entity "user" "item.owner") := by rfl
  obtain ⟨-, hfault, hculprit⟩ := validate_exact ownerless
  exact ⟨hvalidate, hfault _ hvalidate, hculprit _ _ _ hvalidate⟩

end Descriptions
end EntityGen.Schema
