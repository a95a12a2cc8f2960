import EntityGen.Emit.FactoryFile
import EntityGen.Proofs.Emit.Lookups
import EntityGen.Proofs.Schema.StoredProperties

/-!
# How deep samples nest

A factory fills in values member by member. It fails exactly where values nest
more than eight structs deep, as they do without end where a struct leads back to
itself, and an optional member, an array or a default ends the descent.
-/

namespace EntityGen.Emit

open Code
open Schema (Descriptions Entity Member Subtype)

variable {d : Descriptions} {e : Entity} {p : Schema.Property} {s t : Subtype}
  {chain : List Subtype} {depth : Nat}

-- ---------------------------------------------------------------------------
-- Nested structs
-- ---------------------------------------------------------------------------

/-- Each value of `s` holds a value of `t`, in a member that is required and no array. -/
def Nests (d : Descriptions) (s t : Subtype) : Prop :=
  ∃ members, s.items = .members members ∧ ∃ m ∈ members,
    m.isOptional = false ∧ m.isArray = false ∧
      ∃ name, m.type = .subtype name ∧ d.subtype? name = some t

/-- Structs from `s` on, each of which holds a value of the next one. -/
structure StructsFrom (d : Descriptions) (s : Subtype) (chain : List Subtype) : Prop where
  first : chain.head? = some s
  structs : ∀ t ∈ chain, t.isStruct
  nested : chain.IsChain (Nests d)

/-- A value of the property is needed and nests more than eight structs deep. -/
def Overnested (d : Descriptions) (p : Schema.Property) : Prop :=
  p.isLazy = false ∧ p.isOptional = false ∧ p.isCollection = false ∧
    (∀ default ∈ propertyDefault? p, default.isAbsent) ∧
      ∃ name s, p.type = .subtype name ∧ d.subtype? name = some s ∧
        ∃ chain, StructsFrom d s chain ∧ 8 < chain.length

def IsEndlessNesting (error : Error) : Prop := ∃ name, error = .shape name .endlessNesting

theorem isStruct_iff : s.isStruct ↔ ∃ members, s.items = .members members := by
  unfold Subtype.isStruct
  cases s.items <;> simp

namespace StructsFrom

theorem single (hs : s.isStruct) : StructsFrom d s [s] where
  first := rfl
  structs := List.forall_mem_singleton.mpr hs
  nested := .singleton s

theorem cons (h : Nests d s t) (ht : StructsFrom d t chain) : StructsFrom d s (s :: chain) where
  first := rfl
  structs := by
    obtain ⟨members, hi, -⟩ := h
    exact List.forall_mem_cons.mpr ⟨isStruct_iff.mpr ⟨members, hi⟩, ht.structs⟩
  nested := by
    obtain ⟨rest, rfl⟩ := List.head?_eq_some_iff.mp ht.first
    exact List.isChain_cons_cons.mpr ⟨h, ht.nested⟩

theorem replicate (h : Nests d s s) (n : Nat) : StructsFrom d s (List.replicate (n + 1) s) := by
  induction n with
  | zero =>
    obtain ⟨members, hi, -⟩ := h
    exact single (isStruct_iff.mpr ⟨members, hi⟩)
  | succ n ih => exact cons h ih

theorem exists_tail (h : StructsFrom d s chain) (hlength : 1 < chain.length) :
    ∃ t rest, chain = s :: rest ∧ Nests d s t ∧ StructsFrom d t rest := by
  obtain ⟨hfirst, hstructs, hnested⟩ := h
  match chain with
  | [] => cases hfirst
  | [_] => exact absurd hlength (Nat.lt_irrefl 1)
  | x :: t :: rest =>
    obtain rfl := Option.some.inj hfirst
    obtain ⟨hnests, hrest⟩ := List.isChain_cons_cons.mp hnested
    exact ⟨t, t :: rest, rfl, hnests, rfl, (List.forall_mem_cons.mp hstructs).2, hrest⟩

theorem isStruct (h : StructsFrom d s chain) : s.isStruct :=
  h.structs s (List.mem_of_head? h.first)

end StructsFrom

-- ---------------------------------------------------------------------------
-- Samples of subtypes
-- ---------------------------------------------------------------------------

/-- Nothing but a chain of structs that is longer than the depth keeps a subtype from having
a sample. -/
theorem sampleSubtype_failsOnly (hd : d.Resolvable) (hs : s ∈ d.subtypes) :
    FailsOnly (fun error => IsEndlessNesting error ∧
      ∃ chain, StructsFrom d s chain ∧ depth < chain.length) (sampleSubtype d depth s) := by
  induction depth generalizing s with
  | zero =>
    unfold sampleSubtype
    split
    · next cases hi => exact firstUsedCase_failsOnly hd hs hi
    · exact .ok _
    · next members hi =>
      have hstruct : s.isStruct := isStruct_iff.mpr ⟨members, hi⟩
      exact .error ⟨⟨s.name, rfl⟩, [s], .single hstruct, Nat.zero_lt_one⟩
  | succ depth ih =>
    unfold sampleSubtype
    split
    · next cases hi => exact firstUsedCase_failsOnly hd hs hi
    · exact .ok _
    · next members hi =>
      refine .bind (.mapM fun m hm => ?_) fun _ _ => .pure _
      unfold sampleMember
      refine .bind (memberType_failsOnly hd hs hi hm) fun _ _ => ?_
      refine .ite (fun _ => .bind (.pure _) fun _ _ => .pure _) fun hrequired =>
        .ite (fun _ => .bind (.pure _) fun _ _ => .pure _) fun harray => ?_
      split
      · exact .bind (.pure _) fun _ _ => .pure _
      · next name ht =>
        refine .bind (subtype_failsOnly (hd.member hs hi hm ht)) fun nested hnested => ?_
        -- what the look-up found is a definition, so the induction reaches it
        have hnested := subtype?_of_subtype hnested
        refine .bind (fun error herror => ?_) fun _ _ => .pure _
        obtain ⟨hendless, chain, hchain, hlength⟩ :=
          ih (Descriptions.mem_of_subtype? hnested) error herror
        have hnests : Nests d s nested :=
          ⟨members, hi, m, hm, by simpa using hrequired, by simpa using harray, name, ht, hnested⟩
        exact ⟨hendless, s :: chain, .cons hnests hchain, Nat.succ_lt_succ hlength⟩

theorem sampleSubtype_nests {x : Expr} (h : Nests d s t)
    (hsample : sampleSubtype d (depth + 1) s = .ok x) : ∃ y, sampleSubtype d depth t = .ok y := by
  obtain ⟨members, hi, m, hm, hrequired, harray, name, htype, ht⟩ := h
  simp only [sampleSubtype, hi, bind_ok] at hsample
  obtain ⟨arguments, harguments, -⟩ := hsample
  obtain ⟨argument, -, hargument⟩ := exists_of_mapM_ok harguments hm
  simp only [sampleMember, hrequired, harray, htype, Bool.false_eq_true, if_false, bind_ok]
    at hargument
  obtain ⟨-, -, nested, hnested, y, hy, -⟩ := hargument
  have hnested := subtype?_of_subtype hnested
  obtain rfl := Option.some.inj (ht.symm.trans hnested)
  exact ⟨y, hy⟩

theorem not_sampleSubtype_ok (h : StructsFrom d s chain) (hlength : depth < chain.length)
    (x : Expr) : sampleSubtype d depth s ≠ .ok x := by
  induction depth generalizing s chain x with
  | zero =>
    intro hx
    obtain ⟨members, hi⟩ := isStruct_iff.mp h.isStruct
    rw [sampleSubtype, hi] at hx
    cases hx
  | succ depth ih =>
    intro hx
    obtain ⟨t, rest, rfl, hnests, hrest⟩ := h.exists_tail (by omega)
    obtain ⟨y, hy⟩ := sampleSubtype_nests hnests hx
    exact ih hrest (Nat.lt_of_succ_lt_succ hlength) y hy

-- ---------------------------------------------------------------------------
-- Samples of properties
-- ---------------------------------------------------------------------------

theorem presentDefault?_eq_none_iff :
    presentDefault? p = none ↔ ∀ default ∈ propertyDefault? p, default.isAbsent := by
  simp [presentDefault?, Option.filter_eq_none_iff]

theorem sampleProperty_failsOnly (hd : d.Resolvable) (he : e ∈ d.entities)
    (hp : p ∈ e.properties) :
    FailsOnly (fun error => IsEndlessNesting error ∧ Overnested d p) (sampleProperty d e p) := by
  unfold sampleProperty
  refine .ite (fun _ => .pure _) fun hlazy => ?_
  split
  · exact .pure _
  next hdefault =>
  refine .ite (fun _ => .pure _) fun hrequired => .ite (fun _ => .pure _) fun hcollection => ?_
  split
  · exact .pure _
  · next name ht =>
    refine .bind (subtype_failsOnly (hd.subtype he hp ht)) fun nested hnested error herror => ?_
    have hnested := subtype?_of_subtype hnested
    obtain ⟨hendless, hchain⟩ :=
      sampleSubtype_failsOnly hd (Descriptions.mem_of_subtype? hnested) error herror
    exact ⟨hendless, by simpa using hlazy, by simpa using hrequired, by simpa using hcollection,
      presentDefault?_eq_none_iff.mp hdefault, name, nested, ht, hnested, hchain⟩
  · next r ht =>
    exact .bind (entity_failsOnly (hd.target he hp ht)) fun _ _ => .pure _

theorem Overnested.not_sampleProperty_ok (h : Overnested d p) (x : Expr) :
    sampleProperty d e p ≠ .ok x := by
  obtain ⟨hlazy, hrequired, hcollection, hdefault, name, s, htype, hs, chain, hchain, hlength⟩ := h
  intro hx
  simp only [sampleProperty, hlazy, hrequired, hcollection, htype,
    presentDefault?_eq_none_iff.mpr hdefault, Bool.false_eq_true, if_false, bind_ok] at hx
  obtain ⟨nested, hnested, hx⟩ := hx
  have hnested := subtype?_of_subtype hnested
  obtain rfl := Option.some.inj (hs.symm.trans hnested)
  exact not_sampleSubtype_ok hchain hlength x hx

-- ---------------------------------------------------------------------------
-- Factories
-- ---------------------------------------------------------------------------

theorem factoryFile_failsOnly (hd : d.Resolvable) (he : e ∈ d.entities) (moduleName : String) :
    FailsOnly (fun error => IsEndlessNesting error ∧ ∃ p ∈ e.properties, Overnested d p)
      (factoryFile d moduleName e) := by
  refine .bind (.bind (.mapM fun p hp => ?_) fun _ _ => .pure _) fun _ _ => .pure _
  have hp := Entity.mem_storedProperties.mp hp
  refine .bind (propertyType_failsOnly hd he hp) fun _ _ =>
    .bind (fun error herror => ?_) fun _ _ => .pure _
  obtain ⟨hendless, hnested⟩ := sampleProperty_failsOnly hd he hp error herror
  exact ⟨hendless, p, hp, hnested⟩

theorem factoryFile_samples {moduleName : String} {file : SourceFile}
    (h : factoryFile d moduleName e = .ok file) (hp : p ∈ e.properties) :
    ∃ x, sampleProperty d e p = .ok x := by
  simp only [factoryFile, factoryParameters, bind_ok] at h
  obtain ⟨-, ⟨parameters, hparameters, -⟩, -⟩ := h
  obtain ⟨parameter, -, hparameter⟩ :=
    exists_of_mapM_ok hparameters (Entity.mem_storedProperties.mpr hp)
  simp only [factoryParameter, bind_ok] at hparameter
  obtain ⟨-, -, x, hx, -⟩ := hparameter
  exact ⟨x, hx⟩

/-- Of valid descriptions an entity has a factory, or one of its properties needs a value that
nests more than eight structs deep, and that is what the failure says. -/
theorem factoryFile_ok_iff (hv : d.validate = .ok ()) (he : e ∈ d.entities) (moduleName : String) :
    ((∃ name, factoryFile d moduleName e = .error (.shape name .endlessNesting)) ↔
      ∃ p ∈ e.properties, Overnested d p) ∧
    ((∃ file, factoryFile d moduleName e = .ok file) ↔ ¬∃ p ∈ e.properties, Overnested d p) := by
  have hfails := factoryFile_failsOnly (Descriptions.resolvable_of_validate hv) he moduleName
  have hsamples : (∃ p ∈ e.properties, Overnested d p) →
      ∀ file, factoryFile d moduleName e ≠ .ok file := by
    rintro ⟨p, hp, hnested⟩ file hfile
    obtain ⟨x, hx⟩ := factoryFile_samples hfile hp
    exact hnested.not_sampleProperty_ok x hx
  cases hmade : factoryFile d moduleName e with
  | ok file =>
    have hnone : ¬∃ p ∈ e.properties, Overnested d p := fun h => hsamples h file hmade
    exact ⟨⟨nofun, fun h => absurd h hnone⟩, fun _ => hnone, fun _ => ⟨file, rfl⟩⟩
  | error error =>
    obtain ⟨⟨name, rfl⟩, hnested⟩ := hfails error hmade
    exact ⟨⟨fun _ => hnested, fun _ => ⟨name, rfl⟩⟩, nofun, fun h => absurd hnested h⟩

def nodeSubtype : Subtype :=
  { name := "node", items := .members [{ name := "next", type := .subtype "node" }] }

def treeEntity : Entity :=
  { name := "tree", identifier := { kind := .scalar .int }
    properties := [{ name := "root", type := .subtype "node" }] }

def nodeTree : Descriptions :=
  { version := "1", subtypes := [nodeSubtype], entities := [treeEntity] }

theorem factoryFile_ok_iff_nodeTree :
    nodeTree.validate = .ok () ∧
      ∃ name, factoryFile nodeTree "App" treeEntity = .error (.shape name .endlessNesting) := by
  have hv : nodeTree.validate = .ok () := by decide +kernel
  have hnode : nodeTree.subtype? "node" = some nodeSubtype := by decide +kernel
  have hnests : Nests nodeTree nodeSubtype nodeSubtype :=
    ⟨_, rfl, _, List.mem_singleton_self _, rfl, rfl, "node", rfl, hnode⟩
  have hroot : ∃ p ∈ treeEntity.properties, Overnested nodeTree p :=
    ⟨_, List.mem_singleton_self _, rfl, rfl, rfl, nofun, "node", nodeSubtype, rfl, hnode, _,
      .replicate hnests 8, by decide⟩
  exact ⟨hv, (factoryFile_ok_iff hv List.mem_cons_self "App").1.mpr hroot⟩

end EntityGen.Emit
