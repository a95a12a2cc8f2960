import EntityGen.Proofs.Code.Declarations
import EntityGen.Proofs.Emit.Failures
import EntityGen.Proofs.Schema.UniqueNames
import EntityGen.Proofs.Text.ByteOrder
import Mathlib.Data.Prod.Lex

/-!
# Conversions between identifiers

Conversions run both ways between two entities one of which declares its
identifier with the other's, and nowhere else: what is declared with a third
entity does not carry over. The set of conversions alone decides how they are
listed.
-/

namespace EntityGen.Emit

open Code
open Schema (Descriptions Entity)

/-- The entities that an identifier is declared with: its equivalent, and those it is made of. -/
def identifierReferences (e : Entity) : List String :=
  e.identifier.equivalent.toList ++ e.identifier.contributors.map (·.entityName)

/-- Of two different entities one declares its identifier with the other's. -/
def Linked (d : Descriptions) (a b : String) : Prop :=
  a ≠ b ∧ ∃ e t, d.entity? a = some e ∧ d.entity? b = some t ∧
    (b ∈ identifierReferences e ∨ a ∈ identifierReferences t)

def IdentifiersResolvable (d : Descriptions) : Prop :=
  ∀ e ∈ d.entities, ∀ name ∈ identifierReferences e, (d.entity? name).isSome

instance (d : Descriptions) : Decidable (IdentifiersResolvable d) :=
  inferInstanceAs (Decidable (∀ e ∈ d.entities, ∀ name ∈ identifierReferences e,
    (d.entity? name).isSome))

variable {d : Descriptions} {e t : Entity} {c : Conversion} {all : List Conversion}

theorem Linked.symm {a b : String} (h : Linked d a b) : Linked d b a := by
  obtain ⟨hne, e, t, he, ht, hdeclared⟩ := h
  exact ⟨hne.symm, t, e, ht, he, hdeclared.symm⟩

-- ---------------------------------------------------------------------------
-- The conversions of an entity
-- ---------------------------------------------------------------------------

theorem relatedEntities_ok {related : List Entity} :
    relatedEntities d e = .ok related ↔
      List.Forall₂ (fun name t => d.entity? name = some t) (identifierReferences e) related := by
  have hcontributors {ts : List Entity} : d.identifierContributors e = .ok ts ↔
      List.Forall₂ (fun name t => d.entity? name = some t)
        (e.identifier.contributors.map (·.entityName)) ts := by
    rw [Descriptions.identifierContributors, mapM_ok, List.forall₂_map_left_iff]
    simp only [Descriptions.entity_ok]
  simp only [relatedEntities, bind_ok, schema_ok, pure_ok, hcontributors, identifierReferences,
    Descriptions.equivalentEntity]
  cases e.identifier.equivalent with
  | none => simp
  | some name =>
    simp only [map_ok, Descriptions.entity_ok, Option.toList_some, List.singleton_append,
      List.forall₂_cons_left_iff]
    constructor
    · rintro ⟨_, ⟨t, ht, rfl⟩, ts, hts, rfl⟩
      exact ⟨t, ts, ht, hts, rfl⟩
    · rintro ⟨t, ts, ht, hts, rfl⟩
      exact ⟨_, ⟨t, ht, rfl⟩, ts, hts, rfl⟩

theorem mem_relatedEntities {related : List Entity} (h : relatedEntities d e = .ok related) :
    t ∈ related ↔ ∃ name ∈ identifierReferences e, d.entity? name = some t := by
  replace h := relatedEntities_ok.mp h
  constructor
  · exact fun ht => exists_of_forall₂ h ht
  · rintro ⟨name, hname, ht⟩
    obtain ⟨t', hmem, ht'⟩ := exists_of_forall₂ h.flip hname
    obtain rfl : t = t' := Option.some.inj (ht.symm.trans ht')
    exact hmem

theorem exists_relatedEntities (h : ∀ name ∈ identifierReferences e, (d.entity? name).isSome) :
    ∃ related, relatedEntities d e = .ok related := by
  simp only [relatedEntities_ok]
  simp only [Option.isSome_iff_exists] at h
  generalize identifierReferences e = references at h
  induction references with
  | nil => exact ⟨[], .nil⟩
  | cons name names ih =>
    obtain ⟨⟨t, ht⟩, hnames⟩ := List.forall_mem_cons.mp h
    obtain ⟨ts, hts⟩ := ih hnames
    exact ⟨t :: ts, .cons ht hts⟩

theorem checkConversion_ok :
    checkConversion e t = .ok () ↔ e.hasVoidIdentifier = false ∧ t.hasVoidIdentifier = false := by
  unfold checkConversion
  split
  · next h => simp [h]
  · next h => split <;> simp_all

theorem conversionsOf_ok {group : List Conversion} :
    conversionsOf d e = .ok group ↔ ∃ related, relatedEntities d e = .ok related ∧
      (∀ t ∈ related, e.hasVoidIdentifier = false ∧ t.hasVoidIdentifier = false) ∧
      related.flatMap (conversionsBetween e) = group := by
  simp only [conversionsOf, bind_ok, pure_ok, ← checkConversion_ok, ← forM_ok]
  constructor
  · rintro ⟨related, hrelated, ⟨⟩, hchecked, hgroup⟩
    exact ⟨related, hrelated, hchecked, hgroup⟩
  · rintro ⟨related, hrelated, hchecked, hgroup⟩
    exact ⟨related, hrelated, ⟨⟩, hchecked, hgroup⟩

theorem mem_conversionsBetween :
    c ∈ conversionsBetween e t ↔
      t.name ≠ e.name ∧ (c = ⟨e.name, t.name⟩ ∨ c = ⟨t.name, e.name⟩) := by
  unfold conversionsBetween
  split
  · next h => simp [h]
  · next h => simp [h]

-- ---------------------------------------------------------------------------
-- All conversions
-- ---------------------------------------------------------------------------

def Identified (d : Descriptions) (e : Entity) : Prop :=
  ∀ name ∈ identifierReferences e, ∀ t ∈ d.entity? name,
    e.hasVoidIdentifier = false ∧ t.hasVoidIdentifier = false

instance (d : Descriptions) (e : Entity) : Decidable (Identified d e) :=
  inferInstanceAs (Decidable (∀ name ∈ identifierReferences e, ∀ t ∈ d.entity? name,
    e.hasVoidIdentifier = false ∧ t.hasVoidIdentifier = false))

theorem mem_conversions (h : conversions d = .ok all) :
    c ∈ all ↔ ∃ e ∈ d.entities, ∃ name ∈ identifierReferences e, ∃ t, d.entity? name = some t ∧
      c ∈ conversionsBetween e t := by
  simp only [conversions, bind_ok, pure_ok] at h
  obtain ⟨groups, hgroups, rfl⟩ := h
  rw [List.mem_mergeSort, List.mem_eraseDups, List.mem_flatten]
  constructor
  · rintro ⟨group, hgroup, hc⟩
    obtain ⟨e, he, hgroup⟩ := exists_of_forall₂ (mapM_ok.mp hgroups) hgroup
    obtain ⟨related, hrelated, -, rfl⟩ := conversionsOf_ok.mp hgroup
    obtain ⟨t, ht, hc⟩ := List.mem_flatMap.mp hc
    obtain ⟨name, hname, ht⟩ := (mem_relatedEntities hrelated).mp ht
    exact ⟨e, he, name, hname, t, ht, hc⟩
  · rintro ⟨e, he, name, hname, t, ht, hc⟩
    obtain ⟨group, hmem, hgroup⟩ := exists_of_mapM_ok hgroups he
    obtain ⟨related, hrelated, -, rfl⟩ := conversionsOf_ok.mp hgroup
    exact ⟨_, hmem, List.mem_flatMap.mpr ⟨t, (mem_relatedEntities hrelated).mpr ⟨name, hname, ht⟩, hc⟩⟩

/-- The conversions are those between entities of which one is declared with the other. -/
theorem mem_conversions_iff_linked (hunique : (d.entities.map (·.name)).Nodup)
    (h : conversions d = .ok all) {a b : String} : ⟨a, b⟩ ∈ all ↔ Linked d a b := by
  simp only [mem_conversions h, mem_conversionsBetween, Conversion.mk.injEq]
  constructor
  · rintro ⟨e, he, name, hname, t, ht, hne, ⟨rfl, rfl⟩ | ⟨rfl, rfl⟩⟩
    all_goals
      have he := (Descriptions.entity?_eq_some hunique).mpr ⟨he, rfl⟩
      obtain rfl := Descriptions.name_of_entity? ht
    · exact ⟨hne.symm, e, t, he, ht, .inl hname⟩
    · exact ⟨hne, t, e, ht, he, .inr hname⟩
  · rintro ⟨hne, e, t, he, ht, hdeclared⟩
    obtain ⟨hemem, rfl⟩ := (Descriptions.entity?_eq_some hunique).mp he
    obtain ⟨htmem, rfl⟩ := (Descriptions.entity?_eq_some hunique).mp ht
    rcases hdeclared with hname | hname
    · exact ⟨e, hemem, t.name, hname, t, ht, hne.symm, .inl ⟨rfl, rfl⟩⟩
    · exact ⟨t, htmem, e.name, hname, e, he, hne, .inr ⟨rfl, rfl⟩⟩

-- ---------------------------------------------------------------------------
-- Void identifiers
-- ---------------------------------------------------------------------------

theorem exists_conversions_iff (hresolvable : IdentifiersResolvable d) :
    (∃ all, conversions d = .ok all) ↔ ∀ e ∈ d.entities, Identified d e := by
  have hgroup : ∀ e ∈ d.entities, ((∃ group, conversionsOf d e = .ok group) ↔ Identified d e) := by
    intro e he
    obtain ⟨related, hrelated⟩ := exists_relatedEntities (hresolvable e he)
    have hmem {t : Entity} := mem_relatedEntities (t := t) hrelated
    constructor
    · rintro ⟨group, hgroup⟩ name hname t ht
      obtain ⟨related', hrelated', hvoid, -⟩ := conversionsOf_ok.mp hgroup
      exact hvoid t ((mem_relatedEntities hrelated').mpr ⟨name, hname, ht⟩)
    · intro h
      refine ⟨_, conversionsOf_ok.mpr ⟨related, hrelated, fun t ht => ?_, rfl⟩⟩
      obtain ⟨name, hname, ht⟩ := hmem.mp ht
      exact h name hname t ht
  constructor
  · rintro ⟨all, h⟩ e he
    simp only [conversions, bind_ok, pure_ok] at h
    obtain ⟨groups, hgroups, -⟩ := h
    obtain ⟨group, -, hgroup'⟩ := exists_of_mapM_ok hgroups he
    exact (hgroup e he).mp ⟨group, hgroup'⟩
  · intro h
    obtain ⟨groups, hgroups⟩ := exists_mapM_ok fun e he => (hgroup e he).mpr (h e he)
    exact ⟨_, bind_ok.mpr ⟨groups, hgroups, rfl⟩⟩

theorem conversions_failsOnly (hresolvable : IdentifiersResolvable d) :
    FailsOnly (fun error => ∃ name fault, error = .shape name fault) (conversions d) := by
  refine .bind (.mapM fun e he => ?_) fun _ _ => .pure _
  obtain ⟨related, hrelated⟩ := exists_relatedEntities (hresolvable e he)
  unfold conversionsOf
  rw [hrelated]
  refine .bind (.ok _) fun _ _ => .bind (.forM fun t _ => ?_) fun _ _ => .pure _
  exact .ite (fun _ => .error ⟨_, _, rfl⟩) fun _ => .ite (fun _ => .error ⟨_, _, rfl⟩) fun _ => .ok _

theorem conversions_refused_iff (hresolvable : IdentifiersResolvable d) :
    (∃ name fault, conversions d = .error (.shape name fault)) ↔
      ∃ e ∈ d.entities, ∃ name ∈ identifierReferences e, ∃ t, d.entity? name = some t ∧
        (e.hasVoidIdentifier = true ∨ t.hasVoidIdentifier = true) := by
  have hrefused : (∃ name fault, conversions d = .error (.shape name fault)) ↔
      ¬∃ all, conversions d = .ok all := by
    cases h : conversions d with
    | ok all => simp
    | error error =>
      obtain ⟨name, fault, rfl⟩ := conversions_failsOnly hresolvable error h
      simp
  rw [hrefused, exists_conversions_iff hresolvable]
  simp only [Identified, Option.mem_def]
  push Not
  simp only [← Bool.not_eq_true, imp_iff_not_or, not_not, ne_eq]

-- ---------------------------------------------------------------------------
-- The order of conversions
-- ---------------------------------------------------------------------------

def Conversion.key (c : Conversion) : String ×ₗ String := toLex (c.target, c.source)

theorem Conversion.key_injective : Function.Injective key := by
  rintro ⟨target, source⟩ ⟨target', source'⟩ h
  simpa [key] using h

theorem Conversion.order_isLE {a b : Conversion} : (order a b).isLE ↔ a.key ≤ b.key := by
  have hle (x y : String) : (compare x y).isLE ↔ x ≤ y := by
    rw [← compare_le_iff_le, Ordering.isLE_iff_ne_gt]
  rw [order, Ordering.isLE_then_iff_and, hle, hle, compare_lt_iff_lt, Prod.Lex.le_iff]
  change _ ↔ a.target < b.target ∨ a.target = b.target ∧ a.source ≤ b.source
  rw [le_iff_lt_or_eq]
  grind

theorem Conversion.key_lt {a b : Conversion} :
    a.key < b.key ↔ Text.bytes a.target < Text.bytes b.target ∨
      a.target = b.target ∧ Text.bytes a.source < Text.bytes b.source := by
  rw [Prod.Lex.lt_iff, Text.bytes_lt_iff, Text.bytes_lt_iff]
  rfl

theorem nodup_eraseDups {α : Type} [DecidableEq α] (xs : List α) : xs.eraseDups.Nodup := by
  induction hn : xs.length using Nat.strong_induction_on generalizing xs with
  | _ n ih =>
    cases xs with
    | nil => exact List.nodup_nil
    | cons x xs =>
      rw [List.eraseDups_cons, List.nodup_cons, List.mem_eraseDups]
      refine ⟨by simp, ih _ ?_ _ rfl⟩
      rw [← hn]
      exact Nat.lt_succ_of_le (List.length_filter_le _ _)

theorem conversions_sorted (h : conversions d = .ok all) :
    all.Pairwise fun a b => a.key < b.key := by
  simp only [conversions, bind_ok, pure_ok] at h
  obtain ⟨groups, -, rfl⟩ := h
  have hsorted := @List.pairwise_mergeSort _ (fun a b => (Conversion.order a b).isLE)
    (fun a b c hab hbc => Conversion.order_isLE.mpr
      ((Conversion.order_isLE.mp hab).trans (Conversion.order_isLE.mp hbc)))
    (fun a b => by simpa [Conversion.order_isLE] using le_total a.key b.key)
    groups.flatten.eraseDups
  have hnodup := (List.mergeSort_perm groups.flatten.eraseDups
    fun a b => (Conversion.order a b).isLE).nodup_iff.mpr (nodup_eraseDups groups.flatten)
  refine (hsorted.and hnodup).imp fun hboth => ?_
  obtain ⟨hle, hne⟩ := hboth
  exact lt_of_le_of_ne (Conversion.order_isLE.mp hle) (Conversion.key_injective.ne hne)

/-- Conversions in ascending order are given by the set of them. -/
theorem eq_of_sorted {all all' : List Conversion} (h : all.Pairwise fun a b => a.key < b.key)
    (h' : all'.Pairwise fun a b => a.key < b.key) (hmem : ∀ c, c ∈ all ↔ c ∈ all') :
    all = all' := by
  have hnodup {cs : List Conversion} (h : cs.Pairwise fun a b => a.key < b.key) : cs.Nodup :=
    h.imp fun hlt heq => hlt.ne (congrArg Conversion.key heq)
  refine List.Perm.eq_of_pairwise (fun a b _ _ hab hba => absurd hba hab.asymm) h h' ?_
  exact (List.perm_ext_iff_of_nodup (hnodup h) (hnodup h')).mpr hmem

-- ---------------------------------------------------------------------------
-- The file of conversions
-- ---------------------------------------------------------------------------

/-- The extension of the target's identifier holds one initializer, which takes the source's.
It converts the value exactly if the two are of different types. -/
structure Converts (d : Descriptions) (c : Conversion) (x : Extension) : Prop where
  target : x.name = identifierTypeNamed c.target
  initializer : ∃ init e t, x.body = [.function init] ∧ init.isInitializer = true ∧
    init.parameters.map (fun p => (p.callLabel, p.type)) = [(none, identifierTypeNamed c.source)] ∧
    init.body.map Item.delegation? = [some [some "value", some "identifierTypeID"]] ∧
    d.entity? c.target = some e ∧ d.entity? c.source = some t ∧
    (Calls (Item.partsOf init.body) "converted" ↔ e.identifier.value? ≠ t.identifier.value?)

theorem conversionExtension_converts {x : Extension} (h : conversionExtension d c = .ok x) :
    Converts d c x := by
  simp only [conversionExtension, bind_ok, schema_ok, pure_ok, Descriptions.entity_ok] at h
  obtain ⟨e, he, t, ht, rfl⟩ := h
  refine ⟨rfl, _, e, t, rfl, rfl, rfl, rfl, he, ht, ?_⟩
  by_cases hv : e.identifier.value? = t.identifier.value?
  · simp [hv, Calls, identifierArguments]
  · simp [hv, Calls, identifierArguments]

theorem exists_conversionExtension (h : conversions d = .ok all) :
    ∀ c ∈ all, ∃ x, conversionExtension d c = .ok x := by
  intro c hc
  obtain ⟨⟨e, he, hetarget⟩, ⟨t, ht, htsource⟩⟩ := conversions_mem_entities h c hc
  obtain ⟨e', he'⟩ := Descriptions.exists_entity? he
  obtain ⟨t', ht'⟩ := Descriptions.exists_entity? ht
  rw [hetarget] at he'
  rw [htsource] at ht'
  simp only [conversionExtension, bind_ok, schema_ok, pure_ok, Descriptions.entity_ok]
  exact ⟨_, e', he', t', ht', rfl⟩

/-- There is a file unless there are no conversions, with an extension for each in their order. -/
structure ConversionsEmitted (d : Descriptions) (all : List Conversion) (file : Option SourceFile) :
    Prop where
  none_iff : file = none ↔ all = []
  extensions {f : SourceFile} (h : file = some f) : List.Forall₂ (Converts d) all f.extensions
  others {f : SourceFile} (h : file = some f) : ∀ i ∈ f.body, i = .blank ∨ ∃ x, i = .extension x

theorem exists_conversionsFile (h : conversions d = .ok all) :
    ∃ file, conversionsFile d = .ok file ∧ ConversionsEmitted d all file := by
  simp only [conversionsFile, h, ok_bind]
  cases all with
  | nil => exact ⟨none, rfl, by simp, nofun, nofun⟩
  | cons c rest =>
    obtain ⟨extensions, hextensions⟩ := exists_mapM_ok (exists_conversionExtension h)
    simp only [List.isEmpty_cons, Bool.false_eq_true, if_false, hextensions, ok_bind]
    refine ⟨_, rfl, by simp, ?_, ?_⟩
    · rintro _ ⟨⟩
      rw [SourceFile.extensions, SourceFile.filterMap_addingSeparated rfl]
      simpa [emittedFile, List.filterMap_map, Function.comp_def, Item.extension?] using
        (mapM_ok.mp hextensions).imp fun _ _ => conversionExtension_converts
    · rintro _ ⟨⟩
      refine (SourceFile.forall_mem_addingSeparated (.inl rfl)).mpr ⟨by simp [emittedFile], ?_⟩
      exact List.forall_mem_map.mpr fun x _ => .inr ⟨x, rfl⟩

-- ---------------------------------------------------------------------------
-- Exactness
-- ---------------------------------------------------------------------------

/-- The conversions of the descriptions, when they are refused, and how they are emitted. -/
structure ConversionsExact (d : Descriptions) : Prop where
  linked {all : List Conversion} (h : conversions d = .ok all) {a b : String} :
    ⟨a, b⟩ ∈ all ↔ Linked d a b
  symmetric {all : List Conversion} (h : conversions d = .ok all) {a b : String}
    (hab : ⟨a, b⟩ ∈ all) : ⟨b, a⟩ ∈ all
  irreflexive {all : List Conversion} (h : conversions d = .ok all) (a : String) : ⟨a, a⟩ ∉ all
  /-- Two steps make no conversion. -/
  unchained {all : List Conversion} (h : conversions d = .ok all) {a b c : String}
    (hab : ⟨a, b⟩ ∈ all) (hbc : ⟨b, c⟩ ∈ all) (hac : ¬Linked d a c) : ⟨a, c⟩ ∉ all
  refused (h : IdentifiersResolvable d) :
    (∃ name fault, conversions d = .error (.shape name fault)) ↔
      ∃ e ∈ d.entities, ∃ name ∈ identifierReferences e, ∃ t, d.entity? name = some t ∧
        (e.hasVoidIdentifier = true ∨ t.hasVoidIdentifier = true)
  /-- By the bytes of the target, then by those of the source, and none twice. -/
  sorted {all : List Conversion} (h : conversions d = .ok all) :
    all.Pairwise fun c c' => Text.bytes c.target < Text.bytes c'.target ∨
      c.target = c'.target ∧ Text.bytes c.source < Text.bytes c'.source
  emitted {all : List Conversion} (h : conversions d = .ok all) :
    ∃ file, conversionsFile d = .ok file ∧ ConversionsEmitted d all file

theorem conversions_exact (hunique : (d.entities.map (·.name)).Nodup) : ConversionsExact d := by
  constructor
  case linked => exact mem_conversions_iff_linked hunique
  case symmetric =>
    intro all h a b hab
    rw [mem_conversions_iff_linked hunique h] at hab ⊢
    exact hab.symm
  case irreflexive =>
    intro all h a haa
    exact ((mem_conversions_iff_linked hunique h).mp haa).1 rfl
  case unchained =>
    intro all h a b c _ _ hac hmem
    exact hac ((mem_conversions_iff_linked hunique h).mp hmem)
  case refused => exact conversions_refused_iff
  case sorted => exact fun h => (conversions_sorted h).imp Conversion.key_lt.mp
  case emitted => exact exists_conversionsFile

def chainedIdentifiers : Descriptions :=
  { version := "1"
    entities :=
      [{ name := "a", identifier := { kind := .scalar .int, equivalent := some "b" } },
       { name := "b", identifier := { kind := .scalar .int, equivalent := some "c" } },
       { name := "c", identifier := { kind := .scalar .int } },
       { name := "m", identifier := { kind := .relationships .string [⟨"owner", "a"⟩] } }] }

def voidEquivalent : Descriptions :=
  { version := "1"
    entities :=
      [{ name := "a", identifier := { kind := .scalar .int, equivalent := some "v" } },
       { name := "v", identifier := { kind := .void } }] }

theorem conversions_exact_chained :
    (∃ all file, conversions chainedIdentifiers = .ok all ∧
      conversionsFile chainedIdentifiers = .ok (some file) ∧
      ⟨"a", "b"⟩ ∈ all ∧ ⟨"b", "c"⟩ ∈ all ∧ ⟨"a", "c"⟩ ∉ all ∧ ⟨"m", "a"⟩ ∈ all ∧
      ConversionsEmitted chainedIdentifiers all (some file)) ∧
    ∃ name fault, conversions voidEquivalent = .error (.shape name fault) := by
  have hchained := conversions_exact (d := chainedIdentifiers) (by decide)
  have hvoid := conversions_exact (d := voidEquivalent) (by decide)
  constructor
  · obtain ⟨all, hall⟩ := (exists_conversions_iff (d := chainedIdentifiers) (by decide)).mpr
      (by decide)
    have hab := (hchained.linked hall (a := "a") (b := "b")).mpr
      ⟨by decide, _, _, rfl, rfl, .inl (by decide)⟩
    have hbc := (hchained.linked hall (a := "b") (b := "c")).mpr
      ⟨by decide, _, _, rfl, rfl, .inl (by decide)⟩
    have hma := (hchained.linked hall (a := "m") (b := "a")).mpr
      ⟨by decide, _, _, rfl, rfl, .inl (by decide)⟩
    have hnot : ¬Linked chainedIdentifiers "a" "c" := by
      rintro ⟨-, e, t, he, ht, hdeclared⟩
      cases he
      cases ht
      exact absurd hdeclared (by decide)
    obtain ⟨file, hfile, hemitted⟩ := hchained.emitted hall
    obtain ⟨f, rfl⟩ : ∃ f, file = some f := by
      rw [← Option.ne_none_iff_exists']
      exact fun hnone => List.ne_nil_of_mem hab (hemitted.none_iff.mp hnone)
    exact ⟨all, f, hall, hfile, hab, hbc, hchained.unchained hall hab hbc hnot, hma, hemitted⟩
  · exact (hvoid.refused (by decide)).mpr
      ⟨_, List.mem_cons_self, "v", by decide, _, rfl, .inr rfl⟩

end EntityGen.Emit
