import EntityGen.Emit.MigrationFile
import EntityGen.Proofs.Results
import EntityGen.Proofs.Text.Parts
import Mathlib.Data.List.DropRight
import Mathlib.Order.PiLex

/-!
# Versions in order

A version stands for an endless sequence of numbers, zero where none is given,
and the first place where two versions differ decides which one is older. What
is tested are the older entries of the history, where all texts are versions.
-/

namespace EntityGen.Emit

open Schema (Descriptions)

-- ---------------------------------------------------------------------------
-- Order
-- ---------------------------------------------------------------------------

/-- The number at a place of a version, zero where none is given. -/
def numberAt (v : List Nat) (i : Nat) : Nat := v.getD i 0

/-- A version as an endless sequence, ordered by the first place that differs. -/
def padded (v : List Nat) : Lex (Nat → Nat) := toLex (numberAt v)

section
variable {o : Ordering} {a b c : List Nat}

theorem numberAt_zero (v : List Nat) : numberAt v 0 = v.headD 0 := by
  cases v <;> rfl

theorem numberAt_succ (v : List Nat) (i : Nat) : numberAt v (i + 1) = numberAt v.tail i := by
  cases v <;> rfl

theorem padded_eq_iff_tail :
    padded a = padded b ↔ a.headD 0 = b.headD 0 ∧ padded a.tail = padded b.tail := by
  simp only [padded, toLex_inj, funext_iff, ← numberAt_zero, ← numberAt_succ]
  exact Nat.and_forall_add_one.symm

theorem padded_lt_iff_tail :
    padded a < padded b ↔
      a.headD 0 < b.headD 0 ∨ a.headD 0 = b.headD 0 ∧ padded a.tail < padded b.tail := by
  have hlt (v w : List Nat) : padded v < padded w ↔
      ∃ i, (∀ j < i, numberAt v j = numberAt w j) ∧ numberAt v i < numberAt w i := Iff.rfl
  simp only [hlt, ← numberAt_zero, ← numberAt_succ]
  rw [← Nat.or_exists_add_one]
  simp only [Nat.forall_lt_succ_left, and_assoc, exists_and_left]
  simp

/-- The first place decides, and where it is the same the places after it do. -/
theorem compares_of_tail (h : o.Compares (padded a.tail) (padded b.tail)) :
    ((compare (a.headD 0) (b.headD 0)).then o).Compares (padded a) (padded b) := by
  rcases Nat.lt_trichotomy (a.headD 0) (b.headD 0) with hlt | heq | hgt
  · rw [Nat.compare_eq_lt.mpr hlt]
    exact padded_lt_iff_tail.mpr (.inl hlt)
  · rw [Nat.compare_eq_eq.mpr heq]
    cases o with
    | lt => exact padded_lt_iff_tail.mpr (.inr ⟨heq, h⟩)
    | eq => exact padded_eq_iff_tail.mpr ⟨heq, h⟩
    | gt => exact padded_lt_iff_tail.mpr (.inr ⟨heq.symm, h⟩)
  · rw [Nat.compare_eq_gt.mpr hgt]
    exact padded_lt_iff_tail.mpr (.inl hgt)

theorem compareVersions_nil (b : List Nat) :
    (compareVersions [] b).Compares (padded []) (padded b) := by
  induction b with
  | nil => exact rfl
  | cons y b ih =>
    have hstep : compareVersions [] (y :: b) = (compare 0 y).then (compareVersions [] b) := by
      cases y with
      | zero => simp [compareVersions]
      | succ y => simp [compareVersions, Nat.compare_eq_lt.mpr (Nat.succ_pos y)]
    rw [hstep]
    exact compares_of_tail (a := []) (b := y :: b) ih

/-- Versions are compared as their padded sequences. -/
theorem compareVersions_compares (a b : List Nat) :
    (compareVersions a b).Compares (padded a) (padded b) := by
  induction a generalizing b with
  | nil => exact compareVersions_nil b
  | cons x a ih => exact compares_of_tail (a := x :: a) (ih b.tail)

/-- The numbers of a version up to the last one that is not zero. -/
def trimmed (v : List Nat) : List Nat := v.rdropWhile (· = 0)

theorem trimmed_cons (x : Nat) (v : List Nat) :
    trimmed (x :: v) = if trimmed v = [] ∧ x = 0 then [] else x :: trimmed v := by
  simp only [trimmed, List.rdropWhile, List.reverse_cons, List.dropWhile_append]
  by_cases hv : (v.reverse.dropWhile fun n => n = 0) = []
  · by_cases hx : x = 0 <;> simp [hv, hx]
  · simp [hv]

theorem trimmed_cons_eq_nil {x : Nat} : trimmed (x :: a) = [] ↔ x = 0 ∧ trimmed a = [] := by
  simp [trimmed_cons, and_comm]

theorem trimmed_cons_inj {x y : Nat} :
    trimmed (x :: a) = trimmed (y :: b) ↔ x = y ∧ trimmed a = trimmed b := by
  simp only [trimmed_cons]
  split <;> split <;> grind

theorem trimmed_eq_nil_iff : trimmed a = [] ↔ padded a = padded [] := by
  induction a with
  | nil => exact iff_of_true rfl rfl
  | cons x a ih =>
    rw [trimmed_cons_eq_nil, padded_eq_iff_tail, ih]
    rfl

/-- Versions stand for the same sequence exactly if they differ in zeros at the end only. -/
theorem trimmed_eq_iff : trimmed a = trimmed b ↔ padded a = padded b := by
  induction a generalizing b with
  | nil => rw [eq_comm, eq_comm (a := padded []), ← trimmed_eq_nil_iff]; rfl
  | cons x a ih =>
    cases b with
    | nil => exact trimmed_eq_nil_iff
    | cons y b =>
      rw [trimmed_cons_inj, padded_eq_iff_tail, ih]
      rfl

/-- A comparison of versions as lexicographic order, with zeros after the last number. -/
structure IsVersionOrder (cmp : List Nat → List Nat → Ordering) : Prop where
  lexicographic (a b : List Nat) : (cmp a b).Compares (padded a) (padded b)
  reversed (a b : List Nat) : cmp b a = (cmp a b).swap
  total (a b : List Nat) : (cmp a b).isLE ∨ (cmp b a).isLE
  transitive (a b c : List Nat) : (cmp a b).isLE → (cmp b c).isLE → (cmp a c).isLE
  eq_iff (a b : List Nat) : cmp a b = .eq ↔ trimmed a = trimmed b

theorem isVersionOrder_compareVersions : IsVersionOrder compareVersions := by
  have hle (a b : List Nat) : (compareVersions a b).isLE ↔ padded a ≤ padded b := by
    rw [← (compareVersions_compares a b).ne_gt, Ordering.isLE_iff_ne_gt]
  constructor
  case lexicographic => exact compareVersions_compares
  case reversed =>
    intro a b
    exact (compareVersions_compares b a).inj
      (Ordering.compares_swap.mpr (compareVersions_compares a b))
  case total =>
    intro a b
    rw [hle, hle]
    exact le_total _ _
  case transitive =>
    intro a b c hab hbc
    rw [hle] at *
    exact hab.trans hbc
  case eq_iff =>
    intro a b
    rw [trimmed_eq_iff]
    exact (compareVersions_compares a b).eq_eq

end

-- ---------------------------------------------------------------------------
-- Texts of versions
-- ---------------------------------------------------------------------------

/-- Decimal digits, at least one, of a number of 64 bits. -/
structure IsNumeral (digits : List Char) : Prop where
  ne_nil : digits ≠ []
  isDigit : ∀ c ∈ digits, c.isDigit
  bounded : Nat.ofDigitChars 10 digits 0 < Decimal.pow2 64

instance (digits : List Char) : Decidable (IsNumeral digits) :=
  have : Decidable (∀ c ∈ digits, c.isDigit) := List.decidableBAll _ _
  decidable_of_iff (digits ≠ [] ∧ (∀ c ∈ digits, c.isDigit) ∧
      Nat.ofDigitChars 10 digits 0 < Decimal.pow2 64)
    ⟨fun ⟨h₁, h₂, h₃⟩ => ⟨h₁, h₂, h₃⟩, fun ⟨h₁, h₂, h₃⟩ => ⟨h₁, h₂, h₃⟩⟩

def unsigned : List Char → List Char
  | '+' :: digits => digits
  | digits => digits

/-- The text is numbers with dots between them. -/
def IsDottedNumeric (text : String) : Prop :=
  ∀ part ∈ Text.parts '.' text, IsNumeral part.toList

/-- The text is numbers with dots between them, where a number may have a plus sign in front. -/
def IsVersion (text : String) : Prop :=
  ∀ part ∈ Text.parts '.' text, IsNumeral (unsigned part.toList)

instance : DecidablePred IsDottedNumeric := fun _ => List.decidableBAll _ _

instance : DecidablePred IsVersion := fun _ => List.decidableBAll _ _

def versionNumbers (text : String) : List Nat :=
  (Text.parts '.' text).map fun part => Nat.ofDigitChars 10 (unsigned part.toList) 0

theorem natOfDigits?_eq_some {digits : List Char} {n : Nat} :
    Decimal.natOfDigits? digits = some n ↔
      digits ≠ [] ∧ (∀ c ∈ digits, c.isDigit) ∧ n = Nat.ofDigitChars 10 digits 0 := by
  simp only [Decimal.natOfDigits?, Option.ite_none_left_eq_some, not_or, not_not,
    List.isEmpty_iff, List.all_eq_true, Option.some.injEq, and_assoc, eq_comm (a := n)]
  rfl

theorem readNat?_eq_some {text : String} {n : Nat} :
    Decimal.readNat? text = some n ↔
      IsNumeral (unsigned text.toList) ∧ n = Nat.ofDigitChars 10 (unsigned text.toList) 0 := by
  have hread : Decimal.readNat? text = (Decimal.natOfDigits? (unsigned text.toList)).bind
      fun n => if n < Decimal.pow2 64 then some n else none := rfl
  simp only [hread, Option.bind_eq_some_iff, natOfDigits?_eq_some, Option.ite_none_right_eq_some,
    Option.some.injEq]
  constructor
  · rintro ⟨_, ⟨hne, hdigits, rfl⟩, hbound, rfl⟩
    exact ⟨⟨hne, hdigits, hbound⟩, rfl⟩
  · rintro ⟨⟨hne, hdigits, hbound⟩, rfl⟩
    exact ⟨_, ⟨hne, hdigits, rfl⟩, hbound, rfl⟩

theorem mapM_eq_some {α β : Type} {xs : List α} {f : α → Option β} {p : α → Prop} {g : α → β}
    {ys : List β} (h : ∀ x y, f x = some y ↔ p x ∧ y = g x) :
    xs.mapM f = some ys ↔ (∀ x ∈ xs, p x) ∧ ys = xs.map g := by
  induction xs generalizing ys with
  | nil => simp [eq_comm]
  | cons x xs ih =>
    simp only [List.mapM_cons, Option.bind_eq_bind, Option.bind_eq_some_iff, h, ih,
      Option.pure_def, Option.some.injEq, List.forall_mem_cons, List.map_cons]
    constructor
    · rintro ⟨_, ⟨hx, rfl⟩, _, ⟨hxs, rfl⟩, rfl⟩
      exact ⟨⟨hx, hxs⟩, rfl⟩
    · rintro ⟨⟨hx, hxs⟩, rfl⟩
      exact ⟨_, ⟨hx, rfl⟩, _, ⟨hxs, rfl⟩, rfl⟩

theorem readVersion_ok {text : String} {v : List Nat} :
    readVersion text = .ok v ↔ IsVersion text ∧ v = versionNumbers text := by
  have hread (v : List Nat) :
      readVersion? text = some v ↔ IsVersion text ∧ v = versionNumbers text :=
    mapM_eq_some fun _ _ => readNat?_eq_some
  rw [← hread, readVersion]
  cases readVersion? text <;> simp

theorem isNumeral_iff_unsigned {digits : List Char} :
    IsNumeral digits ↔ IsNumeral (unsigned digits) ∧ '+' ∉ digits := by
  have hplus {digits : List Char} (h : IsNumeral digits) : '+' ∉ digits :=
    fun hmem => absurd (h.isDigit _ hmem) (by decide)
  unfold unsigned
  split
  · next digits => exact ⟨fun h => absurd List.mem_cons_self (hplus h), fun h => by simp at h⟩
  · exact ⟨fun h => ⟨h, hplus h⟩, And.left⟩

theorem isDottedNumeric_iff {text : String} :
    IsDottedNumeric text ↔ IsVersion text ∧ '+' ∉ text.toList := by
  have hplus : (∃ part ∈ Text.parts '.' text, '+' ∈ part.toList) ↔ '+' ∈ text.toList :=
    Text.exists_mem_parts (by decide)
  simp only [IsDottedNumeric, IsVersion, ← hplus, not_exists, not_and, ← forall₂_and]
  exact forall₂_congr fun part _ => isNumeral_iff_unsigned

-- ---------------------------------------------------------------------------
-- Selection
-- ---------------------------------------------------------------------------

/-- The version of the app, the descriptions' version unless another is set. -/
def appVersion (d : Descriptions) (settings : Settings) : String :=
  settings.appVersion.getD d.version

def isOlder (text text' : String) : Bool :=
  compareVersions (versionNumbers text) (versionNumbers text') = .lt

/-- The entries of the history that are older than the app, each as often as it is there. -/
def olderVersions (d : Descriptions) (settings : Settings) : List String :=
  d.versionHistory.filter fun text => isOlder text (appVersion d settings)

theorem readHistory_ok {texts : List String} {parsed : List (String × List Nat)} :
    (texts.mapM fun text => do return (text, ← readVersion text)) = .ok parsed ↔
      (∀ text ∈ texts, IsVersion text) ∧
        parsed = texts.map fun text => (text, versionNumbers text) := by
  have hstep (text : String) (entry : String × List Nat) :
      (do return (text, ← readVersion text)) = Except.ok (ε := Error) entry ↔
        IsVersion text ∧ (text, versionNumbers text) = entry := by
    simp only [bind_ok, pure_ok, readVersion_ok]
    constructor
    · rintro ⟨_, ⟨htext, rfl⟩, rfl⟩
      exact ⟨htext, rfl⟩
    · rintro ⟨htext, rfl⟩
      exact ⟨_, ⟨htext, rfl⟩, rfl⟩
  simp only [mapM_ok, hstep, List.forall₂_and_left, ← List.forall₂_map_left_iff,
    List.forall₂_eq_eq_eq, eq_comm (a := parsed)]

theorem testedVersions_ok_iff {d : Descriptions} {settings : Settings} {versions : List String} :
    testedVersions d settings = .ok versions ↔
      (∀ text ∈ appVersion d settings :: d.versionHistory, IsVersion text) ∧
        versions = olderVersions d settings := by
  simp only [testedVersions, bind_ok, pure_ok, readVersion_ok, readHistory_ok]
  rw [List.forall_mem_cons, and_assoc]
  have hselected : olderVersions d settings = (((d.versionHistory.map fun text =>
      (text, versionNumbers text)).filter fun entry =>
        compareVersions entry.2 (versionNumbers (appVersion d settings)) = .lt).map Prod.fst) := by
    rw [List.filter_map, List.map_map]
    exact (List.map_id _).symm
  constructor
  · rintro ⟨_, ⟨hcurrent, rfl⟩, _, ⟨hhistory, rfl⟩, rfl⟩
    exact ⟨hcurrent, hhistory, hselected.symm⟩
  · rintro ⟨hcurrent, hhistory, rfl⟩
    exact ⟨_, ⟨hcurrent, rfl⟩, _, ⟨hhistory, rfl⟩, hselected.symm⟩

/-- Versions are compared in lexicographic order with zeros after them. The tested versions are
made exactly where all texts are versions, dotted numeric but for plus signs, and are the
entries of the history that are older than the app. -/
theorem testedVersions_exact (d : Descriptions) (settings : Settings) (versions : List String) :
    IsVersionOrder compareVersions ∧
    (testedVersions d settings = .ok versions ↔
      (∀ text ∈ appVersion d settings :: d.versionHistory, IsVersion text) ∧
        versions = olderVersions d settings) ∧
    ∀ text, IsDottedNumeric text ↔ IsVersion text ∧ '+' ∉ text.toList :=
  ⟨isVersionOrder_compareVersions, testedVersions_ok_iff, fun _ => isDottedNumeric_iff⟩

def releases : Descriptions :=
  { version := "1.9", versionHistory := ["1.0", "1.9.0", "1.10", "1.0"] }

theorem testedVersions_exact_releases :
    testedVersions releases {} = .ok ["1.0", "1.0"] ∧
      ¬∃ versions, testedVersions releases { appVersion := some "next" } = .ok versions := by
  constructor
  · exact (testedVersions_exact _ _ _).2.1.mpr (by decide +kernel)
  · rintro ⟨versions, h⟩
    exact absurd ((testedVersions_exact _ _ _).2.1.mp h).1 (by decide +kernel)

/-- A number with a plus sign in front is taken for dotted numeric. -/
theorem testedVersions_plusSign :
    testedVersions { version := "2", versionHistory := ["+1"] } {} = .ok ["+1"] ∧
      ¬IsDottedNumeric "+1" := by
  decide +kernel

end EntityGen.Emit
