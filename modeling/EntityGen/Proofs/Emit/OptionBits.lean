import EntityGen.Proofs.Emit.DefaultTypes
import EntityGen.Proofs.Schema.UniqueNames

/-!
# Bits of options

The constant of an option is a bit at the option's place among all declared
options, used or not. So retiring options, taking them up again and adding
options at the end leave the constants of the other options as they are, and
the limit on the number of options keeps the bits within a word.
-/

namespace EntityGen.Emit

open Code
open Schema (Choice Descriptions Subtype)

-- ---------------------------------------------------------------------------
-- What is declared
-- ---------------------------------------------------------------------------

def bitAt (place : Nat) : Expr := .infixed (.int 1) .shiftLeft (.int place)

/-- The value of a constant as a word. Bits that are shifted out are lost. -/
def word? : Expr → Option (BitVec 64)
  | .int n => some (BitVec.ofInt 64 n)
  | .infixed left .shiftLeft (.int (.ofNat count)) => (word? left).map fun word : BitVec 64 => word <<< count
  | _ => none

/-- The name and the raw value of a static constant of the type at hand. -/
def optionConstant? (own : TypeName) : Item → Option (String × Expr)
  | .property (.mk var _ _ (some (.call (.type type) [.mk (some "rawValue") value])) _ _) =>
    if var.isStatic && type == own then some (var.name, value) else none
  | _ => none

def optionConstants (t : TypeDecl) : List (String × Expr) :=
  t.body.filterMap (optionConstant? t.name)

/-- What the static array `all` of the type at hand lists. -/
def listed? (own : TypeName) : Item → Option (List Expr)
  | .property (.mk var _ _ (some (.array elements)) _ _) =>
    if var.isStatic && var.name == "all" && var.type == some own then some elements else none
  | _ => none

/-- The constant for the option at a place. Constants stand in the order of the used options. -/
def constantFor (options : List Choice) (t : TypeDecl) (place : Nat) : Option (String × Expr) :=
  (optionConstants t)[(options.take place).countP fun o => !o.isUnused]?

/-- Options were added at the end, and the marks of unused ones may have changed. -/
def EvolvesTo (options later : List Choice) : Prop :=
  ∃ kept added, later = kept ++ added ∧ kept.map (·.name) = options.map (·.name)

/-- The type has a constant for each used option, which is a bit of its own. -/
structure BitsExact (options : List Choice) (t : TypeDecl) : Prop where
  numbered : ∀ place o, options[place]? = some o → o.isUnused = false →
    constantFor options t place = some (memberName o.name, bitAt place)
  length_eq : (optionConstants t).length = options.countP fun o => !o.isUnused
  /-- Each constant is one bit of a word. -/
  bits : ∀ name value, (name, value) ∈ optionConstants t →
    ∃ place < 64, value = bitAt place ∧ word? value = some (BitVec.twoPow 64 place) ∧
      BitVec.twoPow 64 place ≠ 0
  apart : ((optionConstants t).map fun c => word? c.2).Nodup
  listed : t.body.filterMap (listed? t.name) = [(optionConstants t).map fun c => .dot c.1]

/-- An option that is used in both lists has the same constant in both types. Options are
told apart by their places, and by their names where no two are emitted alike. -/
structure SameBits (options options' : List Choice) (t t' : TypeDecl) : Prop where
  byPlace : ∀ place o o', options[place]? = some o → options'[place]? = some o' →
    o.isUnused = false → o'.isUnused = false → ∃ constant,
      constantFor options t place = some constant ∧ constantFor options' t' place = some constant
  byName : (options.map fun o => memberName o.name).Nodup →
    (options'.map fun o => memberName o.name).Nodup →
    ∀ name value value', (name, value) ∈ optionConstants t → (name, value') ∈ optionConstants t' →
      value = value'

-- ---------------------------------------------------------------------------
-- Constants
-- ---------------------------------------------------------------------------

theorem getElem?_filter_countP {α : Type} {p : α → Bool} {entries : List α} {i : Nat} {a : α}
    (h : entries[i]? = some a) (ha : p a = true) :
    (entries.filter p)[(entries.take i).countP p]? = some a := by
  induction entries generalizing i with
  | nil => cases h
  | cons b entries ih =>
    cases i with
    | zero =>
      obtain rfl : b = a := by simpa using h
      simp [List.filter_cons_of_pos ha]
    | succ i =>
      have hrest := ih (i := i) (by simpa using h)
      cases hb : p b <;> simpa [List.countP_cons, hb] using hrest

theorem countP_fst {α β : Type} (p : α → Bool) (pairs : List (α × β)) :
    pairs.countP (fun x => p x.1) = (pairs.map Prod.fst).countP p := by
  rw [List.countP_map]
  rfl

theorem twoPow_ne_zero {place : Nat} (h : place < 64) : BitVec.twoPow 64 place ≠ 0 := by
  intro hzero
  have hbit := congrArg (fun word => word.getLsbD place) hzero
  simp [h] at hbit

theorem twoPow_inj {i j : Nat} (hi : i < 64) (h : BitVec.twoPow 64 i = BitVec.twoPow 64 j) :
    i = j := by
  have hbit := congrArg (fun word => word.getLsbD i) h
  simp [hi] at hbit
  omega

theorem word?_bitAt (place : Nat) : word? (bitAt place) = some (BitVec.twoPow 64 place) := by
  rw [BitVec.twoPow_eq]
  rfl

section
variable {s : Subtype} {options : List Choice}

theorem optionBits_eq (h : s.items = .options options) :
    s.optionBits = options.zipIdx.filter fun x => !x.1.isUnused := by
  rw [Subtype.optionBits, h]

theorem optionSet_constants (s : Subtype) :
    optionConstants (optionSet s)
      = s.optionBits.map fun (o, place) => (memberName o.name, bitAt place) := by
  have hoptions : (s.optionBits.map fun (o, place) =>
      Item.property (optionProperty (subtypeType s.name) o place)).filterMap
        (optionConstant? (subtypeType s.name))
      = s.optionBits.map fun (o, place) => (memberName o.name, bitAt place) := by
    simp [List.filterMap_map, optionConstant?, optionProperty, Function.comp_def, bitAt]
  have hname : (optionSet s).name = subtypeType s.name := rfl
  rw [optionConstants, hname, optionSet, Item.filterMap_grouped rfl]
  simp only [List.flatMap_cons, List.flatMap_nil, hoptions]
  exact List.append_nil _

theorem optionSet_listed (s : Subtype) :
    (optionSet s).body.filterMap (listed? (subtypeType s.name))
      = [s.optionBits.map fun (o, _) => .dot (memberName o.name)] := by
  have hoptions : (s.optionBits.map fun (o, place) =>
      Item.property (optionProperty (subtypeType s.name) o place)).filterMap
        (listed? (subtypeType s.name)) = [] := by
    simp [List.filterMap_map, listed?, optionProperty]
  rw [optionSet, Item.filterMap_grouped rfl]
  simp only [List.flatMap_cons, List.flatMap_nil, hoptions]
  have hall : [Item.property
      { var := { name := "all", type := some (subtypeType s.name), isStatic := true }
        access := .publicAccess
        value := some (.array (s.optionBits.map fun (o, _) => .dot (memberName o.name))) }].filterMap
        (listed? (subtypeType s.name)) = [s.optionBits.map fun (o, _) => .dot (memberName o.name)] := by
    simp [listed?]
  rw [hall]
  rfl

theorem optionSet_constantFor (h : s.items = .options options) {place : Nat} {o : Choice}
    (ho : options[place]? = some o) (hused : o.isUnused = false) :
    constantFor options (optionSet s) place = some (memberName o.name, bitAt place) := by
  have hzip : options.zipIdx[place]? = some (o, place) := by simp [ho]
  have hfilter := getElem?_filter_countP (p := fun x : Choice × Nat => !x.1.isUnused) hzip
    (by simp [hused])
  have hcount : (options.zipIdx.take place).countP (fun x => !x.1.isUnused)
      = (options.take place).countP fun o => !o.isUnused := by
    rw [countP_fst (fun o : Choice => !o.isUnused), List.map_take, List.zipIdx_map_fst]
  rw [constantFor, optionSet_constants, optionBits_eq h, List.getElem?_map, ← hcount, hfilter]
  rfl

theorem mem_optionConstants (h : s.items = .options options) {name : String} {value : Expr} :
    (name, value) ∈ optionConstants (optionSet s) ↔
      ∃ place o, options[place]? = some o ∧ o.isUnused = false ∧ name = memberName o.name ∧
        value = bitAt place := by
  simp only [optionSet_constants, optionBits_eq h, List.mem_map, List.mem_filter, Prod.exists,
    List.mk_mem_zipIdx_iff_getElem?, Prod.mk.injEq, Bool.not_eq_true']
  grind

theorem optionSet_bitsExact (h : s.items = .options options) (hlimit : options.length ≤ 64) :
    BitsExact options (optionSet s) := by
  constructor
  case numbered => exact fun place o ho hused => optionSet_constantFor h ho hused
  case length_eq =>
    rw [optionSet_constants, List.length_map, optionBits_eq h, ← List.countP_eq_length_filter,
      countP_fst (fun o : Choice => !o.isUnused), List.zipIdx_map_fst]
  case bits =>
    intro name value hmem
    obtain ⟨place, o, ho, -, -, rfl⟩ := (mem_optionConstants h).mp hmem
    have hplace := (List.getElem?_eq_some_iff.mp ho).1.trans_le hlimit
    exact ⟨place, hplace, rfl, word?_bitAt place, twoPow_ne_zero hplace⟩
  case apart =>
    -- Places differ, and so do the words as long as none is shifted out.
    have hplaces : (s.optionBits.map Prod.snd).Nodup := by
      have hsublist := (List.filter_sublist (p := fun x : Choice × Nat => !x.1.isUnused)
        (l := options.zipIdx)).map Prod.snd
      rw [← optionBits_eq h, List.zipIdx_map_snd] at hsublist
      exact hsublist.nodup (List.nodup_range' ..)
    have hlimited : ∀ place ∈ s.optionBits.map Prod.snd, place < 64 := by
      intro place hplace
      obtain ⟨⟨o, place⟩, hmem, rfl⟩ := List.mem_map.mp hplace
      rw [optionBits_eq h, List.mem_filter, List.mk_mem_zipIdx_iff_getElem?] at hmem
      exact (List.getElem?_eq_some_iff.mp hmem.1).1.trans_le hlimit
    have hwords : (optionConstants (optionSet s)).map (fun c => word? c.2)
        = (s.optionBits.map Prod.snd).map fun place => some (BitVec.twoPow 64 place) := by
      simp [optionSet_constants, word?_bitAt, Function.comp_def]
    rw [hwords]
    refine List.Nodup.map_on (fun i hi j _ heq => ?_) hplaces
    exact twoPow_inj (hlimited i hi) (Option.some.inj heq)
  case listed =>
    have hname : (optionSet s).name = subtypeType s.name := rfl
    rw [optionSet_constants, hname, optionSet_listed, List.map_map]
    rfl

theorem EvolvesTo.name_eq {later : List Choice} (h : EvolvesTo options later) {place : Nat}
    {o o' : Choice} (ho : options[place]? = some o) (ho' : later[place]? = some o') :
    o'.name = o.name := by
  obtain ⟨kept, added, rfl, hnames⟩ := h
  have hlength : kept.length = options.length := by simpa using congrArg List.length hnames
  have hplace : place < kept.length := hlength ▸ (List.getElem?_eq_some_iff.mp ho).1
  rw [List.getElem?_append_left hplace] at ho'
  have hname := congrArg (fun names => names[place]?) hnames
  simpa [ho, ho'] using hname

theorem EvolvesTo.length_le {later : List Choice} (h : EvolvesTo options later) :
    options.length ≤ later.length := by
  obtain ⟨kept, added, rfl, hnames⟩ := h
  have hlength : kept.length = options.length := by simpa using congrArg List.length hnames
  simp [hlength]

end

section
variable {s s' : Subtype} {options options' : List Choice}

theorem EvolvesTo.value_eq (h : EvolvesTo options options') (hs : s.items = .options options)
    (hs' : s'.items = .options options')
    (hnodup : (options'.map fun o => memberName o.name).Nodup) {name : String}
    {value value' : Expr} (hvalue : (name, value) ∈ optionConstants (optionSet s))
    (hvalue' : (name, value') ∈ optionConstants (optionSet s')) : value = value' := by
  obtain ⟨place, o, ho, -, rfl, rfl⟩ := (mem_optionConstants hs).mp hvalue
  obtain ⟨place', o', ho', -, hname, rfl⟩ := (mem_optionConstants hs').mp hvalue'
  have hplace : place < options'.length :=
    (List.getElem?_eq_some_iff.mp ho).1.trans_le h.length_le
  have hkept := h.name_eq ho (List.getElem?_eq_getElem hplace)
  have hsame : (options'.map fun o => memberName o.name)[place]?
      = (options'.map fun o => memberName o.name)[place']? := by
    simp [List.getElem?_eq_getElem hplace, ho', hkept, hname]
  rw [(List.getElem?_inj (by simpa using hplace) hnodup).mp hsame]

theorem optionSet_sameBits (hs : s.items = .options options) (hs' : s'.items = .options options')
    (h : EvolvesTo options options' ∨ EvolvesTo options' options) :
    SameBits options options' (optionSet s) (optionSet s') := by
  constructor
  case byPlace =>
    intro place o o' ho ho' hused hused'
    have hname : o'.name = o.name := by
      rcases h with h | h
      · exact h.name_eq ho ho'
      · exact (h.name_eq ho' ho).symm
    refine ⟨_, optionSet_constantFor hs ho hused, ?_⟩
    rw [optionSet_constantFor hs' ho' hused', hname]
  case byName =>
    intro hnodup hnodup' name value value' hvalue hvalue'
    rcases h with h | h
    · exact h.value_eq hs hs' hnodup' hvalue hvalue'
    · exact (h.value_eq hs' hs hnodup hvalue' hvalue).symm

end

-- ---------------------------------------------------------------------------
-- Files
-- ---------------------------------------------------------------------------

theorem optionsFile_types {d : Descriptions} {s : Subtype} {options : List Choice}
    (h : s.items = .options options) :
    ∃ file, subtypeFile d s = .ok file ∧ file.types = [optionSet s] := by
  have hitems : subtypeItems d s = .ok [.type (optionSet s)] := by
    rw [subtypeItems, h]
    rfl
  rw [subtypeFile, hitems]
  exact ⟨_, rfl, rfl⟩

/-- The constants of a set of options are bits of their own, and stay the same as options are
retired, taken up again or added. -/
theorem subtypeFile_optionBits {d : Descriptions} {s : Subtype} {options : List Choice}
    (hvalid : d.validate = .ok ()) (hs : s ∈ d.subtypes) (hoptions : s.items = .options options) :
    ∃ file t, subtypeFile d s = .ok file ∧ file.types = [t] ∧ t.name = subtypeType s.name ∧
      BitsExact options t ∧
      ∀ d' s' options', s'.items = .options options' →
        EvolvesTo options options' ∨ EvolvesTo options' options →
        ∃ file' t', subtypeFile d' s' = .ok file' ∧ file'.types = [t'] ∧
          t'.name = subtypeType s'.name ∧ SameBits options options' t t' := by
  have hlimit : options.length ≤ 64 := by
    obtain ⟨-, hsubtypes, -⟩ := Descriptions.validate_ok hvalid
    have hchecked := hsubtypes s hs
    simp only [Descriptions.checkSubtype, hoptions] at hchecked
    split at hchecked
    · cases hchecked
    · next h => exact Nat.le_of_not_lt h
  obtain ⟨file, hfile, htypes⟩ := optionsFile_types (d := d) hoptions
  refine ⟨file, _, hfile, htypes, rfl, optionSet_bitsExact hoptions hlimit, ?_⟩
  intro d' s' options' hoptions' hevolves
  obtain ⟨file', hfile', htypes'⟩ := optionsFile_types (d := d') hoptions'
  exact ⟨file', _, hfile', htypes', rfl, optionSet_sameBits hoptions hoptions' hevolves⟩

def rightsOptions : List Choice :=
  [{ name := "read" }, { name := "write", isUnused := true }, { name := "share" }]

/-- The unused option was taken up again, another one was retired, and a new one was added. -/
def laterRightsOptions : List Choice :=
  [{ name := "read", isUnused := true }, { name := "write" }, { name := "share" }, { name := "own" }]

def rights : Descriptions :=
  { version := "1", subtypes := [{ name := "rights", items := .options rightsOptions }] }

theorem subtypeFile_optionBits_rights :
    rights.validate = .ok () ∧ ∃ s ∈ rights.subtypes, s.items = .options rightsOptions ∧
      ∃ file t, subtypeFile rights s = .ok file ∧ file.types = [t] ∧
        constantFor rightsOptions t 2 = some ("share", bitAt 2) ∧
        EvolvesTo rightsOptions laterRightsOptions ∧
        ∃ file' t', subtypeFile rights { s with items := .options laterRightsOptions } = .ok file' ∧
          file'.types = [t'] ∧ constantFor laterRightsOptions t' 2 = some ("share", bitAt 2) := by
  have hvalid : rights.validate = .ok () := rfl
  obtain ⟨file, t, hfile, htypes, -, hbits, hlater⟩ :=
    subtypeFile_optionBits hvalid (.head _) rfl
  have hshare : constantFor rightsOptions t 2 = some ("share", bitAt 2) :=
    hbits.numbered 2 _ rfl rfl
  have hevolves : EvolvesTo rightsOptions laterRightsOptions :=
    ⟨laterRightsOptions.take 3, [{ name := "own" }], rfl, rfl⟩
  obtain ⟨file', t', hfile', htypes', -, hsame⟩ :=
    hlater rights { name := "rights", items := .options laterRightsOptions } laterRightsOptions rfl
      (.inl hevolves)
  obtain ⟨constant, hconstant, hconstant'⟩ := hsame.byPlace 2 _ _ rfl rfl rfl rfl
  obtain rfl : _ = constant := Option.some.inj (hshare.symm.trans hconstant)
  exact ⟨hvalid, _, .head _, rfl, file, t, hfile, htypes, hshare, hevolves, file', t', hfile',
    htypes', hconstant'⟩

end EntityGen.Emit
