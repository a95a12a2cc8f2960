import EntityGen.Proofs.Emit.Defaults
import EntityGen.Proofs.Schema.Expressible

/-!
# Types of defaults

A default stands where a value of the property is expected, so it has to be one.
Texts are read as values of the scalar at hand, and a case of an enumeration is
looked up among its used cases. Of other subtypes the name given as default is
taken as it is, and so is every default of an array.
-/

namespace EntityGen.Emit

open Code
open Schema (Choice DefaultValue Descriptions Entity IsInt64 Scalar Subtype)

-- ---------------------------------------------------------------------------
-- Values of a type
-- ---------------------------------------------------------------------------

inductive IsValueOf : Scalar → Expr → Prop
  | string (text : String) : IsValueOf .string (.string text)
  | int (n : Int) (h : IsInt64 n) : IsValueOf .int (.int n)
  | float {scalar : Scalar} (h : scalar.isFloatingPoint = true) (value : Float) :
    IsValueOf scalar (.float value)
  | bool (value : Bool) : IsValueOf .bool (.bool value)
  | date : IsValueOf .date (TypeName.date.construct [])
  | url (text : String) : IsValueOf .url (urlValue text)
  | color (text : String) : IsValueOf .color (colorValue text)

/-- The names of the cases or options that are emitted. A value has neither. -/
def choiceNames (s : Subtype) : List String :=
  match s.items with
  | .cases choices | .options choices => (choices.filter fun c => !c.isUnused).map (·.name)
  | .members _ => []

/-- The default is a value of the property's type: one of the scalar, or a used case
or option of the subtype. -/
def HasType (d : Descriptions) (p : Schema.Property) (default : DefaultValue) : Prop :=
  match p.type with
  | .scalar scalar => IsValueOf scalar (defaultValue default p.type)
  | .subtype name =>
    ∃ s, d.subtype? name = some s ∧ ∃ case ∈ choiceNames s, default = .enumCase case
  | .relationship _ => False

theorem readInt?_isInt64 {text : String} {n : Int} (h : Decimal.readInt? text = some n) :
    IsInt64 n := by
  have hbound : (Decimal.pow2 63 : Int) = 9223372036854775808 := by decide
  simp only [Decimal.readInt?, Option.bind_eq_bind, Option.bind_eq_some_iff, hbound] at h
  obtain ⟨m, -, h⟩ := h
  rw [Option.ite_none_right_eq_some, Option.some.injEq] at h
  obtain ⟨hrange, rfl⟩ := h
  exact hrange

theorem isValueOf_of_ofScalarText? {text : String} {scalar : Scalar} {default : DefaultValue}
    (h : DefaultValue.ofScalarText? text scalar = some default) (hnil : default ≠ .nil) :
    IsValueOf scalar (defaultValue default (.scalar scalar)) := by
  unfold DefaultValue.ofScalarText? at h
  split at h
  · exact absurd (Option.some.inj h).symm hnil
  · cases scalar with
    | bool =>
      obtain ⟨value, -, rfl⟩ := Option.map_eq_some_iff.mp h
      exact .bool value
    | int =>
      obtain ⟨n, hn, rfl⟩ := Option.map_eq_some_iff.mp h
      exact .int n (readInt?_isInt64 hn)
    | double | float | seconds | milliseconds =>
      obtain ⟨value, -, rfl⟩ := Option.map_eq_some_iff.mp h
      exact .float rfl value
    | date =>
      obtain ⟨-, hdate⟩ := Option.ite_none_right_eq_some.mp h
      obtain rfl := Option.some.inj hdate
      exact .date
    | string =>
      obtain rfl := Option.some.inj h
      exact .string text
    | url =>
      obtain rfl := Option.some.inj h
      exact .url text
    | color =>
      obtain rfl := Option.some.inj h
      exact .color text

theorem eq_enumCase_of_ofCaseText {text : String} (hnil : DefaultValue.ofCaseText text ≠ .nil) :
    DefaultValue.ofCaseText text = .enumCase text := by
  unfold DefaultValue.ofCaseText at hnil ⊢
  split at hnil
  · exact absurd rfl hnil
  · next h => rw [if_neg h]

-- ---------------------------------------------------------------------------
-- Members of subtypes
-- ---------------------------------------------------------------------------

/-- The name of what is written with a dot in front where the type is known. -/
def implicitName? : Item → Option String
  | .enumCase c => some c.name
  | .property p => if p.var.isStatic then some p.var.name else none
  | _ => none

def Declares (d : Descriptions) (settings : Settings) (files : List Source) (type : TypeName)
    (member : String) : Prop :=
  ∃ s ∈ files, s.BelongsTo d settings "Subtypes" ∧
    ∃ t ∈ s.file.types, t.name = type ∧ member ∈ t.body.filterMap implicitName?

theorem caseDeclaration_implicitNames (type : TypeName) (used : List Choice) :
    (caseDeclaration type used).body.filterMap implicitName?
      = used.map fun c => memberName c.name := by
  simp [caseDeclaration, List.filterMap_map, implicitName?, Function.comp_def]

theorem optionSet_implicitNames (s : Subtype) :
    (optionSet s).body.filterMap implicitName?
      = (s.optionBits.map fun (option, _) => memberName option.name) ++ ["all"] := by
  have hoptions : (s.optionBits.map fun (option, bit) =>
      Item.property (optionProperty (subtypeType s.name) option bit)).filterMap implicitName?
        = s.optionBits.map fun (option, _) => memberName option.name := by
    simp [List.filterMap_map, implicitName?, optionProperty, Function.comp_def]
  rw [optionSet, Item.filterMap_grouped rfl]
  simp only [List.flatMap_cons, List.flatMap_nil, hoptions]
  rfl

section
variable {d : Descriptions} {s : Subtype} {file : SourceFile} {choices : List Choice}

theorem caseDeclaration_mem_types (hcases : s.items = .cases choices)
    (h : subtypeFile d s = .ok file) :
    caseDeclaration (subtypeType s.name) s.usedCases ∈ file.types := by
  obtain ⟨items, hitems, htypes⟩ := subtypeFile_types h
  simp only [subtypeItems, hcases, enumItems] at hitems
  split at hitems
  · cases hitems
  · cases hitems
    rw [htypes]
    exact List.mem_cons_self

theorem optionSet_mem_types (hoptions : s.items = .options choices)
    (h : subtypeFile d s = .ok file) : optionSet s ∈ file.types := by
  obtain ⟨items, hitems, htypes⟩ := subtypeFile_types h
  simp only [subtypeItems, hoptions, pure_ok] at hitems
  subst hitems
  rw [htypes]
  exact List.mem_cons_self

theorem exists_declaring {case : String} (hcase : case ∈ choiceNames s)
    (h : subtypeFile d s = .ok file) :
    ∃ t ∈ file.types, t.name = subtypeType s.name ∧
      memberName case ∈ t.body.filterMap implicitName? := by
  unfold choiceNames at hcase
  split at hcase
  · next choices hcases =>
    have hused : s.usedCases = choices.filter fun c => !c.isUnused := by
      rw [Subtype.usedCases, hcases]
    rw [← hused] at hcase
    obtain ⟨c, hc, rfl⟩ := List.mem_map.mp hcase
    refine ⟨_, caseDeclaration_mem_types hcases h, rfl, ?_⟩
    rw [caseDeclaration_implicitNames]
    exact List.mem_map.mpr ⟨c, hc, rfl⟩
  · next choices hoptions =>
    obtain ⟨c, hc, rfl⟩ := List.mem_map.mp hcase
    obtain ⟨hc, hused⟩ := List.mem_filter.mp hc
    obtain ⟨bit, hbit⟩ := List.mem_iff_getElem?.mp hc
    have hoption : (c, bit) ∈ s.optionBits := by
      simp only [Subtype.optionBits, hoptions, List.mem_filter]
      exact ⟨List.mk_mem_zipIdx_iff_getElem?.mpr hbit, hused⟩
    refine ⟨_, optionSet_mem_types hoptions h, rfl, ?_⟩
    rw [optionSet_implicitNames]
    exact List.mem_append_left _ (List.mem_map.mpr ⟨(c, bit), hoption, rfl⟩)
  · cases hcase

end

-- ---------------------------------------------------------------------------
-- Defaults of a document
-- ---------------------------------------------------------------------------

/-- The default is a value of the property as it is declared, and what it names is declared. -/
structure DefaultFits (d : Descriptions) (settings : Settings) (files : List Source)
    (p : Schema.Property) (default : DefaultValue) : Prop where
  single : p.isCollection = false
  typed : HasType d p default
  declared {name : String} (h : p.type = .subtype name) : ∃ s member, d.subtype? name = some s ∧
    defaultValue default p.type = .dot member ∧
    Declares d settings files (subtypeType s.name) member

/-- Where the subtype is no enumeration, the default names one of its used options. -/
def NamesUsed (d : Descriptions) (p : Schema.Property) (default : DefaultValue) : Prop :=
  ∀ name s, p.type = .subtype name → d.subtype? name = some s → s.isEnum = false →
    ∃ option ∈ choiceNames s, default = .enumCase option

section
variable {d : Descriptions} {settings : Settings} {files : List Source} {e : Entity}
  {p : Schema.Property} {default : DefaultValue} {name : String} {s : Subtype}

theorem checkDefault_used {source : String} (h : Schema.checkDefault source p s = .ok ())
    (henum : s.isEnum = true) (hdefault : p.default = some (.enumCase name)) :
    name ∈ choiceNames s := by
  unfold Subtype.isEnum at henum
  split at henum
  · next cases hcases =>
    simp only [Schema.checkDefault, hdefault, hcases] at h
    split at h
    · next hfound =>
      obtain ⟨c, hc, hfound⟩ := List.any_eq_true.mp hfound
      simp only [Bool.and_eq_true, beq_iff_eq] at hfound
      obtain ⟨rfl, hused⟩ := hfound
      simp only [choiceNames, hcases]
      exact List.mem_map.mpr ⟨c, List.mem_filter.mpr ⟨hc, hused⟩, rfl⟩
    · cases h
  · cases henum

/-- Declared defaults of subtypes are names; those of enumerations are used cases. -/
theorem default_of_subtype {tag : Markup.Tag} (htag : Document.readProperty tag = .ok p)
    (hvalid : d.checkProperty e p = .ok ()) (htype : p.type = .subtype name)
    (hdefault : p.default = some default) (hnil : default ≠ .nil) :
    ∃ s case, d.subtype? name = some s ∧ default = .enumCase case ∧
      (s.isEnum = true → case ∈ choiceNames s) := by
  obtain ⟨text, htext⟩ := readProperty_default htag hdefault
  rw [htype, Document.defaultOfText?, Option.some.injEq] at htext
  subst htext
  have hcase := eq_enumCase_of_ofCaseText hnil
  simp only [Descriptions.checkProperty, ite_throw_ok, htype, bind_ok,
    Descriptions.subtype_ok] at hvalid
  obtain ⟨-, s, hs, hcheck⟩ := hvalid
  exact ⟨s, text, hs, hcase, fun henum => checkDefault_used hcheck henum (hcase ▸ hdefault)⟩

theorem hasType_iff {tag : Markup.Tag} (htag : Document.readProperty tag = .ok p)
    (hvalid : d.checkProperty e p = .ok ()) (hdefault : p.default = some default)
    (hnil : default ≠ .nil) : HasType d p default ↔ NamesUsed d p default := by
  unfold HasType NamesUsed
  cases htype : p.type with
  | scalar scalar =>
    obtain ⟨text, htext⟩ := readProperty_default htag hdefault
    rw [htype] at htext
    exact iff_of_true (isValueOf_of_ofScalarText? htext hnil) nofun
  | relationship r => exact absurd (readProperty_relationship htag htype hdefault) hnil
  | subtype name =>
    obtain ⟨s, case, hs, rfl, hused⟩ := default_of_subtype htag hvalid htype hdefault hnil
    constructor
    · rintro ⟨t, ht, htyped⟩ _ u ⟨⟩ hu -
      obtain rfl := Option.some.inj (ht.symm.trans hu)
      exact htyped
    · intro hnames
      refine ⟨s, hs, ?_⟩
      cases henum : s.isEnum with
      | true => exact ⟨case, hused henum, rfl⟩
      | false => exact hnames name s rfl hs henum

theorem HasType.declared (h : HasType d p default) (hfiles : sources d settings = .ok files)
    (htype : p.type = .subtype name) :
    ∃ s member, d.subtype? name = some s ∧ defaultValue default p.type = .dot member ∧
      Declares d settings files (subtypeType s.name) member := by
  simp only [HasType, htype] at h
  obtain ⟨s, hs, case, hcase, rfl⟩ := h
  obtain ⟨src, hsrc, hbelongs, hfile⟩ :=
    exists_subtype_source hfiles (Descriptions.mem_of_subtype? hs)
  exact ⟨s, memberName case, hs, rfl, src, hsrc, hbelongs, exists_declaring hcase hfile⟩

/-- Only relationships to many are collections without being arrays. -/
theorem isCollection_eq_isArray {tag : Markup.Tag} (htag : Document.readProperty tag = .ok p)
    (hdefault : p.default = some default) (hnil : default ≠ .nil) :
    p.isCollection = p.isArray := by
  have hvalue : p.relationship? = none := by
    by_contra hsome
    obtain ⟨r, hr⟩ := Option.ne_none_iff_exists'.mp hsome
    exact hnil (readProperty_relationship htag (Schema.Property.relationship?_eq_some.mp hr) hdefault)
  rw [Schema.Property.isCollection, hvalue, Option.any_none, Bool.or_false]

/-- The defaults of scalars and enumerations have the type. In other subtypes exactly
those that name a used option have it, and a default that has it fits, unless its
property is an array. -/
theorem sourcesOfText_defaultFits_iff {text : String} (hload : Document.load text = .ok d)
    (hfiles : sourcesOfText text settings = .ok files) (he : e ∈ d.entities)
    (hp : p ∈ e.properties) (hdefault : p.default = some default) (hnil : default ≠ .nil) :
    (HasType d p default ↔ NamesUsed d p default) ∧
      (DefaultFits d settings files p default ↔ p.isArray = false ∧ HasType d p default) := by
  obtain ⟨hvalid, hsources⟩ := sources_of_load hload hfiles
  obtain ⟨tag, htag⟩ := exists_readProperty hload he hp
  have hcollection := isCollection_eq_isArray htag hdefault hnil
  refine ⟨hasType_iff htag (Descriptions.validate_property hvalid he hp) hdefault hnil, ?_⟩
  constructor
  · intro h
    exact ⟨hcollection ▸ h.single, h.typed⟩
  · rintro ⟨harray, htyped⟩
    exact ⟨hcollection.trans harray, htyped, fun h => htyped.declared hsources h⟩

end

-- ---------------------------------------------------------------------------
-- Accepted defaults
-- ---------------------------------------------------------------------------

def defaultsText (properties : String) : String :=
  "<descriptions version='1'><subtypes><subtype name='state'><case name='open'/></subtype>"
    ++ "<subtype name='tags'><option name='new'/><option name='old' unused='true'/></subtype>"
    ++ "<subtype name='point'><property name='x' type='int'/></subtype></subtypes><entities><entity name='a'>"
    ++ properties ++ "</entity></entities></descriptions>"

/-- An array, an option that is not used and a value, each with a default. -/
def misfitProperties : String :=
  "<property name='states' subtype='state' array='true' default='open'/>"
    ++ "<property name='tags' subtype='tags' default='old'/>"
    ++ "<property name='place' subtype='point' default='origin'/>"

def fittingProperties : String :=
  "<property name='state' subtype='state' default='open'/>"
    ++ "<property name='tags' subtype='tags' default='new'/>"

def namedCase? : DefaultValue → Option String
  | .enumCase name => some name
  | _ => none

theorem namedCase?_eq_some {default : DefaultValue} {name : String} :
    namedCase? default = some name ↔ default = .enumCase name := by
  cases default <;> simp [namedCase?]

/-- A property of the subtype has the default. Whether it is no array and the name is used,
the flag says. -/
def HasDefault (d : Descriptions) (subtype name : String) (isUsed : Bool) : Prop :=
  ∃ e ∈ d.entities, ∃ p ∈ e.properties, p.type = .subtype subtype ∧
    p.default.bind namedCase? = some name ∧
    (!p.isArray && (d.subtype? subtype).any fun s => name ∈ choiceNames s) = isUsed

instance (d : Descriptions) (subtype name : String) (isUsed : Bool) :
    Decidable (HasDefault d subtype name isUsed) :=
  inferInstanceAs (Decidable (∃ e ∈ d.entities, ∃ p ∈ e.properties, _))

theorem HasDefault.exists_property {d : Descriptions} {subtype name : String} {isUsed : Bool}
    (h : HasDefault d subtype name isUsed) :
    ∃ e ∈ d.entities, ∃ p ∈ e.properties, p.type = .subtype subtype ∧
      p.default = some (.enumCase name) ∧
      (isUsed = true ↔ p.isArray = false ∧ HasType d p (.enumCase name)) := by
  obtain ⟨e, he, p, hp, htype, hdefault, rfl⟩ := h
  obtain ⟨default, hdefault, hname⟩ := Option.bind_eq_some_iff.mp hdefault
  obtain rfl := namedCase?_eq_some.mp hname
  refine ⟨e, he, p, hp, htype, hdefault, ?_⟩
  simp only [HasType, htype]
  cases hs : d.subtype? subtype <;> simp

/-- All three defaults are accepted, and none of them fits. -/
theorem sourcesOfText_misfits :
    ∃ d files, Document.load (defaultsText misfitProperties) = .ok d ∧
      sourcesOfText (defaultsText misfitProperties) {} = .ok files ∧
      ∀ misfit ∈ [("state", "open"), ("tags", "old"), ("point", "origin")],
        ∃ e ∈ d.entities, ∃ p ∈ e.properties, p.type = .subtype misfit.1 ∧
          p.default = some (.enumCase misfit.2) ∧
          ¬DefaultFits d {} files p (.enumCase misfit.2) := by
  have hproperties : misfitProperties = _ :=
    Markup.append_eq_ofList (Markup.append_eq_ofList rfl rfl) rfl
  have htext : defaultsText misfitProperties = _ :=
    Markup.append_eq_ofList (Markup.append_eq_ofList (Markup.append_eq_ofList
      (Markup.append_eq_ofList rfl rfl) rfl) hproperties) rfl
  obtain ⟨d, files, hload, hfiles, hmisfits⟩ : ∃ d files,
      Document.load (defaultsText misfitProperties) = .ok d ∧
      sourcesOfText (defaultsText misfitProperties) {} = .ok files ∧
      ∀ misfit ∈ [("state", "open"), ("tags", "old"), ("point", "origin")],
        HasDefault d misfit.1 misfit.2 false := by
    refine exists_sources_of_decide ?_
    rw [sourcesOfText, Document.load, Markup.nodes_of_ofList htext]
    decide +kernel
  refine ⟨d, files, hload, hfiles, fun misfit hmem => ?_⟩
  obtain ⟨e, he, p, hp, htype, hdefault, hused⟩ := (hmisfits misfit hmem).exists_property
  refine ⟨e, he, p, hp, htype, hdefault, fun h => ?_⟩
  exact Bool.false_ne_true (hused.mpr ⟨(Bool.or_eq_false_iff.mp h.single).1, h.typed⟩)

theorem sourcesOfText_defaultFits_iff_used :
    ∃ d files, Document.load (defaultsText fittingProperties) = .ok d ∧
      sourcesOfText (defaultsText fittingProperties) {} = .ok files ∧
      ∀ fitting ∈ [("state", "open"), ("tags", "new")],
        ∃ e ∈ d.entities, ∃ p ∈ e.properties, p.type = .subtype fitting.1 ∧
          p.default = some (.enumCase fitting.2) ∧
          DefaultFits d {} files p (.enumCase fitting.2) := by
  have hproperties : fittingProperties = _ := Markup.append_eq_ofList rfl rfl
  have htext : defaultsText fittingProperties = _ :=
    Markup.append_eq_ofList (Markup.append_eq_ofList (Markup.append_eq_ofList
      (Markup.append_eq_ofList rfl rfl) rfl) hproperties) rfl
  obtain ⟨d, files, hload, hfiles, hfitting⟩ : ∃ d files,
      Document.load (defaultsText fittingProperties) = .ok d ∧
      sourcesOfText (defaultsText fittingProperties) {} = .ok files ∧
      ∀ fitting ∈ [("state", "open"), ("tags", "new")],
        HasDefault d fitting.1 fitting.2 true := by
    refine exists_sources_of_decide ?_
    rw [sourcesOfText, Document.load, Markup.nodes_of_ofList htext]
    decide +kernel
  refine ⟨d, files, hload, hfiles, fun fitting hmem => ?_⟩
  obtain ⟨e, he, p, hp, htype, hdefault, hused⟩ := (hfitting fitting hmem).exists_property
  obtain ⟨-, hfits⟩ := sourcesOfText_defaultFits_iff hload hfiles he hp hdefault (by simp)
  exact ⟨e, he, p, hp, htype, hdefault, hfits.mpr (hused.mp rfl)⟩

end EntityGen.Emit
