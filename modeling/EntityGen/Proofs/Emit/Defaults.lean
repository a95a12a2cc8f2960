import EntityGen.Emit.Sources
import EntityGen.Proofs.Document.Definitions
import EntityGen.Proofs.Emit.Failures
import EntityGen.Proofs.Emit.Labels
import EntityGen.Proofs.Emit.RecordField

/-!
# Declared defaults

A default stands in wherever the value may be missing: in payloads, in records
and in the factories of tests. Each of the three asks whether the translated
default is an absent value. Only the default `nil` is meant to be one, but a
case of the name `none` reads the same.
-/

namespace EntityGen.Emit

open Code
open Schema (DefaultValue Descriptions Entity PropertyType)

-- ---------------------------------------------------------------------------
-- Defaults
-- ---------------------------------------------------------------------------

/-- The default is `nil`, or a case that is taken for it. -/
def ReadsAbsent : DefaultValue → Prop
  | .nil => True
  | .enumCase name => memberName name = "none"
  | _ => False

theorem defaultValue_isAbsent_iff (default : DefaultValue) (type : PropertyType) :
    (defaultValue default type).isAbsent = true ↔ ReadsAbsent default := by
  cases default with
  | nil => exact ⟨fun _ => trivial, fun _ => rfl⟩
  | enumCase name =>
    simp only [defaultValue, Expr.dot, ReadsAbsent]
    by_cases h : memberName name = "none"
    · simp [h, Expr.isAbsent]
    · simp [h, Expr.isAbsent]
  | int n =>
    simp only [defaultValue, ReadsAbsent, iff_false]
    split <;> simp [Expr.isAbsent]
  | string text =>
    simp only [defaultValue, ReadsAbsent, iff_false]
    split <;> simp [Expr.isAbsent, urlValue, colorValue, TypeName.construct]
  | bool | float => simp [defaultValue, ReadsAbsent, Expr.isAbsent]
  | currentDate => simp [defaultValue, ReadsAbsent, Expr.isAbsent, TypeName.construct]

theorem presentDefault?_eq_some {p : Schema.Property} {default : DefaultValue}
    (hdefault : p.default = some default) (h : ¬ReadsAbsent default) :
    presentDefault? p = some (defaultValue default p.type) := by
  have hpresent : (defaultValue default p.type).isAbsent = false := by
    rw [← Bool.not_eq_true, defaultValue_isAbsent_iff]
    exact h
  simp [presentDefault?, propertyDefault?, hdefault, hpresent]

theorem presentDefault?_eq_none {p : Schema.Property} {default : DefaultValue}
    (hdefault : p.default = some default) (h : ReadsAbsent default) : presentDefault? p = none := by
  have habsent := (defaultValue_isAbsent_iff default p.type).mpr h
  simp [presentDefault?, propertyDefault?, hdefault, habsent]

-- ---------------------------------------------------------------------------
-- Loaded properties
-- ---------------------------------------------------------------------------

theorem exists_readProperty {text : String} {d : Descriptions} {e : Entity} {p : Schema.Property}
    (h : Document.load text = .ok d) (he : e ∈ d.entities) (hp : p ∈ e.properties) :
    ∃ tag, Document.readProperty tag = .ok p := by
  have hentities := ((Document.load_traced h).holds d rfl).entities
  obtain ⟨element, -, hentity⟩ := exists_of_forall₂ hentities he
  obtain ⟨property, -, hproperty⟩ := exists_of_forall₂ hentity.property hp
  exact ⟨property.tag, hproperty⟩

theorem readProperty_default {tag : Markup.Tag} {p : Schema.Property} {default : DefaultValue}
    (h : Document.readProperty tag = .ok p) (hdefault : p.default = some default) :
    ∃ text, Document.defaultOfText? p.type text = some default := by
  simp only [Document.readProperty, bind_ok, pure_ok] at h
  obtain ⟨a, -, name, -, type, -, read, hread, rfl⟩ := h
  obtain rfl : read = some default := hdefault
  cases htext : tag.attributes.lookup "default" with
  | none => simp [htext, Document.readDefault] at hread
  | some text =>
    simp only [htext, Document.readDefault, map_ok, Option.some.injEq] at hread
    obtain ⟨_, hread, rfl⟩ := hread
    exact ⟨text, Document.accepted_ok.mp hread⟩

theorem readProperty_relationship {tag : Markup.Tag} {p : Schema.Property}
    {r : Schema.Relationship} {default : DefaultValue} (h : Document.readProperty tag = .ok p)
    (ht : p.type = .relationship r) (hdefault : p.default = some default) : default = .nil := by
  obtain ⟨text, htext⟩ := readProperty_default h hdefault
  rw [ht, Document.defaultOfText?] at htext
  split at htext
  · exact (Option.some.inj htext).symm
  · cases htext

-- ---------------------------------------------------------------------------
-- Emitted code
-- ---------------------------------------------------------------------------

/-- What an expression gives where its value is missing: the right side of `??`,
or the argument `fallback` of a call. -/
def fallback? : Expr → Option Expr
  | .infixed _ .nilCoalescing other => some other
  | .call _ arguments => (arguments.find? fun a => a.label == some "fallback").map (·.value)
  | _ => none

theorem RecordField.fallback?_reading {f : RecordField} {value : Expr} (hlazy : f.flagKey = none)
    (hrequired : f.isOptional = false) (hvalue : f.fallback = some value) :
    fallback? (f.reading record) = some value := by
  unfold reading
  simp only [hlazy, hrequired, hvalue, fallbackReading]
  cases f.storage <;> rfl

/-- A declared default stands in wherever the value of the property may be missing. -/
structure HonoursDefault (d : Descriptions) (settings : Settings) (e : Entity)
    (p : Schema.Property) (value : Expr) : Prop where
  /-- The payload is decoded with the default for an absent key. -/
  decoded : ∃ type, fieldType d e p = .ok type ∧
    ∀ t, payloadStruct d e = .ok t → ∃ f ∈ Item.functions (.type t),
      .assign (.name (memberName p.name)) (.tryThrowing
        ((decodeFrom "container" "decodeIfPresent" type.unwrapped
          (some (memberName p.name))).orElse value)) ∈ f.body
  /-- A required value is read from a record with the default, and cannot fail. -/
  stored (h : p.isOptional = false) : ∃ f, RecordField.resolve d settings e p = .ok f ∧
    fallback? (f.reading record) = some value ∧ (f.reading record).mayThrow = false
  /-- The factory takes the default for a missing argument. -/
  made : ∃ parameter, factoryParameter d e p = .ok parameter ∧
    parameter.name = memberName p.name ∧ parameter.default = some value ∧
    ∀ file, factoryFile d settings.moduleName e = .ok file →
      ∃ make, file.functions = [make] ∧ parameter ∈ make.parameters

section
variable {d : Descriptions} {settings : Settings} {e : Entity} {p : Schema.Property} {value : Expr}

theorem payloadStruct_functions {t : TypeDecl} (h : payloadStruct d e = .ok t) :
    ∃ fields, payloadFields d e = .ok fields ∧
      Item.functions (.type t) =
        [decodingInitializer .publicAccess (keyedDecoding :: fields.map (·.decoding))] := by
  simp only [payloadStruct, bind_ok, pure_ok] at h
  obtain ⟨fields, hfields, rfl⟩ := h
  refine ⟨fields, hfields, ?_⟩
  have hconstants : (fields.map fun f => constantProperty f.name f.type).filterMap Item.function?
      = [] := by
    simp [constantProperty, Item.function?]
  rw [Item.functions, Item.filterMap_grouped rfl]
  simp only [List.flatMap_cons, List.flatMap_nil, hconstants]
  rfl

theorem decodeField_mem {type : TypeName} {t : TypeDecl} (hp : p ∈ e.properties)
    (htype : fieldType d e p = .ok type) (ht : payloadStruct d e = .ok t) :
    ∃ f ∈ Item.functions (.type t),
      .assign (.name (memberName p.name)) (decodeField p type) ∈ f.body := by
  obtain ⟨fields, hfields, hfunctions⟩ := payloadStruct_functions ht
  simp only [payloadFields, bind_ok, pure_ok] at hfields
  obtain ⟨own, hown, rfl⟩ := hfields
  obtain ⟨field, hfield, hread⟩ := exists_of_mapM_ok hown (Entity.mem_storedProperties.mpr hp)
  simp only [payloadField, htype, bind_ok, pure_ok, Except.ok.injEq] at hread
  obtain ⟨_, rfl, rfl⟩ := hread
  rw [hfunctions]
  refine ⟨_, List.mem_singleton_self _, List.mem_cons_of_mem _ ?_⟩
  exact List.mem_map.mpr ⟨_, List.mem_append_right _ hfield, rfl⟩

theorem decodeField_eq {type : TypeName} (hlazy : p.isLazy = false)
    (hvalue : presentDefault? p = some value) :
    decodeField p type = .tryThrowing ((decodeFrom "container" "decodeIfPresent" type.unwrapped
      (some (memberName p.name))).orElse value) := by
  simp [decodeField, hlazy, hvalue]

theorem exists_fieldType (hd : d.Resolvable) (he : e ∈ d.entities) (hp : p ∈ e.properties)
    (hvalue : p.relationship? = none) : ∃ type, fieldType d e p = .ok type := by
  have helement : fieldElementType d e p = elementType d e p := by
    simp [fieldElementType, hvalue]
  obtain ⟨element, h⟩ := (elementType_failsOnly hd he hp).exists_ok
  rw [← helement] at h
  exact ⟨_, bind_ok.mpr ⟨element, h, rfl⟩⟩

theorem exists_resolve (hd : d.Resolvable) (he : e ∈ d.entities) (hp : p ∈ e.properties) :
    ∃ f, RecordField.resolve d settings e p = .ok f := by
  obtain ⟨fields, hfields⟩ : ∃ fields, recordFields d settings e = .ok fields :=
    (recordFields_failsOnly hd he).exists_ok
  obtain ⟨field, -, h⟩ := exists_of_mapM_ok hfields (Entity.mem_storedProperties.mpr hp)
  obtain ⟨f, hf, -⟩ := bind_ok.mp h
  exact ⟨f, hf⟩

theorem factoryParameter_eq {type : TypeName} (hlazy : p.isLazy = false)
    (hvalue : presentDefault? p = some value) (htype : propertyType d e p = .ok type) :
    factoryParameter d e p = .ok { name := memberName p.name, type, default := some value } := by
  have hsample : sampleProperty d e p = .ok value := by
    simp [sampleProperty, hlazy, hvalue]
    rfl
  exact bind_ok.mpr ⟨type, htype, bind_ok.mpr ⟨value, hsample, rfl⟩⟩

theorem factoryFile_parameter {moduleName : String} {parameter : Parameter} {file : SourceFile}
    (hp : p ∈ e.properties) (h : factoryParameter d e p = .ok parameter)
    (hfile : factoryFile d moduleName e = .ok file) :
    ∃ make, file.functions = [make] ∧ parameter ∈ make.parameters := by
  obtain ⟨parameters, hparameters, hfunctions⟩ := factoryFile_functions hfile
  refine ⟨_, hfunctions, ?_⟩
  simp only [factoryParameters, bind_ok, pure_ok] at hparameters
  obtain ⟨own, hown, rfl⟩ := hparameters
  obtain ⟨own', hmem, hown'⟩ := exists_of_mapM_ok hown (Entity.mem_storedProperties.mpr hp)
  obtain rfl : parameter = own' := Except.ok.inj (h.symm.trans hown')
  unfold makeFunction
  dsimp only
  split
  · exact hmem
  · exact List.mem_cons_of_mem _ hmem

theorem honoursDefault_of_present (hd : d.Resolvable) (he : e ∈ d.entities)
    (hp : p ∈ e.properties) (hlazy : p.isLazy = false) (hrelationship : p.relationship? = none)
    (hvalue : presentDefault? p = some value) : HonoursDefault d settings e p value := by
  constructor
  case decoded =>
    obtain ⟨type, htype⟩ := exists_fieldType hd he hp hrelationship
    refine ⟨type, htype, fun t ht => ?_⟩
    rw [← decodeField_eq hlazy hvalue]
    exact decodeField_mem hp htype ht
  case stored =>
    intro hrequired
    obtain ⟨f, hf⟩ : ∃ f, RecordField.resolve d settings e p = .ok f := exists_resolve hd he hp
    obtain ⟨-, hflag, hoptional, hfallback⟩ := RecordField.resolve_ok hf
    rw [hvalue] at hfallback
    rw [hlazy, if_neg Bool.false_ne_true] at hflag
    rw [hrequired] at hoptional
    refine ⟨f, hf, RecordField.fallback?_reading hflag hoptional hfallback, ?_⟩
    rw [(RecordField.resolve_inverse hf).throws, hfallback]
    simp
  case made =>
    obtain ⟨type, htype⟩ := (propertyType_failsOnly hd he hp).exists_ok
    have hparameter := factoryParameter_eq hlazy hvalue htype
    exact ⟨_, hparameter, rfl, rfl, fun file hfile => factoryFile_parameter hp hparameter hfile⟩

/-- Every default of a loaded and valid description is honoured but `nil`, unless it
names a case that is taken for the absent value. -/
theorem honoursDefault_of_load {text : String} {default : DefaultValue}
    (hload : Document.load text = .ok d) (hvalid : d.validate = .ok ()) (he : e ∈ d.entities)
    (hp : p ∈ e.properties) (hlazy : p.isLazy = false) (hdefault : p.default = some default)
    (hnil : default ≠ .nil) (hnone : ∀ name, default = .enumCase name → memberName name ≠ "none") :
    HonoursDefault d settings e p (defaultValue default p.type) := by
  have hpresent : ¬ReadsAbsent default := by
    intro h
    cases default with
    | nil => exact hnil rfl
    | enumCase name => exact hnone name rfl h
    | _ => exact h
  have hrelationship : p.relationship? = none := by
    by_contra hsome
    obtain ⟨r, hr⟩ := Option.ne_none_iff_exists'.mp hsome
    obtain ⟨tag, htag⟩ := exists_readProperty hload he hp
    have htype := Schema.Property.relationship?_eq_some.mp hr
    exact hnil (readProperty_relationship htag htype hdefault)
  exact honoursDefault_of_present (Descriptions.resolvable_of_validate hvalid) he hp hlazy
    hrelationship (presentDefault?_eq_some hdefault hpresent)

end

def choiceText : String :=
  "<descriptions version='1'><subtypes><subtype name='s'><case name='none'/><case name='some_more'/>"
    ++ "</subtype></subtypes><entities><entity name='a'><property name='p' subtype='s' default='none'/>"
    ++ "<property name='q' subtype='s' default='some_more'/></entity></entities></descriptions>"

def choiceOf (p : Schema.Property) : Bool × Bool × Option String :=
  (p.isLazy, p.isOptional,
    match p.default with
    | some (.enumCase name) => some name
    | _ => none)

theorem choiceOf_eq {p : Schema.Property} {name : String}
    (h : choiceOf p = (false, false, some name)) :
    p.isLazy = false ∧ p.isOptional = false ∧ p.default = some (.enumCase name) := by
  simp only [choiceOf, Prod.mk.injEq] at h
  obtain ⟨hlazy, hoptional, hdefault⟩ := h
  refine ⟨hlazy, hoptional, ?_⟩
  split at hdefault
  · next hsome =>
    cases hdefault
    exact hsome
  · cases hdefault

def loadedChoices (text : String) : Option (Bool × List (Bool × Bool × Option String)) :=
  (Document.load text).toOption.map fun d =>
    (d.validate.toOption.isSome, d.entities.flatMap fun e => e.properties.map choiceOf)

theorem loadedChoices_choiceText : loadedChoices choiceText =
    some (true, [(false, false, some "none"), (false, false, some "some_more")]) := by
  have htext : choiceText = _ := Markup.append_eq_ofList (Markup.append_eq_ofList rfl rfl) rfl
  rw [loadedChoices, Document.load, Markup.nodes_of_ofList htext]
  decide +kernel

theorem exists_choice {name : String} (hname : name ∈ ["none", "some_more"]) :
    ∃ d e p, Document.load choiceText = .ok d ∧ d.validate = .ok () ∧ e ∈ d.entities ∧
      p ∈ e.properties ∧ p.isLazy = false ∧ p.isOptional = false ∧
      p.default = some (.enumCase name) := by
  obtain ⟨d, hd, hview⟩ := Option.map_eq_some_iff.mp loadedChoices_choiceText
  obtain ⟨hvalid, hchoices⟩ := Prod.mk.inj hview
  obtain ⟨_, hvalid⟩ := Option.isSome_iff_exists.mp hvalid
  have hmem : (false, false, some name)
      ∈ d.entities.flatMap fun e => e.properties.map choiceOf := by
    rw [hchoices]
    simpa using hname
  obtain ⟨e, he, hmem⟩ := List.mem_flatMap.mp hmem
  obtain ⟨p, hp, hchoice⟩ := List.mem_map.mp hmem
  exact ⟨d, e, p, toOption_eq_some.mp hd, toOption_eq_some.mp hvalid, he, hp, choiceOf_eq hchoice⟩

/-- The case `none` is a used case, and still a record without it is refused. -/
theorem not_honoursDefault_none :
    ∃ d e p, Document.load choiceText = .ok d ∧ d.validate = .ok () ∧ e ∈ d.entities ∧
      p ∈ e.properties ∧ p.isLazy = false ∧ p.isOptional = false ∧
      p.default = some (.enumCase "none") ∧
      ¬HonoursDefault d {} e p (defaultValue (.enumCase "none") p.type) := by
  obtain ⟨d, e, p, hload, hvalid, he, hp, hlazy, hrequired, hdefault⟩ :=
    exists_choice (List.mem_cons_self : "none" ∈ _)
  refine ⟨d, e, p, hload, hvalid, he, hp, hlazy, hrequired, hdefault, fun h => ?_⟩
  obtain ⟨f, hf, -, hthrows⟩ := h.stored hrequired
  obtain ⟨-, -, -, hfallback⟩ := RecordField.resolve_ok hf
  have habsent : ReadsAbsent (.enumCase "none") := (by decide : memberName "none" = "none")
  -- Without a fallback the required field is read with a throw.
  rw [presentDefault?_eq_none hdefault habsent] at hfallback
  rw [(RecordField.resolve_inverse hf).throws, hfallback, hlazy, hrequired] at hthrows
  cases hthrows

theorem honoursDefault_of_load_someMore :
    ∃ d e p, Document.load choiceText = .ok d ∧ d.validate = .ok () ∧
      e ∈ d.entities ∧ p ∈ e.properties ∧ p.isLazy = false ∧
      p.default = some (.enumCase "some_more") ∧ memberName "some_more" ≠ "none" ∧
      HonoursDefault d {} e p (.dot "someMore") := by
  obtain ⟨d, e, p, hload, hvalid, he, hp, hlazy, -, hdefault⟩ :=
    exists_choice (by simp : "some_more" ∈ _)
  have hname : memberName "some_more" = "someMore" := by decide
  have hnone : memberName "some_more" ≠ "none" := by decide
  have honoured : HonoursDefault d {} e p (defaultValue (.enumCase "some_more") p.type) :=
    honoursDefault_of_load hload hvalid he hp hlazy hdefault nofun (by rintro _ ⟨⟩; exact hnone)
  rw [defaultValue, hname] at honoured
  exact ⟨d, e, p, hload, hvalid, he, hp, hlazy, hdefault, hnone, honoured⟩

end EntityGen.Emit
