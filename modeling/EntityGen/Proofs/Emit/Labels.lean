import EntityGen.Emit.FactoryFile
import EntityGen.Emit.RecordFile
import EntityGen.Proofs.Code.Declarations
import EntityGen.Proofs.Results
import EntityGen.Proofs.Schema.StoredProperties

/-!
# The members of an entity

An entity's initializer takes the identifier, unless it is void, and then the
stored properties. The order of labels matters in a call, so every piece of
code that declares or calls the initializer has to go through the members in
this one order.
-/

namespace EntityGen.Emit

open Code
open Schema (Descriptions Entity)

/-- The names of the members that an entity stores, in the order of its initializer. -/
def memberLabels (e : Entity) : List String :=
  (if e.hasVoidIdentifier then [] else ["identifier"])
    ++ e.storedProperties.map fun p => memberName p.name

variable {d : Descriptions} {settings : Settings} {e : Entity}

-- ---------------------------------------------------------------------------
-- Calls
-- ---------------------------------------------------------------------------

theorem initializerArguments_labels (identifier : Expr) (value : Schema.Property → Expr) :
    Argument.labels (initializerArguments e identifier value) = (memberLabels e).map some := by
  cases h : e.hasVoidIdentifier <;>
    simp [Argument.labels, initializerArguments, memberLabels, h, Function.comp_def]

theorem recordArguments_labels {fields : List (Schema.Property × RecordField)}
    (h : recordFields d settings e = .ok fields) :
    Argument.labels (recordArguments e fields) = (memberLabels e).map some := by
  have hnames : fields.map (fun pf => memberName pf.1.name)
      = e.storedProperties.map fun p => memberName p.name := by
    refine map_eq_of_mapM_ok h fun p _ pf hpf => ?_
    simp only [bind_ok, pure_ok] at hpf
    obtain ⟨f, -, rfl⟩ := hpf
    rfl
  have hlabels := congrArg (List.map some) hnames
  simp only [List.map_map] at hlabels
  cases hv : e.hasVoidIdentifier <;>
    simpa [Argument.labels, recordArguments, memberLabels, hv, Function.comp_def] using hlabels

-- ---------------------------------------------------------------------------
-- Declarations
-- ---------------------------------------------------------------------------

theorem storedMembers_names {members : List (String × TypeName)}
    (h : storedMembers d e = .ok members) : members.map Prod.fst = memberLabels e := by
  simp only [storedMembers, bind_ok, pure_ok] at h
  obtain ⟨typed, htyped, rfl⟩ := h
  have hnames : typed.map Prod.fst = e.storedProperties.map fun p => memberName p.name := by
    refine map_eq_of_mapM_ok htyped fun p _ member hm => ?_
    simp only [bind_ok, pure_ok] at hm
    obtain ⟨type, -, rfl⟩ := hm
    rfl
  cases hv : e.hasVoidIdentifier <;> simp [memberLabels, hv, hnames]

theorem memberwiseInitializer_labels (members : List (String × TypeName)) :
    (memberwiseInitializer members).labels = (members.map Prod.fst).map some := by
  simp [memberwiseInitializer, Function.labels, Parameter.callLabel, Function.comp_def]

theorem memberwiseInitializer_assigns (members : List (String × TypeName)) :
    (memberwiseInitializer members).body.filterMap Item.ownAssignment?
      = (members.map Prod.fst).map fun x => (x, .name x) := by
  simp [memberwiseInitializer, Item.ownAssignment?, Function.comp_def, List.filterMap_map]

theorem storedName?_constantProperty (name : String) (type : TypeName) :
    (constantProperty name type).storedName? = some name := rfl

theorem entityClass_ok {t : TypeDecl} (h : entityClass d e = .ok t) :
    ∃ members aliases, storedMembers d e = .ok members ∧
      t.body = Item.grouped [aliases,
        (if e.hasVoidIdentifier then [voidIdentifierProperty e] else [])
          ++ members.map fun m => constantProperty m.1 m.2,
        [.function (memberwiseInitializer members)]] ∧
      ∀ i ∈ aliases, i.storedName? = none ∧ i.function? = none := by
  simp only [entityClass, bind_ok, pure_ok] at h
  obtain ⟨members, hmembers, rfl⟩ := h
  exact ⟨members, _, hmembers, rfl, by simp [publicAlias, Item.storedName?, Item.function?]⟩

theorem entityClass_storedNames {t : TypeDecl} (h : entityClass d e = .ok t) :
    t.body.filterMap Item.storedName? = memberLabels e := by
  obtain ⟨members, aliases, hmembers, hbody, haliases⟩ := entityClass_ok h
  have hvoid : (if e.hasVoidIdentifier then [voidIdentifierProperty e] else []).filterMap
      Item.storedName? = [] := by
    split <;> rfl
  have hmember : (members.map fun m => constantProperty m.1 m.2).filterMap Item.storedName?
      = members.map Prod.fst := by
    simp [List.filterMap_map, Function.comp_def, storedName?_constantProperty]
  have halias : aliases.filterMap Item.storedName? = [] :=
    List.filterMap_eq_nil_iff.mpr fun i hi => (haliases i hi).1
  rw [hbody, Item.filterMap_grouped rfl, ← storedMembers_names hmembers]
  simp only [List.flatMap_cons, List.flatMap_nil, List.filterMap_append, halias, hvoid, hmember]
  simp [Item.storedName?, List.filterMap_cons]

theorem entityClass_functions {t : TypeDecl} (h : entityClass d e = .ok t) :
    ∃ members, storedMembers d e = .ok members ∧
      Item.functions (.type t) = [memberwiseInitializer members] := by
  obtain ⟨members, aliases, hmembers, hbody, haliases⟩ := entityClass_ok h
  refine ⟨members, hmembers, ?_⟩
  have hvoid : (if e.hasVoidIdentifier then [voidIdentifierProperty e] else []).filterMap
      Item.function? = [] := by
    split <;> rfl
  have hmember : (members.map fun m => constantProperty m.1 m.2).filterMap Item.function? = [] := by
    simp [constantProperty, Item.function?]
  have halias : aliases.filterMap Item.function? = [] :=
    List.filterMap_eq_nil_iff.mpr fun i hi => (haliases i hi).2
  rw [Item.functions, hbody, Item.filterMap_grouped rfl]
  simp only [List.flatMap_cons, List.flatMap_nil, List.filterMap_append, halias, hvoid, hmember]
  simp [Item.function?]

theorem factoryParameters_labels {parameters : List Parameter}
    (h : factoryParameters d e = .ok parameters) :
    parameters.map Parameter.callLabel = (memberLabels e).map some := by
  simp only [factoryParameters, bind_ok, pure_ok] at h
  obtain ⟨own, hown, rfl⟩ := h
  have hlabels : own.map Parameter.callLabel
      = e.storedProperties.map fun p => some (memberName p.name) := by
    refine map_eq_of_mapM_ok hown fun p _ parameter hp => ?_
    simp only [factoryParameter, bind_ok, pure_ok] at hp
    obtain ⟨type, -, sample, -, rfl⟩ := hp
    rfl
  cases hv : e.hasVoidIdentifier <;>
    simp [memberLabels, hv, hlabels, Parameter.callLabel, Function.comp_def]

-- ---------------------------------------------------------------------------
-- Payloads
-- ---------------------------------------------------------------------------

theorem payloadStruct_storedNames {t : TypeDecl} (h : payloadStruct d e = .ok t) :
    t.body.filterMap Item.storedName? = memberLabels e := by
  simp only [payloadStruct, payloadFields, bind_ok, pure_ok] at h
  obtain ⟨fields, ⟨own, hown, rfl⟩, rfl⟩ := h
  have hnames : own.map PayloadField.name
      = e.storedProperties.map fun p => memberName p.name := by
    refine map_eq_of_mapM_ok hown fun p _ field hp => ?_
    simp only [payloadField, bind_ok, pure_ok] at hp
    obtain ⟨type, -, rfl⟩ := hp
    rfl
  have hidentifier : (identifierField? e).toList.map PayloadField.name
      = if e.hasVoidIdentifier then [] else ["identifier"] := by
    unfold identifierField? Entity.hasVoidIdentifier Schema.Identifier.value?
    cases e.identifier.kind <;> rfl
  have hstored (fields : List PayloadField) :
      (fields.map fun f => constantProperty f.name f.type).filterMap Item.storedName?
        = fields.map PayloadField.name := by
    simp [List.filterMap_map, Function.comp_def, storedName?_constantProperty]
  rw [Item.filterMap_grouped rfl, memberLabels, ← hnames, ← hidentifier, ← List.map_append]
  simp only [List.flatMap_cons, List.flatMap_nil, hstored]
  simp [Item.storedName?, List.filterMap_cons]

/-- Whatever the initializer takes from the payload is a field of it. -/
theorem payloadValue_reads {p : Schema.Property} {name x : String}
    (h : .expr (.member (.name "payload") x) ∈
      (payloadValue p (.member (.name "payload") name)).parts) : x = name := by
  unfold payloadValue at h
  split at h
  · simpa using h
  · next r hr =>
    cases hi : r.idOnly <;> cases ha : r.association <;> cases ho : p.isOptional <;>
      cases hl : p.isLazy <;>
      simpa [embeddedIdentifiers, Expr.optionalIf, hi, ha, ho, hl] using h

theorem payloadInitializer_reads {x : String}
    (h : .expr (.member (.name "payload") x) ∈ Item.partsOf (payloadInitializer e).body) :
    x ∈ memberLabels e := by
  obtain ⟨a, ha, hpart⟩ : ∃ a ∈ initializerArguments e (.member (.name "payload") "identifier")
      (fun p => payloadValue p (.member (.name "payload") (memberName p.name))),
      .expr (.member (.name "payload") x) ∈ a.value.parts := by
    simpa [payloadInitializer, Argument.mem_partsOf] using h
  unfold memberLabels
  rcases List.mem_append.mp ha with ha | ha
  · split at ha
    · cases ha
    · next hv =>
      obtain rfl := List.mem_singleton.mp ha
      obtain rfl : x = "identifier" := by simpa using hpart
      simp [hv]
  · obtain ⟨p, hp, rfl⟩ := List.mem_map.mp ha
    obtain rfl := payloadValue_reads hpart
    exact List.mem_append_right _ (List.mem_map_of_mem hp)

-- ---------------------------------------------------------------------------
-- Index
-- ---------------------------------------------------------------------------

theorem indexValueAccessor_tags {ext : Extension} (h : indexValueAccessor d e = .ok ext) :
    (Item.functions (.extension ext)).flatMap (fun f =>
        (f.body.flatMap Item.switchCases).map SwitchCase.tag?)
      = ((indexNameEnum e).body.filterMap Item.caseName?).map some := by
  simp only [indexValueAccessor, bind_ok, pure_ok] at h
  obtain ⟨cases, hcases, rfl⟩ := h
  have htags : cases.map SwitchCase.tag?
      = e.storedProperties.map fun p => some (memberName p.name) := by
    refine map_eq_of_mapM_ok hcases fun p _ c hc => ?_
    simp only [indexValueCase, bind_ok, pure_ok] at hc
    obtain ⟨value, -, rfl⟩ := hc
    rfl
  simp [Item.functions, Item.function?, Item.switchCases, htags, indexNameEnum, Item.caseName?,
    List.filterMap_map, Function.comp_def]

-- ---------------------------------------------------------------------------
-- Files
-- ---------------------------------------------------------------------------

/-- The declarations of an entity: its class, the initializer from its payload if it is remote,
equality, its index if it has properties, and merging if some are lazy. -/
theorem entityItems_ok {items : List Item} (h : entityItems d e = .ok items) :
    ∃ (decl : TypeDecl) (index : List Item), entityClass d e = .ok decl ∧
      (∀ i ∈ index, i = Item.type (indexNameEnum e) ∨
        ∃ accessor, indexValueAccessor d e = .ok accessor ∧ i = Item.extension accessor) ∧
      items = [Item.type decl]
        ++ (if e.isRemote then [Item.extension (payloadInitializer e)] else [])
        ++ [Item.extension (equatable e)] ++ index
        ++ (if e.hasLazyProperties then [Item.extension (merging e)] else []) := by
  simp only [entityItems, bind_ok] at h
  obtain ⟨decl, hdecl, h⟩ := h
  split at h
  · simp only [bind_ok, pure_ok] at h
    obtain ⟨_, rfl, rfl⟩ := h
    exact ⟨decl, [], hdecl, by simp, rfl⟩
  · simp only [bind_ok, pure_ok] at h
    obtain ⟨accessor, haccessor, _, rfl, rfl⟩ := h
    exact ⟨decl, _, hdecl, by simp [haccessor], rfl⟩

theorem recordFile_functions {file : SourceFile} (h : recordFile d settings e = .ok file) :
    ∃ fields, recordFields d settings e = .ok fields ∧
      let initializer := recordInitializer e (recordArguments e fields)
      file.functions = [entityFromRecord e initializer.isThrowing,
        mergeIntoRecord settings e fields, initializer] := by
  simp only [recordFile, bind_ok, pure_ok] at h
  obtain ⟨fields, hfields, rfl⟩ := h
  refine ⟨fields, hfields, ?_⟩
  simp [SourceFile.functions, emittedFile, Item.functions,
    Item.filterMap_grouped (f := Item.function?) rfl, Item.function?]

theorem factoryFile_functions {moduleName : String} {file : SourceFile}
    (h : factoryFile d moduleName e = .ok file) :
    ∃ parameters, factoryParameters d e = .ok parameters ∧
      file.functions = [makeFunction e parameters] := by
  simp only [factoryFile, bind_ok, pure_ok] at h
  obtain ⟨parameters, hparameters, rfl⟩ := h
  exact ⟨parameters, hparameters, by simp [SourceFile.functions, emittedFile, Item.functions,
    Item.function?]⟩

-- ---------------------------------------------------------------------------
-- Agreement
-- ---------------------------------------------------------------------------

/-- Every declaration and every call of the initializer goes through the same
members in the same order. -/
structure LabelsAgree (d : Descriptions) (settings : Settings) (e : Entity) : Prop where
  /-- The class stores the members, and its initializer assigns each its parameter. -/
  declared {t : TypeDecl} (h : entityClass d e = .ok t) :
    t.body.filterMap Item.storedName? = memberLabels e ∧
      ∃ init, Item.functions (.type t) = [init] ∧ init.isInitializer = true ∧
        init.labels = (memberLabels e).map some ∧
        init.body.filterMap Item.ownAssignment? = (memberLabels e).map fun x => (x, .name x)
  fromPayload : (Item.functions (.extension (payloadInitializer e))).map
      (fun f => f.body.filterMap Item.delegation?) = [[(memberLabels e).map some]]
  merged : (Item.functions (.extension (merging e))).map
      (fun f => f.body.filterMap Item.construction?)
        = [[(entityType e.name, (memberLabels e).map some)]]
  fromRecord {file : SourceFile} (h : recordFile d settings e = .ok file) :
    (file.functions.filter Function.isInitializer).map
      (fun f => f.body.filterMap Item.delegation?) = [[(memberLabels e).map some]]
  made {file : SourceFile} (h : factoryFile d settings.moduleName e = .ok file) :
    ∃ make, file.functions = [make] ∧ make.labels = (memberLabels e).map some ∧
      make.body.filterMap Item.construction?
        = [(entityType e.name, (memberLabels e).map some)]
  /-- Storing keeps the declared order of values and that of relationships. -/
  stored : e.storedProperties.Perm e.properties ∧
    e.storedProperties.filter (fun p => !p.isRelationship)
      = e.properties.filter (fun p => !p.isRelationship) ∧
    e.storedProperties.filter (·.isRelationship) = e.properties.filter (·.isRelationship)
  /-- What is read from the payload is a field of its struct. -/
  read {t : TypeDecl} {x : String} (h : payloadStruct d e = .ok t)
    (hx : .expr (.member (.name "payload") x) ∈ Item.partsOf (payloadInitializer e).body) :
    x ∈ t.body.filterMap Item.storedName?
  /-- The index goes through the cases of its names in their order. -/
  indexed {ext : Extension} (h : indexValueAccessor d e = .ok ext) :
    (Item.functions (.extension ext)).flatMap (fun f =>
        (f.body.flatMap Item.switchCases).map SwitchCase.tag?)
      = ((indexNameEnum e).body.filterMap Item.caseName?).map some

theorem labels_agree (d : Descriptions) (settings : Settings) (e : Entity) :
    LabelsAgree d settings e := by
  constructor
  case declared =>
    intro t h
    obtain ⟨members, hmembers, hfunctions⟩ := entityClass_functions h
    refine ⟨entityClass_storedNames h, _, hfunctions, rfl, ?_, ?_⟩
    · rw [memberwiseInitializer_labels, storedMembers_names hmembers]
    · rw [memberwiseInitializer_assigns, storedMembers_names hmembers]
  case fromPayload =>
    simp [payloadInitializer, Item.functions, Item.function?, Item.delegation?,
      initializerArguments_labels]
  case merged =>
    simp [merging, Item.functions, Item.function?, Item.construction?,
      initializerArguments_labels]
  case fromRecord =>
    intro file h
    obtain ⟨fields, hfields, hfunctions⟩ := recordFile_functions h
    have hinitializers : file.functions.filter Function.isInitializer
        = [recordInitializer e (recordArguments e fields)] := by
      rw [hfunctions]
      rfl
    rw [hinitializers]
    simp [recordInitializer, Item.delegation?, recordArguments_labels hfields]
  case made =>
    intro file h
    obtain ⟨parameters, hparameters, hfunctions⟩ := factoryFile_functions h
    refine ⟨_, hfunctions, factoryParameters_labels hparameters, ?_⟩
    simp [makeFunction, Item.construction?, initializerArguments_labels]
  case stored =>
    exact ⟨e.storedProperties_perm, e.filter_value_storedProperties,
      e.filter_relationship_storedProperties⟩
  case read =>
    intro t x h hx
    rw [payloadStruct_storedNames h]
    exact payloadInitializer_reads hx
  case indexed => exact fun h => indexValueAccessor_tags h

theorem labels_agree_value :
    ∃ (d : Descriptions) (settings : Settings) (e : Entity), e.properties ≠ [] ∧
      (∃ t, entityClass d e = .ok t) ∧ (∃ file, recordFile d settings e = .ok file) ∧
      (∃ file, factoryFile d settings.moduleName e = .ok file) ∧
      (∃ t, payloadStruct d e = .ok t) ∧ (∃ ext, indexValueAccessor d e = .ok ext) ∧
      LabelsAgree d settings e :=
  ⟨{ version := "1" }, {},
    { name := "film", identifier := { kind := .scalar .int }
      properties := [{ name := "seen_at", type := .scalar .date, isOptional := true }] },
    List.cons_ne_nil _ _, ⟨_, rfl⟩, ⟨_, rfl⟩, ⟨_, rfl⟩, ⟨_, rfl⟩, ⟨_, rfl⟩, labels_agree _ _ _⟩

end EntityGen.Emit
