import EntityGen.Proofs.Code.Declarations
import EntityGen.Proofs.Emit.Labels
import EntityGen.Proofs.Emit.Sources
import Mathlib.Data.List.Nodup

/-!
# Keys of encoded values

A payload or a value is decoded at the keys of its members, which an enumeration
beside the decoder spells: a case bears the emitted name of a member, its raw
value is the member's key. The decoder has one step for each member. The
enumeration has a case for each name, so of members that are emitted alike only
the first has its key there, and nothing tells whether two keys are the same.
-/

namespace EntityGen.Emit

open Code
open Schema (Descriptions Entity Member Subtype)

-- ---------------------------------------------------------------------------
-- Keys in use
-- ---------------------------------------------------------------------------

def keyOf? : Argument → Option String
  | .mk (some "forKey") (.prefixed .dot (.name key)) => some key
  | _ => none

def keysOfPart : Part → List String
  | .expr (.call _ arguments) => arguments.filterMap keyOf?
  | _ => []

def keysIn (parts : List Part) : List String := parts.flatMap keysOfPart

def usedKeys (t : TypeDecl) : List String := keysIn t.parts

/-- A case with its raw value, which is its name if none is written. -/
def rawCase? : Item → Option (String × String)
  | .enumCase c =>
    some (c.name, match c.rawValue with
      | some (.string key) => key
      | _ => c.name)
  | _ => none

/-- The cases of the enumeration `Keys` inside of a type. -/
def keyCases (t : TypeDecl) : List (String × String) :=
  ((t.body.filterMap Item.type?).filter fun nested => nested.name.name == "Keys").flatMap
    fun nested => nested.body.filterMap rawCase?

/-- The members, emitted names with declared keys, are read and written at their own keys. -/
structure ReadsDeclared (t : TypeDecl) (members : List (String × String)) : Prop where
  /-- A key in use is a case, and its raw value is the key of a member of this name. -/
  used : ∀ name ∈ usedKeys t, ∃ key, (name, key) ∈ keyCases t ∧ (name, key) ∈ members
  /-- No case of a member's name has another raw value. -/
  declared : ∀ name key key', (name, key) ∈ members → (name, key') ∈ keyCases t → key' = key
  /-- Every member has a case of its own. -/
  own : (keyCases t).map Prod.fst = members.map Prod.fst
  /-- No two cases have the same raw value. -/
  apart : ((keyCases t).map Prod.snd).Nodup

-- ---------------------------------------------------------------------------
-- The first of each name
-- ---------------------------------------------------------------------------

section
variable {α : Type} {seen : List String} {xs : List (String × α)} {name : String} {a : α}

theorem mem_firstOfEachName :
    (name, a) ∈ firstOfEachName seen xs ↔ name ∉ seen ∧ xs.lookup name = some a := by
  induction xs generalizing seen with
  | nil => simp [firstOfEachName]
  | cons x rest ih =>
    obtain ⟨name', a'⟩ := x
    rw [firstOfEachName, List.lookup_cons]
    by_cases hseen : name' ∈ seen
    · rw [if_pos hseen, ih]
      by_cases hname : name = name'
      · simp [hname, hseen]
      · simp [beq_eq_false_iff_ne.mpr hname]
    · rw [if_neg hseen, List.mem_cons, ih]
      by_cases hname : name = name'
      · simp [hname, hseen, eq_comm]
      · simp [hname, beq_eq_false_iff_ne.mpr hname]

theorem firstOfEachName_names_nodup : ((firstOfEachName seen xs).map Prod.fst).Nodup := by
  induction xs generalizing seen with
  | nil => exact List.nodup_nil
  | cons x rest ih =>
    obtain ⟨name, a⟩ := x
    rw [firstOfEachName]
    split
    · exact ih
    · rw [List.map_cons, List.nodup_cons]
      refine ⟨fun hmem => ?_, ih⟩
      obtain ⟨⟨name', a'⟩, hrest, rfl⟩ := List.mem_map.mp hmem
      exact (mem_firstOfEachName.mp hrest).1 List.mem_cons_self

theorem firstOfEachName_of_nodup (hseen : ∀ name ∈ seen, name ∉ xs.map Prod.fst)
    (h : (xs.map Prod.fst).Nodup) : firstOfEachName seen xs = xs := by
  induction xs generalizing seen with
  | nil => rfl
  | cons x rest ih =>
    obtain ⟨name, a⟩ := x
    obtain ⟨hname, hrest⟩ := List.nodup_cons.mp h
    have hnew : name ∉ seen := fun hmem => hseen name hmem List.mem_cons_self
    rw [firstOfEachName, if_neg hnew, ih ?_ hrest]
    exact List.forall_mem_cons.mpr
      ⟨hname, fun other hother hmem => hseen other hother (List.mem_cons_of_mem _ hmem)⟩

end

-- ---------------------------------------------------------------------------
-- Structs with keys
-- ---------------------------------------------------------------------------

/-- The type decodes at the names of the members and has the first key of each name. -/
structure KeyedBy (t : TypeDecl) (members : List (String × String)) : Prop where
  used : ∀ name, name ∈ usedKeys t ↔ name ∈ members.map Prod.fst
  cases : keyCases t = firstOfEachName [] members

section
variable {t : TypeDecl} {members : List (String × String)}

/-- The raw value of a case is the key of the first member of its name. -/
theorem KeyedBy.mem_keyCases (h : KeyedBy t members) {name key : String} :
    (name, key) ∈ keyCases t ↔ members.lookup name = some key := by
  simp [h.cases, mem_firstOfEachName]

/-- The keys are read as declared exactly if neither names nor keys are shared. -/
theorem KeyedBy.readsDeclared_iff (h : KeyedBy t members) :
    ReadsDeclared t members ↔ (members.map Prod.fst).Nodup ∧ (members.map Prod.snd).Nodup := by
  have hcases (hnames : (members.map Prod.fst).Nodup) : keyCases t = members :=
    h.cases.trans (firstOfEachName_of_nodup nofun hnames)
  constructor
  · intro hreads
    have hnames : (members.map Prod.fst).Nodup := by
      rw [← hreads.own, h.cases]
      exact firstOfEachName_names_nodup
    exact ⟨hnames, hcases hnames ▸ hreads.apart⟩
  · rintro ⟨hnames, hkeys⟩
    have hmembers := hcases hnames
    constructor
    case used =>
      intro name hname
      obtain ⟨⟨_, key⟩, hmem, rfl⟩ := List.mem_map.mp ((h.used name).mp hname)
      exact ⟨key, hmembers ▸ hmem, hmem⟩
    case declared =>
      intro name key key' hmem hmem'
      rw [hmembers] at hmem'
      have hinj := (List.nodup_map_iff_inj_on (hnames.of_map Prod.fst)).mp hnames
      exact congrArg Prod.snd (hinj _ hmem' _ hmem rfl)
    case own => rw [hmembers]
    case apart => rwa [hmembers]

end

-- ---------------------------------------------------------------------------
-- Keys of pieces of code
-- ---------------------------------------------------------------------------

def keysAt (i : Item) : List String := keysIn i.parts

theorem keysIn_append (parts parts' : List Part) :
    keysIn (parts ++ parts') = keysIn parts ++ keysIn parts' := List.flatMap_append

theorem keysIn_partsOf (items : List Item) :
    keysIn (Item.partsOf items) = items.flatMap keysAt := by
  induction items with
  | nil => rfl
  | cons i items ih => rw [Item.partsOf, keysIn_append, ih, List.flatMap_cons, keysAt]

theorem usedKeys_eq (t : TypeDecl) : usedKeys t = t.body.flatMap keysAt := by
  obtain ⟨_, _, _, _, body, _⟩ := t
  exact keysIn_partsOf body

theorem flatMap_keysAt_grouped (groups : List (List Item)) :
    (Item.grouped groups).flatMap keysAt = groups.flatMap (List.flatMap keysAt) := by
  induction groups with
  | nil => rfl
  | cons g groups ih =>
    cases groups with
    | nil => simp [Item.grouped]
    | cons g' groups =>
      rw [Item.grouped_cons_cons, List.flatMap_append, List.flatMap_cons, ih]
      rfl

theorem keysAt_constantProperty (name : String) (type : TypeName) :
    keysAt (constantProperty name type) = [] := rfl

theorem keysAt_codingKeys (keys : List (String × String)) :
    keysAt (.type (codingKeys keys)) = [] := by
  have hcase (name key : String) : keysAt (.enumCase (codingKey name key)) = [] := by
    unfold codingKey
    split <;> rfl
  have hkeys : keysAt (.type (codingKeys keys)) = usedKeys (codingKeys keys) := rfl
  rw [hkeys, usedKeys_eq, codingKeys, keysEnum]
  simp [List.flatMap_map, hcase]

theorem keysAt_function {f : Function} (h : ∀ parameter ∈ f.parameters, parameter.default = none) :
    keysAt (.function f) = f.body.flatMap keysAt := by
  obtain ⟨_, _, parameters, _, _, _, _, _, _, _, _, _, body⟩ := f
  have hparameters : Parameter.partsOf parameters = [] := by
    induction parameters with
    | nil => rfl
    | cons parameter rest ih =>
      obtain ⟨hdefault, hrest⟩ := List.forall_mem_cons.mp h
      obtain ⟨_, _, _, default, _, _⟩ := parameter
      obtain rfl : default = none := hdefault
      exact ih hrest
  rw [← keysIn_partsOf]
  exact congrArg (fun parts => keysIn (parts ++ Item.partsOf body)) hparameters

theorem flatMap_keysAt_each {α : Type} {xs : List α} {item : α → Item} {name : α → String}
    (h : ∀ x ∈ xs, keysAt (item x) = [name x]) : (xs.map item).flatMap keysAt = xs.map name := by
  rw [List.flatMap_map, List.map_eq_flatMap]
  exact List.flatMap_congr h

theorem flatMap_keysAt_constants {α : Type} (xs : List α) (name : α → String)
    (type : α → TypeName) :
    (xs.map fun x => constantProperty (name x) (type x)).flatMap keysAt = [] := by
  simp [List.flatMap_map, keysAt_constantProperty]

theorem keysAt_decodingInitializer (body : List Item) :
    keysAt (.function (decodingInitializer .publicAccess (keyedDecoding :: body)))
      = body.flatMap keysAt := by
  rw [keysAt_function (by simp [decodingInitializer, decoderParameter])]
  rfl

theorem keysIn_decodeFrom (container method : String) (type : TypeName) (key : String) :
    keysIn (decodeFrom container method type (some key)).parts = [key] := rfl

theorem keysIn_defaultValue (default : Schema.DefaultValue) (type : Schema.PropertyType) :
    keysIn (defaultValue default type).parts = [] := by
  cases default with
  | nil | bool | float | enumCase | currentDate => rfl
  | int n =>
    rw [defaultValue]
    split <;> rfl
  | string text =>
    rw [defaultValue]
    split <;> rfl

/-- A member is decoded at its own name, whatever stands in for it. -/
theorem keysIn_decodeField (p : Schema.Property) (type : TypeName) :
    keysIn (decodeField p type).parts = [memberName p.name] := by
  unfold decodeField
  split
  · rfl
  · split
    · next default hdefault =>
      have hvalue : keysIn default.parts = [] := by
        obtain ⟨hvalue, -⟩ := Option.filter_eq_some_iff.mp hdefault
        obtain ⟨given, -, rfl⟩ := Option.map_eq_some_iff.mp hvalue
        exact keysIn_defaultValue given p.type
      have hparts : keysIn (Expr.tryThrowing ((decodeFrom "container" "decodeIfPresent"
          type.unwrapped (some (memberName p.name))).orElse default)).parts
            = keysIn ((decodeFrom "container" "decodeIfPresent" type.unwrapped
              (some (memberName p.name))).parts ++ default.parts) := rfl
      rw [hparts, keysIn_append, keysIn_decodeFrom, hvalue]
      rfl
    · split <;> rfl

theorem keyCases_of_codingKeys {t : TypeDecl} {keys : List (String × String)}
    (h : t.body.filterMap Item.type? = [codingKeys keys]) :
    keyCases t = firstOfEachName [] keys := by
  have hcase (name key : String) :
      rawCase? (.enumCase (codingKey name key)) = some (name, key) := by
    unfold codingKey
    split
    · next heq => rw [rawCase?, heq]
    · rfl
  simp only [keyCases, h]
  simp [codingKeys, keysEnum, List.filterMap_map, Function.comp_def, hcase]

-- ---------------------------------------------------------------------------
-- Payloads
-- ---------------------------------------------------------------------------

def payloadMembers (e : Entity) : List (String × String) :=
  (if e.hasVoidIdentifier then [] else [("identifier", e.identifier.key)])
    ++ e.storedProperties.map fun p => (memberName p.name, p.key)

section
variable {d : Descriptions} {e : Entity}

theorem identifierField?_members (e : Entity) :
    (identifierField? e).toList.map (fun f => (f.name, f.key))
      = if e.hasVoidIdentifier then [] else [("identifier", e.identifier.key)] := by
  unfold identifierField? Entity.hasVoidIdentifier Schema.Identifier.value?
  cases e.identifier.kind <;> rfl

theorem keysAt_identifierField? : ∀ f ∈ (identifierField? e).toList,
    keysAt f.decoding = [f.name] := by
  intro f hf
  obtain ⟨value, -, rfl⟩ := Option.map_eq_some_iff.mp (Option.mem_toList.mp hf)
  rfl

theorem payloadField_keys {p : Schema.Property} {f : PayloadField}
    (h : payloadField d e p = .ok f) :
    (f.name, f.key) = (memberName p.name, p.key) ∧ keysAt f.decoding = [f.name] := by
  simp only [payloadField, bind_ok, pure_ok] at h
  obtain ⟨type, -, rfl⟩ := h
  exact ⟨rfl, keysIn_decodeField p type⟩

theorem payloadFields_keys {fields : List PayloadField} (h : payloadFields d e = .ok fields) :
    fields.map (fun f => (f.name, f.key)) = payloadMembers e ∧
      ∀ f ∈ fields, keysAt f.decoding = [f.name] := by
  simp only [payloadFields, bind_ok, pure_ok] at h
  obtain ⟨own, hown, rfl⟩ := h
  constructor
  · rw [List.map_append, identifierField?_members, payloadMembers]
    rw [map_eq_of_mapM_ok hown fun p _ f hf => (payloadField_keys hf).1]
  · exact List.forall_mem_append.mpr ⟨keysAt_identifierField?,
      forall_mem_of_mapM_ok hown fun p _ f hf => (payloadField_keys hf).2⟩

theorem payloadStruct_keyedBy {t : TypeDecl} (h : payloadStruct d e = .ok t) :
    KeyedBy t (payloadMembers e) := by
  simp only [payloadStruct, bind_ok, pure_ok] at h
  obtain ⟨fields, hfields, rfl⟩ := h
  obtain ⟨hmembers, hdecoding⟩ := payloadFields_keys hfields
  have hnames : fields.map (·.name) = (payloadMembers e).map Prod.fst := by
    rw [← hmembers, List.map_map]
    rfl
  constructor
  case used =>
    intro name
    have hfields : (fields.map (·.decoding)).flatMap keysAt = fields.map (·.name) :=
      flatMap_keysAt_each hdecoding
    rw [← hnames, usedKeys_eq, flatMap_keysAt_grouped]
    simp only [List.flatMap_cons, List.flatMap_nil, flatMap_keysAt_constants, keysAt_codingKeys,
      keysAt_decodingInitializer, hfields]
    simp
  case cases =>
    rw [← hmembers]
    refine keyCases_of_codingKeys ?_
    rw [Item.filterMap_grouped rfl]
    simp [List.filterMap_map, Function.comp_def, constantProperty, Item.type?]

end

-- ---------------------------------------------------------------------------
-- Values
-- ---------------------------------------------------------------------------

def valueMembers (members : List Member) : List (String × String) :=
  members.map fun m => (memberName m.name, m.key)

theorem keysAt_memberwiseInitializer (members : List (String × TypeName)) :
    keysAt (.function (memberwiseInitializer members)) = [] := by
  have hassign (name : String) : keysAt (.assignOwn name (.name name)) = [] := rfl
  rw [keysAt_function]
  · simp [memberwiseInitializer, List.flatMap_map, hassign, -Item.assignOwn]
  · intro parameter hparameter
    obtain ⟨_, -, rfl⟩ := List.mem_map.mp hparameter
    rfl

theorem keysAt_encodingFunction (body : List Item) :
    keysAt (.function (encodingFunction (keyedEncoding :: body))) = body.flatMap keysAt := by
  rw [keysAt_function (by simp [encodingFunction, encoderParameter])]
  rfl

theorem valueStruct_keyedBy {d : Descriptions} {s : Subtype} {members : List Member}
    {t : TypeDecl} (h : valueStruct d s members = .ok t) : KeyedBy t (valueMembers members) := by
  simp only [valueStruct, bind_ok, pure_ok] at h
  obtain ⟨typed, htyped, rfl⟩ := h
  have hmembers : typed.map Prod.fst = members := by
    have hfst : typed.map Prod.fst = members.map id := by
      refine map_eq_of_mapM_ok htyped fun m _ pair hpair => ?_
      simp only [bind_ok, pure_ok] at hpair
      obtain ⟨type, -, rfl⟩ := hpair
      rfl
    rwa [List.map_id] at hfst
  constructor
  case used =>
    intro name
    have hnames : (members.map fun m => memberName m.name)
        = (valueMembers members).map Prod.fst := by
      rw [valueMembers, List.map_map]
      rfl
    have hdecode : (typed.map fun pair => decodeMember pair.1 pair.2).flatMap keysAt
        = (valueMembers members).map Prod.fst := by
      rw [← hnames, ← hmembers, List.map_map]
      exact flatMap_keysAt_each fun _ _ => rfl
    have hencode : (members.map encodeMember).flatMap keysAt
        = (valueMembers members).map Prod.fst := by
      rw [← hnames]
      exact flatMap_keysAt_each fun _ _ => rfl
    rw [usedKeys_eq, flatMap_keysAt_grouped]
    simp only [List.flatMap_cons, List.flatMap_nil, List.flatMap_map, keysAt_constantProperty,
      keysAt_memberwiseInitializer, keysAt_codingKeys, keysAt_decodingInitializer,
      keysAt_encodingFunction, hdecode, hencode]
    simp
  case cases =>
    refine keyCases_of_codingKeys ?_
    rw [Item.filterMap_grouped rfl]
    simp [List.filterMap_map, List.filterMap_cons, Function.comp_def, constantProperty,
      Item.type?, valueMembers]

-- ---------------------------------------------------------------------------
-- Sources
-- ---------------------------------------------------------------------------

/-- The type is emitted in the directory and uses the names of its members as keys. A case
has the key of the first member of its name, so all is read as declared exactly if
neither names nor keys are shared. -/
structure EmittedKeyed (d : Descriptions) (settings : Settings) (files : List Source)
    (directory : String) (t : TypeDecl) (members : List (String × String)) : Prop where
  emitted : ∃ s ∈ files, s.BelongsTo d settings directory ∧ s.file.types = [t]
  used : ∀ name, name ∈ usedKeys t ↔ name ∈ members.map Prod.fst
  first : ∀ name key, (name, key) ∈ keyCases t ↔ members.lookup name = some key
  reads_iff : ReadsDeclared t members ↔
    (members.map Prod.fst).Nodup ∧ (members.map Prod.snd).Nodup

section
variable {d : Descriptions} {settings : Settings} {files : List Source} {directory : String}
  {t : TypeDecl} {members : List (String × String)}

theorem KeyedBy.emittedKeyed (h : KeyedBy t members)
    (hemitted : ∃ s ∈ files, s.BelongsTo d settings directory ∧ s.file.types = [t]) :
    EmittedKeyed d settings files directory t members where
  emitted := hemitted
  used := h.used
  first _ _ := h.mem_keyCases
  reads_iff := h.readsDeclared_iff

theorem exists_payload_keyed (hsources : sources d settings = .ok files) {e : Entity}
    (he : e ∈ d.entities) (hremote : e.isRemote = true) :
    ∃ t, payloadStruct d e = .ok t ∧
      EmittedKeyed d settings files "Payloads" t (payloadMembers e) := by
  obtain ⟨s, hs, hbelongs, hfile⟩ := exists_payload_source hsources he hremote
  simp only [payloadFile, bind_ok, pure_ok] at hfile
  obtain ⟨t, ht, hfile⟩ := hfile
  have htypes : s.file.types = [t] := by
    rw [← hfile]
    rfl
  exact ⟨t, ht, (payloadStruct_keyedBy ht).emittedKeyed ⟨s, hs, hbelongs, htypes⟩⟩

theorem exists_value_keyed (hsources : sources d settings = .ok files) {s : Subtype}
    (hs : s ∈ d.subtypes) {values : List Member} (hvalues : s.items = .members values) :
    ∃ t, valueStruct d s values = .ok t ∧
      EmittedKeyed d settings files "Subtypes" t (valueMembers values) := by
  obtain ⟨source, hsource, hbelongs, hfile⟩ := exists_subtype_source hsources hs
  obtain ⟨items, hitems, htypes⟩ := subtypeFile_types hfile
  simp only [subtypeItems, hvalues, bind_ok, pure_ok] at hitems
  obtain ⟨t, ht, rfl⟩ := hitems
  exact ⟨t, ht, (valueStruct_keyedBy ht).emittedKeyed ⟨source, hsource, hbelongs, htypes⟩⟩

/-- What the keys of all emitted payloads and values read. -/
theorem sourcesOfText_keyed {text : String} (hload : Document.load text = .ok d)
    (hfiles : sourcesOfText text settings = .ok files) :
    (∀ e ∈ d.entities, e.isRemote = true → ∃ t, payloadStruct d e = .ok t ∧
      EmittedKeyed d settings files "Payloads" t (payloadMembers e)) ∧
    ∀ s ∈ d.subtypes, ∀ values, s.items = .members values → ∃ t, valueStruct d s values = .ok t ∧
      EmittedKeyed d settings files "Subtypes" t (valueMembers values) := by
  obtain ⟨-, hsources⟩ := sources_of_load hload hfiles
  exact ⟨fun e he hremote => exists_payload_keyed hsources he hremote,
    fun s hs values hvalues => exists_value_keyed hsources hs hvalues⟩

end

def keyedText (members properties : String) : String :=
  "<descriptions version='1'><subtypes><subtype name='point'>" ++ members
    ++ "</subtype></subtypes><entities><entity name='film'>" ++ properties
    ++ "</entity></entities></descriptions>"

/-- Two members at one key, a property at the key of the identifier, and two properties that
are emitted alike. -/
def sharedText : String :=
  keyedText "<property name='x' type='int' key='c'/><property name='y' type='int' key='c'/>"
    "<property name='id' type='int'/><property name='a_b' type='int'/><property name='aB' type='int'/>"

/-- The identifier and `id` are read at one key, and `aB` at the key of `a_b`. -/
theorem sourcesOfText_keys_shared :
    ∃ d files, Document.load sharedText = .ok d ∧ sourcesOfText sharedText {} = .ok files ∧
      (∃ e ∈ d.entities, e.isRemote = true ∧ ∃ t, payloadStruct d e = .ok t ∧
        ("identifier", "id") ∈ keyCases t ∧ ("id", "id") ∈ keyCases t ∧
        ("aB", "aB") ∈ payloadMembers e ∧ ("aB", "a_b") ∈ keyCases t ∧
        ¬ReadsDeclared t (payloadMembers e)) ∧
      ∃ s ∈ d.subtypes, ∃ values, s.items = .members values ∧ ∃ t, valueStruct d s values = .ok t ∧
        ¬ReadsDeclared t (valueMembers values) := by
  obtain ⟨d, files, hload, hfiles, ⟨e, he, hremote, hmembers⟩, s, hs, hvalues⟩ : ∃ d files,
      Document.load sharedText = .ok d ∧ sourcesOfText sharedText {} = .ok files ∧
      (∃ e ∈ d.entities, e.isRemote = true ∧
        payloadMembers e = [("identifier", "id"), ("id", "id"), ("aB", "a_b"), ("aB", "aB")]) ∧
      ∃ s ∈ d.subtypes, s.items = .members [{ name := "x", type := .scalar .int, key := "c" },
        { name := "y", type := .scalar .int, key := "c" }] := by
    have htext : sharedText = _ :=
      Markup.append_eq_ofList (Markup.append_eq_ofList (Markup.append_eq_ofList
        (Markup.append_eq_ofList rfl rfl) rfl) rfl) rfl
    refine exists_sources_of_decide ?_
    rw [sourcesOfText, Document.load, Markup.nodes_of_ofList htext]
    decide +kernel
  obtain ⟨-, hsources⟩ := sources_of_load hload hfiles
  obtain ⟨t, ht, hkeyed⟩ := exists_payload_keyed hsources he hremote
  obtain ⟨u, hu, hkeyed'⟩ := exists_value_keyed hsources hs hvalues
  refine ⟨d, files, hload, hfiles, ⟨e, he, hremote, t, ht, ?_⟩, s, hs, _, hvalues, u, hu, ?_⟩
  · rw [hkeyed.reads_iff]
    simp only [hkeyed.first, hmembers]
    decide
  · rw [hkeyed'.reads_iff]
    decide

def spelledText : String :=
  keyedText "<property name='x' type='int' key='c'/><property name='y' type='int'/>"
    "<property name='user_id' type='int' key='uid'/>"

theorem sourcesOfText_keyed_spelled :
    ∃ d files, Document.load spelledText = .ok d ∧ sourcesOfText spelledText {} = .ok files ∧
      (∃ e ∈ d.entities, ∃ t, payloadStruct d e = .ok t ∧
        ("userId", "uid") ∈ keyCases t ∧ ReadsDeclared t (payloadMembers e)) ∧
      ∃ s ∈ d.subtypes, ∃ values, s.items = .members values ∧ ∃ t, valueStruct d s values = .ok t ∧
        ReadsDeclared t (valueMembers values) := by
  obtain ⟨d, files, hload, hfiles, ⟨e, he, hremote, hmembers⟩, s, hs, hvalues⟩ : ∃ d files,
      Document.load spelledText = .ok d ∧ sourcesOfText spelledText {} = .ok files ∧
      (∃ e ∈ d.entities, e.isRemote = true ∧
        payloadMembers e = [("identifier", "id"), ("userId", "uid")]) ∧
      ∃ s ∈ d.subtypes, s.items = .members [{ name := "x", type := .scalar .int, key := "c" },
        { name := "y", type := .scalar .int }] := by
    have htext : spelledText = _ :=
      Markup.append_eq_ofList (Markup.append_eq_ofList (Markup.append_eq_ofList
        (Markup.append_eq_ofList rfl rfl) rfl) rfl) rfl
    refine exists_sources_of_decide ?_
    rw [sourcesOfText, Document.load, Markup.nodes_of_ofList htext]
    decide +kernel
  obtain ⟨hpayloads, hvaluesKeyed⟩ := sourcesOfText_keyed hload hfiles
  obtain ⟨t, ht, hkeyed⟩ := hpayloads e he hremote
  obtain ⟨u, hu, hkeyed'⟩ := hvaluesKeyed s hs _ hvalues
  refine ⟨d, files, hload, hfiles, ⟨e, he, t, ht, ?_⟩, s, hs, _, hvalues, u, hu, ?_⟩
  · rw [hkeyed.reads_iff, hkeyed.first, hmembers]
    decide
  · rw [hkeyed'.reads_iff]
    decide

end EntityGen.Emit
