import EntityGen.Emit.RecordFile
import EntityGen.Proofs.Emit.QuietValues
import EntityGen.Proofs.Text.Separators

/-!
# Records written and read back

Writing a property assigns the same attributes of the record that reading it
takes, in the same storage. Attributes of different properties differ, since a
member's name holds no underscore while the attributes put some around it.
-/

namespace EntityGen.Emit

open Code
open Schema (Descriptions Entity)

-- ---------------------------------------------------------------------------
-- Attributes
-- ---------------------------------------------------------------------------

section
variable {naming : RecordNaming} {x y : String}

theorem underscore_not_mem_memberName (name : String) : '_' ∉ (memberName name).toList :=
  Text.camelCase_no_separator (by decide) name

theorem recordKey_injective (naming : RecordNaming) : Function.Injective (recordKey naming) := by
  intro x y h
  cases naming with
  | current => simpa [recordKey, ← String.toList_inj] using h
  | legacy => exact h

theorem recordFlagKey_injective (naming : RecordNaming) :
    Function.Injective (recordFlagKey naming) := by
  intro x y h
  cases naming <;> simpa [recordFlagKey, ← String.toList_inj] using h

/-- A flag has underscores inside, where a key has those of its name alone. -/
theorem recordKey_ne_recordFlagKey (hx : '_' ∉ x.toList) :
    recordKey naming x ≠ recordFlagKey naming y := by
  intro h
  apply hx
  cases naming with
  | current =>
    obtain h : x.toList = '_' :: (y.toList ++ "_ExtraFlag".toList) := by
      simpa [recordKey, recordFlagKey, ← String.toList_inj] using h
    simp [h]
  | legacy =>
    obtain rfl : x = y ++ "_ExtraFlag" := h
    simp

theorem recordKey_ne_lastRemoteReadKey (hx : '_' ∉ x.toList) :
    recordKey naming x ≠ lastRemoteReadKey naming := by
  intro h
  apply hx
  cases naming with
  | current =>
    obtain h : x.toList = "_lastRemoteRead".toList := by
      simpa [recordKey, lastRemoteReadKey, ← String.toList_inj] using h
    simp [h]
  | legacy =>
    obtain rfl : x = "_lastRemoteRead" := h
    decide

theorem recordFlagKey_ne_lastRemoteReadKey (hx : '_' ∉ x.toList) :
    recordFlagKey naming x ≠ lastRemoteReadKey naming := by
  intro h
  cases naming with
  | current =>
    obtain h : x.toList ++ "_ExtraFlag".toList = "lastRemoteRead".toList := by
      simpa [recordFlagKey, lastRemoteReadKey, ← String.toList_inj] using h
    have hmem : '_' ∈ "lastRemoteRead".toList := by
      rw [← h]
      simp
    revert hmem
    decide
  | legacy =>
    obtain h : x.toList ++ "_ExtraFlag".toList = "_lastRemoteRead".toList := by
      simpa [recordFlagKey, lastRemoteReadKey, ← String.toList_inj] using h
    -- the name is empty or starts with the underscore
    cases hname : x.toList with
    | nil =>
      rw [hname] at h
      revert h
      decide
    | cons c rest =>
      rw [hname] at h hx
      obtain ⟨rfl, -⟩ := List.cons.inj h
      exact hx List.mem_cons_self
end

-- ---------------------------------------------------------------------------
-- Writing and reading
-- ---------------------------------------------------------------------------

namespace FieldStorage

def encoder : FieldStorage → String
  | .direct => "coreDataValue"
  | .blob => "encodedCoreDataValue"

def decoders : FieldStorage → List String
  | .direct => ["fromCoreData", "fromOptionalCoreData"]
  | .blob => ["decodeCoreData", "decodeOptionalCoreData"]

end FieldStorage

def Decodes (e : Expr) (storage : FieldStorage) : Prop :=
  ∃ method ∈ storage.decoders, Calls e.parts method

def takesMember : Part → Bool
  | .expr (.member _ _) | .expr (.call (.member _ _) _) => true
  | _ => false

abbrev TakesNoMember (e : Expr) : Prop := e.Each fun part => takesMember part = false

theorem TakesNoMember.not_mem {e : Expr} (h : TakesNoMember e) {base : Expr} {x : String} :
    Part.expr (.member base x) ∉ e.parts := fun hmem => nomatch h _ hmem

theorem TakesNoMember.not_calls {e : Expr} (h : TakesNoMember e) {base : Expr} {x : String}
    {arguments : List Argument} : Part.expr (.call (.member base x) arguments) ∉ e.parts :=
  fun hmem => nomatch h _ hmem

theorem defaultValue_takesNoMember (default : Schema.DefaultValue) (type : Schema.PropertyType) :
    TakesNoMember (defaultValue default type) := by
  cases default with
  | int n =>
    simp only [defaultValue]
    split <;> simp [takesMember]
  | string text =>
    simp only [defaultValue]
    split <;> simp [urlValue, colorValue, takesMember]
  | _ => simp [defaultValue, takesMember]

theorem presentDefault?_takesNoMember {p : Schema.Property} {value : Expr}
    (h : presentDefault? p = some value) : TakesNoMember value := by
  obtain ⟨default, rfl⟩ := presentDefault?_eq_defaultValue h
  exact defaultValue_takesNoMember default p.type

theorem record_parts : record.parts = [.expr record] := rfl

theorem member_ne_record (base : Expr) (x : String) : Expr.member base x ≠ record := nofun

theorem call_ne_record (callee : Expr) (arguments : List Argument) :
    Expr.call callee arguments ≠ record := nofun

namespace RecordField

def attributes (f : RecordField) : List String := f.key :: f.flagKey.toList

section
variable {f : RecordField} {x : String}

theorem optionalReading_reads :
    .expr (.member record x) ∈ (f.optionalReading record).parts ↔ x = f.key := by
  unfold optionalReading
  cases f.storage <;> cases f.logsError <;> simp [record]

theorem optionalReading_decodes {s : FieldStorage} :
    Decodes (f.optionalReading record) s ↔ s = f.storage := by
  unfold optionalReading
  cases s <;> cases f.storage <;> cases f.logsError <;>
    simp [Decodes, Calls, FieldStorage.decoders, record]

theorem fallbackReading_reads {fallback : Expr} (h : TakesNoMember fallback) :
    .expr (.member record x) ∈ (f.fallbackReading fallback record).parts ↔ x = f.key := by
  unfold fallbackReading
  split
  · simp [optionalReading_reads, h.not_mem]
  · simp [record, h.not_mem]

theorem fallbackReading_decodes {fallback : Expr} (h : TakesNoMember fallback)
    {s : FieldStorage} : Decodes (f.fallbackReading fallback record) s ↔ s = f.storage := by
  unfold fallbackReading optionalReading
  cases s <;> cases f.storage <;>
    simp [Decodes, Calls, FieldStorage.decoders, record, h.not_calls]

theorem requiredReading_reads :
    .expr (.member record x) ∈ (f.requiredReading record).parts ↔ x = f.key := by
  simp [requiredReading, record]

theorem requiredReading_decodes {s : FieldStorage} :
    Decodes (f.requiredReading record) s ↔ s = f.storage := by
  unfold requiredReading
  cases s <;> cases f.storage <;> simp [Decodes, Calls, FieldStorage.decoders, record]

variable (hfallback : ∀ value, f.fallback = some value → TakesNoMember value)
include hfallback

theorem reading_reads : .expr (.member record x) ∈ (f.reading record).parts ↔ x ∈ f.attributes := by
  unfold reading attributes
  cases hf : f.flagKey with
  | some flag =>
    simp [optionalReading_reads, record_parts, member_ne_record]
  | none =>
    simp only [Option.toList_none, List.mem_singleton]
    split
    · exact optionalReading_reads
    split
    · next fallback hvalue => exact fallbackReading_reads (hfallback fallback hvalue)
    · exact requiredReading_reads

theorem reading_decodes {s : FieldStorage} : Decodes (f.reading record) s ↔ s = f.storage := by
  unfold reading
  split
  -- the flag is read beside the optional value, and decodes nothing
  · have h := optionalReading_decodes (f := f) (s := s)
    simpa [Decodes, Calls, record_parts, call_ne_record] using h
  split
  · exact optionalReading_decodes
  split
  · next fallback hvalue => exact fallbackReading_decodes (hfallback fallback hvalue)
  · exact requiredReading_decodes
end

theorem encoded_eq (f : RecordField) (value : Expr) :
    f.encoded value = (value.optionalIf f.isOptional).method f.storage.encoder [] := by
  unfold encoded
  cases f.storage <;> rfl

/-- The value that writing encodes: what a lazy one holds, or the value itself. -/
def written (f : RecordField) (v : String) : Expr := .name (if f.isLazy then "value" else v)

theorem writing_holds {f : RecordField} (h : f.flagKey.isSome = true) (v : String) :
    ∃ body, f.writing (.name v) record =
      [.branch [.binding "value" ((Expr.name v).method "value" [])] body none] := by
  obtain ⟨flag, hflag⟩ := Option.isSome_iff_exists.mp h
  exact ⟨_, by rw [writing, hflag]⟩

theorem writing_assigns {f : RecordField} {v x : String} {value : Expr} :
    Assigns (Item.partsOf (f.writing (.name v) record)) (.member record x) value ↔
      (x = f.key ∧ value = f.encoded (f.written v)) ∨ (x ∈ f.flagKey ∧ value = .bool true) := by
  unfold writing written isLazy
  cases hf : f.flagKey with
  | none =>
    cases hs : f.storage <;> cases ho : f.isOptional <;>
      simp [Assigns, assignment, record_parts, encoded, hs, ho, Expr.optionalIf]
  | some flag =>
    cases hs : f.storage <;> cases ho : f.isOptional <;>
      simp [Assigns, assignment, record_parts, encoded, hs, ho, Expr.optionalIf, eq_comm (a := x)]

theorem writing_assigns_iff {f : RecordField} {v x : String} :
    (∃ value, Assigns (Item.partsOf (f.writing (.name v) record)) (.member record x) value) ↔
      x ∈ f.attributes := by
  simp only [writing_assigns, attributes, List.mem_cons, Option.mem_toList]
  constructor
  · rintro ⟨value, ⟨hx, -⟩ | ⟨hx, -⟩⟩
    · exact .inl hx
    · exact .inr hx
  · rintro (hx | hx)
    · exact ⟨_, .inl ⟨hx, rfl⟩⟩
    · exact ⟨_, .inr ⟨hx, rfl⟩⟩

theorem writing_encodes {f : RecordField} {v : String} {s : FieldStorage} :
    Calls (Item.partsOf (f.writing (.name v) record)) s.encoder ↔ s = f.storage := by
  unfold writing
  cases s <;> cases hs : f.storage <;> cases hf : f.flagKey <;> cases ho : f.isOptional <;>
    simp [Calls, assignment, record_parts, encoded, hs, ho, Expr.optionalIf, FieldStorage.encoder,
      call_ne_record]

theorem reading_mayThrow {f : RecordField}
    (hfallback : ∀ value, f.fallback = some value → value.mayThrow = false) :
    (f.reading record).mayThrow = (!f.isOptional && !f.isLazy && f.fallback.isNone) := by
  have hrecord : record.mayThrow = false := by simp [record]
  have hoptional : (f.optionalReading record).mayThrow = false := by
    unfold optionalReading
    cases f.storage <;> cases f.logsError <;> simp [hrecord]
  unfold reading isLazy
  cases f.flagKey with
  | some flag => simp [hoptional, hrecord]
  | none =>
    cases f.isOptional with
    | true => simpa using hoptional
    | false =>
      cases hf : f.fallback with
      | some fallback =>
        have hvalue := hfallback fallback hf
        cases hs : f.storage <;> simp [fallbackReading, hs, hoptional, hvalue, hrecord]
      | none => simp [requiredReading]

-- ---------------------------------------------------------------------------
-- Both directions
-- ---------------------------------------------------------------------------

/-- Writing the property and reading it back go through the same attributes and
the same storage. -/
structure Inverse (p : Schema.Property) (f : RecordField) : Prop where
  flag : f.flagKey.isSome = p.isLazy
  writes (v x : String) :
    (∃ value, Assigns (Item.partsOf (f.writing (.name v) record)) (.member record x) value) ↔
      x ∈ f.attributes
  reads (x : String) : .expr (.member record x) ∈ (f.reading record).parts ↔ x ∈ f.attributes
  encodes (v : String) (s : FieldStorage) :
    Calls (Item.partsOf (f.writing (.name v) record)) s.encoder ↔ s = f.storage
  decodes (s : FieldStorage) : Decodes (f.reading record) s ↔ s = f.storage
  /-- What is encoded is the written value, through an optional chain exactly if it is optional. -/
  chains (v : String) (value : Expr)
    (h : Assigns (Item.partsOf (f.writing (.name v) record)) (.member record f.key) value) :
    ∃ receiver : Expr, value = receiver.method f.storage.encoder [] ∧
      receiver = (f.written v).optionalIf p.isOptional ∧
      ((∃ inner, receiver = .optionalChain inner) ↔ p.isOptional = true)
  /-- A lazy value is written only if it holds one, which is `value` then. -/
  holds (v : String) (h : p.isLazy = true) : ∃ body, f.writing (.name v) record =
    [.branch [.binding "value" ((Expr.name v).method "value" [])] body none]
  throws : (f.reading record).mayThrow = (!p.isOptional && !p.isLazy && f.fallback.isNone)

section
variable {d : Descriptions} {settings : Settings} {e : Entity} {p : Schema.Property}
  {f : RecordField}

theorem resolve_ok (h : resolve d settings e p = .ok f) :
    f.key = recordKey settings.naming (memberName p.name) ∧
      f.flagKey = (if p.isLazy then some (recordFlagKey settings.naming (memberName p.name))
        else none) ∧
      f.isOptional = p.isOptional ∧ f.fallback = presentDefault? p := by
  simp only [resolve, bind_ok, pure_ok] at h
  obtain ⟨storage, -, valueType, -, rfl⟩ := h
  exact ⟨rfl, rfl, rfl, rfl⟩

theorem mem_attributes (h : resolve d settings e p = .ok f) {x : String} :
    x ∈ f.attributes ↔ x = recordKey settings.naming (memberName p.name) ∨
      p.isLazy = true ∧ x = recordFlagKey settings.naming (memberName p.name) := by
  obtain ⟨hkey, hflag, -, -⟩ := resolve_ok h
  rw [attributes, hkey, hflag]
  cases p.isLazy <;> simp

theorem key_ne_flagKey (h : resolve d settings e p = .ok f) : f.key ∉ f.flagKey := by
  obtain ⟨hkey, hflag, -, -⟩ := resolve_ok h
  rw [hkey, hflag]
  split
  · simpa using (recordKey_ne_recordFlagKey (underscore_not_mem_memberName p.name)).symm
  · simp

theorem resolve_inverse (h : resolve d settings e p = .ok f) : f.Inverse p := by
  obtain ⟨-, hflag, hoptional, hfallback⟩ := resolve_ok h
  have hlazy : f.flagKey.isSome = p.isLazy := by
    rw [hflag]
    cases p.isLazy <;> rfl
  have hplain (value : Expr) (hv : f.fallback = some value) : TakesNoMember value := by
    rw [hfallback] at hv
    exact presentDefault?_takesNoMember hv
  refine ⟨hlazy, fun v x => writing_assigns_iff, fun x => reading_reads hplain,
    fun v s => writing_encodes, fun s => reading_decodes hplain, ?_,
    fun v h => writing_holds (hlazy.trans h) v, ?_⟩
  · intro v value hassigned
    obtain ⟨-, rfl⟩ | ⟨hkey, -⟩ := writing_assigns.mp hassigned
    · refine ⟨_, encoded_eq f _, ?_⟩
      rw [hoptional]
      cases p.isOptional <;> simp [Expr.optionalIf, written]
    -- the flag is assigned as well, but never to the attribute of the value
    · exact absurd hkey (key_ne_flagKey h)
  · rw [reading_mayThrow, hoptional, isLazy, hlazy]
    intro value hv
    rw [hfallback] at hv
    exact (presentDefault?_quiet hv).throws

theorem lastRemoteReadKey_not_mem (h : resolve d settings e p = .ok f) :
    lastRemoteReadKey settings.naming ∉ f.attributes := by
  have hname := underscore_not_mem_memberName p.name
  rw [mem_attributes h]
  rintro (hkey | ⟨-, hflag⟩)
  · exact recordKey_ne_lastRemoteReadKey hname hkey.symm
  · exact recordFlagKey_ne_lastRemoteReadKey hname hflag.symm

theorem attributes_disjoint {q : Schema.Property} {g : RecordField}
    (hf : resolve d settings e p = .ok f) (hg : resolve d settings e q = .ok g)
    (hne : memberName p.name ≠ memberName q.name) : f.attributes.Disjoint g.attributes := by
  have hp := underscore_not_mem_memberName p.name
  have hq := underscore_not_mem_memberName q.name
  intro x hxf hxg
  rw [mem_attributes hf] at hxf
  rw [mem_attributes hg] at hxg
  rcases hxf with rfl | ⟨-, rfl⟩ <;> rcases hxg with hx | ⟨-, hx⟩
  · exact hne (recordKey_injective _ hx)
  · exact recordKey_ne_recordFlagKey hp hx
  · exact recordKey_ne_recordFlagKey hq hx.symm
  · exact hne (recordFlagKey_injective _ hx)

end
end RecordField

/-- Merging an entity into a record writes the attributes of its fields, and
the time of the last read if the entity keeps it. -/
def MergesFields (settings : Settings) (e : Entity) : Prop :=
  ∀ (fields : List (Schema.Property × RecordField)) (x : String),
    (∃ value, Assigns (Item.partsOf (mergeIntoRecord settings e fields).body)
        (.member record x) value) ↔
      (∃ pf ∈ fields, x ∈ pf.2.attributes) ∨
        e.hasLastRemoteRead = true ∧ x = lastRemoteReadKey settings.naming

theorem mergeIntoRecord_assigns (settings : Settings) (e : Entity) : MergesFields settings e := by
  intro fields x
  have hbody : (mergeIntoRecord settings e fields).body =
      (if e.hasVoidIdentifier then []
        else [Item.expr ((Expr.name "identifier").method "merge" [.labelled "into" record])])
      ++ fields.flatMap (fun pf => pf.2.writing (.name (memberName pf.1.name)) record)
      ++ (if e.hasLastRemoteRead then
            [Item.assign (.member record (lastRemoteReadKey settings.naming))
              (TypeName.date.construct [])]
          else []) := rfl
  have hfields : (∃ value, Assigns (Item.partsOf (fields.flatMap fun pf =>
      pf.2.writing (.name (memberName pf.1.name)) record)) (.member record x) value) ↔
      ∃ pf ∈ fields, x ∈ pf.2.attributes := by
    clear hbody
    induction fields with
    | nil => simp [Assigns]
    | cons pf fields ih =>
      simp only [List.flatMap_cons, Assigns, Item.partsOf_append, List.mem_append, exists_or,
        List.exists_mem_cons_iff] at ih ⊢
      exact or_congr RecordField.writing_assigns_iff ih
  rw [hbody]
  simp only [Assigns, Item.partsOf_append, List.mem_append, exists_or] at hfields ⊢
  rw [hfields]
  cases e.hasVoidIdentifier <;> cases e.hasLastRemoteRead <;> simp [record_parts]

/-- Reading undoes writing, and nothing else is written where the property is kept. -/
theorem RecordField.resolve_inverse_disjoint {d : Descriptions} {settings : Settings} {e : Entity}
    {p : Schema.Property} {f : RecordField} (h : resolve d settings e p = .ok f) :
    f.Inverse p ∧ MergesFields settings e ∧ lastRemoteReadKey settings.naming ∉ f.attributes ∧
      ∀ q g, resolve d settings e q = .ok g → memberName p.name ≠ memberName q.name →
        f.attributes.Disjoint g.attributes :=
  ⟨resolve_inverse h, mergeIntoRecord_assigns settings e, lastRemoteReadKey_not_mem h,
    fun _ _ hg hne => attributes_disjoint h hg hne⟩

theorem RecordField.resolve_inverse_disjoint_lazy :
    ∃ (d : Descriptions) (settings : Settings) (e : Entity) (p : Schema.Property) (f : RecordField),
      p.isLazy = true ∧ settings.naming = .legacy ∧ resolve d settings e p = .ok f ∧
        f.Inverse p ∧ MergesFields settings e ∧ lastRemoteReadKey settings.naming ∉ f.attributes ∧
        ∀ q g, resolve d settings e q = .ok g → memberName p.name ≠ memberName q.name →
          f.attributes.Disjoint g.attributes := by
  have h : resolve { version := "1" } { naming := .legacy }
      { name := "film", identifier := { kind := .void } }
      { name := "seen_at", type := .scalar .date, isLazy := true } = .ok _ := rfl
  exact ⟨_, _, _, _, _, rfl, rfl, h, resolve_inverse_disjoint h⟩

end EntityGen.Emit
