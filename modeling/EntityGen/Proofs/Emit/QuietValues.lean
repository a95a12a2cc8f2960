import EntityGen.Emit.FactoryFile
import EntityGen.Proofs.Code.Effects
import EntityGen.Proofs.Results

/-!
# Values that neither throw nor wait

Defaults, samples, index values and the values taken out of payloads are plain
expressions.
-/

namespace EntityGen.Emit

open Code
open Schema (Descriptions Entity Member PropertyType Scalar Subtype)

attribute [local simp] Part.EffectsExact

-- ---------------------------------------------------------------------------
-- Defaults
-- ---------------------------------------------------------------------------

theorem urlValue_quiet (text : String) : (urlValue text).Quiet := by
  constructor <;> simp [urlValue]

theorem colorValue_quiet (text : String) : (colorValue text).Quiet := by
  constructor <;> simp [colorValue]

theorem defaultValue_quiet (default : Schema.DefaultValue) (type : PropertyType) :
    (defaultValue default type).Quiet := by
  cases default with
  | int n =>
    simp only [defaultValue]
    split <;> constructor <;> simp
  | string text =>
    simp only [defaultValue]
    split
    · exact urlValue_quiet text
    · exact colorValue_quiet text
    · constructor <;> simp
  | _ => constructor <;> simp [defaultValue]

theorem presentDefault?_eq_defaultValue {p : Schema.Property} {value : Expr}
    (h : presentDefault? p = some value) : ∃ default, value = defaultValue default p.type := by
  simp only [presentDefault?, propertyDefault?, Option.filter_eq_some_iff,
    Option.map_eq_some_iff] at h
  obtain ⟨⟨default, -, rfl⟩, -⟩ := h
  exact ⟨default, rfl⟩

theorem presentDefault?_quiet {p : Schema.Property} {value : Expr}
    (h : presentDefault? p = some value) : value.Quiet := by
  obtain ⟨default, rfl⟩ := presentDefault?_eq_defaultValue h
  exact defaultValue_quiet default p.type

-- ---------------------------------------------------------------------------
-- Payloads
-- ---------------------------------------------------------------------------

theorem payloadValue_quiet (p : Schema.Property) {field : Expr} (h : field.Quiet) :
    (payloadValue p field).Quiet := by
  unfold payloadValue
  split
  · exact h
  · next r hr =>
    split
    · exact h
    · cases r.association <;> cases p.isOptional <;> cases p.isLazy <;> constructor <;>
        simp [embeddedIdentifiers, Expr.optionalIf, h.throws, h.awaits, h.parts]

-- ---------------------------------------------------------------------------
-- Index values
-- ---------------------------------------------------------------------------

theorem wrapped_quiet (case : String) {value : Expr} (h : value.Quiet) :
    (wrapped case value).Quiet := by
  constructor <;> simp [wrapped, h.throws, h.awaits, h.parts]

section
variable {d : Descriptions} {e : Entity} {p : Schema.Property} {value result : Expr}

theorem elementIndexValue_quiet (h : elementIndexValue d e p value = .ok result)
    (hv : value.Quiet) : result.Quiet := by
  unfold elementIndexValue at h
  split at h
  · rw [pure_ok] at h
    exact h ▸ wrapped_quiet _ hv
  · simp only [bind_ok, pure_ok] at h
    obtain ⟨subtype, -, rfl⟩ := h
    exact wrapped_quiet _ (wrapped_quiet _ hv)
  · simp only [bind_ok, pure_ok] at h
    obtain ⟨target, -, rfl⟩ := h
    exact wrapped_quiet _ (wrapped_quiet _ hv)

theorem collectionIndexValue_quiet (h : collectionIndexValue d e p value = .ok result)
    (hv : value.Quiet) : result.Quiet := by
  unfold collectionIndexValue at h
  split at h
  · simp only [bind_ok, pure_ok] at h
    obtain ⟨element, helement, rfl⟩ := h
    have he : element.Quiet :=
      elementIndexValue_quiet helement (by constructor <;> simp)
    apply wrapped_quiet
    constructor <;> simp [hv.throws, hv.awaits, hv.parts, he.parts]
  · exact elementIndexValue_quiet h hv

theorem indexValue_quiet (h : indexValue d e p value = .ok result) (hv : value.Quiet) :
    result.Quiet := by
  simp only [indexValue, bind_ok] at h
  obtain ⟨projected, hprojected, h⟩ := h
  have hp : projected.Quiet :=
    collectionIndexValue_quiet hprojected (by constructor <;> simp)
  split at h
  · rw [pure_ok] at h
    subst h
    apply wrapped_quiet
    cases p.isOptional <;> constructor <;> simp [hv.throws, hv.awaits, hv.parts, hp.parts]
  · split at h
    · rw [pure_ok] at h
      subst h
      apply wrapped_quiet
      constructor <;> simp [hv.throws, hv.awaits, hv.parts, hp.parts]
    · exact collectionIndexValue_quiet h hv

end

-- ---------------------------------------------------------------------------
-- Samples
-- ---------------------------------------------------------------------------

theorem emptySequence_quiet : emptySequence.Quiet := by
  constructor <;> simp [emptySequence]

theorem sampleIdentifier_quiet (e : Entity) : (sampleIdentifier e).Quiet := by
  unfold sampleIdentifier
  split <;> constructor <;> simp [remoteValue]

theorem sampleScalar_quiet (scalar : Scalar) (name : String) :
    (sampleScalar scalar name).Quiet := by
  cases scalar with
  | url => exact urlValue_quiet _
  | color => exact colorValue_quiet _
  | _ => constructor <;> simp [sampleScalar]

theorem firstUsedCase_quiet {s : Subtype} {result : Expr} (h : firstUsedCase s = .ok result) :
    result.Quiet := by
  unfold firstUsedCase at h
  split at h
  · split at h
    · cases h
      constructor <;> simp
    · cases h
  · cases h

theorem sampleMember_quiet {d : Descriptions} {s : Subtype} {nested : Subtype → Except Error Expr}
    {m : Member} {a : Argument} (hnested : ∀ t e, nested t = .ok e → e.Quiet)
    (h : sampleMember d s nested m = .ok a) : a.value.Quiet := by
  simp only [sampleMember, bind_ok] at h
  obtain ⟨-, -, h⟩ := h
  split at h
  · cases h
    constructor <;> simp
  · split at h
    · cases h
      exact emptySequence_quiet
    · split at h
      · cases h
        exact sampleScalar_quiet _ _
      · simp only [bind_ok, pure_ok] at h
        obtain ⟨t, -, value, hvalue, rfl⟩ := h
        exact hnested t value hvalue

theorem sampleSubtype_quiet {d : Descriptions} {depth : Nat} {s : Subtype} {result : Expr}
    (h : sampleSubtype d depth s = .ok result) : result.Quiet := by
  induction depth generalizing s result with
  | zero =>
    unfold sampleSubtype at h
    split at h
    · exact firstUsedCase_quiet h
    · cases h
      constructor <;> simp
    · cases h
  | succ depth ih =>
    unfold sampleSubtype at h
    split at h
    · exact firstUsedCase_quiet h
    · cases h
      constructor <;> simp
    · next members hmembers =>
      simp only [bind_ok, pure_ok] at h
      obtain ⟨arguments, ha, rfl⟩ := h
      have hq : ∀ a ∈ arguments, a.value.Quiet :=
        forall_mem_of_mapM_ok ha fun m _ a h => sampleMember_quiet (fun t e => ih) h
      constructor
      · simpa using fun a ha => (hq a ha).throws
      · simpa using fun a ha => (hq a ha).awaits
      · simpa using fun a ha => (hq a ha).parts

theorem sampleProperty_quiet {d : Descriptions} {e : Entity} {p : Schema.Property} {result : Expr}
    (h : sampleProperty d e p = .ok result) : result.Quiet := by
  simp only [sampleProperty] at h
  split at h
  · cases h
    constructor <;> simp
  split at h
  · next default hd =>
    cases h
    exact presentDefault?_quiet hd
  split at h
  · cases h
    constructor <;> simp
  split at h
  · cases h
    exact emptySequence_quiet
  split at h
  · cases h
    exact sampleScalar_quiet _ _
  · simp only [bind_ok] at h
    obtain ⟨s, -, h⟩ := h
    exact sampleSubtype_quiet h
  · simp only [bind_ok, pure_ok] at h
    obtain ⟨target, -, rfl⟩ := h
    exact sampleIdentifier_quiet target

end EntityGen.Emit
