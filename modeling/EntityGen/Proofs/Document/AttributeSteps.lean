import EntityGen.Document.Subtype
import EntityGen.Proofs.Agreement
import EntityGen.Proofs.Document.Definitions
import EntityGen.Proofs.Document.Vocabulary

/-!
# Steps through attributes

Reading an attribute makes one change to what was read so far. Which change that
is depends on the attribute alone, and changes for attributes of different names
do not interfere, so that it does not matter in which order they are made. The
type of a member is the exception: two attributes give it, and the later one counts.
-/

namespace EntityGen.Document

open Markup (Tag)
open Schema (Entity MemberType Scalar)

section
variable {f : String → String} {α : Type} {T : α → α → Prop}
  {change : String → String → Except Error (α → α)}
  {step : α → String → String → Except Error α}

def paired (step : α → String → String → Except Error α) (a : α) (x : String × String) :
    Except Error α := step a x.1 x.2

/-- A step that takes respelled values to respelled results, whatever the order of
attributes with different names. -/
structure Steady (f : String → String) (T : α → α → Prop)
    (step : α → String → String → Except Error α) : Prop where
  respelled {a a' : α} (name value : String) :
    T a a' → Agree T (step a name value) (step a' name (f value))
  ordered {x y : String × String} : x.1 ≠ y.1 → Agree.Commute Eq (paired step) x y

-- ---------------------------------------------------------------------------
-- Changes
-- ---------------------------------------------------------------------------

def Makes (change : String → String → Except Error (α → α))
    (step : α → String → String → Except Error α) : Prop :=
  ∀ a name value, step a name value = (fun g => g a) <$> change name value

def Parallel (T : α → α → Prop) (g g' : α → α) : Prop := ∀ a a', T a a' → T (g a) (g' a')

theorem Makes.respelled (hstep : Makes change step) {name value : String}
    (h : Agree (Parallel T) (change name value) (change name (f value))) {a a' : α}
    (ha : T a a') : Agree T (step a name value) (step a' name (f value)) := by
  rw [hstep, hstep]
  exact h.map fun g g' hg => hg a a' ha

theorem Makes.commute (hstep : Makes change step) {E : α → α → Prop} {x y : String × String}
    (h : ∀ g g', change x.1 x.2 = .ok g → change y.1 y.2 = .ok g' → ∀ a, E (g' (g a)) (g (g' a))) :
    Agree.Commute E (paired step) x y := by
  intro a
  simp only [paired, hstep _ _ _]
  cases hx : change x.1 x.2 with
  | error e => cases change y.1 y.2 <;> exact .error _ _
  | ok g =>
    cases hy : change y.1 y.2 with
    | error e => exact .error _ _
    | ok g' => exact .ok (h g g' hx hy a)

theorem Makes.steady (hstep : Makes change step)
    (hrespelled : ∀ name value, Agree (Parallel T) (change name value) (change name (f value)))
    (hordered : ∀ {x y : String × String}, x.1 ≠ y.1 → ∀ g g', change x.1 x.2 = .ok g →
      change y.1 y.2 = .ok g' → ∀ a, g' (g a) = g (g' a)) : Steady f T step where
  respelled name value := hstep.respelled (hrespelled name value)
  ordered hne := hstep.commute (hordered hne)

theorem parallel_id : Parallel T id id := fun _ _ h => h

theorem parallel_set {β : Type} {set : β → α → α} {x x' : Except Error β} (h : Agree Eq x x')
    (hset : ∀ b, Parallel T (set b) (set b)) : Agree (Parallel T) (set <$> x) (set <$> x') :=
  h.map fun b _ hb => hb ▸ hset b

/-- What two attributes set to places of their own may be set in any order. -/
theorem set_comm {β γ : Type} {set : β → α → α} {set' : γ → α → α} {x : Except Error β}
    {y : Except Error γ} {g g' : α → α} (hg : set <$> x = .ok g) (hg' : set' <$> y = .ok g')
    (h : ∀ b c a, set' c (set b a) = set b (set' c a)) (a : α) : g' (g a) = g (g' a) := by
  obtain ⟨b, -, rfl⟩ := map_ok.mp hg
  obtain ⟨c, -, rfl⟩ := map_ok.mp hg'
  exact h b c a

theorem accepted_agree {β : Type} {element name value value' : String} {o o' : Option β}
    (h : o' = o) : Agree Eq (accepted element name value o) (accepted element name value' o') := by
  subst h
  cases o' with
  | none => exact .error _ _
  | some b => exact .ok rfl

theorem Respelling.readBool (hf : Respelling f) (element name value : String) :
    Agree Eq (Document.readBool element name value) (Document.readBool element name (f value)) :=
  accepted_agree (hf.bool value)

-- ---------------------------------------------------------------------------
-- Steps for one attribute
-- ---------------------------------------------------------------------------

theorem steady_of_single (key : String) (read : String → Except Error α)
    (hstep : ∀ a name value, step a name value = if name = key then read value else .ok a)
    (hread : ∀ value, Agree Eq (read value) (read (f value))) : Steady f Eq step := by
  have hmakes : Makes (fun name value =>
      if name = key then (fun b _ => b) <$> read value else .ok id) step := by
    intro a name value
    by_cases hname : name = key
    · simp only [hstep, if_pos hname, Functor.map_map, id_map']
    · simp only [hstep, if_neg hname]
      rfl
  refine hmakes.steady (fun name value => ?_) fun {x y} hne g g' hg hg' a => ?_
  · split
    · exact (hread value).map fun b b' hb _ _ _ => hb
    · exact .ok parallel_id
  · -- at most one of the two names is the one that is read
    by_cases hx : x.1 = key
    · rw [if_neg fun hy => hne (hx.trans hy.symm)] at hg'
      cases hg'
      rfl
    · rw [if_neg hx] at hg
      cases hg
      rfl

end

variable {f : String → String}

-- ---------------------------------------------------------------------------
-- Properties
-- ---------------------------------------------------------------------------

def PropertyAttributes.change (name value : String) :
    Except Error (PropertyAttributes → PropertyAttributes) :=
  match name with
  | "type" =>
    (fun scalar a => { a with scalar := some scalar }) <$>
      accepted "property" name value (Scalar.ofName? value)
  | "association" =>
    (fun association a => { a with association }) <$>
      accepted "property" name value (readAssociation? value)
  | "idOnly" => (fun idOnly a => { a with idOnly }) <$> readBool "property" name value
  | "optional" => (fun isOptional a => { a with isOptional }) <$> readBool "property" name value
  | "lazy" => (fun isLazy a => { a with isLazy }) <$> readBool "property" name value
  | "array" => (fun isArray a => { a with isArray }) <$> readBool "property" name value
  | "useForEquality" =>
    (fun isUsedForEquality a => { a with isUsedForEquality }) <$> readBool "property" name value
  | "logError" => (fun logsError a => { a with logsError }) <$> readBool "property" name value
  | _ => .ok id

theorem PropertyAttributes.makes : Makes change read := by
  intro a name value
  unfold read change
  split <;> try simp only [bind_pure_comp, Functor.map_map]
  all_goals rfl

theorem PropertyAttributes.change_comm {name name' value value' : String} (hne : name ≠ name')
    {g g' : PropertyAttributes → PropertyAttributes} (hg : change name value = .ok g)
    (hg' : change name' value' = .ok g') (a : PropertyAttributes) : g' (g a) = g (g' a) := by
  unfold change at hg hg'
  -- each change sets a field of its own, whatever the others are
  split at hg <;> split at hg'
  all_goals
    first
    | exact absurd rfl hne
    | exact set_comm hg hg' (fun _ _ _ => rfl) a
    | cases hg
      rfl
    | cases hg'
      rfl

theorem PropertyAttributes.change_respelled (hf : Respelling f) (name value : String) :
    Agree (Parallel Eq) (change name value) (change name (f value)) := by
  have hset {β : Type} {set : β → PropertyAttributes → PropertyAttributes} (b : β) :
      Parallel Eq (set b) (set b) := fun _ _ => congrArg (set b)
  unfold change
  split
  · exact parallel_set (accepted_agree (hf.read_eq scalar_unreserved value)) hset
  · exact parallel_set (accepted_agree (hf.read_eq association_unreserved value)) hset
  case h_9 => exact .ok parallel_id
  all_goals exact parallel_set (hf.readBool _ _ value) hset

theorem PropertyAttributes.steady (hf : Respelling f) : Steady f Eq read :=
  makes.steady (change_respelled hf) fun hne _ _ => change_comm hne

-- ---------------------------------------------------------------------------
-- Entities
-- ---------------------------------------------------------------------------

def entityChange (name value : String) : Except Error (Entity → Entity) :=
  match name with
  | "persist" => (fun isPersisted e => { e with isPersisted }) <$> readBool "entity" name value
  | "remote" => (fun isRemote e => { e with isRemote }) <$> readBool "entity" name value
  | "mutable" => (fun isMutable e => { e with isMutable }) <$> readBool "entity" name value
  | "lastRemoteRead" =>
    (fun hasLastRemoteRead e => { e with hasLastRemoteRead }) <$> readBool "entity" name value
  | "name" => (fun name e => { e with name }) <$> .ok value
  | "queue" => (fun queue e => { e with clientQueue := some queue }) <$> .ok value
  | "legacyPreviousName" =>
    (fun previous e => { e with legacyPreviousName := some previous }) <$> .ok value
  | _ => .ok id

theorem readEntityAttribute_makes : Makes entityChange readEntityAttribute := by
  intro e name value
  unfold readEntityAttribute entityChange
  split <;> try simp only [bind_pure_comp, Functor.map_map]
  all_goals rfl

theorem entityChange_comm {name name' value value' : String} (hne : name ≠ name')
    {g g' : Entity → Entity} (hg : entityChange name value = .ok g)
    (hg' : entityChange name' value' = .ok g') (e : Entity) : g' (g e) = g (g' e) := by
  unfold entityChange at hg hg'
  split at hg <;> split at hg'
  all_goals
    first
    | exact absurd rfl hne
    | exact set_comm hg hg' (fun _ _ _ => rfl) e
    | cases hg
      rfl
    | cases hg'
      rfl

theorem entityChange_respelled (hf : Respelling f) (name value : String) :
    Agree (Parallel fun e e' => e' = e.mapTexts f) (entityChange name value)
      (entityChange name (f value)) := by
  unfold entityChange
  split
  case h_5 | h_6 | h_7 =>
    refine .ok ?_
    rintro e _ rfl
    rfl
  case h_8 => exact .ok parallel_id
  all_goals
    refine parallel_set (hf.readBool _ _ value) fun b => ?_
    rintro e _ rfl
    rfl

theorem readEntityAttribute_steady (hf : Respelling f) :
    Steady f (fun e e' => e' = e.mapTexts f) readEntityAttribute :=
  readEntityAttribute_makes.steady (entityChange_respelled hf) fun hne _ _ => entityChange_comm hne

-- ---------------------------------------------------------------------------
-- Members
-- ---------------------------------------------------------------------------

structure MemberAttributes.Alike (P : MemberType → MemberType → Prop)
    (a a' : MemberAttributes) : Prop where
  type : Option.Rel P a.type a'.type
  isOptional : a'.isOptional = a.isOptional
  isArray : a'.isArray = a.isArray

def MemberAttributes.change (name value : String) :
    Except Error (MemberAttributes → MemberAttributes) :=
  match name with
  | "type" =>
    (fun scalar a => { a with type := some (.scalar scalar) }) <$>
      accepted "property" "type" value (Scalar.ofName? value)
  | "subtype" => (fun subtype a => { a with type := some (.subtype subtype) }) <$> .ok value
  | "optional" =>
    (fun isOptional a => { a with isOptional }) <$> readBool "property" "optional" value
  | "array" => (fun isArray a => { a with isArray }) <$> readBool "property" "array" value
  | _ => .ok id

theorem MemberAttributes.makes : Makes change read := by
  intro a name value
  unfold read change
  split <;> try simp only [bind_pure_comp, Functor.map_map]
  all_goals rfl

theorem MemberAttributes.change_respelled (hf : Respelling f) (name value : String) :
    Agree (Parallel (Alike fun type type' => type' = type.mapTexts f)) (change name value)
      (change name (f value)) := by
  unfold change
  split
  · refine parallel_set (accepted_agree (hf.read_eq scalar_unreserved value)) fun scalar => ?_
    exact fun a a' ha => ⟨.some rfl, ha.isOptional, ha.isArray⟩
  · exact .ok fun a a' ha => ⟨.some rfl, ha.isOptional, ha.isArray⟩
  · exact parallel_set (hf.readBool _ _ value) fun _ a a' ha => ⟨ha.type, rfl, ha.isArray⟩
  · exact parallel_set (hf.readBool _ _ value) fun _ a a' ha => ⟨ha.type, ha.isOptional, rfl⟩
  · exact .ok parallel_id

def GivesType (name : String) : Prop := name = "type" ∨ name = "subtype"

theorem MemberAttributes.change_comm {name name' value value' : String} (hne : name ≠ name')
    (htype : ¬(GivesType name ∧ GivesType name')) {g g' : MemberAttributes → MemberAttributes}
    (hg : change name value = .ok g) (hg' : change name' value' = .ok g')
    (a : MemberAttributes) : g' (g a) = g (g' a) := by
  unfold change at hg hg'
  split at hg <;> split at hg'
  all_goals
    first
    | exact absurd rfl hne
    | exact absurd ⟨.inl rfl, .inr rfl⟩ htype
    | exact absurd ⟨.inr rfl, .inl rfl⟩ htype
    | exact set_comm hg hg' (fun _ _ _ => rfl) a
    | cases hg
      rfl
    | cases hg'
      rfl

def MemberAttributes.untyped (a : MemberAttributes) : Bool × Bool × Bool :=
  (a.type.isSome, a.isOptional, a.isArray)

theorem MemberAttributes.change_untyped {name value : String}
    {g : MemberAttributes → MemberAttributes} (hg : change name value = .ok g) :
    Parallel (fun a a' => a.untyped = a'.untyped) g g := by
  intro a a' ha
  obtain ⟨htype, hoptional, harray⟩ : a.type.isSome = a'.type.isSome ∧
      a.isOptional = a'.isOptional ∧ a.isArray = a'.isArray := by simpa [untyped] using ha
  unfold change at hg
  split at hg
  case h_5 =>
    cases hg
    exact ha
  all_goals
    obtain ⟨_, -, rfl⟩ := map_ok.mp hg
    simp [untyped, htype, hoptional, harray]

/-- Whichever of two attributes for the type comes later, there is a type. -/
theorem MemberAttributes.change_comm_untyped {name name' value value' : String}
    (htype : GivesType name) (htype' : GivesType name') {g g' : MemberAttributes → MemberAttributes}
    (hg : change name value = .ok g) (hg' : change name' value' = .ok g')
    (a : MemberAttributes) : (g' (g a)).untyped = (g (g' a)).untyped := by
  rcases htype with rfl | rfl <;> rcases htype' with rfl | rfl
  all_goals
    obtain ⟨_, -, rfl⟩ := map_ok.mp hg
    obtain ⟨_, -, rfl⟩ := map_ok.mp hg'
    rfl

def Gives (attributes : List (String × String)) : MemberType → Prop
  | .scalar scalar => ∃ value, ("type", value) ∈ attributes ∧ Scalar.ofName? value = some scalar
  | .subtype name => ("subtype", name) ∈ attributes

theorem Gives.mono {attributes attributes' : List (String × String)} {type : MemberType}
    (h : Gives attributes type) (hsub : attributes ⊆ attributes') : Gives attributes' type := by
  cases type with
  | scalar scalar =>
    obtain ⟨value, hvalue, hscalar⟩ := h
    exact ⟨value, hsub hvalue, hscalar⟩
  | subtype name => exact hsub h

theorem MemberAttributes.read_gives {tag : Tag} {a : MemberAttributes}
    (h : foldAttributes tag {} MemberAttributes.read = .ok a) :
    ∀ type ∈ a.type, Gives tag.attributes type := by
  refine foldlM_traces (P := fun done (a : MemberAttributes) => ∀ type ∈ a.type, Gives done type)
    ?_ (by simp) h
  rintro done a ⟨name, value⟩ b ha hread
  have hbefore : ∀ type ∈ a.type, Gives (done ++ [(name, value)]) type :=
    fun type htype => (ha type htype).mono (List.subset_append_left done _)
  dsimp only at hread
  unfold MemberAttributes.read at hread
  split at hread
  · obtain ⟨scalar, hscalar, hread⟩ := bind_ok.mp hread
    obtain rfl := pure_ok.mp hread
    rintro _ ⟨⟩
    exact ⟨value, by simp, accepted_ok.mp hscalar⟩
  · cases hread
    rintro _ ⟨⟩
    exact List.mem_append_right done List.mem_cons_self
  · obtain ⟨_, -, hread⟩ := bind_ok.mp hread
    obtain rfl := pure_ok.mp hread
    exact hbefore
  · obtain ⟨_, -, hread⟩ := bind_ok.mp hread
    obtain rfl := pure_ok.mp hread
    exact hbefore
  · cases hread
    exact hbefore

end EntityGen.Document
