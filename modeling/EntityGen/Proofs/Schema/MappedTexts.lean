import EntityGen.Proofs.Schema.Expressible

/-!
# Descriptions with other texts

All texts of a definition can be put through one function. The definition stays
the same exactly if each of its texts does. Descriptions are alike if one has the
texts of the other put through the function, while the types of members correspond
in some way of their own.
-/

namespace EntityGen.Schema

variable {f : String → String}

theorem map_eq_self_of_fixed {α : Type} {g : α → α} {xs : List α} (h : ∀ x ∈ xs, g x = x) :
    xs.map g = xs :=
  (List.map_congr_left h).trans (List.map_id xs)

-- ---------------------------------------------------------------------------
-- Subtypes
-- ---------------------------------------------------------------------------

def Choice.mapTexts (f : String → String) (c : Choice) : Choice := { c with name := f c.name }

def MemberType.mapTexts (f : String → String) : MemberType → MemberType
  | .scalar value => .scalar value
  | .subtype name => .subtype (f name)

def Member.mapTexts (f : String → String) (m : Member) : Member :=
  { m with name := f m.name, type := m.type.mapTexts f, key := f m.key }

def SubtypeItems.mapTexts (f : String → String) : SubtypeItems → SubtypeItems
  | .cases choices => .cases (choices.map (Choice.mapTexts f))
  | .options choices => .options (choices.map (Choice.mapTexts f))
  | .members values => .members (values.map (Member.mapTexts f))

def Subtype.mapTexts (f : String → String) (s : Subtype) : Subtype :=
  { name := f s.name, items := s.items.mapTexts f }

theorem Member.texts_mapTexts (m : Member) : (m.mapTexts f).texts = m.texts.map f := by
  obtain ⟨name, type, key, isOptional, isArray⟩ := m
  cases type <;> rfl

theorem Subtype.texts_mapTexts (s : Subtype) : (s.mapTexts f).texts = s.texts.map f := by
  obtain ⟨name, items⟩ := s
  cases items with
  | cases choices => simp [texts, mapTexts, SubtypeItems.texts, SubtypeItems.mapTexts, Choice.mapTexts]
  | options choices =>
    simp [texts, mapTexts, SubtypeItems.texts, SubtypeItems.mapTexts, Choice.mapTexts]
  | members values =>
    simp [texts, mapTexts, SubtypeItems.texts, SubtypeItems.mapTexts, List.flatMap_map,
      List.map_flatMap, Member.texts_mapTexts]

theorem Choice.mapTexts_of_fixed {c : Choice} (h : f c.name = c.name) : c.mapTexts f = c := by
  rw [mapTexts, h]

theorem Member.mapTexts_of_fixed {m : Member} (h : ∀ text ∈ m.texts, f text = text) :
    m.mapTexts f = m := by
  obtain ⟨name, type, key, isOptional, isArray⟩ := m
  cases type <;> simp_all [texts, mapTexts, MemberType.texts, MemberType.mapTexts]

theorem Subtype.mapTexts_of_fixed {s : Subtype} (h : ∀ text ∈ s.texts, f text = text) :
    s.mapTexts f = s := by
  obtain ⟨name, items⟩ := s
  obtain ⟨hname, hitems⟩ := List.forall_mem_cons.mp h
  rw [mapTexts, hname]
  cases items with
  | cases choices =>
    rw [SubtypeItems.texts, List.forall_mem_map] at hitems
    rw [SubtypeItems.mapTexts,
      map_eq_self_of_fixed fun c hc => Choice.mapTexts_of_fixed (hitems c hc)]
  | options choices =>
    rw [SubtypeItems.texts, List.forall_mem_map] at hitems
    rw [SubtypeItems.mapTexts,
      map_eq_self_of_fixed fun c hc => Choice.mapTexts_of_fixed (hitems c hc)]
  | members values =>
    rw [SubtypeItems.texts, List.forall_mem_flatMap] at hitems
    rw [SubtypeItems.mapTexts,
      map_eq_self_of_fixed fun m hm => Member.mapTexts_of_fixed (hitems m hm)]

-- ---------------------------------------------------------------------------
-- Entities
-- ---------------------------------------------------------------------------

def Contributor.mapTexts (f : String → String) (c : Contributor) : Contributor :=
  { variableName := f c.variableName, entityName := f c.entityName }

def IdentifierKind.mapTexts (f : String → String) : IdentifierKind → IdentifierKind
  | .void => .void
  | .scalar value => .scalar value
  | .relationships value contributors =>
    .relationships value (contributors.map (Contributor.mapTexts f))

def Identifier.mapTexts (f : String → String) (i : Identifier) : Identifier :=
  { kind := i.kind.mapTexts f, key := f i.key, equivalent := i.equivalent.map f }

def PropertyType.mapTexts (f : String → String) : PropertyType → PropertyType
  | .scalar value => .scalar value
  | .subtype name => .subtype (f name)
  | .relationship r => .relationship { r with entityName := f r.entityName }

def DefaultValue.mapTexts (f : String → String) : DefaultValue → DefaultValue
  | .string text => .string (f text)
  | .enumCase name => .enumCase (f name)
  | default => default

def Property.mapTexts (f : String → String) (p : Property) : Property :=
  { p with
    name := f p.name, type := p.type.mapTexts f, key := f p.key
    default := p.default.map (DefaultValue.mapTexts f) }

def Entity.mapTexts (f : String → String) (e : Entity) : Entity :=
  { e with
    name := f e.name, identifier := e.identifier.mapTexts f, clientQueue := e.clientQueue.map f
    properties := e.properties.map (Property.mapTexts f)
    legacyPreviousName := e.legacyPreviousName.map f }

theorem Identifier.texts_mapTexts (i : Identifier) : (i.mapTexts f).texts = i.texts.map f := by
  obtain ⟨kind, key, equivalent⟩ := i
  cases kind <;> cases equivalent <;>
    simp [texts, mapTexts, contributors, IdentifierKind.mapTexts, List.flatMap_map,
      List.map_flatMap, Contributor.texts, Contributor.mapTexts]

theorem Property.texts_mapTexts (p : Property) : (p.mapTexts f).texts = p.texts.map f := by
  obtain ⟨name, type, key, isArray, isOptional, isLazy, default, isUsedForEquality, logsError⟩ := p
  cases type <;> cases default with
  | none => rfl
  | some default => cases default <;> rfl

theorem Entity.texts_mapTexts (e : Entity) : (e.mapTexts f).texts = e.texts.map f := by
  obtain ⟨name, identifier, isPersisted, isRemote, isMutable, clientQueue, properties,
    hasLastRemoteRead, legacyPreviousName⟩ := e
  cases clientQueue <;> cases legacyPreviousName <;>
    simp [texts, mapTexts, Identifier.texts_mapTexts, List.flatMap_map, List.map_flatMap,
      Property.texts_mapTexts]

theorem map_eq_self_of_toList {value : Option String} (h : ∀ text ∈ value.toList, f text = text) :
    value.map f = value := by
  cases value with
  | none => rfl
  | some text => exact congrArg some (h text List.mem_cons_self)

theorem Contributor.mapTexts_of_fixed {c : Contributor} (h : ∀ text ∈ c.texts, f text = text) :
    c.mapTexts f = c := by
  simp only [texts, List.forall_mem_cons] at h
  rw [mapTexts, h.1, h.2.1]

theorem Identifier.mapTexts_of_fixed {i : Identifier} (h : ∀ text ∈ i.texts, f text = text) :
    i.mapTexts f = i := by
  obtain ⟨kind, key, equivalent⟩ := i
  simp only [texts, List.cons_append, List.forall_mem_cons, List.forall_mem_append,
    List.forall_mem_flatMap] at h
  obtain ⟨hkey, hequivalent, hcontributors⟩ := h
  rw [mapTexts, hkey, map_eq_self_of_toList hequivalent]
  cases kind with
  | void | scalar => rfl
  | relationships value contributors =>
    have hsame : contributors.map (Contributor.mapTexts f) = contributors :=
      map_eq_self_of_fixed fun c hc => Contributor.mapTexts_of_fixed (hcontributors c hc)
    rw [IdentifierKind.mapTexts, hsame]

theorem PropertyType.mapTexts_of_fixed {type : PropertyType}
    (h : ∀ text ∈ type.texts, f text = text) : type.mapTexts f = type := by
  cases type <;> simp_all [texts, mapTexts]

theorem DefaultValue.mapTexts_of_fixed {default : DefaultValue}
    (h : ∀ text ∈ default.texts, f text = text) : default.mapTexts f = default := by
  cases default <;> simp_all [texts, mapTexts]

theorem Property.mapTexts_of_fixed {p : Property} (h : ∀ text ∈ p.texts, f text = text) :
    p.mapTexts f = p := by
  obtain ⟨name, type, key, isArray, isOptional, isLazy, default, isUsedForEquality, logsError⟩ := p
  simp only [texts, List.forall_mem_append, List.forall_mem_cons, List.forall_mem_flatMap] at h
  obtain ⟨⟨⟨hname, hkey, -⟩, htype⟩, hdefault⟩ := h
  rw [mapTexts, hname, hkey, PropertyType.mapTexts_of_fixed htype]
  cases default with
  | none => rfl
  | some default =>
    rw [Option.map_some,
      DefaultValue.mapTexts_of_fixed (hdefault default (Option.mem_toList.mpr rfl))]

theorem Entity.mapTexts_of_fixed {e : Entity} (h : ∀ text ∈ e.texts, f text = text) :
    e.mapTexts f = e := by
  simp only [texts, List.cons_append, List.forall_mem_append, List.forall_mem_cons,
    List.forall_mem_flatMap] at h
  obtain ⟨hname, ⟨⟨hqueue, hlegacy⟩, hidentifier⟩, hproperties⟩ := h
  rw [mapTexts, hname, map_eq_self_of_toList hqueue, map_eq_self_of_toList hlegacy,
    Identifier.mapTexts_of_fixed hidentifier,
    map_eq_self_of_fixed fun p hp => Property.mapTexts_of_fixed (hproperties p hp)]

-- ---------------------------------------------------------------------------
-- Endpoints
-- ---------------------------------------------------------------------------

def EndpointPayload.mapTexts (f : String → String) (p : EndpointPayload) : EndpointPayload :=
  { p with
    entityName := f p.entityName, entityKey := p.entityKey.map f, baseKey := p.baseKey.map f }

def Endpoint.mapTexts (f : String → String) (e : Endpoint) : Endpoint :=
  { name := f e.name, read := e.read.map (EndpointPayload.mapTexts f)
    write := e.write.map (EndpointPayload.mapTexts f) }

theorem EndpointPayload.texts_mapTexts (p : EndpointPayload) :
    (p.mapTexts f).texts = p.texts.map f := by
  obtain ⟨entityName, entityKey, layout, baseKey⟩ := p
  cases entityKey <;> simp [texts, mapTexts]

theorem Endpoint.texts_mapTexts (e : Endpoint) : (e.mapTexts f).texts = e.texts.map f := by
  obtain ⟨name, read, write⟩ := e
  cases read <;> cases write <;>
    simp [texts, mapTexts, payloads, EndpointPayload.texts_mapTexts]

theorem EndpointPayload.mapTexts_of_fixed {p : EndpointPayload}
    (h : ∀ text ∈ p.texts, f text = text) : p.mapTexts f = p := by
  simp only [texts, List.cons_append, List.forall_mem_cons, List.forall_mem_append] at h
  obtain ⟨hentity, hkey, hkeys⟩ := h
  rw [mapTexts, hentity, map_eq_self_of_toList hkey, map_eq_self_of_fixed hkeys]

theorem Endpoint.mapTexts_of_fixed {e : Endpoint} (h : ∀ text ∈ e.texts, f text = text) :
    e.mapTexts f = e := by
  obtain ⟨name, read, write⟩ := e
  simp only [texts, payloads, List.forall_mem_cons, List.forall_mem_flatMap,
    List.forall_mem_append, Option.mem_toList] at h
  obtain ⟨hname, hread, hwrite⟩ := h
  have hpayload {payload : Option EndpointPayload}
      (hfixed : ∀ p, payload = some p → ∀ text ∈ p.texts, f text = text) :
      payload.map (EndpointPayload.mapTexts f) = payload := by
    cases payload with
    | none => rfl
    | some p => exact congrArg some (EndpointPayload.mapTexts_of_fixed (hfixed p rfl))
  rw [mapTexts, hname, hpayload hread, hpayload hwrite]

-- ---------------------------------------------------------------------------
-- Descriptions
-- ---------------------------------------------------------------------------

def Descriptions.mapTexts (f : String → String) (d : Descriptions) : Descriptions :=
  { version := f d.version
    versionHistory := d.versionHistory.map f
    entities := d.entities.map (Entity.mapTexts f)
    subtypes := d.subtypes.map (Subtype.mapTexts f)
    endpoints := d.endpoints.map (Endpoint.mapTexts f) }

theorem Descriptions.texts_mapTexts (d : Descriptions) : (d.mapTexts f).texts = d.texts.map f := by
  simp [texts, mapTexts, List.flatMap_map, List.map_flatMap, Subtype.texts_mapTexts,
    Entity.texts_mapTexts, Endpoint.texts_mapTexts]

theorem Descriptions.mapTexts_of_fixed {d : Descriptions} (h : ∀ text ∈ d.texts, f text = text) :
    d.mapTexts f = d := by
  simp only [texts, List.cons_append, List.forall_mem_append, List.forall_mem_cons,
    List.forall_mem_flatMap] at h
  obtain ⟨hversion, ⟨⟨hversions, hsubtypes⟩, hentities⟩, hendpoints⟩ := h
  rw [mapTexts, hversion, map_eq_self_of_fixed hversions,
    map_eq_self_of_fixed fun s hs => Subtype.mapTexts_of_fixed (hsubtypes s hs),
    map_eq_self_of_fixed fun e he => Entity.mapTexts_of_fixed (hentities e he),
    map_eq_self_of_fixed fun e he => Endpoint.mapTexts_of_fixed (hendpoints e he)]

theorem Descriptions.mapTexts_eq_self_iff {d : Descriptions} :
    d.mapTexts f = d ↔ ∀ text ∈ d.texts, f text = text := by
  refine ⟨fun h => ?_, mapTexts_of_fixed⟩
  have htexts : d.texts.map f = d.texts.map id := by
    rw [← texts_mapTexts, h, List.map_id]
  exact List.map_inj_left.mp htexts

-- ---------------------------------------------------------------------------
-- Likeness
-- ---------------------------------------------------------------------------

section
variable {P : MemberType → MemberType → Prop}

structure Member.Alike (f : String → String) (P : MemberType → MemberType → Prop)
    (m m' : Member) : Prop where
  name : m'.name = f m.name
  type : P m.type m'.type
  key : m'.key = f m.key
  isOptional : m'.isOptional = m.isOptional
  isArray : m'.isArray = m.isArray

inductive SubtypeItems.Alike (f : String → String) (P : MemberType → MemberType → Prop) :
    SubtypeItems → SubtypeItems → Prop
  | cases (choices : List Choice) :
    Alike f P (.cases choices) (.cases (choices.map (Choice.mapTexts f)))
  | options (choices : List Choice) :
    Alike f P (.options choices) (.options (choices.map (Choice.mapTexts f)))
  | members {values values' : List Member} : List.Forall₂ (Member.Alike f P) values values' →
    Alike f P (.members values) (.members values')

structure Subtype.Alike (f : String → String) (P : MemberType → MemberType → Prop)
    (s s' : Subtype) : Prop where
  name : s'.name = f s.name
  items : s.items.Alike f P s'.items

structure Descriptions.Alike (f : String → String) (P : MemberType → MemberType → Prop)
    (d d' : Descriptions) : Prop where
  version : d'.version = f d.version
  versionHistory : d'.versionHistory = d.versionHistory.map f
  entities : d'.entities = d.entities.map (Entity.mapTexts f)
  subtypes : List.Forall₂ (Subtype.Alike f P) d.subtypes d'.subtypes
  endpoints : d'.endpoints = d.endpoints.map (Endpoint.mapTexts f)

theorem eq_map_of_forall₂ {α : Type} {R : α → α → Prop} {g : α → α}
    (hR : ∀ x y, R x y → y = g x) {xs ys : List α} (h : List.Forall₂ R xs ys) :
    ys = xs.map g := by
  induction h with
  | nil => rfl
  | cons hxy _ ih => rw [hR _ _ hxy, ih, List.map_cons]

theorem Member.Alike.eq_mapTexts (hP : ∀ type type', P type type' → type' = type.mapTexts f)
    {m m' : Member} (h : m.Alike f P m') : m' = m.mapTexts f := by
  obtain ⟨name, type, key, isOptional, isArray⟩ := m'
  obtain ⟨hname, htype, hkey, hoptional, harray⟩ := h
  dsimp only at hname htype hkey hoptional harray
  rw [hname, hP _ _ htype, hkey, hoptional, harray]
  rfl

theorem Subtype.Alike.eq_mapTexts (hP : ∀ type type', P type type' → type' = type.mapTexts f)
    {s s' : Subtype} (h : s.Alike f P s') : s' = s.mapTexts f := by
  obtain ⟨name, items⟩ := s
  obtain ⟨name', items'⟩ := s'
  obtain ⟨rfl, hitems⟩ := h
  dsimp only at hitems
  cases hitems with
  | cases choices => rfl
  | options choices => rfl
  | members hvalues =>
    rw [eq_map_of_forall₂ (g := Member.mapTexts f) (fun _ _ hm => hm.eq_mapTexts hP) hvalues]
    rfl

theorem Subtype.names_of_alike {ss ss' : List Subtype}
    (h : List.Forall₂ (Subtype.Alike f P) ss ss') :
    ss'.map (·.name) = (ss.map (·.name)).map f := by
  induction h with
  | nil => rfl
  | cons hs _ ih => simp [hs.name, ih]

/-- If the types of members have their texts put through the function as well, all
texts have. -/
theorem Descriptions.Alike.eq_mapTexts
    (hP : ∀ type type', P type type' → type' = type.mapTexts f) {d d' : Descriptions}
    (h : d.Alike f P d') : d' = d.mapTexts f := by
  obtain ⟨version, versionHistory, entities, subtypes, endpoints⟩ := d'
  obtain ⟨hversion, hversions, hentities, hsubtypes, hendpoints⟩ := h
  dsimp only at hversion hversions hentities hsubtypes hendpoints
  rw [hversion, hversions, hentities, hendpoints,
    eq_map_of_forall₂ (g := Subtype.mapTexts f) (fun _ _ hs => hs.eq_mapTexts hP) hsubtypes]
  rfl

end

end EntityGen.Schema
