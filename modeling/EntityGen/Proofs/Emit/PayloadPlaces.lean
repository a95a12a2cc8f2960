import EntityGen.Proofs.Emit.WireKeys

/-!
# Places of payloads

A payload has a place if its keys are few enough, and the keys of the place are
those that were declared. The emitted decoder opens a container for each key,
outermost first, and gives its field what it decodes last, at the declared place.
-/

namespace EntityGen.Emit

open Code
open Schema (Descriptions Endpoint EndpointPayload Entity)

-- ---------------------------------------------------------------------------
-- Decoders
-- ---------------------------------------------------------------------------

/-- From a value to one that it holds at a key, or to each element of a list. -/
inductive Step where
  | key (key : String)
  | each
  deriving DecidableEq

/-- A value that is decoded as a type. The steps lead to it from the response. -/
structure Reading where
  type : TypeName
  steps : List Step
  deriving DecidableEq

/-- What a name stands for in a decoder. The keys of a container are the cases of an
enumeration with their raw values. -/
inductive Found where
  | decoder (steps : List Step)
  | keyed (cases : List (String × String)) (steps : List Step)
  | single (steps : List Step)
  | value (reading : Reading)
  /-- A list of values that have a decoder of their own, with the fields of each element. -/
  | elements (fields : List (String × Reading))

/-- What decoders do, each list in the order of the calls. -/
structure Decoding where
  /-- The keys of the containers that are opened. -/
  opened : List (List (String × String)) := []
  /-- The keys that calls name, with those of their containers. -/
  named : List (String × List (String × String)) := []
  decoded : List Reading := []
  /-- The fields that are assigned. -/
  fields : List (String × Reading) := []

def nestedTypes (t : TypeDecl) : List TypeDecl := t.body.filterMap Item.type?

def codingCases? (t : TypeDecl) (keys : TypeName) : Option (List (String × String)) := do
  let found ← (nestedTypes t).find? fun nested =>
    nested.inherited == [.string, { name := "CodingKey" }] && nested.name.metatype == keys
  return found.body.filterMap rawCase?

/-- The struct inside of a type that is the element of a list. -/
def elementStruct? (t : TypeDecl) (list : TypeName) : Option TypeDecl :=
  (nestedTypes t).find? fun nested =>
    nested.kind == .structType && nested.name.array.metatype == list

namespace Decoding

/-- Takes the step that a call names into a container. Nothing, if the container has no such key. -/
def into? (n : Decoding) : Found → List Argument → Option (Decoding × List Step)
  | .keyed cases steps, [argument] => do
    let name ← keyOf? argument
    return ({ n with named := n.named ++ [(name, cases)] }, steps ++ [.key (← cases.lookup name)])
  | .single steps, [] => some (n, steps)
  | _, _ => none

section
-- How a type inside decodes what the steps lead to.
variable (inner : TypeDecl → List Step → Option Decoding) (t : TypeDecl)

/-- A list of structs runs the decoder of each. -/
def decode? (n : Decoding) (type : TypeName) (steps : List Step) : Option (Decoding × Found) :=
  let reading := { type := { type with isMetatype := false }, steps }
  match elementStruct? t type with
  | none => some ({ n with decoded := n.decoded ++ [reading] }, .value reading)
  | some element => do
    let m ← inner element (steps ++ [.each])
    return ({ opened := n.opened ++ m.opened, named := n.named ++ m.named
              decoded := n.decoded ++ reading :: m.decoded, fields := n.fields },
      .elements m.fields)

def call? (n : Decoding) (base : Found) : String → List Argument → Option (Decoding × Found)
  | "container", [.mk (some "keyedBy") (.type keys)] => do
    let .decoder steps := base | none
    let cases ← codingCases? t keys
    return ({ n with opened := n.opened ++ [cases] }, .keyed cases steps)
  | "singleValueContainer", [] => do
    let .decoder steps := base | none
    return (n, .single steps)
  | "nestedContainer", .mk (some "keyedBy") (.type keys) :: arguments => do
    let (n, steps) ← n.into? base arguments
    let cases ← codingCases? t keys
    return ({ n with opened := n.opened ++ [cases] }, .keyed cases steps)
  | "decode", .mk none (.type type) :: arguments => do
    let (n, steps) ← n.into? base arguments
    n.decode? inner t type steps
  | _, _ => none

/-- The value of an expression: of a call that may fail, or of one field of all elements. -/
def eval? (n : Decoding) (scope : List (String × Found)) : Expr → Option (Decoding × Found)
  | .prefixed .tryThrowing (.call (.member (.name base) method) arguments) => do
    n.call? inner t (← scope.lookup base) method arguments
  | .member (.call (.member (.member (.name list) "lazy") "map")
      [.mk none (.closure [] [.expr (.member (.name "$0") field)])]) "any" => do
    let .elements fields ← scope.lookup list | none
    return (n, .value (← fields.lookup field))
  | _ => none

def run? (n : Decoding) (scope : List (String × Found)) : List Item → Option Decoding
  | [] => some n
  | .property (.mk var _ _ (some value) none _) :: rest => do
    let (n, found) ← n.eval? inner t scope value
    n.run? ((var.name, found) :: scope) rest
  | .assign (.name field) value :: rest => do
    let (n, .value reading) ← n.eval? inner t scope value | none
    run? { n with fields := n.fields ++ [(field, reading)] } scope rest
  | _ => none

def ofType? (steps : List Step) : Option Decoding := do
  let f ← (t.body.filterMap Item.function?).find? fun f =>
    f.isInitializer && f.labels == [some "from"]
  run? inner t {} ((f.parameters.map (·.name)).zip [.decoder steps]) f.body

end

end Decoding

/-- What the decoder of a type does with a response. Types inside may have decoders of their own,
where there are none further inside. -/
def decoding? (t : TypeDecl) : Option Decoding :=
  Decoding.ofType? (Decoding.ofType? fun _ _ => none) t []

-- ---------------------------------------------------------------------------
-- What is declared
-- ---------------------------------------------------------------------------

/-- There are at most two keys, or the entity key of a nested array and at most one more. -/
def HasPlace (p : EndpointPayload) : Prop :=
  (p.layout ≠ .nestedArray ∧ p.keyPath.length ≤ 2) ∨
    (p.layout = .nestedArray ∧ p.entityKey.isSome ∧ p.baseKey.length ≤ 1)

/-- All keys of a payload, also the one inside of a nested array. -/
def declaredKeys (p : EndpointPayload) : List String := p.baseKey ++ p.entityKey.toList

/-- What the keys lead to. Those of a nested array lead to each entity of the list. -/
def declaredReading (p : EndpointPayload) (element : TypeName) : Reading :=
  { type := if p.layout = .array then .anySequence element else element
    steps := p.baseKey.map .key ++ (if p.layout = .nestedArray then [.each] else [])
      ++ p.entityKey.toList.map .key }

def PayloadPlace.keys : PayloadPlace → List String
  | .root => []
  | .keyed key => [key]
  | .nested outer inner => [outer, inner]
  | .list listKey entityKey => listKey.toList ++ [entityKey]

structure IsDeclaredPlace (p : EndpointPayload) (place : PayloadPlace) : Prop where
  keys_eq : place.keys = declaredKeys p
  list_iff : (∃ listKey entityKey, place = .list listKey entityKey) ↔ p.layout = .nestedArray
  list : ∀ listKey entityKey, place = .list listKey entityKey →
    listKey.toList = p.baseKey ∧ p.entityKey = some entityKey

/-- A decoder goes down the keys and fills the only field of its type with what it finds there. -/
structure ReadsAlong (keys : List String) (reading : Reading) (t : TypeDecl) (n : Decoding) :
    Prop where
  /-- A container is opened for each key, outermost first, and has no other key. -/
  opened : n.opened.map (·.map Prod.snd) = keys.map ([·])
  /-- The keys that are named are cases of the enumerations of their containers. -/
  named : ∀ x ∈ n.named, x.1 ∈ x.2.map Prod.fst
  last : n.decoded.getLast? = some reading
  assigned : ∃ field, t.body.filterMap Item.storedName? = [field] ∧ n.fields = [(field, reading)]

-- ---------------------------------------------------------------------------
-- Places
-- ---------------------------------------------------------------------------

section
variable (endpointName : String) {p : EndpointPayload}

theorem dotted_append_singleton {keys : List String} (h : keys ≠ []) (key : String) :
    dotted keys ++ "." ++ key = dotted (keys ++ [key]) := by
  rw [dotted, dotted, String.intercalate_append_of_ne_nil h (List.cons_ne_nil _ _),
    String.intercalate_singleton]

/-- Without a nested array all keys lead to the payload, and their number decides. -/
theorem payloadPlace_of_not_nestedArray (h : p.layout ≠ .nestedArray) :
    (p.keyPath.length ≤ 2 ∧
        ∃ place, payloadPlace endpointName p = .ok place ∧ IsDeclaredPlace p place) ∨
      (¬ p.keyPath.length ≤ 2 ∧ payloadPlace endpointName p
        = .error (.unsupportedPayload endpointName (dotted (declaredKeys p)))) := by
  have hkeys : declaredKeys p = p.keyPath := by
    rw [EndpointPayload.keyPath, if_neg h, declaredKeys]
  have hdeclared {place : PayloadPlace} (hplace : p.keyPath = place.keys)
      (hlist : ∀ listKey entityKey, place ≠ .list listKey entityKey) : IsDeclaredPlace p place :=
    { keys_eq := (hkeys.trans hplace).symm
      list_iff := by simp [h, hlist]
      list := fun _ _ heq => absurd heq (hlist _ _) }
  rw [payloadPlace, hkeys]
  split
  · contradiction
  · match hpath : p.keyPath with
    | [] => exact .inl ⟨by simp, _, rfl, hdeclared hpath nofun⟩
    | [key] => exact .inl ⟨by simp, _, rfl, hdeclared hpath nofun⟩
    | [outer, inner] => exact .inl ⟨by simp, _, rfl, hdeclared hpath nofun⟩
    | _ :: _ :: _ :: _ => exact .inr ⟨by simp, rfl⟩

/-- A nested array needs an entity key, and takes one more key at most. -/
theorem payloadPlace_of_nestedArray (h : p.layout = .nestedArray) :
    ((p.entityKey.isSome ∧ p.baseKey.length ≤ 1) ∧
        ∃ place, payloadPlace endpointName p = .ok place ∧ IsDeclaredPlace p place) ∨
      (¬ (p.entityKey.isSome ∧ p.baseKey.length ≤ 1) ∧ payloadPlace endpointName p
        = .error (.unsupportedPayload endpointName (dotted (declaredKeys p)))) := by
  have hdeclared {listKey : Option String} {entityKey : String} (hbase : p.baseKey = listKey.toList)
      (hentity : p.entityKey = some entityKey) : IsDeclaredPlace p (.list listKey entityKey) :=
    { keys_eq := by rw [PayloadPlace.keys, declaredKeys, hbase, hentity, Option.toList_some]
      list_iff := by simp [h]
      list := by simp [hbase, hentity] }
  have hplace : payloadPlace endpointName p = listPlace endpointName p.baseKey p.entityKey := by
    rw [payloadPlace, h]
  rw [hplace]
  match hentity : p.entityKey, hbase : p.baseKey with
  | none, keys => exact .inr ⟨by simp, by simp [listPlace, declaredKeys, hentity, hbase]⟩
  | some entityKey, [] => exact .inl ⟨by simp, _, rfl, hdeclared hbase hentity⟩
  | some entityKey, [key] => exact .inl ⟨by simp, _, rfl, hdeclared hbase hentity⟩
  | some entityKey, key :: key' :: keys =>
    have hkeys := dotted_append_singleton (List.cons_ne_nil key (key' :: keys)) entityKey
    exact .inr ⟨by simp, by simp [listPlace, declaredKeys, hentity, hbase, hkeys]⟩

theorem payloadPlace_cases (endpointName : String) (p : EndpointPayload) :
    (HasPlace p ∧ ∃ place, payloadPlace endpointName p = .ok place ∧ IsDeclaredPlace p place) ∨
      (¬ HasPlace p ∧ payloadPlace endpointName p
        = .error (.unsupportedPayload endpointName (dotted (declaredKeys p)))) := by
  by_cases h : p.layout = .nestedArray
  · simpa [HasPlace, h] using payloadPlace_of_nestedArray endpointName h
  · simpa [HasPlace, h] using payloadPlace_of_not_nestedArray endpointName h

end

-- ---------------------------------------------------------------------------
-- Decoding from places
-- ---------------------------------------------------------------------------

def placeBody (field : String) (element type : TypeName) (place : PayloadPlace) : List Item :=
  Item.grouped ([[constantProperty field type]]
    ++ (placeTypes element place).map (fun t => [.type t])
    ++ [[.function (decodingInitializer .publicAccess (placeDecoding (.name field) type place))]])

def PayloadPlace.reading (element type : TypeName) : PayloadPlace → Reading
  | .list listKey entityKey =>
    { type := element, steps := listKey.toList.map .key ++ [.each, .key entityKey] }
  | place => { type, steps := place.keys.map .key }

section
variable {p : EndpointPayload} {place : PayloadPlace} {element type : TypeName}

theorem IsDeclaredPlace.reading_eq (h : IsDeclaredPlace p place) :
    place.reading element (if p.layout = .single then element else .anySequence element)
      = declaredReading p element := by
  by_cases hlayout : p.layout = .nestedArray
  · obtain ⟨listKey, entityKey, rfl⟩ := h.list_iff.mpr hlayout
    obtain ⟨hbase, hentity⟩ := h.list _ _ rfl
    simp [PayloadPlace.reading, declaredReading, hlayout, hbase, hentity]
  · have hreading (type : TypeName) :
        place.reading element type = { type, steps := place.keys.map .key } := by
      cases place with
      | list => exact absurd (h.list_iff.mp ⟨_, _, rfl⟩) hlayout
      | _ => rfl
    rw [hreading, h.keys_eq, declaredKeys, declaredReading, if_neg hlayout]
    cases hcases : p.layout with
    | single | array => simp
    | nestedArray => exact absurd hcases hlayout

theorem singleKeyEnum_cases (name case key : String) :
    (singleKeyEnum name case key).body.filterMap rawCase? = [(case, key)] := rfl

/-- The emitted decoder for a place opens the containers of the place and decodes what is there. -/
theorem readsAlong_of_body {t : TypeDecl} {field : String} (helement : element.isMetatype = false)
    (htype : type.isMetatype = false)
    (hbody : t.body = placeBody field element type place) :
    ∃ n, decoding? t = some n ∧ ReadsAlong place.keys (place.reading element type) t n := by
  obtain ⟨_, _, _, _, body, _⟩ := t
  obtain ⟨_, _, _, _⟩ := element
  obtain ⟨_, _, _, _⟩ := type
  cases helement
  cases htype
  cases hbody
  -- Everything but the keys is fixed once the place is, so each decoder runs by computation.
  cases place with
  | root => exact ⟨_, rfl, rfl, by simp, rfl, field, rfl, rfl⟩
  | keyed key => exact ⟨_, rfl, rfl, by simp [singleKeyEnum_cases], rfl, field, rfl, rfl⟩
  | nested outer inner => exact ⟨_, rfl, rfl, by simp [singleKeyEnum_cases], rfl, field, rfl, rfl⟩
  | list listKey entityKey =>
    cases listKey with
    | none => exact ⟨_, rfl, rfl, by simp [singleKeyEnum_cases], rfl, field, rfl, rfl⟩
    | some key => exact ⟨_, rfl, rfl, by simp [singleKeyEnum_cases], rfl, field, rfl, rfl⟩

end

-- ---------------------------------------------------------------------------
-- Payloads
-- ---------------------------------------------------------------------------

section
variable {d : Descriptions} {endpoint : Endpoint} {p : EndpointPayload} {side : PayloadSide}

theorem endpointPayload_of_place {entity : Entity} {place : PayloadPlace}
    (hentity : d.entity p.entityName (endpoint.name ++ "." ++ side.field) = .ok entity)
    (hplace : payloadPlace endpoint.name p = .ok place) (hdeclared : IsDeclaredPlace p place) :
    ∃ t n, endpointPayload d endpoint p side = .ok t ∧ decoding? t = some n ∧
      ReadsAlong (declaredKeys p) (declaredReading p (payloadType entity.name)) t n := by
  have htype : ∃ field t, endpointPayload d endpoint p side = .ok t ∧
      t.body = placeBody field (payloadType entity.name)
        (if p.layout = .single then payloadType entity.name
          else .anySequence (payloadType entity.name)) place := by
    rw [endpointPayload, hentity, hplace]
    by_cases hsingle : p.layout = .single
    · simp only [if_pos hsingle]
      exact ⟨"entity", _, rfl, rfl⟩
    · simp only [if_neg hsingle]
      exact ⟨"entities", _, rfl, rfl⟩
  obtain ⟨field, t, ht, hbody⟩ := htype
  obtain ⟨n, hn, hreads⟩ := readsAlong_of_body rfl (by split <;> rfl) hbody
  rw [hdeclared.keys_eq, hdeclared.reading_eq] at hreads
  exact ⟨t, n, ht, hn, hreads⟩

end

/-- A payload has a place exactly if few enough keys are declared, and is refused with them
otherwise. The place has the declared keys, and the emitted type decodes from there. -/
theorem endpointPayload_decodes (d : Descriptions) (endpoint : Endpoint) (p : EndpointPayload)
    (side : PayloadSide) :
    ((∃ place, payloadPlace endpoint.name p = .ok place) ↔ HasPlace p) ∧
      (¬ HasPlace p → payloadPlace endpoint.name p
        = .error (.unsupportedPayload endpoint.name (dotted (declaredKeys p)))) ∧
      ∀ place, payloadPlace endpoint.name p = .ok place →
        IsDeclaredPlace p place ∧
          ∀ entity, d.entity p.entityName (endpoint.name ++ "." ++ side.field) = .ok entity →
            ∃ t n, endpointPayload d endpoint p side = .ok t ∧ decoding? t = some n ∧
              ReadsAlong (declaredKeys p) (declaredReading p (payloadType entity.name)) t n := by
  rcases payloadPlace_cases endpoint.name p with ⟨hp, place, hplace, hdeclared⟩ | ⟨hp, hrefused⟩
  · refine ⟨⟨fun _ => hp, fun _ => ⟨place, hplace⟩⟩, fun h => absurd hp h, ?_⟩
    intro place' hplace'
    obtain rfl : place = place' := Except.ok.inj (hplace.symm.trans hplace')
    exact ⟨hdeclared, fun entity hentity => endpointPayload_of_place hentity hplace hdeclared⟩
  · simp [hp, hrefused]

def songsPayload : EndpointPayload :=
  { entityName := "song", entityKey := some "song", layout := .nestedArray, baseKey := ["songs"] }

def song : Entity := { name := "song", identifier := { kind := .scalar .int } }

def songs : Descriptions :=
  { version := "1", entities := [song]
    endpoints := [{ name := "songs", read := some songsPayload }] }

theorem endpointPayload_decodes_songs :
    HasPlace songsPayload ∧ ∃ endpoint ∈ songs.endpoints, endpoint.read = some songsPayload ∧
      payloadPlace endpoint.name songsPayload = .ok (.list (some "songs") "song") ∧
      ∃ t n, endpointPayload songs endpoint songsPayload .read = .ok t ∧ decoding? t = some n ∧
        n.opened.map (·.map Prod.snd) = [["songs"], ["song"]] ∧
        ∃ field, t.body.filterMap Item.storedName? = [field] ∧
          n.fields = [(field,
            { type := payloadType "song", steps := [.key "songs", .each, .key "song"] })] := by
  have hplace : HasPlace songsPayload := .inr (by decide)
  obtain ⟨hsome, -, hdecodes⟩ :=
    endpointPayload_decodes songs { name := "songs", read := some songsPayload } songsPayload .read
  obtain ⟨place, hok⟩ := hsome.mpr hplace
  obtain ⟨-, hentity⟩ := hdecodes place hok
  obtain ⟨t, n, ht, hn, hopened, -, -, hassigned⟩ := hentity song rfl
  exact ⟨hplace, _, .head _, rfl, rfl, t, n, ht, hn, hopened, hassigned⟩

end EntityGen.Emit
