import EntityGen.Schema.Descriptions
import EntityGen.Text.NameCase

/-!
# Consistency of descriptions

Names are unique, references lead somewhere and every subtype can be emitted.
Chains of equivalent identifiers are accepted. The first fault is reported:
first those of names, then those of subtypes, entities and endpoints in
declared order.
-/

namespace EntityGen.Schema

def firstRepeated? (seen : List String) : List String → Option String
  | [] => none
  | name :: names => if name ∈ seen then some name else firstRepeated? (name :: seen) names

def checkUnique (kind : DefinitionKind) (names : List String) : Except Error Unit :=
  match firstRepeated? [] names with
  | some name => .error (.duplicate kind name)
  | none => .ok ()

def Descriptions.checkNames (d : Descriptions) : Except Error Unit := do
  checkUnique .entity (d.entities.map (·.name))
  checkUnique .subtype (d.subtypes.map (·.name))
  checkUnique .endpoint (d.endpoints.map (·.name))

def Descriptions.checkMember (d : Descriptions) (s : Subtype) (m : Member) : Except Error Unit :=
  match m.type with
  | .scalar _ => .ok ()
  | .subtype name => do
    let _ ← d.subtype name (s.name ++ "." ++ m.name)

def Descriptions.checkSubtype (d : Descriptions) (s : Subtype) : Except Error Unit :=
  match s.items with
  | .cases cases =>
    if cases.all (·.isUnused) then .error (.noUsedCases s.name)
    else
      match firstRepeated? [] (cases.map (·.name)) with
      | some name => .error (.duplicateCase name s.name)
      | none => .ok ()
  | .options options =>
    if options.length > 64 then .error (.tooManyOptions s.name options.length) else .ok ()
  | .members members => members.forM (d.checkMember s)

/-- Names of members that every emitted entity has. -/
def reservedNames : List String := ["identifier"]

/-- A case given as default is one that is emitted. -/
def checkDefault (source : String) (p : Property) (s : Subtype) : Except Error Unit :=
  match p.default, s.items with
  | some (.enumCase name), .cases cases =>
    if cases.any fun c => c.name == name && !c.isUnused then .ok ()
    else .error (.unusedDefault name source s.name)
  | _, _ => .ok ()

def Descriptions.checkProperty (d : Descriptions) (e : Entity) (p : Property) :
    Except Error Unit := do
  if Text.camelCase p.name ∈ reservedNames then
    throw (.reservedProperty e.name p.name)
  let source := e.name ++ "." ++ p.name
  match p.type with
  | .scalar _ => pure ()
  | .subtype name => checkDefault source p (← d.subtype name source)
  | .relationship r => let _ ← d.entity r.entityName source

def Descriptions.checkEntity (d : Descriptions) (e : Entity) : Except Error Unit := do
  if e.identifier.equivalent = some e.name then
    throw (.selfEquivalence e.name)
  let _ ← d.equivalentEntity e
  let _ ← d.identifierContributors e
  e.properties.forM (d.checkProperty e)

def Descriptions.checkPayload (d : Descriptions) (source : String) :
    Option EndpointPayload → Except Error Unit
  | none => .ok ()
  | some payload => do
    let _ ← d.entity payload.entityName source

def Descriptions.checkEndpoint (d : Descriptions) (e : Endpoint) : Except Error Unit := do
  d.checkPayload (e.name ++ ".read") e.read
  d.checkPayload (e.name ++ ".write") e.write

def Descriptions.validate (d : Descriptions) : Except Error Unit := do
  d.checkNames
  d.subtypes.forM d.checkSubtype
  d.entities.forM d.checkEntity
  d.endpoints.forM d.checkEndpoint

end EntityGen.Schema
