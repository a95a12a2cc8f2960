import EntityGen.Schema.Descriptions

/-!
# Catalogs

Descriptions while they are put together. Beside the definitions of each kind,
in declared order, stands an index of their names. It is for looking up only:
the first definition of a name is the one it leads to, and later ones of that
name are kept in the list.
-/

namespace EntityGen.Schema

structure OutOfBounds where
  position : Nat
  length : Nat
  deriving DecidableEq, Repr

/-- Definitions of one kind and the positions of their names. -/
structure Definitions (α : Type) (nameOf : α → String) where
  items : List α := []
  index : List (String × Nat) := []

namespace Definitions

variable {α : Type} {nameOf : α → String}

/-- Enters a position under a name that has none. -/
def entered (index : List (String × Nat)) (name : String) (position : Nat) :
    List (String × Nat) :=
  match index.lookup name with
  | some _ => index
  | none => (name, position) :: index

def add (d : Definitions α nameOf) (a : α) : Definitions α nameOf :=
  { items := d.items ++ [a], index := entered d.index (nameOf a) d.items.length }

def itemAt (d : Definitions α nameOf) (position : Nat) : Except OutOfBounds α :=
  match d.items[position]? with
  | some a => .ok a
  | none => .error { position, length := d.items.length }

/-- Looks a name up. Having no definition is an answer, a wrong position is not. -/
def find? (d : Definitions α nameOf) (name : String) : Except OutOfBounds (Option α) :=
  match d.index.lookup name with
  | some position => some <$> d.itemAt position
  | none => .ok none

end Definitions

structure Catalog where
  version : String
  versionHistory : List String := []
  entities : Definitions Entity Entity.name := {}
  subtypes : Definitions Subtype Subtype.name := {}
  endpoints : Definitions Endpoint Endpoint.name := {}

namespace Catalog

def addVersion (c : Catalog) (version : String) : Catalog :=
  { c with versionHistory := c.versionHistory ++ [version] }

def addEntity (c : Catalog) (e : Entity) : Catalog :=
  { c with entities := c.entities.add e }

def addSubtype (c : Catalog) (s : Subtype) : Catalog :=
  { c with subtypes := c.subtypes.add s }

def addEndpoint (c : Catalog) (e : Endpoint) : Catalog :=
  { c with endpoints := c.endpoints.add e }

def entity? (c : Catalog) (name : String) : Except OutOfBounds (Option Entity) :=
  c.entities.find? name

def subtype? (c : Catalog) (name : String) : Except OutOfBounds (Option Subtype) :=
  c.subtypes.find? name

def endpoint? (c : Catalog) (name : String) : Except OutOfBounds (Option Endpoint) :=
  c.endpoints.find? name

/-- What is described, for those who go by the lists alone. -/
def descriptions (c : Catalog) : Descriptions where
  version := c.version
  versionHistory := c.versionHistory
  entities := c.entities.items
  subtypes := c.subtypes.items
  endpoints := c.endpoints.items

end Catalog
end EntityGen.Schema
