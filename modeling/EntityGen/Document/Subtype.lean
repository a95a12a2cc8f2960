import EntityGen.Document.Reading
import EntityGen.Schema.Subtype

/-!
# Reading subtypes
-/

namespace EntityGen.Document

open Markup (Tag Node)
open Schema (Choice Member Scalar Subtype)

def readChoice (element : String) (tag : Tag) : Except Error Choice := do
  let isUnused ← foldAttributes tag false fun isUnused name value =>
    match name with
    | "unused" => readBool element "unused" value
    | _ => .ok isUnused
  return { name := ← required tag element "name", isUnused }

structure MemberAttributes where
  type : Option Schema.MemberType := none
  isOptional : Bool := false
  isArray : Bool := false

/-- Reads one attribute of a member. Of a scalar type and a subtype the later one counts. -/
def MemberAttributes.read (a : MemberAttributes) (name value : String) :
    Except Error MemberAttributes :=
  match name with
  | "type" => do
    let scalar ← accepted "property" "type" value (Scalar.ofName? value)
    return { a with type := some (.scalar scalar) }
  | "subtype" => .ok { a with type := some (.subtype value) }
  | "optional" => return { a with isOptional := ← readBool "property" "optional" value }
  | "array" => return { a with isArray := ← readBool "property" "array" value }
  | _ => .ok a

def readMember (tag : Tag) : Except Error Member := do
  let a ← foldAttributes tag {} MemberAttributes.read
  let name ← required tag "property" "name"
  match a.type with
  | none => throw (.missingAttribute "property" "type")
  | some type =>
    return { name, type, key := (tag.attributes.lookup "key").getD name
             isOptional := a.isOptional, isArray := a.isArray }

structure ItemLists where
  cases : List Choice := []
  options : List Choice := []
  members : List Member := []

def ItemLists.read (items : ItemLists) (tag : Tag) (children : List Node) :
    Except Error ItemLists := do
  let items ← match tag.name with
    | "case" => do
      pure { items with cases := items.cases ++ [← readChoice "case" tag] }
    | "option" => do
      pure { items with options := items.options ++ [← readChoice "option" tag] }
    | "property" => do
      pure { items with members := items.members ++ [← readMember tag] }
    | other => throw (.unknownElement other "subtype")
  ignore children
  return items

/-- A subtype has items of one kind. -/
def ItemLists.subtype (items : ItemLists) (name : String) : Except Error Subtype :=
  match items.cases, items.options, items.members with
  | [], [], [] => .error (.noItems name)
  | cases, [], [] => .ok { name, items := .cases cases }
  | [], options, [] => .ok { name, items := .options options }
  | [], [], members => .ok { name, items := .members members }
  | _, _, _ => .error (.mixedItems name)

def readSubtype (tag : Tag) (children : List Node) : Except Error Subtype := do
  let name ← required tag "subtype" "name"
  let items ← foldElements children {} ItemLists.read
  items.subtype name

end EntityGen.Document
