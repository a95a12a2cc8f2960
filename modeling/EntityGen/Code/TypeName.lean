/-!
# Names of types

A type name is a name, its generic arguments and the stack of optional and
array wrappers put around them. Equality is decided; the order compares
names first, then arguments, wrappers and the metatype mark.
-/

namespace EntityGen.Code

inductive Wrapper where
  | optional
  | array
  deriving DecidableEq, Repr

/-- A reference to a type. `wrappers` lists the innermost wrapper first. -/
structure TypeName where
  name : String
  parameters : List TypeName := []
  wrappers : List Wrapper := []
  isMetatype : Bool := false

namespace TypeName

mutual
def decEq : (a b : TypeName) → Decidable (a = b)
  | .mk name parameters wrappers isMetatype, .mk name' parameters' wrappers' isMetatype' =>
    match decEqAll parameters parameters' with
    | .isTrue h =>
      if rest : name = name' ∧ wrappers = wrappers' ∧ isMetatype = isMetatype' then
        .isTrue (by rw [h, rest.1, rest.2.1, rest.2.2])
      else
        .isFalse fun e => rest (by cases e; exact ⟨rfl, rfl, rfl⟩)
    | .isFalse h => .isFalse fun e => h (by cases e; rfl)

def decEqAll : (as bs : List TypeName) → Decidable (as = bs)
  | [], [] => .isTrue rfl
  | [], _ :: _ => .isFalse nofun
  | _ :: _, [] => .isFalse nofun
  | a :: as, b :: bs =>
    match decEq a b with
    | .isFalse h => .isFalse fun e => h (by cases e; rfl)
    | .isTrue h =>
      match decEqAll as bs with
      | .isTrue t => .isTrue (by rw [h, t])
      | .isFalse t => .isFalse fun e => t (by cases e; rfl)
end

instance : DecidableEq TypeName := decEq

instance : Inhabited TypeName := ⟨{ name := "" }⟩

/-! ## Wrapping -/

def optional (t : TypeName) : TypeName :=
  { t with wrappers := t.wrappers ++ [.optional] }

def optionalIf (t : TypeName) (condition : Bool) : TypeName :=
  if condition then t.optional else t

def array (t : TypeName) : TypeName :=
  { t with wrappers := t.wrappers ++ [.array] }

def metatype (t : TypeName) : TypeName :=
  { t with isMetatype := true }

def isOptional (t : TypeName) : Bool :=
  t.wrappers.getLast? == some .optional

def isArray (t : TypeName) : Bool :=
  t.wrappers.getLast? == some .array

/-- The type without its outermost optional, if that is the outermost wrapper. -/
def unwrapped (t : TypeName) : TypeName :=
  if t.isOptional then { t with wrappers := t.wrappers.dropLast } else t

def wrappedValue (t : TypeName) : TypeName :=
  { t with wrappers := t.wrappers.dropLast }

def base (t : TypeName) : TypeName :=
  { name := t.name, parameters := t.parameters }

/-! ## Common types -/

def string : TypeName := { name := "String" }
def int : TypeName := { name := "Int" }
def int64 : TypeName := { name := "Int64" }
def bool : TypeName := { name := "Bool" }
def date : TypeName := { name := "Date" }
def double : TypeName := { name := "Double" }
def float : TypeName := { name := "Float" }
def url : TypeName := { name := "URL" }
def data : TypeName := { name := "Data" }
def void : TypeName := { name := "Void" }
def selfType : TypeName := { name := "Self" }

def anySequence (element : TypeName) : TypeName :=
  { name := "AnySequence", parameters := [element] }

/-- A value that may not have been loaded yet. -/
def lazy (value : TypeName) : TypeName :=
  { name := "Lazy", parameters := [value] }

def dictionary (key value : TypeName) : TypeName :=
  { name := "Dictionary", parameters := [key, value] }

/-! ## Text -/

/-- A name with the texts of its arguments. A dictionary of two arguments is
written in brackets. -/
def applied (name : String) (arguments : List String) : String :=
  match arguments with
  | [] => name
  | [key, value] =>
    if name = "Dictionary" then "[" ++ key ++ ": " ++ value ++ "]"
    else name ++ "<" ++ key ++ ", " ++ value ++ ">"
  | arguments => name ++ "<" ++ ", ".intercalate arguments ++ ">"

end TypeName

def Wrapper.wrap (text : String) : Wrapper → String
  | .optional => text ++ "?"
  | .array => "[" ++ text ++ "]"

namespace TypeName

mutual
def text : TypeName → String
  | .mk name parameters wrappers isMetatype =>
    let wrapped := wrappers.foldl Wrapper.wrap (applied name (texts parameters))
    if isMetatype then wrapped ++ ".self" else wrapped

def texts : List TypeName → List String
  | [] => []
  | t :: ts => t.text :: texts ts
end

theorem texts_eq_map (ts : List TypeName) : texts ts = ts.map text := by
  induction ts with
  | nil => rfl
  | cons t ts ih => simp [texts, ih]

/-! ## Order -/

end TypeName

def Wrapper.rank : Wrapper → Nat
  | .optional => 0
  | .array => 1

namespace TypeName

mutual
/-- Names by code point, then arguments, wrappers (optional before array) and
the metatype mark, each list lexicographically. -/
def order : TypeName → TypeName → Ordering
  | .mk name parameters wrappers isMetatype, .mk name' parameters' wrappers' isMetatype' =>
    (compare name name').then <|
    (orderAll parameters parameters').then <|
    (compare (wrappers.map Wrapper.rank) (wrappers'.map Wrapper.rank)).then <|
    compare isMetatype isMetatype'

def orderAll : List TypeName → List TypeName → Ordering
  | [], [] => .eq
  | [], _ :: _ => .lt
  | _ :: _, [] => .gt
  | a :: as, b :: bs => (order a b).then (orderAll as bs)
end

def sortedDistinct (types : List TypeName) : List TypeName :=
  types.eraseDups.mergeSort fun a b => (order a b).isLE

end TypeName
end EntityGen.Code
