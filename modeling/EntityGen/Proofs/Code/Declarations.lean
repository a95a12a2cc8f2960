import EntityGen.Proofs.Code.Parts

/-!
# What declarations declare

The names, labels and cases that a reader of emitted code sees in it, in the
order in which they stand there. Calls and declarations agree if these do.
-/

namespace EntityGen.Code

-- ---------------------------------------------------------------------------
-- Parameters and arguments
-- ---------------------------------------------------------------------------

def Parameter.callLabel (p : Parameter) : Option String :=
  match p.label with
  | none => some p.name
  | some "_" => none
  | some label => some label

def Function.labels (f : Function) : List (Option String) := f.parameters.map Parameter.callLabel

def Argument.labels (arguments : List Argument) : List (Option String) :=
  arguments.map (·.label)

def Function.isInitializer (f : Function) : Bool :=
  match f.kind with
  | .initializer _ _ => true
  | _ => false

-- ---------------------------------------------------------------------------
-- Items
-- ---------------------------------------------------------------------------

namespace Item

def type? : Item → Option TypeDecl
  | .type t => some t
  | _ => none

theorem type?_eq_some {i : Item} {t : TypeDecl} : i.type? = some t ↔ i = .type t := by
  cases i <;> simp [type?]

def function? : Item → Option Function
  | .function f => some f
  | _ => none

def extension? : Item → Option Extension
  | .extension e => some e
  | _ => none

/-- The name of a property that each instance stores, neither computed nor static. -/
def storedName? : Item → Option String
  | .property p => if p.body.isNone && !p.var.isStatic then some p.var.name else none
  | _ => none

def caseName? : Item → Option String
  | .enumCase c => some c.name
  | _ => none

def ownAssignment? : Item → Option (String × Expr)
  | .assign (.member (.name "self") x) value => some (x, value)
  | _ => none

/-- The labels with which another initializer of the instance is called. -/
def delegation? : Item → Option (List (Option String))
  | .expr (.call (.member (.name "self") "init") arguments) => some (Argument.labels arguments)
  | _ => none

def construction? : Item → Option (TypeName × List (Option String))
  | .returns (some (.call (.type t) arguments)) => some (t, Argument.labels arguments)
  | _ => none

def methodOf? (method : String) : Item → Option (String × String)
  | .expr (.call (.member (.name base) x) [.mk none (.name argument)]) =>
    if x = method then some (base, argument) else none
  | _ => none

def switchCases : Item → List SwitchCase
  | .switch _ cases => cases
  | _ => []

def functions : Item → List Function
  | .type t => t.body.filterMap function?
  | .extension e => e.body.filterMap function?
  | _ => []

theorem filterMap_grouped {α : Type} {f : Item → Option α} (hblank : f .blank = none)
    (groups : List (List Item)) :
    (grouped groups).filterMap f = groups.flatMap (List.filterMap f) := by
  induction groups with
  | nil => rfl
  | cons g groups ih =>
    cases groups with
    | nil => simp [grouped]
    | cons g' groups =>
      rw [grouped_cons_cons, List.filterMap_append, List.filterMap_cons_none hblank, ih]
      simp only [List.flatMap_cons]

end Item

def SwitchCase.tag? (c : SwitchCase) : Option String :=
  match c.pattern with
  | .tag name => some name
  | _ => none

-- ---------------------------------------------------------------------------
-- Uses
-- ---------------------------------------------------------------------------

namespace Part

def calledName? : Part → Option String
  | .expr (.call (.name f) _) => some f
  | _ => none

def memberOf? (base : String) : Part → Option String
  | .expr (.member (.name x) name) => if x = base then some name else none
  | _ => none

def decodedType? (decoder : String) : Part → Option TypeName
  | .expr (.call (.member (.name x) "decode") (.mk none (.type type) :: _)) =>
    if x = decoder then some type else none
  | _ => none

end Part

namespace Function

def calledNames (f : Function) : List String := f.parts.filterMap Part.calledName?

def membersOf (base : String) (f : Function) : List String :=
  f.parts.filterMap (Part.memberOf? base)

def decodedTypes (decoder : String) (f : Function) : List TypeName :=
  f.parts.filterMap (Part.decodedType? decoder)

end Function

-- ---------------------------------------------------------------------------
-- Files
-- ---------------------------------------------------------------------------

namespace SourceFile

def types (file : SourceFile) : List TypeDecl := file.body.filterMap Item.type?

theorem mem_types {file : SourceFile} {t : TypeDecl} : t ∈ file.types ↔ .type t ∈ file.body := by
  simp [types, List.mem_filterMap, Item.type?_eq_some]

def functions (file : SourceFile) : List Function := file.body.flatMap Item.functions

def functionNames (file : SourceFile) : List String := file.functions.filterMap Function.name?

def methodsOf (method : String) (file : SourceFile) : List (String × String) :=
  file.functions.flatMap fun f => f.body.filterMap (Item.methodOf? method)

def extensions (file : SourceFile) : List Extension := file.body.filterMap Item.extension?

theorem filterMap_addingSeparated {α : Type} {f : Item → Option α} (hblank : f .blank = none)
    (file : SourceFile) (items : List Item) :
    (file.addingSeparated items).body.filterMap f
      = file.body.filterMap f ++ items.filterMap f := by
  unfold addingSeparated
  induction items generalizing file with
  | nil => simp
  | cons item items ih =>
    have hitem : (if file.body.isEmpty then [item] else [.blank, item]).filterMap f
        = [item].filterMap f := by
      split
      · rfl
      · rw [List.filterMap_cons_none hblank]
    rw [List.foldl_cons, ih, adding_body, List.filterMap_append, hitem, List.append_assoc,
      ← List.filterMap_append]
    rfl

end SourceFile

end EntityGen.Code
