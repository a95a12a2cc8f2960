import EntityGen.Proofs.Code.Running
import EntityGen.Proofs.Emit.DefaultTypes
import EntityGen.Proofs.Schema.UniqueNames

/-!
# Raw values of enumerations

The initializer of an emitted enumeration takes the name of every declared case:
that of a used case gives the case, that of an unused one is refused as such, and
any other text is unknown. Where used cases are emitted under names of their own,
the raw value of a case leads back to it.
-/

namespace EntityGen.Emit

open Code
open Schema (Choice Descriptions Subtype)

-- ---------------------------------------------------------------------------
-- What is declared
-- ---------------------------------------------------------------------------

/-- The initializers with these labels in extensions, each with the type that is extended. -/
def initializersOf (labels : List (Option String)) (file : SourceFile) :
    List (TypeName × Function) :=
  file.extensions.flatMap fun e =>
    ((e.body.filterMap Item.function?).filter fun f => f.isInitializer && f.labels == labels).map
      fun f => (e.name, f)

def property? : Item → Option Code.Property
  | .property p => some p
  | _ => none

def propertiesOf (name : String) (file : SourceFile) : List (TypeName × Code.Property) :=
  file.extensions.flatMap fun e =>
    ((e.body.filterMap property?).filter fun p => p.var.name == name).map fun p => (e.name, p)

/-- The error that emitted enumerations share, about a text that is no raw value of the subtype. -/
def refusal (s : Subtype) (error text : String) : Value :=
  .case { name := subtypeErrorName } error [.text s.name, .text text]

/-- Every text is the name of a used case, the name of an unused one, or unknown. -/
structure Classifies (s : Subtype) (choices : List Choice) (f : Function) : Prop where
  assigns : ∀ text v, f.construct? (subtypeType s.name) [.text text] = some (.ok v) ↔
    ∃ c ∈ choices, c.name = text ∧ c.isUnused = false ∧
      v = .case (subtypeType s.name) (memberName c.name) []
  refuses : ∀ text, f.construct? (subtypeType s.name) [.text text]
      = some (.error (refusal s "unusedCase" text)) ↔
    ∃ c ∈ choices, c.name = text ∧ c.isUnused = true
  unknown : ∀ text, f.construct? (subtypeType s.name) [.text text]
      = some (.error (refusal s "unknownCase" text)) ↔ ∀ c ∈ choices, c.name ≠ text

/-- Cases and names lead to each other, by the property and by the initializer. -/
structure Inverse (type : TypeName) (cases names : List String) (f : Function)
    (p : Code.Property) : Prop where
  ofCase : ∀ x ∈ cases, ∃ name ∈ names, p.compute? type (.case type x []) = some (.text name) ∧
    f.construct? type [.text name] = some (.ok (.case type x []))
  ofName : ∀ name ∈ names, ∃ x ∈ cases,
    f.construct? type [.text name] = some (.ok (.case type x [])) ∧
      p.compute? type (.case type x []) = some (.text name)

-- ---------------------------------------------------------------------------
-- Running the initializer and the property
-- ---------------------------------------------------------------------------

theorem find?_key_eq_some {α : Type} {key : α → String} {entries : List α}
    (h : (entries.map key).Nodup) {k : String} {a : α} :
    entries.find? (fun a => key a == k) = some a ↔ a ∈ entries ∧ key a = k := by
  constructor
  · intro ha
    have hkey := List.find?_some ha
    exact ⟨List.mem_of_find?_eq_some ha, beq_iff_eq.mp hkey⟩
  · rintro ⟨ha, rfl⟩
    have hsome : (entries.find? fun b => key b == key a).isSome :=
      List.find?_isSome.mpr ⟨a, ha, beq_self_eq_true (key a)⟩
    obtain ⟨b, hb⟩ := Option.isSome_iff_exists.mp hsome
    have hkey := List.find?_some hb
    obtain rfl := List.inj_on_of_nodup_map h (List.mem_of_find?_eq_some hb) ha (beq_iff_eq.mp hkey)
    exact hb

section
variable {s : Subtype} {choices used : List Choice} {type : TypeName}

/-- The first case of the name decides. -/
theorem rawValueInitializer_construct? (text : String) :
    (rawValueInitializer s choices).construct? type [.text text] =
      some (match choices.find? fun c => c.name == text with
        | some c =>
          if c.isUnused then .error (refusal s "unusedCase" text)
          else .ok (.case type (memberName c.name) [])
        | none => .error (refusal s "unknownCase" text)) := by
  have hmatches (c : Choice) : (rawValueBranch s c).pattern.matches? type
      [("rawValue", .text text)] (.text text) = some (c.name == text) := rfl
  have hsubject : (Expr.name "rawValue").eval? type [("rawValue", .text text)]
      = some (.text text) := rfl
  have hrun : Item.runAll? type [("rawValue", .text text)] (rawValueInitializer s choices).body
      = _ := (Item.runAll?_switch hsubject _).trans (SwitchCase.runFirst?_map choices hmatches _)
  have hscope : ((rawValueInitializer s choices).parameters.map (·.name)).zip [Value.text text]
      = [("rawValue", .text text)] := rfl
  rw [Function.construct?, hscope, hrun]
  cases choices.find? fun c => c.name == text with
  | none => rfl
  | some c =>
    cases hc : c.isUnused <;> simp only [rawValueBranch, hc] <;> rfl

/-- Of cases that are emitted alike the first decides. -/
theorem rawValueProperty_compute? (x : String) :
    (rawValueProperty used).compute? type (.case type x []) =
      (used.find? fun c => memberName c.name == x).map fun c => .text c.name := by
  let branch (c : Choice) : SwitchCase :=
    { pattern := .tag (memberName c.name), body := [.returning (.string c.name)] }
  have hmatches (c : Choice) : (branch c).pattern.matches? type
      [("self", .case type x [])] (.case type x []) = some (memberName c.name == x) := rfl
  have hsubject : Expr.selfRef.eval? type [("self", .case type x [])]
      = some (.case type x []) := rfl
  have hrun : Item.runAll? type [("self", .case type x [])] [.switch .selfRef (used.map branch)]
      = _ := (Item.runAll?_switch hsubject _).trans
        (List.append_nil (used.map branch) ▸ SwitchCase.runFirst?_map used hmatches [])
  have hbody : (rawValueProperty used).body = some [.switch .selfRef (used.map branch)] := rfl
  rw [Property.compute?, hbody, Option.bind_eq_bind, Option.bind_some, hrun]
  cases used.find? fun c => memberName c.name == x <;> rfl

theorem exists_named_iff (h : (choices.map (·.name)).Nodup) {text : String} {p : Choice → Prop} :
    (∃ c ∈ choices, c.name = text ∧ p c) ↔
      ∃ c, choices.find? (fun c => c.name == text) = some c ∧ p c := by
  simp only [find?_key_eq_some h, and_assoc]

theorem rawValueInitializer_classifies (h : (choices.map (·.name)).Nodup) :
    Classifies s choices (rawValueInitializer s choices) := by
  constructor
  case assigns =>
    intro text v
    rw [rawValueInitializer_construct?, exists_named_iff h]
    cases choices.find? fun c => c.name == text with
    | none => simp
    | some c =>
      cases hc : c.isUnused with
      | true => simp [hc]
      | false => simpa [hc] using eq_comm
  case refuses =>
    intro text
    rw [rawValueInitializer_construct?, exists_named_iff h]
    cases choices.find? fun c => c.name == text with
    | none => simp [refusal]
    | some c => cases hc : c.isUnused <;> simp [hc]
  case unknown =>
    intro text
    have hnone : (∀ c ∈ choices, c.name ≠ text) ↔
        choices.find? (fun c => c.name == text) = none := by
      simp
    rw [rawValueInitializer_construct?, hnone]
    cases choices.find? fun c => c.name == text with
    | none => simp
    | some c => cases hc : c.isUnused <;> simp [hc, refusal]

theorem rawValues_inverse (hnames : (choices.map (·.name)).Nodup)
    (hused : ∀ c, c ∈ used ↔ c ∈ choices ∧ c.isUnused = false)
    (hemitted : (used.map fun c => memberName c.name).Nodup) :
    Inverse (subtypeType s.name) (used.map fun c => memberName c.name) (used.map (·.name))
      (rawValueInitializer s choices) (rawValueProperty used) := by
  have hlead {c : Choice} (hc : c ∈ used) :
      (rawValueInitializer s choices).construct? (subtypeType s.name) [.text c.name]
          = some (.ok (.case (subtypeType s.name) (memberName c.name) [])) ∧
        (rawValueProperty used).compute? (subtypeType s.name)
            (.case (subtypeType s.name) (memberName c.name) []) = some (.text c.name) := by
    constructor
    · obtain ⟨hmem, hunused⟩ := (hused c).mp hc
      exact ((rawValueInitializer_classifies hnames).assigns c.name _).mpr
        ⟨c, hmem, rfl, hunused, rfl⟩
    · rw [rawValueProperty_compute?, (find?_key_eq_some hemitted).mpr ⟨hc, rfl⟩]
      rfl
  constructor
  case ofCase =>
    intro x hx
    obtain ⟨c, hc, rfl⟩ := List.mem_map.mp hx
    exact ⟨c.name, List.mem_map_of_mem hc, (hlead hc).2, (hlead hc).1⟩
  case ofName =>
    intro name hname
    obtain ⟨c, hc, rfl⟩ := List.mem_map.mp hname
    exact ⟨memberName c.name, List.mem_map.mpr ⟨c, hc, rfl⟩, hlead hc⟩

end

-- ---------------------------------------------------------------------------
-- Files
-- ---------------------------------------------------------------------------

theorem enumFile_declares {d : Descriptions} {s : Subtype} {choices : List Choice}
    (hcases : s.items = .cases choices) (hused : s.usedCases ≠ []) :
    ∃ file, subtypeFile d s = .ok file ∧
      file.types = [caseDeclaration (subtypeType s.name) s.usedCases] ∧
      initializersOf [some "rawValue"] file
        = [(subtypeType s.name, rawValueInitializer s choices)] ∧
      propertiesOf "rawValue" file = [(subtypeType s.name, rawValueProperty s.usedCases)] := by
  have hitems : subtypeItems d s = enumItems s choices := by
    rw [subtypeItems, hcases]
  have hnonempty : s.usedCases.isEmpty = false := by simpa using hused
  simp only [subtypeFile, hitems, enumItems, hnonempty, if_neg Bool.false_ne_true, ok_bind, pure_ok]
  exact ⟨_, rfl, rfl, rfl, rfl⟩

/-- Each text that an emitted enumeration is made from is classified by the declared cases, and
where used cases are emitted under names of their own, these and the names used lead to each
other. -/
theorem subtypeFile_classifies {d : Descriptions} {s : Subtype} {choices : List Choice}
    (hvalid : d.validate = .ok ()) (hs : s ∈ d.subtypes) (hcases : s.items = .cases choices) :
    ∃ file declaration f p, subtypeFile d s = .ok file ∧
      file.types = [declaration] ∧ declaration.name = subtypeType s.name ∧
      initializersOf [some "rawValue"] file = [(subtypeType s.name, f)] ∧
      propertiesOf "rawValue" file = [(subtypeType s.name, p)] ∧
      declaration.body.filterMap Item.caseName?
        = (choices.filter fun c => !c.isUnused).map (fun c => memberName c.name) ∧
      Classifies s choices f ∧
      ((declaration.body.filterMap Item.caseName?).Nodup →
        Inverse (subtypeType s.name) (declaration.body.filterMap Item.caseName?)
          ((choices.filter fun c => !c.isUnused).map (·.name)) f p) := by
  obtain ⟨-, hsubtypes, -⟩ := Descriptions.validate_ok hvalid
  have hnames := Schema.checkSubtype_cases_nodup (hsubtypes s hs) hcases
  have hnonempty := (Descriptions.resolvable_of_validate hvalid).usedCase hs hcases
  obtain ⟨file, hfile, htypes, hinitializers, hproperties⟩ :=
    enumFile_declares (d := d) hcases hnonempty
  have hused : s.usedCases = choices.filter fun c => !c.isUnused := by
    rw [Subtype.usedCases, hcases]
  have hdeclared : (caseDeclaration (subtypeType s.name) s.usedCases).body.filterMap Item.caseName?
      = (choices.filter fun c => !c.isUnused).map (fun c => memberName c.name) := by
    simp [caseDeclaration, Item.caseName?, List.filterMap_map, Function.comp_def, hused]
  refine ⟨file, _, _, _, hfile, htypes, rfl, hinitializers, hproperties, hdeclared,
    rawValueInitializer_classifies hnames, ?_⟩
  rw [hdeclared, hused]
  exact rawValues_inverse hnames fun c => by simp

def genreCases : List Choice :=
  [{ name := "fiction" }, { name := "poetry", isUnused := true }, { name := "true_crime" }]

def genres : Descriptions :=
  { version := "1", subtypes := [{ name := "genre", items := .cases genreCases }] }

theorem subtypeFile_classifies_genre :
    genres.validate = .ok () ∧ ∃ s ∈ genres.subtypes, s.items = .cases genreCases ∧
      ∃ file f p, subtypeFile genres s = .ok file ∧
        initializersOf [some "rawValue"] file = [(subtypeType s.name, f)] ∧
        propertiesOf "rawValue" file = [(subtypeType s.name, p)] ∧
        f.construct? (subtypeType s.name) [.text "poetry"]
          = some (.error (refusal s "unusedCase" "poetry")) ∧
        f.construct? (subtypeType s.name) [.text "trueCrime"]
          = some (.error (refusal s "unknownCase" "trueCrime")) ∧
        ["fiction", "trueCrime"].Nodup ∧
        Inverse (subtypeType s.name) ["fiction", "trueCrime"] ["fiction", "true_crime"] f p := by
  have hvalid : genres.validate = .ok () := rfl
  obtain ⟨file, declaration, f, p, hfile, -, -, hf, hp, hdeclared, hclassifies, hinverse⟩ :=
    subtypeFile_classifies hvalid (.head _) rfl
  have hcases : declaration.body.filterMap Item.caseName? = ["fiction", "trueCrime"] :=
    hdeclared.trans (by decide)
  have hnodup : ["fiction", "trueCrime"].Nodup := by decide
  rw [hcases] at hinverse
  refine ⟨hvalid, _, .head _, rfl, file, f, p, hfile, hf, hp, ?_, ?_, hnodup, hinverse hnodup⟩
  · exact (hclassifies.refuses "poetry").mpr ⟨_, .tail _ (.head _), rfl, rfl⟩
  · exact (hclassifies.unknown "trueCrime").mpr (by decide)

end EntityGen.Emit
