import EntityGen.Emit.GraphFile
import EntityGen.Proofs.Emit.Labels

/-!
# The graph of entities

The cases of the union, the storages of the graph and the cases of its insertion
go through the entities in their order. A value is merged with the one stored
before exactly where the file of its entity declares how.
-/

namespace EntityGen.Code

def Item.unionCase? : Item → Option (String × List TypeName)
  | .enumCase c => some (c.name, c.associated)
  | _ => none

/-- A stored property that starts as an empty value of a type. -/
def Item.emptyStorage? : Item → Option (String × TypeName)
  | .property p =>
    match p.value, p.body with
    | some (.call (.type t) []), none => some (p.var.name, t)
    | _, _ => none
  | _ => none

def Part.switch? : Part → Option (Expr × List SwitchCase)
  | .item (.switch subject cases) => some (subject, cases)
  | _ => none

end EntityGen.Code

namespace EntityGen.Emit

open Code
open Schema (Descriptions Entity)

variable {d : Descriptions} {e : Entity}

-- ---------------------------------------------------------------------------
-- Merging
-- ---------------------------------------------------------------------------

def updateText (p : Schema.Property) : String :=
  let x := memberName p.name
  if p.isLazy then x ++ ".merging(with: updated." ++ x ++ ")" else "updated." ++ x

/-- The function makes a new value of the entity out of the update. Every property is
in it, merged with its present value if it is lazy. -/
structure MergesLazily (e : Entity) (f : Function) : Prop where
  parameters : f.parameters = [{ label := some "_", name := "updated", type := entityType e.name }]
  result : f.result = some (entityType e.name)
  returned : ∃ arguments, f.body = [.returning ((entityType e.name).construct arguments)] ∧
    arguments.map (fun a => (a.label, a.value.text)) =
      (if e.hasVoidIdentifier then [] else [(some "identifier", "updated.identifier")])
        ++ e.storedProperties.map fun p => (some (memberName p.name), updateText p)
  complete : e.storedProperties.Perm e.properties

theorem mergedValue_text (p : Schema.Property) : (mergedValue p).text = updateText p := by
  have hcall : ".merging(with: updated." = ".merging" ++ ("(" ++ ("with: " ++ "updated.")) := by
    simp
  cases h : p.isLazy with
  | false => simp [mergedValue, updateText, h, Expr.text, Expr.render, Expr.needsParensAsReceiver,
      parenthesizedIf]
  | true =>
    have htext : (mergedValue p).text = memberName p.name ++ ".merging"
        ++ ("(" ++ ("with: " ++ ("updated." ++ memberName p.name)) ++ ")") := by
      simp [mergedValue, h, Expr.text, Expr.render, Expr.needsParensAsReceiver, Argument.renderAll,
        Argument.endInClosure, Argument.isClosure, parenthesizedIf, callTail, commaSeparated,
        labelText, String.append_assoc]
    rw [htext, updateText, if_pos h, hcall]
    simp only [String.append_assoc]

theorem merging_functions (e : Entity) :
    ∃ f, Item.functions (.extension (merging e)) = [f] ∧ f.name? = some "merging" ∧
      MergesLazily e f := by
  refine ⟨_, rfl, rfl, rfl, rfl, ⟨_, rfl, ?_⟩, e.storedProperties_perm⟩
  have hidentifier : (Expr.member (.name "updated") "identifier").text = "updated.identifier" := rfl
  cases h : e.hasVoidIdentifier <;>
    simp [initializerArguments, h, Function.comp_def, mergedValue_text, hidentifier]

/-- Only with lazy properties the file of an entity declares how a value is merged, in
an extension of its type. -/
theorem entityFile_merging {file : SourceFile} (h : entityFile d e = .ok file) :
    (∀ i ∈ file.body, ∀ f ∈ Item.functions i, f.name? = some "merging" →
      i = .extension (merging e) ∧ e.hasLazyProperties = true) ∧
    (e.hasLazyProperties = true → .extension (merging e) ∈ file.body) := by
  simp only [entityFile, bind_ok, pure_ok] at h
  obtain ⟨items, hitems, rfl⟩ := h
  obtain ⟨decl, index, hdecl, hindex, rfl⟩ := entityItems_ok hitems
  constructor
  · rw [SourceFile.forall_mem_addingSeparated (by simp [Item.functions])]
    refine ⟨by simp [emittedFile], ?_⟩
    simp only [List.forall_mem_append, List.forall_mem_singleton]
    refine ⟨⟨⟨⟨?declared, ?payload⟩, ?equality⟩, ?index⟩, ?merging⟩
    case declared =>
      obtain ⟨members, -, hfunctions⟩ := entityClass_functions hdecl
      simp [hfunctions, memberwiseInitializer, Function.name?]
    case payload =>
      split <;> simp [payloadInitializer, Item.functions, Item.function?, Function.name?]
    case equality => simp [equatable, Item.functions, Item.function?, Function.name?]
    case index =>
      intro i hi
      obtain rfl | ⟨accessor, haccessor, rfl⟩ := hindex i hi
      · simp [indexNameEnum, Item.functions, Item.function?]
      · simp only [indexValueAccessor, bind_ok, pure_ok] at haccessor
        obtain ⟨cases, -, rfl⟩ := haccessor
        simp [Item.functions, Item.function?, Function.name?]
    case merging =>
      split
      · next hlazy => simp [hlazy]
      · simp
  · intro hlazy
    exact SourceFile.mem_addingSeparated (by simp [hlazy]) (by simp)

theorem merging_mem_functionNames {file : SourceFile} (h : entityFile d e = .ok file) :
    "merging" ∈ file.functionNames ↔ e.hasLazyProperties = true := by
  obtain ⟨honly, hthere⟩ := entityFile_merging h
  simp only [SourceFile.functionNames, SourceFile.functions, List.mem_filterMap, List.mem_flatMap]
  constructor
  · rintro ⟨f, ⟨i, hi, hf⟩, hname⟩
    exact (honly i hi f hf hname).2
  · intro hlazy
    obtain ⟨f, hfunctions, hname, -⟩ := merging_functions e
    exact ⟨f, ⟨_, hthere hlazy, by simp [hfunctions]⟩, hname⟩

-- ---------------------------------------------------------------------------
-- Insertion
-- ---------------------------------------------------------------------------

/-- How a value gets into the storage of its entity: behind the others without an
identifier, and else at its identifier. -/
def insertionText (e : Entity) : String :=
  if e.hasVoidIdentifier then storageName e ++ ".append(value)"
  else
    let slot := storageName e ++ "[value.identifier]"
    slot ++ " = " ++
      if e.hasLazyProperties then slot ++ ".map \x7b $0.merging(value) \x7d ?? value"
      else "value"

theorem insertion_text (e : Entity) :
    renderItems [insertion e] = fullLine 0 (insertionText e) := by
  cases hv : e.hasVoidIdentifier <;> cases hl : e.hasLazyProperties <;>
    simp [insertion, insertionText, hv, hl, renderItems, Item.renderAll, Item.render, Expr.render,
      Expr.needsParensAsReceiver, Expr.needsParensAsOperand, Argument.renderAll,
      Argument.endInClosure, Argument.isClosure, parenthesizedIf, callTail, commaSeparated,
      labelText, closureHead, Item.renderClosure, Item.renderInline?, Expr.spansLines,
      Argument.anySpansLines, InfixOp.symbol, String.append_assoc]

theorem insertion_calls_merging (e : Entity) :
    Calls (Item.partsOf [insertion e]) "merging" ↔
      e.hasVoidIdentifier = false ∧ e.hasLazyProperties = true := by
  cases hv : e.hasVoidIdentifier <;> cases hl : e.hasLazyProperties <;>
    simp [insertion, hv, hl, Calls]

/-- The case puts a value of the entity into its storage. It merges where the entity has
an identifier and its file declares merging. -/
structure InsertsInto (d : Descriptions) (e : Entity) (c : SwitchCase) : Prop where
  pattern : c.pattern = .bindings (memberName e.name) ["value"]
  text : renderItems c.body = fullLine 0 (insertionText e)
  merges_iff {file : SourceFile} (h : entityFile d e = .ok file) :
    Calls (Item.partsOf c.body) "merging" ↔
      e.hasVoidIdentifier = false ∧ "merging" ∈ file.functionNames
  merged {file : SourceFile} (h : entityFile d e = .ok file) {i : Item} (hi : i ∈ file.body)
    {f : Function} (hf : f ∈ Item.functions i) (hname : f.name? = some "merging") :
    (∃ ext, i = .extension ext ∧ ext.name = entityType e.name) ∧ MergesLazily e f

theorem insertionCase_insertsInto (d : Descriptions) (e : Entity) :
    InsertsInto d e (insertionCase e) where
  pattern := rfl
  text := insertion_text e
  merges_iff h := by
    rw [merging_mem_functionNames h]
    exact insertion_calls_merging e
  merged h i hi f hf hname := by
    obtain ⟨rfl, -⟩ := (entityFile_merging h).1 i hi f hf hname
    obtain ⟨g, hfunctions, -, hmerges⟩ := merging_functions e
    rw [hfunctions, List.mem_singleton] at hf
    exact ⟨⟨_, rfl, rfl⟩, hf ▸ hmerges⟩

-- ---------------------------------------------------------------------------
-- The graph
-- ---------------------------------------------------------------------------

/-- The union, the graph and the insertion go through the entities in their order. -/
structure GraphAligned (d : Descriptions) (union graph : TypeDecl) (insert : Function) : Prop where
  names : union.name = anyEntityType ∧ graph.name = { name := "EntityGraph" } ∧
    insert.name? = some "insert"
  /-- The union has a case with a value for each entity, and nothing else. -/
  union : union.body.map Item.unionCase?
    = d.entities.map fun e => some (memberName e.name, [entityType e.name])
  /-- The graph stores the values of each entity, and nothing else. -/
  stored : graph.body.filterMap Item.storedName? = d.entities.map storageName
  /-- Those of one entity are in a list, or by their identifiers. -/
  storages : graph.body.filterMap Item.emptyStorage? = d.entities.map fun e =>
    (storageName e, if e.hasVoidIdentifier then (entityType e.name).array
      else .dictionary (identifierType e) (entityType e.name))
  /-- Without entities there is nothing to tell apart. -/
  insertion : ∃ cases, List.Forall₂ (InsertsInto d) d.entities cases ∧
    insert.parts.filterMap Part.switch?
      = if d.entities = [] then [] else [(.name "entity", cases)]

theorem graphClass_filterMap {α : Type} {f : Item → Option α} (hblank : f .blank = none) :
    (graphClass d).body.filterMap f = (d.entities.map storageProperty).filterMap f
      ++ [.function { Function.initializer with access := .publicAccess },
        .function (insertFunction d)].filterMap f := by
  rw [graphClass, Item.filterMap_grouped hblank]
  simp only [List.flatMap_cons, List.flatMap_nil, List.append_nil, ← List.filterMap_append]
  rfl

theorem insertionCases_switchFree (entities : List Entity) :
    (SwitchCase.partsOf (entities.map insertionCase)).filterMap Part.switch? = [] := by
  rw [List.filterMap_eq_nil_iff, SwitchCase.forall_mem_partsOf]
  intro c hc
  obtain ⟨e, -, rfl⟩ := List.mem_map.mp hc
  refine ⟨Pattern.each_bindings, ?_⟩
  cases hv : e.hasVoidIdentifier <;> cases hl : e.hasLazyProperties <;>
    simp [insertionCase, insertion, hv, hl, Part.switch?]

theorem graphFile_aligned (d : Descriptions) :
    ∃ union graph init insert, (graphFile d).types = [union, graph] ∧
      Item.functions (.type graph) = [init, insert] ∧ GraphAligned d union graph insert := by
  refine ⟨anyEntity d, graphClass d, { Function.initializer with access := .publicAccess },
    insertFunction d, ?types, ?functions, ⟨⟨rfl, rfl, rfl⟩, ?union, ?stored, ?storages,
      d.entities.map insertionCase, ?cases, ?switch⟩⟩
  case types =>
    rw [graphFile, SourceFile.types, SourceFile.filterMap_addingSeparated rfl]
    rfl
  case functions =>
    rw [Item.functions, graphClass_filterMap rfl]
    simp [storageProperty, Item.function?, List.filterMap_map]
  case union => simp [anyEntity, Item.unionCase?]
  case stored =>
    rw [graphClass_filterMap rfl]
    simp [storageProperty, Item.storedName?, List.filterMap_map, Function.comp_def]
  case storages =>
    rw [graphClass_filterMap rfl]
    simp [storageProperty, storageType, Item.emptyStorage?, List.filterMap_map, Function.comp_def]
  case cases =>
    rw [List.forall₂_map_right_iff, List.forall₂_same]
    exact fun e _ => insertionCase_insertsInto d e
  case switch =>
    by_cases h : d.entities = []
    · simp [insertFunction, h]
    · simp [insertFunction, h, Part.switch?, List.filterMap_cons, insertionCases_switchFree]

/-- Three entities whose files are emitted: one is merged by its identifier, one replaced, and
one is appended though its file declares merging. -/
theorem graphFile_aligned_kinds :
    ∃ d : Descriptions,
      d.entities.map (fun e => ((entityFile d e).toOption.map SourceFile.functionNames,
          insertionText e)) =
        [(some ["entityIndexValue", "merging"], "itemByIdentifier[value.identifier] = "
          ++ "itemByIdentifier[value.identifier].map \x7b $0.merging(value) \x7d ?? value"),
         (some [], "tagByIdentifier[value.identifier] = value"),
         (some ["entityIndexValue", "merging"], "settingsList.append(value)")] ∧
      ∃ union graph init insert, (graphFile d).types = [union, graph] ∧
        Item.functions (.type graph) = [init, insert] ∧ GraphAligned d union graph insert :=
  ⟨{ version := "1"
     entities :=
       [{ name := "item", identifier := { kind := .scalar .int }
          properties := [{ name := "views", type := .scalar .int, isLazy := true }] },
        { name := "tag", identifier := { kind := .scalar .string } },
        { name := "settings", identifier := { kind := .void }
          properties := [{ name := "theme", type := .scalar .string, isLazy := true }] }] },
    by decide +kernel, graphFile_aligned _⟩

end EntityGen.Emit
