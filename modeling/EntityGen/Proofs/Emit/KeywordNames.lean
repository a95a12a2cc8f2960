import EntityGen.Proofs.Code.Introductions
import EntityGen.Proofs.Emit.DefaultTypes

/-!
# Keywords as names

Descriptions may give a case or a property the name of a keyword. The case is
declared in backquotes. The property is declared by the bare keyword, as a
function and a binding would be.
-/

namespace EntityGen.Emit

open Code
open Schema (Choice Descriptions Entity Subtype)

-- ---------------------------------------------------------------------------
-- What files introduce
-- ---------------------------------------------------------------------------

section
variable {d : Descriptions} {file : SourceFile}

theorem subtypeFile_introduces {s : Subtype} {c : Choice} (h : subtypeFile d s = .ok file)
    (hc : c ∈ s.usedCases) :
    { kind := .enumCase, name := memberName c.name } ∈ file.introductions := by
  obtain ⟨choices, hcases⟩ : ∃ choices, s.items = .cases choices := by
    unfold Subtype.usedCases at hc
    split at hc
    · next choices hcases => exact ⟨choices, hcases⟩
    · cases hc
  obtain ⟨item, hitem, htype⟩ := List.mem_filterMap.mp (caseDeclaration_mem_types hcases h)
  obtain rfl := Item.type?_eq_some.mp htype
  exact SourceFile.mem_introductions hitem (List.mem_map_of_mem hc) (List.mem_singleton_self _)

theorem entityFile_class {e : Entity} (h : entityFile d e = .ok file) :
    ∃ decl, entityClass d e = .ok decl ∧ .type decl ∈ file.body := by
  simp only [entityFile, bind_ok, pure_ok] at h
  obtain ⟨items, hitems, rfl⟩ := h
  obtain ⟨decl, index, hdecl, -, rfl⟩ := entityItems_ok hitems
  exact ⟨decl, hdecl, SourceFile.mem_addingSeparated (by simp) (by simp)⟩

theorem entityFile_introduces {e : Entity} {p : Schema.Property} (h : entityFile d e = .ok file)
    (hp : p ∈ e.properties) :
    { kind := .property true, name := memberName p.name } ∈ file.introductions := by
  obtain ⟨decl, hdecl, hmem⟩ := entityFile_class h
  obtain ⟨members, aliases, hmembers, hbody, -⟩ := entityClass_ok hdecl
  have hlabel : memberName p.name ∈ members.map Prod.fst := by
    rw [storedMembers_names hmembers]
    exact List.mem_append_right _ (List.mem_map_of_mem (Schema.Entity.mem_storedProperties.mpr hp))
  obtain ⟨⟨_, type⟩, hmember, rfl⟩ := List.mem_map.mp hlabel
  have hproperty : constantProperty (memberName p.name) type ∈ decl.body := by
    rw [hbody]
    refine Item.mem_grouped (List.mem_cons_of_mem _ List.mem_cons_self) ?_ (by rintro ⟨⟩)
    exact List.mem_append_right _ (List.mem_map_of_mem hmember)
  exact SourceFile.mem_introductions hmem hproperty (List.mem_singleton_self _)

end

-- ---------------------------------------------------------------------------
-- Sources
-- ---------------------------------------------------------------------------

/-- A source of the directory introduces the name, and its text shows it. -/
def Introduces (d : Descriptions) (settings : Settings) (files : List Source) (directory : String)
    (i : Introduction) : Prop :=
  ∃ s ∈ files, s.BelongsTo d settings directory ∧ i ∈ s.file.introductions ∧ i.In s.file.render

/-- The text of code shows each name that the code introduces, and shows a keyword as one unless
it is the name of a case. The used cases and the properties of accepted descriptions are
introduced so. -/
theorem introductions_valid_iff (items : List Item) (level : Nat) :
    (∀ i ∈ Part.introductionsOf (Item.partsOf items),
      i.In (Item.renderAll level items) ∧ (i.IsValid ↔ i.kind = .enumCase ∨ i.name ∉ keywords)) ∧
    ∀ {text : String} {d : Descriptions} {settings : Settings} {files : List Source},
      Document.load text = .ok d → sourcesOfText text settings = .ok files →
      (∀ s ∈ d.subtypes, ∀ c ∈ s.usedCases,
        let i : Introduction := { kind := .enumCase, name := memberName c.name }
        Introduces d settings files "Subtypes" i ∧ i.IsValid) ∧
      ∀ e ∈ d.entities, ∀ p ∈ e.properties,
        let i : Introduction := { kind := .property true, name := memberName p.name }
        Introduces d settings files "Entities" i ∧ (i.IsValid ↔ memberName p.name ∉ keywords) := by
  refine ⟨fun i hi => ⟨Item.shows_renderAll items level i hi, i.isValid_iff⟩, ?_⟩
  intro text d settings files hload hfiles
  obtain ⟨-, hsources⟩ := sources_of_load hload hfiles
  constructor
  · intro s hs c hc
    obtain ⟨source, hmem, hbelongs, hfile⟩ := exists_subtype_source hsources hs
    have hintroduced := subtypeFile_introduces hfile hc
    refine ⟨⟨source, hmem, hbelongs, hintroduced, ?_⟩, ?_⟩
    · exact SourceFile.introduction_in hintroduced
    · exact (Introduction.isValid_iff _).mpr (.inl rfl)
  · intro e he p hp
    obtain ⟨source, hmem, hbelongs, hfile⟩ := exists_entity_source hsources he
    have hintroduced := entityFile_introduces hfile hp
    refine ⟨⟨source, hmem, hbelongs, hintroduced, ?_⟩, ?_⟩
    · exact SourceFile.introduction_in hintroduced
    · rw [Introduction.isValid_iff]
      exact or_iff_right nofun

-- ---------------------------------------------------------------------------
-- A keyword as a name
-- ---------------------------------------------------------------------------

def keywordText : String :=
  "<descriptions version='1'><subtypes><subtype name='s'><case name='class'/></subtype></subtypes>"
    ++ "<entities><entity name='a'><property name='class' type='int'/></entity></entities>"
    ++ "</descriptions>"

theorem introductions_valid_iff_class :
    ∃ d files, Document.load keywordText = .ok d ∧ sourcesOfText keywordText {} = .ok files ∧
      (∃ i : Introduction, i.text = "case \x60class\x60" ∧ i.IsValid ∧
        Introduces d {} files "Subtypes" i) ∧
      ∃ i : Introduction, i.text = "let class" ∧ ¬i.IsValid ∧
        Introduces d {} files "Entities" i := by
  have htext : keywordText = _ := Markup.append_eq_ofList (Markup.append_eq_ofList rfl rfl) rfl
  obtain ⟨d, files, hload, hfiles, ⟨s, hs, c, hc, hcase⟩, e, he, p, hp, hproperty⟩ : ∃ d files,
      Document.load keywordText = .ok d ∧ sourcesOfText keywordText {} = .ok files ∧
      (∃ s ∈ d.subtypes, ∃ c ∈ s.usedCases, memberName c.name = "class") ∧
      ∃ e ∈ d.entities, ∃ p ∈ e.properties, memberName p.name = "class" := by
    refine exists_sources_of_decide ?_
    rw [sourcesOfText, Document.load, Markup.nodes_of_ofList htext]
    decide +kernel
  obtain ⟨hcases, hproperties⟩ := (introductions_valid_iff [] 0).2 hload hfiles
  obtain ⟨hintroduced, hvalid⟩ := hcases s hs c hc
  obtain ⟨hdeclared, hiff⟩ := hproperties e he p hp
  rw [hcase] at hintroduced hvalid
  rw [hproperty] at hdeclared hiff
  refine ⟨d, files, hload, hfiles, ⟨_, ?_, hvalid, hintroduced⟩, _, rfl, ?_, hdeclared⟩
  · decide
  · exact fun h => hiff.mp h (by decide)

/-- A property, a function, a binding of an optional and one of a pattern, all with a keyword as
their name and none of them in backquotes. -/
theorem renderItems_bareKeyword :
    ∃ items : List Item, "class" ∈ keywords ∧
      (∀ kind ∈ [.property true, .function, .optionalBinding, .patternBinding],
        { kind, name := "class" } ∈ Part.introductionsOf (Item.partsOf items)) ∧
      '\x60' ∉ (renderItems items).toList := by
  refine ⟨[.property { var := { name := "class" } }, .function { kind := .named "class" },
    .branch [.binding "class" (.name "a")] [] none,
    .switch (.name "a") [{ pattern := .bindings "b" ["class"] }]], ?_, ?_, ?_⟩
  · decide
  · decide
  · decide +kernel

end EntityGen.Emit
