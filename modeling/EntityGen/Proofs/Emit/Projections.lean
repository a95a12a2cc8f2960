import EntityGen.Proofs.Emit.Sources
import EntityGen.Proofs.Emit.TypeMentions

/-!
# Identifiers of embedded payloads

A payload embeds the payload of a relationship's target, and the entity keeps
the identifier of it. The initializer takes that identifier whatever the target
is; the target's payload has one unless its identifier is void.
-/

namespace EntityGen.Emit

open Code
open Schema (Descriptions Entity Relationship)

variable {d : Descriptions} {settings : Settings} {files : List Source} {e : Entity}
  {p : Schema.Property} {r : Relationship}

-- ---------------------------------------------------------------------------
-- Projections
-- ---------------------------------------------------------------------------

/-- The embedded payload whose identifier is taken: each of a sequence, or the field of the
payload, inside of `Lazy` if it is lazy. -/
def embeddedPayload (p : Schema.Property) (r : Relationship) : Expr :=
  match r.association with
  | .toMany => .name "$0"
  | .toOne =>
    (if p.isLazy then Expr.name "value"
      else .member (.name "payload") (memberName p.name)).optionalIf p.isOptional

theorem payloadValue_projects (hr : p.relationship? = some r) (hembedded : r.idOnly = false)
    (hname : memberName p.name ≠ "identifier") {base : Expr} :
    .expr (.member base "identifier") ∈
        (payloadValue p (.member (.name "payload") (memberName p.name))).parts ↔
      base = embeddedPayload p r := by
  simp only [payloadValue, hr, hembedded, embeddedPayload]
  cases r.association <;> cases p.isLazy <;> cases p.isOptional <;>
    simp [embeddedIdentifiers, Expr.optionalIf, hname.symm]

def payloadArguments (e : Entity) : List Argument :=
  initializerArguments e (.member (.name "payload") "identifier") fun p =>
    payloadValue p (.member (.name "payload") (memberName p.name))

theorem payloadInitializer_delegates (e : Entity) :
    .item (.expr (Expr.selfRef.method "init" (payloadArguments e))) ∈
      (Item.extension (payloadInitializer e)).parts := by
  simp [payloadInitializer, payloadArguments]

theorem entityFile_initializer {file : SourceFile} (h : entityFile d e = .ok file)
    (hremote : e.isRemote = true) : .extension (payloadInitializer e) ∈ file.body := by
  simp only [entityFile, bind_ok, pure_ok] at h
  obtain ⟨items, hitems, rfl⟩ := h
  obtain ⟨decl, index, -, -, rfl⟩ := entityItems_ok hitems
  exact SourceFile.mem_addingSeparated (by simp [hremote]) (by simp)

/-- The file passes the initializer, as the property's argument, identifiers of the embedded
payloads and of nothing else. -/
def ProjectsIdentifier (file : SourceFile) (p : Schema.Property) (r : Relationship) : Prop :=
  ∃ arguments, .item (.expr (Expr.selfRef.method "init" arguments)) ∈ Item.partsOf file.body ∧
    ∃ a ∈ arguments, a.label = some (memberName p.name) ∧
      ∀ base, .expr (.member base "identifier") ∈ a.value.parts ↔ base = embeddedPayload p r

theorem entityFile_projects {file : SourceFile} (h : entityFile d e = .ok file)
    (hremote : e.isRemote = true) (hp : p ∈ e.properties) (hr : p.relationship? = some r)
    (hembedded : r.idOnly = false) (hname : memberName p.name ≠ "identifier") :
    ProjectsIdentifier file p r := by
  have hdelegates : .item (.expr (Expr.selfRef.method "init" (payloadArguments e))) ∈
      Item.partsOf file.body :=
    Item.mem_partsOf.mpr ⟨_, entityFile_initializer h hremote, payloadInitializer_delegates e⟩
  have hargument : Argument.labelled (memberName p.name)
      (payloadValue p (.member (.name "payload") (memberName p.name))) ∈ payloadArguments e :=
    List.mem_append_right _ (List.mem_map_of_mem (Schema.Entity.mem_storedProperties.mpr hp))
  exact ⟨_, hdelegates, _, hargument, rfl, fun _ => payloadValue_projects hr hembedded hname⟩

-- ---------------------------------------------------------------------------
-- Targets
-- ---------------------------------------------------------------------------

theorem payloadFile_fieldType {file : SourceFile} (h : payloadFile d e = .ok file)
    (hp : p ∈ e.properties) : ∃ type, fieldElementType d e p = .ok type := by
  simp only [payloadFile, payloadStruct, payloadFields, bind_ok, pure_ok] at h
  obtain ⟨_, ⟨_, ⟨fields, hfields, -⟩, -⟩, -⟩ := h
  obtain ⟨field, -, hfield⟩ :=
    exists_of_mapM_ok hfields (Schema.Entity.mem_storedProperties.mpr hp)
  simp only [payloadField, fieldType, bind_ok, pure_ok] at hfield
  obtain ⟨_, ⟨type, htype, -⟩, -⟩ := hfield
  exact ⟨type, htype⟩

/-- The file declares the type with a stored member of this name. -/
def DeclaresMember (file : SourceFile) (type : TypeName) (name : String) : Prop :=
  ∃ decl, .type decl ∈ file.body ∧ decl.name = type ∧
    name ∈ decl.body.filterMap Item.storedName?

theorem payloadFile_declares {file : SourceFile} (h : payloadFile d e = .ok file) {name : String} :
    DeclaresMember file (payloadType e.name) name ↔ name ∈ memberLabels e := by
  simp only [payloadFile, bind_ok, pure_ok] at h
  obtain ⟨decl, hdecl, rfl⟩ := h
  have hmembers := payloadStruct_storedNames hdecl
  have hname : decl.name = payloadType e.name := by
    simp only [payloadStruct, bind_ok, pure_ok] at hdecl
    obtain ⟨fields, -, rfl⟩ := hdecl
    rfl
  rw [← hmembers]
  simp [DeclaresMember, emittedFile, hname]

theorem memberName_ne_identifier (hvalid : d.validate = .ok ()) (he : e ∈ d.entities)
    (hp : p ∈ e.properties) : memberName p.name ≠ "identifier" := by
  have hreserved := Descriptions.checkProperty_notReserved
    (Descriptions.validate_property hvalid he hp)
  simpa [Schema.reservedNames, memberName] using hreserved

theorem identifier_mem_memberLabels (hvalid : d.validate = .ok ()) (he : e ∈ d.entities) :
    "identifier" ∈ memberLabels e ↔ e.hasVoidIdentifier = false := by
  have hproperties : "identifier" ∉ e.storedProperties.map fun p => memberName p.name := by
    intro hmem
    obtain ⟨p, hp, hname⟩ := List.mem_map.mp hmem
    exact memberName_ne_identifier hvalid he (Schema.Entity.mem_storedProperties.mp hp) hname
  rw [memberLabels, List.mem_append, or_iff_left hproperties]
  cases e.hasVoidIdentifier <;> simp

-- ---------------------------------------------------------------------------
-- Sources
-- ---------------------------------------------------------------------------

section
variable (hvalid : d.validate = .ok ()) (hsources : sources d settings = .ok files)
  (he : e ∈ d.entities) (hremote : e.isRemote = true) (hp : p ∈ e.properties)
  (hr : p.relationship? = some r) (hembedded : r.idOnly = false)
include hvalid hsources he hremote hp hr hembedded

theorem exists_projecting_source :
    ∃ s ∈ files, s.BelongsTo d settings "Entities" ∧ entityFile d e = .ok s.file ∧
      ProjectsIdentifier s.file p r := by
  obtain ⟨s, hs, hbelongs, hfile⟩ := exists_entity_source hsources he
  exact ⟨s, hs, hbelongs, hfile, entityFile_projects hfile hremote hp hr hembedded
    (memberName_ne_identifier hvalid he hp)⟩

theorem exists_target_source :
    ∃ t, d.entity? r.entityName = some t ∧ fieldElementType d e p = .ok (payloadType t.name) ∧
      ∃ s ∈ files, s.BelongsTo d settings "Payloads" ∧ payloadFile d t = .ok s.file ∧
        (DeclaresMember s.file (payloadType t.name) "identifier" ↔
          t.hasVoidIdentifier = false) := by
  obtain ⟨own, -, -, hown⟩ := exists_payload_source hsources he hremote
  obtain ⟨type, htype⟩ := payloadFile_fieldType hown hp
  obtain ⟨t, ht, htarget, rfl⟩ := fieldElementType_embedded htype hr hembedded
  have hmem := Descriptions.mem_of_entity? ht
  obtain ⟨s, hs, hbelongs, hfile⟩ := exists_payload_source hsources hmem htarget
  refine ⟨t, ht, htype, s, hs, hbelongs, hfile, ?_⟩
  rw [payloadFile_declares hfile, identifier_mem_memberLabels hvalid hmem]

end

/-- The identifier of an embedded payload is taken out of the payload of the target, which
declares one exactly if the target's identifier is not void. -/
theorem sourcesOfText_projects {text : String} (hload : Document.load text = .ok d)
    (hfiles : sourcesOfText text settings = .ok files) (he : e ∈ d.entities)
    (hremote : e.isRemote = true) (hp : p ∈ e.properties) (hr : p.relationship? = some r)
    (hembedded : r.idOnly = false) :
    (∃ s ∈ files, s.BelongsTo d settings "Entities" ∧ entityFile d e = .ok s.file ∧
      ProjectsIdentifier s.file p r) ∧
    ∃ t, d.entity? r.entityName = some t ∧ fieldElementType d e p = .ok (payloadType t.name) ∧
      ∃ s ∈ files, s.BelongsTo d settings "Payloads" ∧ payloadFile d t = .ok s.file ∧
        (DeclaresMember s.file (payloadType t.name) "identifier" ↔
          t.hasVoidIdentifier = false) := by
  obtain ⟨hvalid, hsources⟩ := sources_of_load hload hfiles
  exact ⟨exists_projecting_source hvalid hsources he hremote hp hr hembedded,
    exists_target_source hvalid hsources he hremote hp hr hembedded⟩

/-- An item embeds its settings, whose identifier is of the given type. -/
def settingsText (identifier : String) : String :=
  "<descriptions version='1'><entities><entity name='settings'><identifier type='" ++ identifier
    ++ "'/></entity><entity name='item'><property name='settings' relationship='settings'/></entity>"
    ++ "</entities></descriptions>"

def Embeds (d : Descriptions) (isVoid : Bool) : Prop :=
  ∃ e ∈ d.entities, e.isRemote = true ∧ ∃ p ∈ e.properties, ∃ r ∈ p.relationship?.toList,
    r.idOnly = false ∧ (d.entity? r.entityName).all (·.hasVoidIdentifier == isVoid) = true

instance (d : Descriptions) (isVoid : Bool) : Decidable (Embeds d isVoid) := by
  unfold Embeds
  infer_instance

theorem sourcesOfText_projects_string :
    ∃ d files, Document.load (settingsText "string") = .ok d ∧
      sourcesOfText (settingsText "string") {} = .ok files ∧
      ∃ e ∈ d.entities, e.isRemote = true ∧ ∃ p ∈ e.properties, ∃ r, p.relationship? = some r ∧
        r.idOnly = false ∧
        (∃ s ∈ files, s.BelongsTo d {} "Entities" ∧ ProjectsIdentifier s.file p r) ∧
        ∃ t, d.entity? r.entityName = some t ∧
          ∃ s ∈ files, s.BelongsTo d {} "Payloads" ∧
            DeclaresMember s.file (payloadType t.name) "identifier" := by
  have hloaded : ((Document.load (settingsText "string")).toOption.map fun d =>
      decide ((sourcesOfText (settingsText "string") {}).toOption.isSome ∧ Embeds d false)) = some true := by
    have htext : settingsText "string" = _ :=
      Markup.append_eq_ofList (Markup.append_eq_ofList (Markup.append_eq_ofList rfl rfl) rfl) rfl
    rw [sourcesOfText, Document.load, Markup.nodes_of_ofList htext]
    decide +kernel
  obtain ⟨d, files, hload, hfiles, e, he, hremote, p, hp, r, hr, hembedded, hvoid⟩ :=
    exists_sources_of_decide hloaded
  have hr := Option.mem_toList.mp hr
  obtain ⟨⟨s, hs, hbelongs, -, hprojects⟩, t, ht, -, s', hs', hbelongs', -, hdeclares⟩ :=
    sourcesOfText_projects hload hfiles he hremote hp hr hembedded
  have hvoid : t.hasVoidIdentifier = false := by simpa [ht] using hvoid
  exact ⟨d, files, hload, hfiles, e, he, hremote, p, hp, r, hr, hembedded,
    ⟨s, hs, hbelongs, hprojects⟩, t, ht, s', hs', hbelongs', hdeclares.mpr hvoid⟩

/-- The initializer takes an identifier that the payload of the settings does not declare. -/
theorem sourcesOfText_projects_undeclared :
    ∃ d files, Document.load (settingsText "void") = .ok d ∧
      sourcesOfText (settingsText "void") {} = .ok files ∧
      ∃ e ∈ d.entities, e.isRemote = true ∧ ∃ p ∈ e.properties, ∃ r, p.relationship? = some r ∧
        r.idOnly = false ∧
        (∃ s ∈ files, s.BelongsTo d {} "Entities" ∧ ProjectsIdentifier s.file p r) ∧
        ∃ t, d.entity? r.entityName = some t ∧
          ∃ s ∈ files, s.BelongsTo d {} "Payloads" ∧ payloadFile d t = .ok s.file ∧
            ¬DeclaresMember s.file (payloadType t.name) "identifier" := by
  have hloaded : ((Document.load (settingsText "void")).toOption.map fun d =>
      decide ((sourcesOfText (settingsText "void") {}).toOption.isSome ∧ Embeds d true)) = some true := by
    have htext : settingsText "void" = _ :=
      Markup.append_eq_ofList (Markup.append_eq_ofList (Markup.append_eq_ofList rfl rfl) rfl) rfl
    rw [sourcesOfText, Document.load, Markup.nodes_of_ofList htext]
    decide +kernel
  obtain ⟨d, files, hload, hfiles, e, he, hremote, p, hp, r, hr, hembedded, hvoid⟩ :=
    exists_sources_of_decide hloaded
  have hr := Option.mem_toList.mp hr
  obtain ⟨hvalid, hsources⟩ := sources_of_load hload hfiles
  obtain ⟨s, hs, hbelongs, -, hprojects⟩ :=
    exists_projecting_source hvalid hsources he hremote hp hr hembedded
  obtain ⟨t, ht, -, s', hs', hbelongs', hfile, hdeclares⟩ :=
    exists_target_source hvalid hsources he hremote hp hr hembedded
  have hvoid : t.hasVoidIdentifier = true := by simpa [ht] using hvoid
  refine ⟨d, files, hload, hfiles, e, he, hremote, p, hp, r, hr, hembedded,
    ⟨s, hs, hbelongs, hprojects⟩, t, ht, s', hs', hbelongs', hfile, fun h => ?_⟩
  rw [hdeclares.mp h] at hvoid
  cases hvoid

end EntityGen.Emit
