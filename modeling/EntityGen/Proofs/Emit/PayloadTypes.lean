import EntityGen.Proofs.Emit.Sources
import EntityGen.Proofs.Emit.TypeMentions

/-!
# Payload types and their declarations

Each remote entity has a file that declares its payload type. Entities and
payloads refer to no others. Endpoints refer to the payload type of any entity,
remote or not.
-/

namespace EntityGen.Emit

open Code
open Schema (Descriptions Endpoint EndpointPayload Entity)

def payloadName (e : Entity) : String := (payloadType e.name).name

/-- The name of no entity, subtype or payload of an endpoint is that of a payload type. -/
structure PayloadNamesApart (d : Descriptions) : Prop where
  entity : ∀ e ∈ d.entities, ∀ t ∈ d.entities, payloadName e ≠ (entityType t.name).name
  subtype : ∀ e ∈ d.entities, ∀ s ∈ d.subtypes, payloadName e ≠ (subtypeType s.name).name
  endpoint : ∀ e ∈ d.entities, ∀ x ∈ d.endpoints, ∀ side,
    payloadName e ≠ (endpointPayloadType x.name side).name

variable {d : Descriptions} {settings : Settings} {files : List Source} {e : Entity}

-- ---------------------------------------------------------------------------
-- Names of payload types
-- ---------------------------------------------------------------------------

theorem payloadName_getLast? (e : Entity) : (payloadName e).toList.getLast? = some 'd' := by
  rw [payloadName, payloadType, String.toList_append, List.getLast?_append]
  rfl

theorem Known.payload_of_apart {payloads : Entity → Prop} (hapart : PayloadNamesApart d)
    (he : e ∈ d.entities) (h : Known d payloads (payloadName e)) :
    ∃ t ∈ d.entities, payloads t ∧ payloadName t = payloadName e := by
  have hlast := payloadName_getLast? e
  generalize hname : payloadName e = name at h hlast
  cases h with
  | common h =>
    have hcommon : ∀ name ∈ commonTypes, name.toList.getLast? ≠ some 'd' := by decide
    exact absurd hlast (hcommon name h)
  | identifier => simp [identifierTypeNamed] at hlast
  | index => simp [indexNameType] at hlast
  | entity ht => exact absurd hname (hapart.entity e he _ ht)
  | subtype hs => exact absurd hname (hapart.subtype e he _ hs)
  | endpoint hx side => exact absurd hname (hapart.endpoint e he _ hx side)
  | payload ht hp => exact ⟨_, ht, hp, rfl⟩

-- ---------------------------------------------------------------------------
-- Declarations
-- ---------------------------------------------------------------------------

def PayloadDeclared (d : Descriptions) (settings : Settings) (files : List Source) (e : Entity) :
    Prop :=
  ∃ s ∈ files, s.BelongsTo d settings "Payloads" ∧ payloadName e ∈ s.file.declarations

def PayloadsDeclared (d : Descriptions) (settings : Settings) (files : List Source)
    (directory : String) : Prop :=
  ∀ s ∈ files, s.BelongsTo d settings directory → ∀ e ∈ d.entities, payloadName e ∈ s.file.mentions →
    PayloadDeclared d settings files e

theorem payloadFile_declarations {file : SourceFile} (h : payloadFile d e = .ok file) :
    file.declarations = [payloadName e] := by
  simp only [payloadFile, payloadStruct, bind_ok, pure_ok] at h
  obtain ⟨_, ⟨fields, -, rfl⟩, rfl⟩ := h
  rfl

theorem payloadDeclared_iff (h : sources d settings = .ok files) :
    PayloadDeclared d settings files e ↔
      ∃ t ∈ d.entities, t.isRemote = true ∧ payloadName t = payloadName e := by
  constructor
  · rintro ⟨s, -, hs, hdeclared⟩
    obtain ⟨t, ht, hremote, hfile⟩ := hs.payload
    rw [payloadFile_declarations hfile, List.mem_singleton] at hdeclared
    exact ⟨t, ht, hremote, hdeclared.symm⟩
  · rintro ⟨t, ht, hremote, hname⟩
    obtain ⟨s, hs, hbelongs, hfile⟩ := exists_payload_source h ht hremote
    refine ⟨s, hs, hbelongs, ?_⟩
    rw [payloadFile_declarations hfile, List.mem_singleton, hname]

-- ---------------------------------------------------------------------------
-- What files mention
-- ---------------------------------------------------------------------------

theorem forall_mem_addingSeparated_mentions {name : String} {items : List Item}
    {p : String → Prop} :
    (∀ x ∈ ((emittedFile name).addingSeparated items).mentions, p x) ↔
      ∀ i ∈ items, i.MentionsOnly p := by
  rw [SourceFile.forall_mem_mentions, SourceFile.forall_mem_addingSeparated]
  · simp [emittedFile]
  · simp [Part.MentionsOnly, Part.types]

theorem entityFile_mentions (he : e ∈ d.entities) {file : SourceFile}
    (h : entityFile d e = .ok file) : ∀ name ∈ file.mentions, Known d (·.isRemote = true) name := by
  simp only [entityFile, bind_ok, pure_ok] at h
  obtain ⟨items, hitems, rfl⟩ := h
  exact forall_mem_addingSeparated_mentions.mpr (entityItems_mentions he hitems id)

theorem payloadFile_mentions (he : e ∈ d.entities) (hremote : e.isRemote = true)
    {file : SourceFile} (h : payloadFile d e = .ok file) :
    ∀ name ∈ file.mentions, Known d (·.isRemote = true) name := by
  simp only [payloadFile, bind_ok, pure_ok] at h
  obtain ⟨decl, hdecl, rfl⟩ := h
  rw [SourceFile.forall_mem_mentions, SourceFile.adding_body]
  simpa [emittedFile] using payloadStruct_mentions he hremote hdecl fun _ h => h

/-- An endpoint has a payload of the entity. -/
def IsEndpointEntity (d : Descriptions) (e : Entity) : Prop :=
  ∃ x ∈ d.endpoints, ∃ p ∈ x.payloads, d.entity? p.entityName = some e

theorem endpointSide_mentions {x : Endpoint} (hx : x ∈ d.endpoints) {side : PayloadSide}
    {payload : Option EndpointPayload} (hp : ∀ p ∈ payload, p ∈ x.payloads) {items : List Item}
    (h : endpointSide d x side payload = .ok items) :
    ∀ i ∈ items, i.MentionsOnly (Known d (IsEndpointEntity d)) := by
  cases payload with
  | none =>
    cases h
    simp
  | some p =>
    simp only [endpointSide, bind_ok, pure_ok] at h
    obtain ⟨decl, hdecl, rfl⟩ := h
    exact List.forall_mem_singleton.mpr
      (endpointPayload_mentions hx hdecl fun e he => ⟨x, hx, p, hp p rfl, he⟩)

theorem endpointFile_ok {x : Endpoint} {file : SourceFile} (h : endpointFile d x = .ok file) :
    ∃ read write, endpointSide d x .read x.read = .ok read ∧
      endpointSide d x .write x.write = .ok write ∧
      ∀ q : String → Prop, (∀ name ∈ file.mentions, q name) ↔
        (∀ i ∈ read, i.MentionsOnly q) ∧ ∀ i ∈ write, i.MentionsOnly q := by
  simp only [endpointFile, bind_ok, pure_ok] at h
  obtain ⟨read, hread, write, hwrite, rfl⟩ := h
  refine ⟨read, write, hread, hwrite, fun q => ?_⟩
  rw [forall_mem_addingSeparated_mentions, List.forall_mem_append]

theorem endpointFile_mentions {x : Endpoint} (hx : x ∈ d.endpoints) {file : SourceFile}
    (h : endpointFile d x = .ok file) :
    ∀ name ∈ file.mentions, Known d (IsEndpointEntity d) name := by
  obtain ⟨read, write, hread, hwrite, hmentions⟩ := endpointFile_ok h
  refine (hmentions _).mpr ⟨?_, ?_⟩
  · exact endpointSide_mentions hx (by simp +contextual [Endpoint.payloads]) hread
  · exact endpointSide_mentions hx (by simp +contextual [Endpoint.payloads]) hwrite

theorem endpointSide_mentions_entity {x : Endpoint} {side : PayloadSide} {p : EndpointPayload}
    {items : List Item} (h : endpointSide d x side (some p) = .ok items)
    (he : d.entity? p.entityName = some e) {q : String → Prop}
    (hq : ∀ i ∈ items, i.MentionsOnly q) : q (payloadName e) := by
  simp only [endpointSide, bind_ok, pure_ok] at h
  obtain ⟨decl, hdecl, rfl⟩ := h
  obtain ⟨entity, field, isSequence, place, hfound, -, -, hbody⟩ := endpointPayload_ok hdecl
  obtain rfl : e = entity := Option.some.inj (he.symm.trans hfound)
  have hbodies := (Item.each_type.mp (List.forall_mem_singleton.mp hq)).2
  rw [hbody, mentionsOnly_grouped] at hbodies
  simp only [List.forall_mem_append, List.forall_mem_singleton] at hbodies
  obtain ⟨⟨hfield, -⟩, -⟩ := hbodies
  rw [constantProperty_mentionsOnly] at hfield
  cases isSequence with
  | false => exact (TypeName.each_iff.mp hfield).1
  | true => exact (TypeName.each_iff.mp (TypeName.each_anySequence.mp hfield).2).1

theorem endpointFile_mentions_entity {x : Endpoint} {p : EndpointPayload} (hp : p ∈ x.payloads)
    (he : d.entity? p.entityName = some e) {file : SourceFile}
    (h : endpointFile d x = .ok file) : payloadName e ∈ file.mentions := by
  obtain ⟨read, write, hread, hwrite, hmentions⟩ := endpointFile_ok h
  obtain ⟨hreads, hwrites⟩ := (hmentions (· ∈ file.mentions)).mp fun _ hname => hname
  simp only [Endpoint.payloads, List.mem_append, Option.mem_toList] at hp
  rcases hp with hp | hp
  · rw [hp] at hread
    exact endpointSide_mentions_entity hread he hreads
  · rw [hp] at hwrite
    exact endpointSide_mentions_entity hwrite he hwrites

-- ---------------------------------------------------------------------------
-- Directories
-- ---------------------------------------------------------------------------

theorem IsEndpointEntity.mem (he : IsEndpointEntity d e) : e ∈ d.entities := by
  obtain ⟨x, -, p, -, he⟩ := he
  exact Descriptions.mem_of_entity? he

theorem exists_endpoint_mention (h : sources d settings = .ok files)
    (he : IsEndpointEntity d e) :
    ∃ s ∈ files, s.BelongsTo d settings "Endpoints" ∧ payloadName e ∈ s.file.mentions := by
  obtain ⟨x, hx, p, hp, he⟩ := he
  obtain ⟨s, hs, hbelongs, hfile⟩ := exists_endpoint_source h hx (List.ne_nil_of_mem hp)
  exact ⟨s, hs, hbelongs, endpointFile_mentions_entity hp he hfile⟩

section
variable (h : sources d settings = .ok files) (hapart : PayloadNamesApart d)
include h hapart

/-- Sources that refer to remote entities only refer to declared payload types. -/
theorem payloadsDeclared_of_remote {directory : String}
    (hknown : ∀ s : Source, s.BelongsTo d settings directory →
      ∀ name ∈ s.file.mentions, Known d (·.isRemote = true) name) :
    PayloadsDeclared d settings files directory := by
  intro s _ hs e he hmention
  rw [payloadDeclared_iff h]
  exact (hknown s hs _ hmention).payload_of_apart hapart he

theorem entities_payloadsDeclared : PayloadsDeclared d settings files "Entities" := by
  refine payloadsDeclared_of_remote h hapart fun s hs => ?_
  obtain ⟨e, he, hfile⟩ := hs.entity
  exact entityFile_mentions he hfile

theorem payloads_payloadsDeclared : PayloadsDeclared d settings files "Payloads" := by
  refine payloadsDeclared_of_remote h hapart fun s hs => ?_
  obtain ⟨e, he, hremote, hfile⟩ := hs.payload
  exact payloadFile_mentions he hremote hfile

theorem endpoints_payloadsDeclared_iff :
    PayloadsDeclared d settings files "Endpoints" ↔
      ∀ e, IsEndpointEntity d e →
        ∃ t ∈ d.entities, t.isRemote = true ∧ payloadName t = payloadName e := by
  constructor
  · intro hdeclared e he
    obtain ⟨s, hs, hbelongs, hmention⟩ := exists_endpoint_mention h he
    rw [← payloadDeclared_iff h]
    exact hdeclared s hs hbelongs e he.mem hmention
  · intro hremote s _ hs e he hmention
    obtain ⟨x, hx, hfile⟩ := hs.endpoint
    obtain ⟨t, -, ht, hname⟩ :=
      (endpointFile_mentions hx hfile _ hmention).payload_of_apart hapart he
    rw [payloadDeclared_iff h, ← hname]
    exact hremote t ht

end

/-- Files of entities and of payloads mention declared payload types only. Those of endpoints
do exactly if each endpoint is for entities that share their payload type with a remote one. -/
theorem sourcesOfText_payloadsDeclared {text : String} (hload : Document.load text = .ok d)
    (hfiles : sourcesOfText text settings = .ok files) (hapart : PayloadNamesApart d) :
    PayloadsDeclared d settings files "Entities" ∧
      PayloadsDeclared d settings files "Payloads" ∧
      (PayloadsDeclared d settings files "Endpoints" ↔
        ∀ x ∈ d.endpoints, ∀ p ∈ x.payloads, ∀ e, d.entity? p.entityName = some e →
          ∃ t ∈ d.entities, t.isRemote = true ∧ payloadName t = payloadName e) := by
  obtain ⟨-, hsources⟩ := sources_of_load hload hfiles
  refine ⟨entities_payloadsDeclared hsources hapart, payloads_payloadsDeclared hsources hapart, ?_⟩
  rw [endpoints_payloadsDeclared_iff hsources hapart]
  constructor
  · exact fun h x hx p hp e he => h e ⟨x, hx, p, hp, he⟩
  · rintro h e ⟨x, hx, p, hp, he⟩
    exact h x hx p hp e he

def embeddingText : String :=
  "<descriptions version='1'><entities><entity name='film'><property name='by' relationship='artist'/>"
    ++ "</entity><entity name='artist'/></entities><endpoints><endpoint name='films'>"
    ++ "<read entity='film' structure='array'/></endpoint></endpoints></descriptions>"

theorem sourcesOfText_payloadsDeclared_embedding :
    ∃ d files, Document.load embeddingText = .ok d ∧
      sourcesOfText embeddingText {} = .ok files ∧ PayloadNamesApart d ∧
      (∃ e, IsEndpointEntity d e) ∧ PayloadsDeclared d {} files "Entities" ∧
      PayloadsDeclared d {} files "Payloads" ∧ PayloadsDeclared d {} files "Endpoints" := by
  have hloaded : ((Document.load embeddingText).toOption.map fun d =>
      decide ((sourcesOfText embeddingText {}).toOption.isSome ∧
        (∀ e ∈ d.entities, e.isRemote = true ∧
          (∀ t ∈ d.entities, payloadName e ≠ (entityType t.name).name) ∧
          (∀ s ∈ d.subtypes, payloadName e ≠ (subtypeType s.name).name) ∧
          ∀ x ∈ d.endpoints, payloadName e ≠ (endpointPayloadType x.name .read).name ∧
            payloadName e ≠ (endpointPayloadType x.name .write).name) ∧
        ∃ x ∈ d.endpoints, ∃ p ∈ x.payloads, (d.entity? p.entityName).isSome)) = some true := by
    have htext : embeddingText = _ :=
      Markup.append_eq_ofList (Markup.append_eq_ofList rfl rfl) rfl
    rw [sourcesOfText, Document.load, Markup.nodes_of_ofList htext]
    decide +kernel
  obtain ⟨d, files, hload, hfiles, hentities, x, hx, p, hp, hfound⟩ :=
    exists_sources_of_decide hloaded
  obtain ⟨e, he⟩ := Option.isSome_iff_exists.mp hfound
  have hapart : PayloadNamesApart d := by
    constructor
    · exact fun e he => (hentities e he).2.1
    · exact fun e he => (hentities e he).2.2.1
    · rintro e he x hx (_ | _)
      · exact ((hentities e he).2.2.2 x hx).1
      · exact ((hentities e he).2.2.2 x hx).2
  obtain ⟨hentity, hpayload, hendpoint⟩ := sourcesOfText_payloadsDeclared hload hfiles hapart
  refine ⟨d, files, hload, hfiles, hapart, ⟨e, x, hx, p, hp, he⟩, hentity, hpayload,
    hendpoint.mpr fun x _ p _ e he => ?_⟩
  have hmem := Descriptions.mem_of_entity? he
  exact ⟨e, hmem, (hentities e hmem).1, rfl⟩

def draftText : String :=
  "<descriptions version='1'><entities><entity name='draft' remote='false'/></entities>"
    ++ "<endpoints><endpoint name='drafts'><read entity='draft'/></endpoint></endpoints></descriptions>"

/-- The payload type of an entity that is not remote is mentioned, but no payload declares it. -/
theorem sourcesOfText_payload_undeclared :
    ∃ d files, Document.load draftText = .ok d ∧ sourcesOfText draftText {} = .ok files ∧
      ∃ s ∈ files, s.BelongsTo d {} "Endpoints" ∧ ∃ e ∈ d.entities, payloadName e ∈ s.file.mentions ∧
        ¬PayloadDeclared d {} files e := by
  have hloaded : ((Document.load draftText).toOption.map fun d =>
      decide ((sourcesOfText draftText {}).toOption.isSome ∧
        (∀ t ∈ d.entities, t.isRemote = false) ∧
        ∃ x ∈ d.endpoints, ∃ p ∈ x.payloads, (d.entity? p.entityName).isSome)) = some true := by
    have htext : draftText = _ := Markup.append_eq_ofList rfl rfl
    rw [sourcesOfText, Document.load, Markup.nodes_of_ofList htext]
    decide +kernel
  obtain ⟨d, files, hload, hfiles, hlocal, x, hx, p, hp, hfound⟩ :=
    exists_sources_of_decide hloaded
  obtain ⟨e, he⟩ := Option.isSome_iff_exists.mp hfound
  obtain ⟨-, hsources⟩ := sources_of_load hload hfiles
  have hendpoint : IsEndpointEntity d e := ⟨x, hx, p, hp, he⟩
  obtain ⟨s, hs, hbelongs, hmention⟩ := exists_endpoint_mention hsources hendpoint
  refine ⟨d, files, hload, hfiles, s, hs, hbelongs, e, hendpoint.mem, hmention, fun hdeclared => ?_⟩
  obtain ⟨t, ht, hremote, -⟩ := (payloadDeclared_iff hsources).mp hdeclared
  rw [hlocal t ht] at hremote
  cases hremote

end EntityGen.Emit
