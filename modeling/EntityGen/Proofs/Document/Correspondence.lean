import EntityGen.Document.Load
import EntityGen.Proofs.Document.AttributeSteps
import EntityGen.Proofs.Markup.Correspondence

/-!
# Reading corresponding documents

If the tags of two documents correspond, and reading the attributes of
corresponding tags gives corresponding results, then so does reading the documents:
both are refused, or both are accepted and their descriptions are alike.
-/

namespace EntityGen.Document

open Markup (Tag Node)
open Schema (Choice Contributor Descriptions Endpoint EndpointPayload Entity Identifier
  IdentifierKind IdentifierValue Member MemberType PayloadStructure PropertyType Subtype)

/-- Corresponding tags have the same name, and the same attributes but for a respelling
of values. Steady steps do not notice in which order, and the types that tags give a
member are related by `P`. -/
structure Corresponds (R : Tag → Tag → Prop) (f : String → String)
    (P : MemberType → MemberType → Prop) : Prop where
  respelling : Respelling f
  name {tag tag' : Tag} : R tag tag' → tag'.name = tag.name
  lookup {tag tag' : Tag} : R tag tag' →
    ∀ name, tag'.attributes.lookup name = (tag.attributes.lookup name).map f
  steady {tag tag' : Tag} : R tag tag' →
    ∀ {α : Type} {T : α → α → Prop} {step : α → String → String → Except Error α},
      Steady f T step → ∀ {a a'}, T a a' →
        Agree T (foldAttributes tag a step) (foldAttributes tag' a' step)
  members {tag tag' : Tag} : R tag tag' → tag.name = "property" →
    Agree (MemberAttributes.Alike P) (foldAttributes tag {} MemberAttributes.read)
      (foldAttributes tag' {} MemberAttributes.read)

namespace Corresponds

variable {R : Tag → Tag → Prop} {f : String → String} {P : MemberType → MemberType → Prop}
  {tag tag' : Tag} {children children' : List Node}

-- ---------------------------------------------------------------------------
-- Tags and children
-- ---------------------------------------------------------------------------

theorem required (h : Corresponds R f P) (ht : R tag tag') (element name : String) :
    Agree (fun value value' => value' = f value) (required tag element name)
      (required tag' element name) := by
  unfold Document.required
  rw [h.lookup ht]
  cases tag.attributes.lookup name with
  | none => exact .error _ _
  | some value => exact .ok rfl

theorem getD (h : Corresponds R f P) (ht : R tag tag') (name value : String) :
    (tag'.attributes.lookup name).getD (f value) = f ((tag.attributes.lookup name).getD value) := by
  rw [h.lookup ht, Option.getD_map]

theorem getD_word (h : Corresponds R f P) (ht : R tag tag') (name : String) {word : String}
    (hword : IsUnreserved word) :
    (tag'.attributes.lookup name).getD word = f ((tag.attributes.lookup name).getD word) := by
  rw [← h.getD ht, h.respelling.apply_word hword]

theorem ignore (hchildren : List.Forall₂ (Node.Alike R) children children') :
    Agree Eq (ignore children) (ignore children') := by
  unfold Document.ignore
  rw [Markup.faultIn?_alike hchildren]
  exact .refl _

theorem ignoring {α β : Type} {T : α → β → Prop}
    (hchildren : List.Forall₂ (Node.Alike R) children children') {a : α} {b : β} (h : T a b) :
    Agree T (Document.ignore children >>= fun _ => pure a)
      (Document.ignore children' >>= fun _ => pure b) :=
  (ignore hchildren).bind fun _ _ _ => .pure h

theorem foldElements {α : Type} {T : α → α → Prop}
    {step : α → Tag → List Node → Except Error α}
    (hchildren : List.Forall₂ (Node.Alike R) children children')
    (hstep : ∀ {tag tag' children children' a a'}, R tag tag' →
      List.Forall₂ (Node.Alike R) children children' → T a a' →
      Agree T (step a tag children) (step a' tag' children'))
    {a a' : α} (ha : T a a') :
    Agree T (foldElements children a step) (foldElements children' a' step) := by
  refine Agree.foldlM hchildren (fun node _ node' a a' hnode ha => ?_) ha
  cases hnode with
  | failed e => exact .error _ _
  | element isEmpty htag hchildren => exact hstep htag hchildren ha

-- ---------------------------------------------------------------------------
-- Subtypes
-- ---------------------------------------------------------------------------

theorem choice (h : Corresponds R f P) (ht : R tag tag') (element : String) :
    Agree (fun c c' => c' = c.mapTexts f) (readChoice element tag) (readChoice element tag') := by
  refine Agree.bind
    (h.steady ht (steady_of_single "unused" (readBool element "unused") ?_ ?_) rfl) ?_
  · intro isUnused name value
    split <;> simp_all
  · exact h.respelling.readBool element "unused"
  rintro isUnused _ rfl
  refine (h.required ht element "name").bind ?_
  rintro name _ rfl
  exact .pure rfl

theorem member (h : Corresponds R f P) (ht : R tag tag') (hname : tag.name = "property") :
    Agree (Member.Alike f P) (readMember tag) (readMember tag') := by
  refine (h.members ht hname).bind fun a a' ha => ?_
  refine (h.required ht "property" "name").bind ?_
  rintro name _ rfl
  obtain ⟨type, isOptional, isArray⟩ := a
  obtain ⟨type', isOptional', isArray'⟩ := a'
  obtain ⟨htype, hoptional, harray⟩ := ha
  dsimp only at htype hoptional harray ⊢
  cases htype with
  | none => exact .error _ _
  | some htype => exact .pure ⟨rfl, htype, h.getD ht "key" name, hoptional, harray⟩

structure ItemsAlike (f : String → String) (P : MemberType → MemberType → Prop)
    (items items' : ItemLists) : Prop where
  cases : items'.cases = items.cases.map (Choice.mapTexts f)
  options : items'.options = items.options.map (Choice.mapTexts f)
  members : List.Forall₂ (Member.Alike f P) items.members items'.members

theorem item (h : Corresponds R f P) (ht : R tag tag')
    (hchildren : List.Forall₂ (Node.Alike R) children children') {items items' : ItemLists}
    (hitems : ItemsAlike f P items items') :
    Agree (ItemsAlike f P) (items.read tag children) (items'.read tag' children') := by
  obtain ⟨hcases, hoptions, hmembers⟩ := hitems
  unfold ItemLists.read
  rw [h.name ht]
  generalize hname : tag.name = name
  split
  · refine (h.choice ht "case").bind ?_
    rintro c _ rfl
    exact ignoring hchildren ⟨by simp [hcases], hoptions, hmembers⟩
  · refine (h.choice ht "option").bind ?_
    rintro c _ rfl
    exact ignoring hchildren ⟨hcases, by simp [hoptions], hmembers⟩
  · refine (h.member ht hname).bind fun m m' hm => ?_
    exact ignoring hchildren ⟨hcases, hoptions, List.rel_append hmembers (.cons hm .nil)⟩
  · exact .error _ _

theorem subtypeOfItems {items items' : ItemLists} (hitems : ItemsAlike f P items items')
    (name : String) :
    Agree (Subtype.Alike f P) (items.subtype name) (items'.subtype (f name)) := by
  obtain ⟨cases, options, members⟩ := items
  obtain ⟨cases', options', members'⟩ := items'
  obtain ⟨hcases, hoptions, hmembers⟩ := hitems
  dsimp only at hcases hoptions hmembers
  subst hcases hoptions
  cases cases <;> cases options <;> cases hmembers
  case nil.nil.nil => exact .error _ _
  case cons.nil.nil => exact .ok ⟨rfl, .cases _⟩
  case nil.cons.nil => exact .ok ⟨rfl, .options _⟩
  case nil.nil.cons hm hms => exact .ok ⟨rfl, .members (.cons hm hms)⟩
  all_goals exact .error _ _

theorem subtype (h : Corresponds R f P) (ht : R tag tag')
    (hchildren : List.Forall₂ (Node.Alike R) children children') :
    Agree (Subtype.Alike f P) (readSubtype tag children) (readSubtype tag' children') := by
  refine (h.required ht "subtype" "name").bind ?_
  rintro name _ rfl
  refine (foldElements (T := ItemsAlike f P) hchildren
    (fun ht hchildren => h.item ht hchildren) ⟨rfl, rfl, .nil⟩).bind fun items items' hitems => ?_
  exact subtypeOfItems hitems name

-- ---------------------------------------------------------------------------
-- Entities
-- ---------------------------------------------------------------------------

theorem contributor (h : Corresponds R f P) (ht : R tag tag') :
    Agree (fun c c' => c' = c.mapTexts f) (readContributor tag) (readContributor tag') := by
  refine (h.required ht "relationship" "entity").bind ?_
  rintro entityName _ rfl
  rw [h.getD ht]
  exact .pure rfl

theorem contributors (h : Corresponds R f P)
    (hchildren : List.Forall₂ (Node.Alike R) children children') :
    Agree (fun cs cs' => cs' = cs.map (Contributor.mapTexts f)) (readContributors children)
      (readContributors children') := by
  refine foldElements hchildren ?_ rfl
  rintro tag tag' children children' cs _ ht hchildren rfl
  rw [h.name ht]
  refine Agree.guard .rfl fun _ => (h.contributor ht).bind ?_
  rintro c _ rfl
  exact ignoring hchildren (by simp)

theorem identifierKind_eq (typeName : String) (value : IdentifierValue)
    (contributors : List Contributor) :
    Document.identifierKind typeName value contributors
      = if typeName = "void" then .ok .void
        else if typeName = "relationships" then
          if contributors.isEmpty then .error .noContributors
          else .ok (.relationships value contributors)
        else .scalar <$>
          accepted "identifier" "type" typeName (IdentifierValue.ofName? typeName) := by
  unfold Document.identifierKind
  split <;> simp_all

theorem identifierKind (hf : Respelling f) (typeName : String) (value : IdentifierValue)
    (contributors : List Contributor) :
    Agree (fun kind kind' => kind' = kind.mapTexts f)
      (Document.identifierKind typeName value contributors)
      (Document.identifierKind (f typeName) value (contributors.map (Contributor.mapTexts f))) := by
  have hvoid : f typeName = "void" ↔ typeName = "void" := hf.eq_word_iff (by decide) typeName
  have hrelationships : f typeName = "relationships" ↔ typeName = "relationships" :=
    hf.eq_word_iff (by decide) typeName
  simp only [identifierKind_eq, hvoid, hrelationships, List.isEmpty_map]
  split
  · exact .ok rfl
  · split
    · split
      · exact .error _ _
      · exact .ok rfl
    · refine (accepted_agree (hf.read_eq identifierValue_unreserved typeName)).map ?_
      rintro value _ rfl
      rfl

theorem identifier (h : Corresponds R f P) (ht : R tag tag')
    (hchildren : List.Forall₂ (Node.Alike R) children children') :
    Agree (fun i i' => i' = i.mapTexts f) (readIdentifier tag children)
      (readIdentifier tag' children') := by
  refine Agree.bind (h.steady ht (steady_of_single "valueType"
    (fun text => accepted "identifier" "valueType" text (IdentifierValue.ofName? text)) ?_ ?_)
    rfl) ?_
  · intro value name text
    split <;> simp_all
  · exact fun text => accepted_agree (h.respelling.read_eq identifierValue_unreserved text)
  rintro value _ rfl
  refine (h.contributors hchildren).bind ?_
  rintro contributors _ rfl
  have hint : IsUnreserved "int" := by decide
  simp only [h.getD_word ht "type" hint]
  refine (identifierKind h.respelling _ value contributors).bind ?_
  rintro kind _ rfl
  rw [h.getD_word ht "key" (by decide), h.lookup ht]
  exact .pure rfl

theorem propertyType (h : Corresponds R f P) (ht : R tag tag') (a : PropertyAttributes)
    (name : String) :
    Agree (fun type type' => type' = type.mapTexts f) (a.type tag name)
      (a.type tag' (f name)) := by
  unfold PropertyAttributes.type
  rw [h.lookup ht, h.lookup ht]
  cases a.scalar <;> cases tag.attributes.lookup "subtype" <;>
    cases tag.attributes.lookup "relationship"
  case some.none.none scalar => exact .ok rfl
  case none.some.none subtype => exact .ok rfl
  case none.none.some entityName =>
    dsimp only [Option.map]
    split
    · exact .error _ _
    · exact .ok rfl
  all_goals exact .error _ _

theorem default (hf : Respelling f) (type : PropertyType) (text : Option String) :
    Agree (fun default default' => default' = default.map (Schema.DefaultValue.mapTexts f))
      (readDefault type text) (readDefault (type.mapTexts f) (text.map f)) := by
  cases text with
  | none => exact .ok rfl
  | some text =>
    simp only [readDefault, Option.map_some, hf.defaultOfText?]
    cases defaultOfText? type text with
    | none => exact .error _ _
    | some value => exact .ok rfl

theorem property (h : Corresponds R f P) (ht : R tag tag') :
    Agree (fun p p' => p' = p.mapTexts f) (readProperty tag) (readProperty tag') := by
  refine (h.steady ht (PropertyAttributes.steady h.respelling) rfl).bind ?_
  rintro a _ rfl
  refine (h.required ht "property" "name").bind ?_
  rintro name _ rfl
  refine (h.propertyType ht a name).bind ?_
  rintro type _ rfl
  rw [h.lookup ht "default"]
  refine (default h.respelling type _).bind ?_
  rintro value _ rfl
  rw [h.getD ht]
  exact .pure rfl

theorem find?_isSome {α : Type} {name name' : α → String} {xs xs' : List α} (hf : Respelling f)
    (hnames : xs'.map name' = (xs.map name).map f) (text : String) :
    (xs'.find? fun x => name' x == f text).isSome ↔ (xs.find? fun x => name x == text).isSome := by
  have hfound {name : α → String} {xs : List α} (text : String) :
      (xs.find? fun x => name x == text).isSome ↔ text ∈ xs.map name := by
    simp [List.find?_isSome]
  rw [hfound, hfound, hnames, List.mem_map_of_injective hf.injective]

theorem part (h : Corresponds R f P) (ht : R tag tag')
    (hchildren : List.Forall₂ (Node.Alike R) children children') (e : Entity) :
    Agree (fun e e' => e' = e.mapTexts f) (readEntityPart e tag children)
      (readEntityPart (e.mapTexts f) tag' children') := by
  unfold readEntityPart
  rw [h.name ht]
  split
  · refine (h.identifier ht hchildren).bind ?_
    rintro i _ rfl
    exact .pure rfl
  · refine (h.property ht).bind ?_
    rintro p _ rfl
    refine Agree.guard (Iff.symm ?_) fun _ => ignoring hchildren ?_
    · exact find?_isSome h.respelling (by simp [Entity.mapTexts, Schema.Property.mapTexts]) p.name
    · simp [Entity.mapTexts]
  · exact .error _ _

theorem entity (h : Corresponds R f P) (ht : R tag tag')
    (hchildren : List.Forall₂ (Node.Alike R) children children') :
    Agree (fun e e' => e' = e.mapTexts f) (readEntity tag children)
      (readEntity tag' children') := by
  have hstart : ({ name := "", identifier := { kind := .scalar .int } } : Entity)
      = Entity.mapTexts f { name := "", identifier := { kind := .scalar .int } } := by
    have hempty : f "" = "" := h.respelling.apply_word (by decide)
    have hid : f "id" = "id" := h.respelling.apply_word (by decide)
    simp [Entity.mapTexts, Identifier.mapTexts, IdentifierKind.mapTexts, hempty, hid]
  refine (h.steady ht (readEntityAttribute_steady h.respelling) hstart).bind ?_
  rintro e _ rfl
  refine (h.required ht "entity" "name").bind fun _ _ _ => ?_
  refine foldElements hchildren ?_ rfl
  rintro tag tag' children children' e _ ht hchildren rfl
  exact h.part ht hchildren e

-- ---------------------------------------------------------------------------
-- Endpoints
-- ---------------------------------------------------------------------------

theorem payload (h : Corresponds R f P) (ht : R tag tag') (element : String) :
    Agree (fun p p' => p' = p.mapTexts f) (readPayload element tag) (readPayload element tag') := by
  refine Agree.bind (h.steady ht (steady_of_single "structure"
    (fun text => accepted element "structure" text (PayloadStructure.ofName? text)) ?_ ?_)
    rfl) ?_
  · intro layout name text
    split <;> simp_all
  · exact fun text => accepted_agree (h.respelling.read_eq payloadStructure_unreserved text)
  rintro layout _ rfl
  refine (h.required ht element "entity").bind ?_
  rintro entityName _ rfl
  rw [h.lookup ht "entityKey", h.getD_word ht "baseKey" (by decide), h.respelling.keys]
  exact .pure rfl

theorem endpointPart (h : Corresponds R f P) (ht : R tag tag')
    (hchildren : List.Forall₂ (Node.Alike R) children children') (e : Endpoint) :
    Agree (fun e e' => e' = e.mapTexts f) (readEndpointPart e tag children)
      (readEndpointPart (e.mapTexts f) tag' children') := by
  unfold readEndpointPart
  rw [h.name ht]
  split
  · refine (h.payload ht "read").bind ?_
    rintro p _ rfl
    exact ignoring hchildren rfl
  · refine (h.payload ht "write").bind ?_
    rintro p _ rfl
    exact ignoring hchildren rfl
  · exact .error _ _

theorem endpoint (h : Corresponds R f P) (ht : R tag tag')
    (hchildren : List.Forall₂ (Node.Alike R) children children') :
    Agree (fun e e' => e' = e.mapTexts f) (readEndpoint tag children)
      (readEndpoint tag' children') := by
  refine (h.required ht "endpoint" "name").bind ?_
  rintro name _ rfl
  refine foldElements hchildren ?_ rfl
  rintro tag tag' children children' e _ ht hchildren rfl
  exact h.endpointPart ht hchildren e

-- ---------------------------------------------------------------------------
-- Sections
-- ---------------------------------------------------------------------------

theorem child (h : Corresponds R f P) {name : String}
    {read : Descriptions → Tag → List Node → Except Error Descriptions}
    (hread : sectionReader? name = some read) (ht : R tag tag')
    (hchildren : List.Forall₂ (Node.Alike R) children children') {d d' : Descriptions}
    (hd : d.Alike f P d') : Agree (Descriptions.Alike f P) (read d tag children)
      (read d' tag' children') := by
  obtain ⟨hversion, hversions, hentities, hsubtypes, hendpoints⟩ := hd
  unfold sectionReader? at hread
  split at hread <;> cases hread
  · unfold readVersion
    rw [h.name ht]
    refine Agree.guard .rfl fun _ => (h.required ht "version" "name").bind ?_
    rintro version _ rfl
    exact ignoring hchildren ⟨hversion, by simp [hversions], hentities, hsubtypes, hendpoints⟩
  · unfold readSubtypeInto
    rw [h.name ht]
    refine Agree.guard .rfl fun _ => (h.subtype ht hchildren).bind fun s s' hs => ?_
    rw [hs.name]
    have hnames := Subtype.names_of_alike hsubtypes
    refine Agree.guard (find?_isSome h.respelling hnames s.name).symm fun _ => .pure ?_
    exact ⟨hversion, hversions, hentities, List.rel_append hsubtypes (.cons hs .nil), hendpoints⟩
  · unfold readEntityInto
    rw [h.name ht]
    refine Agree.guard .rfl fun _ => (h.entity ht hchildren).bind ?_
    rintro e _ rfl
    have hnames : d'.entities.map (·.name) = (d.entities.map (·.name)).map f := by
      simp [hentities, Entity.mapTexts]
    refine Agree.guard (find?_isSome h.respelling hnames e.name).symm fun _ => .pure ?_
    exact ⟨hversion, hversions, by simp [Descriptions.addEntity, hentities], hsubtypes, hendpoints⟩
  · unfold readEndpointInto
    rw [h.name ht]
    refine Agree.guard .rfl fun _ => (h.endpoint ht hchildren).bind ?_
    rintro e _ rfl
    have hnames : d'.endpoints.map (·.name) = (d.endpoints.map (·.name)).map f := by
      simp [hendpoints, Endpoint.mapTexts]
    refine Agree.guard (find?_isSome h.respelling hnames e.name).symm fun _ => .pure ?_
    exact ⟨hversion, hversions, hentities, hsubtypes, by simp [Descriptions.addEndpoint, hendpoints]⟩

theorem body (h : Corresponds R f P) (ht : R tag tag') (isEmpty : Bool)
    (hchildren : List.Forall₂ (Node.Alike R) children children') {d d' : Option Descriptions}
    (hd : Option.Rel (Descriptions.Alike f P) d d') :
    Agree (Option.Rel (Descriptions.Alike f P)) (readSection d tag isEmpty children)
      (readSection d' tag' isEmpty children') := by
  unfold readSection
  rw [h.name ht]
  cases hread : sectionReader? tag.name with
  | none => cases hd <;> cases isEmpty <;> exact .error _ _
  | some read =>
    cases hd with
    | none =>
      cases isEmpty with
      | true => exact .ok .none
      | false => exact .error _ _
    | some hd =>
      cases isEmpty with
      | true => exact .ok (.some hd)
      | false =>
        exact (foldElements hchildren (fun ht hchildren => h.child hread ht hchildren) hd).map
          fun _ _ => .some

-- ---------------------------------------------------------------------------
-- Documents
-- ---------------------------------------------------------------------------

theorem root (h : Corresponds R f P) (ht : R tag tag') :
    Agree (Descriptions.Alike f P) (readRoot tag) (readRoot tag') := by
  refine (h.required ht "descriptions" "version").bind ?_
  rintro version _ rfl
  exact .pure ⟨rfl, rfl, rfl, .nil, rfl⟩

mutual
theorem node (h : Corresponds R f P) {node node' : Node} (hnode : node.Alike R node')
    {d d' : Option Descriptions} (hd : Option.Rel (Descriptions.Alike f P) d d') :
    Agree (Option.Rel (Descriptions.Alike f P)) (readNode d node) (readNode d' node') := by
  match node, hnode with
  | _, .failed e => exact .error _ _
  | .element tag isEmpty children, .element _ ht hchildren =>
    rw [readNode, readNode, h.name ht]
    split
    · exact (h.root ht).bind fun d d' hd => h.nodes hchildren (.some hd)
    · exact h.body ht isEmpty hchildren hd

theorem nodes (h : Corresponds R f P) {nodes nodes' : List Node}
    (hnodes : List.Forall₂ (Node.Alike R) nodes nodes') {d d' : Option Descriptions}
    (hd : Option.Rel (Descriptions.Alike f P) d d') :
    Agree (Option.Rel (Descriptions.Alike f P)) (readNodes d nodes) (readNodes d' nodes') := by
  match nodes, hnodes with
  | [], .nil => exact .ok hd
  | node :: nodes, .cons hnode hnodes =>
    exact (h.node hnode hd).bind fun _ _ hd => h.nodes hnodes hd
end

/-- Corresponding documents are both refused, or both accepted with descriptions alike. -/
theorem ofNodes (h : Corresponds R f P) {nodes nodes' : List Node}
    (hnodes : List.Forall₂ (Node.Alike R) nodes nodes') :
    Agree (Descriptions.Alike f P) (ofNodes nodes) (ofNodes nodes') := by
  refine (h.nodes hnodes .none).bind fun d d' hd => ?_
  cases hd with
  | none => exact .error _ _
  | some hd => exact .pure hd

end Corresponds
end EntityGen.Document
