import EntityGen.Proofs.Code.WrittenCode

/-!
# Texts of closures

The scan of a text passes over closures. It finds their ends, for in the text of
every statement braces are paired, unless a name has braces of its own.
-/

namespace EntityGen.Code

-- ---------------------------------------------------------------------------
-- Texts within braces
-- ---------------------------------------------------------------------------

def Scan.within (s : Scan) (depth : Nat) : Scan := { s with mode := .code depth }

/-- The text leads from the one number of open braces to the other, whatever is
open around them. -/
def Leads (i j : Nat) (text : String) : Prop :=
  ∀ (s : Scan) (depth : Nat), (s.within (depth + i)).read text = s.within (depth + j)

/-- No character of the text counts within braces. -/
def IsTame (text : String) : Prop := ∀ c ∈ text.toList, c ∉ ['\x7b', '\x7d', '"', '/']

instance : DecidablePred IsTame := fun text => List.decidableBAll _ text.toList

@[simp] theorem isTame_append {a b : String} : IsTame (a ++ b) ↔ IsTame a ∧ IsTame b := by
  simp only [IsTame, String.toList_append, List.forall_mem_append]

theorem IsPlain.tame {x : String} (h : IsPlain x) : IsTame x := by
  intro c hc hbrace
  apply h c hc
  simp only [delimiters, List.mem_cons, List.not_mem_nil, or_false] at hbrace ⊢
  exact .inr (.inr (.inr (.inr hbrace)))

theorem Scan.inBraces_tame {c : Char} (hc : c ∉ ['\x7b', '\x7d', '"', '/']) (depth : Nat) :
    inBraces depth c = .code (depth + 1) := by
  unfold inBraces
  split <;> simp at hc ⊢

theorem Scan.run_tame (s : Scan) (depth : Nat) {cs : List Char}
    (h : ∀ c ∈ cs, c ∉ ['\x7b', '\x7d', '"', '/']) :
    (s.within (depth + 1)).run cs = s.within (depth + 1) := by
  induction cs with
  | nil => rfl
  | cons c cs ih =>
    obtain ⟨hc, hcs⟩ := List.forall_mem_cons.mp h
    have hstep : (s.within (depth + 1)).step c = s.within (depth + 1) := by
      simp only [step, within, inBraces_tame hc]
    change ((s.within (depth + 1)).step c).run cs = _
    rw [hstep, ih hcs]

theorem Scan.run_comment {s : Scan} {depth : Nat} (hs : s.mode = .comment depth) {cs : List Char}
    (h : ∀ c ∈ cs, endsLine false c = false) : s.run cs = s := by
  induction cs with
  | nil => rfl
  | cons c cs ih =>
    obtain ⟨hc, hcs⟩ := List.forall_mem_cons.mp h
    have hstep : s.step c = s := by
      have hlineFeed : c ≠ '\n' := by simpa [endsLine] using hc
      simp only [step, hs, if_neg hlineFeed]
    change (s.step c).run cs = s
    rw [hstep]
    exact ih hcs

namespace Leads

variable {i j k : Nat} {x y : String}

theorem append (hx : Leads i j x) (hy : Leads j k y) : Leads i k (x ++ y) := by
  intro s depth
  rw [Scan.read_append, hx, hy]

theorem opening : Leads (i + 1) (i + 2) "\x7b" := fun _ _ => rfl

theorem closing : Leads (i + 1) i "\x7d" := fun _ _ => rfl

theorem tame (h : IsTame x) : Leads (i + 1) (i + 1) x := fun s depth => s.run_tame (depth + i) h

theorem quoted (text : String) : Leads (i + 1) (i + 1) (quoted text) := by
  intro s depth
  have hinside : ({ s with mode := .string (depth + i + 1) } : Scan).read
      (String.ofList (text.toList.flatMap escapeChar))
      = { s with mode := .string (depth + i + 1) } := by
    rw [Scan.read, String.toList_ofList, Scan.run_escaped rfl]
  rw [Code.quoted, Scan.read_append, Scan.read_append]
  change ((({ s with mode := .string (depth + i + 1) } : Scan).read _).read "\"") = _
  rw [hinside]
  rfl

theorem comment (hmarks : "//".toList <+: x.toList)
    (h : ∀ c ∈ x.toList, endsLine false c = false) : Leads (i + 1) (i + 1) (x ++ "\n") := by
  obtain ⟨rest, hrest⟩ := hmarks
  rw [← hrest] at h
  have hslash : ∀ c ∈ '/' :: rest, endsLine false c = false := (List.forall_mem_cons.mp h).2
  intro s depth
  rw [Scan.read_append, Scan.read, Scan.read, ← hrest]
  change (({ s with mode := .comment (depth + i + 1) } : Scan).run ('/' :: rest)).run _ = _
  rw [Scan.run_comment rfl hslash]
  rfl

end Leads

theorem Written.leads {before after : List Bracket} {x : String}
    (h : Written IsTame false before after x) :
    Leads (before.count .brace + 1) (after.count .brace + 1) x := by
  induction h with
  | plain hplain => exact .tame hplain.tame
  | name htame => exact .tame htame
  | literal text => exact .quoted text
  | comment hmarks hends => exact .comment hmarks hends
  | opening b =>
    cases b with
    | parenthesis | square => exact .tame (by decide)
    | brace =>
      rw [List.count_cons_self]
      exact .opening
  | closing b =>
    cases b with
    | parenthesis | square => exact .tame (by decide)
    | brace =>
      rw [List.count_cons_self]
      exact .closing
  | append _ _ hx hy => exact hx.append hy

-- ---------------------------------------------------------------------------
-- Names without braces
-- ---------------------------------------------------------------------------

def Parameter.Tame (p : Parameter) : Prop :=
  (∀ x ∈ p.label, IsTame x) ∧ IsTame p.name ∧ IsTame p.type.text

def Condition.Tame : Condition → Prop
  | .test _ => True
  | .binding x _ => IsTame x

def Pattern.Tame : Pattern → Prop
  | .default | .value _ => True
  | .tag x => IsTame x
  | .bindings x bound => IsTame x ∧ ∀ y ∈ bound, IsTame y

structure Function.Tame (f : Function) : Prop where
  kind : IsTame f.kind.render
  parameters : ∀ p ∈ f.parameters, p.Tame
  genericParameters : ∀ t ∈ f.genericParameters, IsTame t.text
  constraints : ∀ c ∈ f.constraints, IsTame c.render
  result : ∀ t ∈ f.result, IsTame t.text

/-- No name, label or type in the part has a brace, a quote or a slash. -/
def Part.Tame : Part → Prop
  | .expr (.name x) | .expr (.member _ x) => IsTame x
  | .expr (.type t) => IsTame t.text
  | .expr (.closure parameters _) => ∀ x ∈ parameters, IsTame x
  | .expr (.call _ arguments) | .expr (.tuple arguments) =>
    ∀ a ∈ arguments, ∀ x ∈ a.label, IsTame x
  | .item (.type decl) => IsTame decl.name.text ∧ ∀ t ∈ decl.inherited, IsTame t.text
  | .item (.extension decl) =>
    IsTame decl.name.text ∧ (∀ t ∈ decl.inherited, IsTame t.text) ∧
      ∀ c ∈ decl.constraints, IsTame c.render
  | .item (.property decl) => IsTame decl.var.render
  | .item (.function decl) => decl.Tame
  | .item (.typeAlias decl) => IsTame decl.name.text ∧ IsTame decl.value.text
  | .item (.enumCase decl) => IsTame decl.name ∧ ∀ t ∈ decl.associated, IsTame t.text
  | .item (.branch conditions _ _) | .item (.guard conditions _) => ∀ c ∈ conditions, c.Tame
  | .item (.switch _ cases) => ∀ c ∈ cases, c.pattern.Tame
  | _ => True

-- ---------------------------------------------------------------------------
-- Closures
-- ---------------------------------------------------------------------------

theorem FunctionKind.tame_words {kind : FunctionKind} (h : IsTame kind.render) :
    ∀ x ∈ kind.words, IsTame x := by
  cases kind with
  | named x => simpa [words] using (isTame_append.mp h).2
  | operator x => simpa [words] using (isTame_append.mp (isTame_append.mp h).1).2
  | initializer | subscript => rintro x ⟨⟩

theorem Constraint.tame_types {c : Constraint} (h : IsTame c.render) :
    ∀ t ∈ c.types, IsTame t.text := by
  cases c with
  | conforms subject requirement | equals subject requirement =>
    obtain ⟨hsubject, hrequirement⟩ := isTame_append.mp h
    simpa [types] using ⟨(isTame_append.mp hsubject).1, hrequirement⟩

theorem Variable.tame_render {v : Variable} (h : IsTame v.render) :
    IsTame v.name ∧ ∀ t ∈ v.type, IsTame t.text := by
  obtain ⟨name, type, isImmutable, isStatic, isLazy, isWeak⟩ := v
  obtain ⟨hfront, htype⟩ := isTame_append.mp h
  refine ⟨(isTame_append.mp hfront).2, ?_⟩
  rintro t ht
  cases ht
  exact (isTame_append.mp htype).2

theorem Parameter.Tame.words {p : Parameter} (h : p.Tame) : ∀ x ∈ p.words, IsTame x := by
  obtain ⟨hlabel, hname, -⟩ := h
  refine List.forall_mem_append.mpr ⟨fun x hx => hlabel x (Option.mem_toList.mp hx), ?_⟩
  exact List.forall_mem_singleton.mpr hname

theorem Condition.Tame.words {c : Condition} (h : c.Tame) : ∀ x ∈ c.words, IsTame x := by
  cases c with
  | test value => exact nofun
  | binding x value => exact List.forall_mem_singleton.mpr h

theorem Pattern.Tame.words {p : Pattern} (h : p.Tame) : ∀ x ∈ p.words, IsTame x := by
  cases p with
  | default | value => exact nofun
  | tag x => exact List.forall_mem_singleton.mpr h
  | bindings x bound => exact List.forall_mem_cons.mpr h

theorem Part.Tame.words {part : Part} (h : part.Tame) : ∀ x ∈ part.words, IsTame x := by
  unfold Part.words
  split
  · exact List.forall_mem_singleton.mpr h
  · exact List.forall_mem_singleton.mpr h
  · exact h
  · exact List.forall_mem_flatMap.mpr fun a ha x hx => h a ha x (Option.mem_toList.mp hx)
  · exact List.forall_mem_flatMap.mpr fun a ha x hx => h a ha x (Option.mem_toList.mp hx)
  · exact List.forall_mem_singleton.mpr (Variable.tame_render h).1
  · refine List.forall_mem_append.mpr ⟨FunctionKind.tame_words h.kind, ?_⟩
    exact List.forall_mem_flatMap.mpr fun p hp => (h.parameters p hp).words
  · exact List.forall_mem_singleton.mpr h.1
  · exact List.forall_mem_flatMap.mpr fun c hc => (h c hc).words
  · exact List.forall_mem_flatMap.mpr fun c hc => (h c hc).words
  · exact List.forall_mem_flatMap.mpr fun c hc => (h c hc).words
  · exact nofun

theorem Part.Tame.types {part : Part} (h : part.Tame) : ∀ t ∈ part.types, IsTame t.text := by
  unfold Part.types
  split
  · exact List.forall_mem_singleton.mpr h
  · rintro t ⟨⟩
  · exact List.forall_mem_cons.mpr h
  · obtain ⟨hname, hinherited, hconstraints⟩ := h
    refine List.forall_mem_cons.mpr ⟨hname, List.forall_mem_append.mpr ⟨hinherited, ?_⟩⟩
    exact List.forall_mem_flatMap.mpr fun c hc => Constraint.tame_types (hconstraints c hc)
  · intro t ht
    exact (Variable.tame_render h).2 t (Option.mem_toList.mp ht)
  · simp only [List.forall_mem_append, List.forall_mem_map, List.forall_mem_flatMap]
    refine ⟨⟨⟨fun p hp => (h.parameters p hp).2.2, h.genericParameters⟩, fun c hc => ?_⟩,
      fun t ht => h.result t (Option.mem_toList.mp ht)⟩
    exact Constraint.tame_types (h.constraints c hc)
  · obtain ⟨hname, hvalue⟩ := h
    exact List.forall_mem_cons.mpr ⟨hname, List.forall_mem_singleton.mpr hvalue⟩
  · exact h.2
  · rintro t ⟨⟩

theorem Part.Tame.writable {part : Part} (h : part.Tame) : part.Writable IsTame false where
  words := h.words
  types t ht := .name (h.types t ht)
  comment := by
    intro c _ line hline d hd
    have hlineFeed : d ≠ '\n' := ne_of_mem_of_not_mem hd (isFlat_of_mem_lines line hline)
    simpa [endsLine] using hlineFeed

theorem Leads.closureHead {parameters : List String} (h : ∀ x ∈ parameters, IsTame x) :
    ∃ rest, closureHead parameters = "\x7b" ++ rest ∧ Leads 1 1 rest := by
  obtain ⟨rest, hhead, hrest⟩ :
      ∃ rest, Code.closureHead parameters = "\x7b" ++ rest ∧ Paired IsTame false rest :=
    Paired.closureHead h
  exact ⟨rest, hhead, (hrest []).leads⟩

theorem Item.leads_renderClosure (items : List Item) (h : ∀ i ∈ items, i.Each Part.Tame)
    (level : Nat) : Leads 1 0 (Item.renderClosure level items) := by
  have hwritable : ∀ i ∈ items, i.Each (Part.Writable IsTame false) := fun i hi part hpart =>
    (h i hi part hpart).writable
  obtain ⟨inner, htail, hinner⟩ := Item.paired_renderClosure items hwritable level
  rw [htail]
  exact (hinner []).leads.append .closing

end EntityGen.Code
