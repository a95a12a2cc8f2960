import EntityGen.Proofs.Code.LineText

/-!
# Closures on one line

Before an expression is written it is asked whether it will take several lines.
The answer is right: names end no line, literals write their line feeds as
escapes, and only closures put any in. So a closure stays on the line of its head
exactly where all of its text fits there.
-/

namespace EntityGen.Code

section
variable {x : String}

theorem isFlat_parenthesizedIf (condition : Bool) :
    IsFlat (parenthesizedIf condition x) ↔ IsFlat x := by
  cases condition with
  | false => rfl
  | true =>
    rw [parenthesizedIf, if_pos rfl, isFlat_append, isFlat_append,
      and_iff_left (by decide : IsFlat ")"), and_iff_right (by decide : IsFlat "(")]

theorem isFlat_bracketed {opening closing : String} (ho : IsFlat opening) (hc : IsFlat closing)
    {texts : List String} :
    IsFlat (opening ++ commaSeparated texts ++ closing) ↔ ∀ x ∈ texts, IsFlat x := by
  rw [isFlat_append, isFlat_append, and_iff_left hc, and_iff_right ho, isFlat_commaSeparated]

theorem isFlat_callTail {endsInClosure : Bool} {texts : List String}
    (hne : endsInClosure = true → texts ≠ []) :
    IsFlat (callTail endsInClosure texts) ↔ ∀ x ∈ texts, IsFlat x := by
  cases endsInClosure with
  | false => exact isFlat_bracketed (by decide) (by decide)
  | true =>
    obtain ⟨first, last, rfl⟩ := (List.eq_nil_or_concat texts).resolve_left (hne rfl)
    have hfirst : IsFlat (if first.isEmpty then "" else "(" ++ commaSeparated first ++ ")") ↔
        ∀ x ∈ first, IsFlat x := by
      cases first with
      | nil => exact iff_of_true (by decide) nofun
      | cons x first => exact isFlat_bracketed (by decide) (by decide)
    rw [List.concat_eq_append, callTail, if_pos rfl, List.dropLast_concat, List.getLastD_concat,
      List.forall_mem_append, List.forall_mem_singleton, isFlat_append, isFlat_append,
      and_iff_left (by decide : IsFlat " "), hfirst]

theorem renderAll_ne_nil {arguments : List Argument} (h : Argument.endInClosure arguments = true)
    (level : Nat) : Argument.renderAll level arguments ≠ [] := by
  cases arguments with
  | nil => cases h
  | cons a arguments =>
    obtain ⟨label, value⟩ := a
    rw [Argument.renderAll]
    exact List.cons_ne_nil _ _

theorem not_isFlat_closureLines (level : Nat) (inner : String) :
    ¬IsFlat (closureLines level inner) := by
  simp [closureLines, IsFlat]

end

-- ---------------------------------------------------------------------------
-- Values of closures
-- ---------------------------------------------------------------------------

def Item.onlyValue? : Item → Option Expr
  | .expr value => some value
  | .returns value => value
  | _ => none

def Item.bodyValue? : List Item → Option Expr
  | [item] => item.onlyValue?
  | _ => none

section
variable {item : Item} {body : List Item} {parameters : List String} {level : Nat}

theorem Expr.spansLines_closure :
    (Expr.closure parameters body).spansLines = true ↔
      body ≠ [] ∧ ∀ value, Item.bodyValue? body = some value → value.spansLines = true := by
  rcases body with _ | ⟨item, _ | ⟨next, items⟩⟩
  · simp [spansLines]
  · cases item with
    | returns value => cases value <;> simp [spansLines, Item.bodyValue?, Item.onlyValue?]
    | _ => simp [spansLines, Item.bodyValue?, Item.onlyValue?]
  · simp [spansLines, Item.bodyValue?]

theorem Item.renderInline?_eq_some {text : String} : item.renderInline? level = some text ↔
    ∃ value, item.onlyValue? = some value ∧ value.spansLines = false ∧
      value.render level = text := by
  cases item with
  | returns value => cases value <;> simp [renderInline?, onlyValue?]
  | _ => simp [renderInline?, onlyValue?]

/-- A closure whose value spans no lines, or that is empty, goes on after its head. -/
theorem Item.renderClosure_inline {value : Expr} (hvalue : bodyValue? body = some value)
    (h : value.spansLines = false) :
    renderClosure level body = " " ++ value.render level ++ " \x7d" := by
  obtain ⟨item, rfl⟩ : ∃ item, body = [item] := by
    rcases body with _ | ⟨item, _ | ⟨next, items⟩⟩
    · cases hvalue
    · exact ⟨item, rfl⟩
    · cases hvalue
  rw [renderClosure, renderInline?_eq_some.mpr ⟨value, hvalue, h, rfl⟩]

theorem Item.renderClosure_spread (hne : body ≠ [])
    (h : ∀ value, bodyValue? body = some value → value.spansLines = true) :
    renderClosure level body = closureLines level (renderAll (level + 1) body) := by
  rcases body with _ | ⟨item, _ | ⟨next, items⟩⟩
  · exact absurd rfl hne
  · have hnone : item.renderInline? level = none := by
      refine Option.eq_none_iff_forall_ne_some.mpr fun text htext => ?_
      obtain ⟨value, hvalue, hspans, -⟩ := renderInline?_eq_some.mp htext
      rw [h value hvalue] at hspans
      cases hspans
    rw [renderClosure, hnone, renderAll, renderAll, String.append_empty]
  · rfl

theorem Expr.spansLines_closure_eq_false :
    (Expr.closure parameters body).spansLines = false ↔
      body = [] ∨ ∃ value, Item.bodyValue? body = some value ∧ value.spansLines = false := by
  rw [← Bool.not_eq_true, spansLines_closure]
  by_cases hbody : body = []
  · simp [hbody]
  · cases Item.bodyValue? body <;> simp [hbody]

/-- Where it is right about the value of a closure, it is right about the closure. -/
theorem Item.isFlat_renderClosure
    (hvalue : ∀ value, bodyValue? body = some value →
      (IsFlat (value.render level) ↔ value.spansLines = false)) :
    IsFlat (renderClosure level body) ↔ (Expr.closure parameters body).spansLines = false := by
  cases hspans : (Expr.closure parameters body).spansLines with
  | true =>
    obtain ⟨hne, hall⟩ := Expr.spansLines_closure.mp hspans
    rw [renderClosure_spread hne hall]
    exact iff_of_false (not_isFlat_closureLines _ _) nofun
  | false =>
    refine iff_of_true ?_ rfl
    rcases Expr.spansLines_closure_eq_false.mp hspans with rfl | ⟨value, hbody, hone⟩
    · exact (by decide : IsFlat " \x7d")
    · rw [renderClosure_inline hbody hone]
      simpa [(hvalue value hbody).mpr hone] using (by decide : IsFlat " " ∧ IsFlat " \x7d")

end

-- ---------------------------------------------------------------------------
-- The answer is right
-- ---------------------------------------------------------------------------

/-- No name, label, parameter or type name that an expression is written with has a line feed.
What items declare does not matter, for they stand on lines of their own. -/
def Part.NamedInLine : Part → Prop
  | .expr e => (∀ x ∈ (Part.expr e).words, IsFlat x) ∧ (Part.expr e).MentionsOnly IsFlat
  | .item _ => True

mutual
theorem Expr.isFlat_render (e : Expr) (h : e.Each Part.NamedInLine) (level : Nat) :
    IsFlat (e.render level) ↔ e.spansLines = false := by
  match e with
  | .name x =>
    have hx : IsFlat x := (Expr.each_name.mp h).1 x (List.mem_singleton_self x)
    exact iff_of_true hx rfl
  | .type t =>
    have ht : t.Each IsFlat := (Expr.each_type.mp h).2 t (List.mem_singleton_self t)
    exact iff_of_true (t.flat_text ht) rfl
  | .nil => exact iff_of_true (by rw [Expr.render]; decide) rfl
  | .bool value => exact iff_of_true (by rw [Expr.render]; cases value <;> decide) rfl
  | .int value => exact iff_of_true (isSolid_int value).flat rfl
  | .float value => exact iff_of_true (isSolid_float value).flat rfl
  | .string value => exact iff_of_true (isSolid_quoted value).flat rfl
  | .array elements =>
    obtain ⟨-, h⟩ := Expr.each_array.mp h
    rw [Expr.render, Expr.spansLines, isFlat_bracketed (by decide) (by decide),
      Expr.isFlat_renderAll elements h level]
  | .dictionary [] => exact iff_of_true (by rw [Expr.render]; decide) rfl
  | .dictionary (entry :: entries) =>
    obtain ⟨-, h⟩ := Expr.each_dictionary.mp h
    rw [Expr.render, Expr.spansLines, isFlat_bracketed (by decide) (by decide),
      Entry.isFlat_renderAll (entry :: entries) h level]
    exact nofun
  | .closure parameters body =>
    obtain ⟨⟨hparameters, -⟩, h⟩ := Expr.each_closure.mp h
    have hhead : IsFlat (closureHead parameters) := (isSolid_closureHead hparameters).flat
    rw [Expr.render, isFlat_append, and_iff_right hhead]
    exact Item.isFlat_renderClosure (Item.isFlat_bodyValue body h level)
  | .member base x =>
    obtain ⟨⟨hx, -⟩, h⟩ := Expr.each_member.mp h
    have hx : IsFlat x := hx x (List.mem_singleton_self x)
    rw [Expr.render, Expr.spansLines, isFlat_append, isFlat_append, isFlat_parenthesizedIf,
      and_iff_left hx, and_iff_left (by decide : IsFlat "."), Expr.isFlat_render base h level]
  | .call callee arguments =>
    obtain ⟨⟨hlabels, -⟩, h, harguments⟩ := Expr.each_call.mp h
    rw [Expr.render, Expr.spansLines, isFlat_append, isFlat_parenthesizedIf,
      isFlat_callTail fun hends => renderAll_ne_nil hends level, Expr.isFlat_render callee h level,
      Argument.isFlat_renderAll arguments (List.forall_mem_flatMap.mp hlabels) harguments level,
      Bool.or_eq_false_iff]
  | .index base position =>
    obtain ⟨-, h, hposition⟩ := Expr.each_index.mp h
    rw [Expr.render, Expr.spansLines, isFlat_append, isFlat_append, isFlat_append,
      isFlat_parenthesizedIf, and_iff_left (by decide : IsFlat "]"),
      and_iff_left (by decide : IsFlat "["), Expr.isFlat_render base h level,
      Expr.isFlat_render position hposition level, Bool.or_eq_false_iff]
  | .prefixed op operand =>
    obtain ⟨-, h⟩ := Expr.each_prefixed.mp h
    rw [Expr.render, Expr.spansLines, isFlat_append, isFlat_parenthesizedIf,
      and_iff_right op.solid_symbol.flat, Expr.isFlat_render operand h level]
  | .infixed left op right =>
    obtain ⟨-, hleft, hright⟩ := Expr.each_infixed.mp h
    rw [Expr.render, Expr.spansLines, isFlat_append, isFlat_append, isFlat_append, isFlat_append,
      isFlat_parenthesizedIf, isFlat_parenthesizedIf, and_iff_left (by decide : IsFlat " "),
      and_iff_left op.solid_symbol.flat, and_iff_left (by decide : IsFlat " "),
      Expr.isFlat_render left hleft level, Expr.isFlat_render right hright level,
      Bool.or_eq_false_iff]
  | .optionalChain base =>
    obtain ⟨-, h⟩ := Expr.each_optionalChain.mp h
    rw [Expr.render, Expr.spansLines, isFlat_append, isFlat_parenthesizedIf,
      and_iff_left (by decide : IsFlat "?"), Expr.isFlat_render base h level]
  | .forceUnwrap base =>
    obtain ⟨-, h⟩ := Expr.each_forceUnwrap.mp h
    rw [Expr.render, Expr.spansLines, isFlat_append, isFlat_parenthesizedIf,
      and_iff_left (by decide : IsFlat "!"), Expr.isFlat_render base h level]
  | .tuple elements =>
    obtain ⟨⟨hlabels, -⟩, h⟩ := Expr.each_tuple.mp h
    rw [Expr.render, Expr.spansLines, isFlat_bracketed (by decide) (by decide),
      Argument.isFlat_renderAll elements (List.forall_mem_flatMap.mp hlabels) h level]

theorem Expr.isFlat_renderAll (es : List Expr) (h : ∀ e ∈ es, e.Each Part.NamedInLine)
    (level : Nat) : (∀ x ∈ Expr.renderAll level es, IsFlat x) ↔ Expr.anySpansLines es = false := by
  match es with
  | [] => exact iff_of_true nofun rfl
  | e :: es =>
    obtain ⟨he, hes⟩ := List.forall_mem_cons.mp h
    rw [Expr.renderAll, Expr.anySpansLines, List.forall_mem_cons, Expr.isFlat_render e he level,
      Expr.isFlat_renderAll es hes level, Bool.or_eq_false_iff]

theorem Entry.isFlat_renderAll (entries : List Entry)
    (h : ∀ a ∈ entries, a.key.Each Part.NamedInLine ∧ a.value.Each Part.NamedInLine)
    (level : Nat) :
    (∀ x ∈ Entry.renderAll level entries, IsFlat x) ↔ Entry.anySpansLines entries = false := by
  match entries with
  | [] => exact iff_of_true nofun rfl
  | .mk key value :: entries =>
    obtain ⟨⟨hkey, hvalue⟩, hentries⟩ := List.forall_mem_cons.mp h
    rw [Entry.renderAll, Entry.anySpansLines, List.forall_mem_cons, isFlat_append, isFlat_append,
      and_iff_left (by decide : IsFlat ": "), Expr.isFlat_render key hkey level,
      Expr.isFlat_render value hvalue level, Entry.isFlat_renderAll entries hentries level,
      Bool.or_eq_false_iff, Bool.or_eq_false_iff]

theorem Argument.isFlat_renderAll (arguments : List Argument)
    (hlabels : ∀ a ∈ arguments, ∀ x ∈ a.label.toList, IsFlat x)
    (h : ∀ a ∈ arguments, a.value.Each Part.NamedInLine) (level : Nat) :
    (∀ x ∈ Argument.renderAll level arguments, IsFlat x) ↔
      Argument.anySpansLines arguments = false := by
  match arguments with
  | [] => exact iff_of_true nofun rfl
  | .mk label value :: arguments =>
    obtain ⟨hlabel, hlabels⟩ := List.forall_mem_cons.mp hlabels
    obtain ⟨hvalue, h⟩ := List.forall_mem_cons.mp h
    have hflat : IsFlat (labelText label) :=
      isFlat_labelText fun x hx => hlabel x (by simpa using hx)
    rw [Argument.renderAll, Argument.anySpansLines, List.forall_mem_cons, isFlat_append,
      and_iff_right hflat, Expr.isFlat_render value hvalue level,
      Argument.isFlat_renderAll arguments hlabels h level, Bool.or_eq_false_iff]

theorem Item.isFlat_bodyValue (body : List Item) (h : ∀ i ∈ body, i.Each Part.NamedInLine)
    (level : Nat) : ∀ value, Item.bodyValue? body = some value →
      (IsFlat (value.render level) ↔ value.spansLines = false) := by
  match body with
  | [] | _ :: _ :: _ => exact nofun
  | [item] => exact Item.isFlat_onlyValue item (List.forall_mem_singleton.mp h) level

theorem Item.isFlat_onlyValue (item : Item) (h : item.Each Part.NamedInLine) (level : Nat) :
    ∀ value, item.onlyValue? = some value →
      (IsFlat (value.render level) ↔ value.spansLines = false) := by
  match item with
  | .expr value =>
    obtain ⟨-, h⟩ := Item.each_expr.mp h
    rintro _ ⟨⟩
    exact Expr.isFlat_render value h level
  | .returns (some value) =>
    obtain ⟨-, h⟩ := Item.each_returns.mp h
    rintro _ ⟨⟩
    exact Expr.isFlat_render value (h value rfl) level
  | .returns none | .type _ | .extension _ | .property _ | .function _ | .typeAlias _ | .enumCase _
  | .comment _ | .blank | .branch .. | .guard .. | .switch .. | .doCatch .. | .assign .. =>
    exact nofun
end

-- ---------------------------------------------------------------------------
-- Layout
-- ---------------------------------------------------------------------------

/-- How a closure is laid out: on the line of its head, empty or with its only value, where all
of that is on one line, and else with its statements on lines of their own. -/
inductive ClosureLayout (level : Nat) (parameters : List String) (body : List Item)
    (text : String) : Prop
  | empty (hbody : body = []) (htext : text = closureHead parameters ++ " \x7d")
      (hflat : IsFlat text)
  | inLine {value : Expr} (hvalue : Item.bodyValue? body = some value)
      (htext : text = closureHead parameters ++ (" " ++ value.render level ++ " \x7d"))
      (hflat : IsFlat text)
  | spread (hbody : body ≠ [])
      (hvalue : ∀ value, Item.bodyValue? body = some value → ¬IsFlat (value.render level))
      (htext : text = closureHead parameters
        ++ closureLines level (Item.renderAll (level + 1) body))

theorem Expr.closureLayout {parameters : List String} {body : List Item}
    (h : (closure parameters body).Each Part.NamedInLine) (level : Nat) :
    ClosureLayout level parameters body ((closure parameters body).render level) := by
  have hflat := isFlat_render _ h level
  have hvalue := Item.isFlat_bodyValue body (each_closure.mp h).2 level
  cases hspans : (closure parameters body).spansLines with
  | true =>
    obtain ⟨hne, hall⟩ := spansLines_closure.mp hspans
    refine .spread hne (fun value hbody => ?_) ?_
    · rw [hvalue value hbody, hall value hbody]
      exact nofun
    · rw [render, Item.renderClosure_spread hne hall]
  | false =>
    rcases spansLines_closure_eq_false.mp hspans with rfl | ⟨value, hbody, hone⟩
    · exact .empty rfl rfl (hflat.mpr hspans)
    · refine .inLine hbody ?_ (hflat.mpr hspans)
      rw [render, Item.renderClosure_inline hbody hone]

/-- Where no name has a line feed, an expression is found to span lines exactly if its text has
one, at any indentation. A value of several lines is therefore never put on the line of the head
of its closure, and a closure that stays on that line does so with all of its text. -/
theorem Expr.spansLines_exact {e : Expr} (h : e.Each Part.NamedInLine) (level : Nat) :
    (e.spansLines = true ↔ '\n' ∈ (e.render level).toList) ∧
      ∀ parameters body, e = .closure parameters body →
        ClosureLayout level parameters body (e.render level) := by
  constructor
  · rw [← Decidable.not_iff_not, Bool.not_eq_true, ← isFlat_render e h level]
    rfl
  · rintro parameters body rfl
    exact closureLayout h level

/-- A literal that has a line feed stays on the line, a closure with a comment does not. -/
theorem Expr.spansLines_exact_comment :
    let inLine : Expr := .closure ["x"] [.returns (some (.string "a\nb"))]
    let outer : Expr := .closure ["x"]
      [.expr (.call (.name "f") [{ label := some "of", value := .type TypeName.string.array },
        { value := .closure [] [.comment (.line "a\nb")] }])]
    (inLine.Each Part.NamedInLine ∧ '\n' ∉ (inLine.render 1).toList) ∧
      outer.Each Part.NamedInLine ∧ '\n' ∈ (outer.render 1).toList := by
  intro inLine outer
  have hinLine : inLine.Each Part.NamedInLine := by
    simp [inLine, Part.NamedInLine, Part.words, Part.MentionsOnly, Part.types]
    decide
  have houter : outer.Each Part.NamedInLine := by
    simp [outer, Part.NamedInLine, Part.words, Part.MentionsOnly, Part.types, TypeName.string]
    decide
  obtain ⟨hshort, -⟩ := spansLines_exact hinLine 1
  obtain ⟨hlong, -⟩ := spansLines_exact houter 1
  exact ⟨⟨hinLine, mt hshort.mpr (by decide)⟩, houter, hlong.mp (by decide)⟩

end EntityGen.Code
