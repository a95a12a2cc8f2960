import EntityGen.Proofs.Code.NestedText

/-!
# Nested code

The lines of code in a body are those of the same code outside of it, each
indented once more if it is not empty. What is written around a body does not
depend on the code in it, as long as there is some.
-/

namespace EntityGen.Code

-- ---------------------------------------------------------------------------
-- One level deeper
-- ---------------------------------------------------------------------------

mutual
theorem Expr.nests (e : Expr) (h : e.Each Part.WellNamed) (level : Nat) : e.NestsAt level := by
  match e with
  | .name x =>
    have hx : IsSolid x := (Expr.each_name.mp h).1 x (List.mem_singleton_self x)
    simp only [Expr.NestsAt, Expr.render]
    exact .solid hx
  | .type t =>
    have ht : t.Each IsSolid := (Expr.each_type.mp h).2 t (List.mem_singleton_self t)
    simp only [Expr.NestsAt, Expr.render]
    exact .solid (t.solid_text ht)
  | .nil =>
    simp only [Expr.NestsAt, Expr.render]
    exact .solid (by decide)
  | .bool value =>
    simp only [Expr.NestsAt, Expr.render]
    exact .solid (by cases value <;> decide)
  | .int value =>
    simp only [Expr.NestsAt, Expr.render]
    exact .solid (isSolid_int value)
  | .float value =>
    simp only [Expr.NestsAt, Expr.render]
    exact .solid (isSolid_float value)
  | .string value =>
    simp only [Expr.NestsAt, Expr.render]
    exact .solid (isSolid_quoted value)
  | .array elements =>
    obtain ⟨-, h⟩ := Expr.each_array.mp h
    exact Expr.nests_array (Expr.nests_renderAll elements h level)
  | .dictionary entries =>
    obtain ⟨-, h⟩ := Expr.each_dictionary.mp h
    exact Expr.nests_dictionary (Entry.nests_renderAll entries h level)
  | .closure parameters body =>
    obtain ⟨⟨hparameters, -⟩, h⟩ := Expr.each_closure.mp h
    exact Expr.nests_closure hparameters (Item.nests_renderClosure body h level)
  | .member base x =>
    obtain ⟨⟨hx, -⟩, h⟩ := Expr.each_member.mp h
    exact Expr.nests_member (Expr.nests base h level) (hx x (List.mem_singleton_self x))
  | .call callee arguments =>
    obtain ⟨⟨hlabels, -⟩, h, harguments⟩ := Expr.each_call.mp h
    exact Expr.nests_call (Expr.nests callee h level)
      (Argument.nests_renderAll arguments (List.forall_mem_flatMap.mp hlabels) harguments level)
  | .index base position =>
    obtain ⟨-, h, hposition⟩ := Expr.each_index.mp h
    exact Expr.nests_index (Expr.nests base h level) (Expr.nests position hposition level)
  | .prefixed op operand =>
    obtain ⟨-, h⟩ := Expr.each_prefixed.mp h
    exact Expr.nests_prefixed (Expr.nests operand h level)
  | .infixed left op right =>
    obtain ⟨-, hleft, hright⟩ := Expr.each_infixed.mp h
    exact Expr.nests_infixed (Expr.nests left hleft level) (Expr.nests right hright level)
  | .optionalChain base =>
    obtain ⟨-, h⟩ := Expr.each_optionalChain.mp h
    exact Expr.nests_optionalChain (Expr.nests base h level)
  | .forceUnwrap base =>
    obtain ⟨-, h⟩ := Expr.each_forceUnwrap.mp h
    exact Expr.nests_forceUnwrap (Expr.nests base h level)
  | .tuple elements =>
    obtain ⟨⟨hlabels, -⟩, h⟩ := Expr.each_tuple.mp h
    exact Expr.nests_tuple
      (Argument.nests_renderAll elements (List.forall_mem_flatMap.mp hlabels) h level)

theorem Expr.nests_renderAll (es : List Expr) (h : ∀ e ∈ es, e.Each Part.WellNamed) (level : Nat) :
    TextsNest (Expr.renderAll level es) (Expr.renderAll (level + 1) es) := by
  match es with
  | [] => exact .nil
  | e :: es =>
    obtain ⟨he, hes⟩ := List.forall_mem_cons.mp h
    exact .cons (Expr.nests e he level) (Expr.nests_renderAll es hes level)

theorem Entry.nests_renderAll (entries : List Entry)
    (h : ∀ a ∈ entries, a.key.Each Part.WellNamed ∧ a.value.Each Part.WellNamed) (level : Nat) :
    TextsNest (Entry.renderAll level entries) (Entry.renderAll (level + 1) entries) := by
  match entries with
  | [] => exact .nil
  | .mk key value :: entries =>
    obtain ⟨⟨hkey, hvalue⟩, hentries⟩ := List.forall_mem_cons.mp h
    have hcolon := (Expr.nests key hkey level).append (.flat (by decide : IsFlat ": "))
    exact .cons (hcolon.append (Expr.nests value hvalue level).ofInside)
      (Entry.nests_renderAll entries hentries level)

theorem Argument.nests_renderAll (arguments : List Argument)
    (hlabels : ∀ a ∈ arguments, ∀ x ∈ a.label.toList, IsSolid x)
    (h : ∀ a ∈ arguments, a.value.Each Part.WellNamed) (level : Nat) :
    TextsNest (Argument.renderAll level arguments) (Argument.renderAll (level + 1) arguments) := by
  match arguments with
  | [] => exact .nil
  | .mk label value :: arguments =>
    obtain ⟨hlabel, hlabels⟩ := List.forall_mem_cons.mp hlabels
    obtain ⟨hvalue, h⟩ := List.forall_mem_cons.mp h
    have hflat : IsFlat (labelText label) :=
      isFlat_labelText fun x hx => (hlabel x (by simpa using hx)).flat
    exact .cons ((Nests.flatMargin hflat).append (Expr.nests value hvalue level))
      (Argument.nests_renderAll arguments hlabels h level)

theorem Item.nests_renderClosure (items : List Item) (h : ∀ i ∈ items, i.WellNamed)
    (level : Nat) : Nests .inside .inside (Item.renderClosure level items)
      (Item.renderClosure (level + 1) items) := by
  match items with
  | [] => exact .flat (by decide : IsFlat " \x7d")
  | [item] =>
    obtain ⟨hitem, -⟩ := List.forall_mem_cons.mp h
    have hinline := Item.nests_renderInline item hitem level
    have hlines := Item.nests item hitem (level + 1)
    simp only [Item.renderClosure]
    generalize item.renderInline? level = text, item.renderInline? (level + 1) = text' at hinline
    cases hinline with
    | some htext =>
      exact ((Nests.flat (by decide)).append htext.ofInside).append (.flat (by decide))
    | none => exact hlines.closureLines
  | item :: next :: items =>
    obtain ⟨hitem, hitems⟩ := List.forall_mem_cons.mp h
    have hlines := (Item.nests item hitem (level + 1)).append
      (Item.nests_renderAll (next :: items) hitems (level + 1))
    exact hlines.closureLines

theorem Item.nests_renderInline (item : Item) (h : item.WellNamed) (level : Nat) :
    Option.Rel (Nests .margin .inside) (item.renderInline? level)
      (item.renderInline? (level + 1)) := by
  match item with
  | .expr value =>
    obtain ⟨-, h⟩ := Item.each_expr.mp h
    simp only [Item.renderInline?]
    split
    · exact .none
    · exact .some (Expr.nests value h level)
  | .returns (some value) =>
    obtain ⟨-, h⟩ := Item.each_returns.mp h
    simp only [Item.renderInline?]
    split
    · exact .none
    · exact .some (Expr.nests value (h value rfl) level)
  | .returns none | .type _ | .extension _ | .property _ | .function _ | .typeAlias _
  | .enumCase _ | .comment _ | .blank | .branch .. | .guard .. | .switch .. | .doCatch ..
  | .assign .. => exact .none

/-- The lines of an item are the same one level deeper. -/
theorem Item.nests (item : Item) (h : item.WellNamed) (level : Nat) : item.NestsAt level := by
  match item with
  | .type decl =>
    obtain ⟨hdecl, hbody⟩ := Item.each_type.mp h
    simp only [Item.NestsAt, Item.render]
    exact TypeDecl.nests decl hdecl hbody level
  | .extension decl =>
    obtain ⟨hdecl, hbody⟩ := Item.each_extension.mp h
    simp only [Item.NestsAt, Item.render]
    exact Extension.nests decl hdecl hbody level
  | .property decl =>
    obtain ⟨hdecl, hvalue, hbody⟩ := Item.each_property.mp h
    simp only [Item.NestsAt, Item.render]
    exact Property.nests decl hdecl hvalue hbody level
  | .function decl =>
    obtain ⟨hdecl, hparameters, hbody⟩ := Item.each_function.mp h
    simp only [Item.NestsAt, Item.render]
    exact Function.nests decl hdecl hparameters hbody level
  | .typeAlias decl =>
    obtain ⟨-, htypes⟩ := Item.each_typeAlias.mp h
    exact Item.nests_typeAlias (decl.name.solid_text (htypes _ (by simp [Part.types])))
      (decl.value.solid_text (htypes _ (by simp [Part.types])))
  | .enumCase decl =>
    obtain ⟨hdecl, hrawValue⟩ := Item.each_enumCase.mp h
    simp only [Item.NestsAt, Item.render]
    exact EnumCase.nests decl hdecl hrawValue level
  | .comment comment =>
    simp only [Item.NestsAt, Item.render]
    exact .comment comment
  | .blank =>
    simp only [Item.NestsAt, Item.render]
    exact .blank
  | .branch conditions body none =>
    obtain ⟨⟨hwords, -⟩, hconditions, hbody, -⟩ := Item.each_branch.mp h
    exact Item.nests_branch
      (Condition.nests_renderAll conditions (List.forall_mem_flatMap.mp hwords) hconditions level)
      (Item.nests_renderAll body hbody (level + 1)) nofun
  | .branch conditions body (some orElse) =>
    obtain ⟨⟨hwords, -⟩, hconditions, hbody, horElse⟩ := Item.each_branch.mp h
    refine Item.nests_branch
      (Condition.nests_renderAll conditions (List.forall_mem_flatMap.mp hwords) hconditions level)
      (Item.nests_renderAll body hbody (level + 1)) ?_
    rintro _ ⟨⟩
    exact Item.nests_renderAll orElse (horElse orElse rfl) (level + 1)
  | .guard conditions orElse =>
    obtain ⟨⟨hwords, -⟩, hconditions, horElse⟩ := Item.each_guard.mp h
    exact Item.nests_guard
      (Condition.nests_renderAll conditions (List.forall_mem_flatMap.mp hwords) hconditions level)
      (Item.nests_renderElse orElse horElse level)
  | .switch subject cases =>
    obtain ⟨⟨hwords, -⟩, hsubject, hcases⟩ := Item.each_switch.mp h
    exact Item.nests_switch (Expr.nests subject hsubject level)
      (SwitchCase.nests_renderAll cases (List.forall_mem_flatMap.mp hwords) hcases level)
  | .doCatch body catches =>
    obtain ⟨-, hbody, hcatches⟩ := Item.each_doCatch.mp h
    exact Item.nests_doCatch (Item.nests_renderAll body hbody (level + 1))
      (Catch.nests_renderAll catches hcatches level)
  | .assign target value =>
    obtain ⟨-, htarget, hvalue⟩ := Item.each_assign.mp h
    exact Item.nests_assign (Expr.nests target htarget level) (Expr.nests value hvalue level)
  | .returns none =>
    simp only [Item.NestsAt, Item.render]
    exact .solidLine (by decide) level
  | .returns (some value) =>
    obtain ⟨-, h⟩ := Item.each_returns.mp h
    exact Item.nests_returns (Expr.nests value (h value rfl) level)
  | .expr value =>
    obtain ⟨-, h⟩ := Item.each_expr.mp h
    simp only [Item.NestsAt, Item.render]
    exact (Expr.nests value h level).fullLine level

theorem Item.nests_renderAll (items : List Item) (h : ∀ i ∈ items, i.WellNamed) (level : Nat) :
    Item.AllNestAt items level := by
  match items with
  | [] => exact .empty
  | item :: items =>
    obtain ⟨hitem, hitems⟩ := List.forall_mem_cons.mp h
    exact (Item.nests item hitem level).append (Item.nests_renderAll items hitems level)

theorem Item.nests_renderElse (items : List Item) (h : ∀ i ∈ items, i.WellNamed) (level : Nat) :
    Nests .inside .start (Item.renderElse level items) (Item.renderElse (level + 1) items) := by
  match items with
  | [] => exact .braced true .empty
  | [item] =>
    obtain ⟨hitem, -⟩ := List.forall_mem_cons.mp h
    have hreturn := Item.nests_renderReturn item hitem level
    have hlines := Item.nests item hitem (level + 1)
    have hend : Nests .inside .start (" \x7d" ++ "\n") (" \x7d" ++ "\n") :=
      (Nests.flat (by decide)).append .lineFeed
    simp only [Item.renderElse]
    generalize item.renderReturn? level = text, item.renderReturn? (level + 1) = text' at hreturn
    cases hreturn with
    | some htext => exact ((Nests.flat (by decide)).append htext.ofInside).append hend
    | none => exact .braced false hlines
  | item :: next :: items =>
    obtain ⟨hitem, hitems⟩ := List.forall_mem_cons.mp h
    have hlines := (Item.nests item hitem (level + 1)).append
      (Item.nests_renderAll (next :: items) hitems (level + 1))
    exact .braced false hlines

theorem Item.nests_renderReturn (item : Item) (h : item.WellNamed) (level : Nat) :
    Option.Rel (Nests .margin .inside) (item.renderReturn? level)
      (item.renderReturn? (level + 1)) := by
  match item with
  | .returns none => exact .some (.solid (by decide))
  | .returns (some value) =>
    obtain ⟨-, h⟩ := Item.each_returns.mp h
    exact .some ((Nests.solid (by decide)).append (Expr.nests value (h value rfl) level).ofInside)
  | .expr _ | .type _ | .extension _ | .property _ | .function _ | .typeAlias _
  | .enumCase _ | .comment _ | .blank | .branch .. | .guard .. | .switch .. | .doCatch ..
  | .assign .. => exact .none

theorem TypeDecl.nests (decl : TypeDecl) (h : (Part.item (.type decl)).WellNamed)
    (hbody : ∀ i ∈ decl.body, i.WellNamed) (level : Nat) :
    Nests .start .start (decl.render level) (decl.render (level + 1)) := by
  match decl with
  | .mk _ _ _ _ body _ => exact TypeDecl.nests_body h (Item.nests_renderAll body hbody (level + 1))

theorem Extension.nests (decl : Extension) (h : (Part.item (.extension decl)).WellNamed)
    (hbody : ∀ i ∈ decl.body, i.WellNamed) (level : Nat) :
    Nests .start .start (decl.render level) (decl.render (level + 1)) := by
  match decl with
  | .mk _ _ _ _ body => exact Extension.nests_body h (Item.nests_renderAll body hbody (level + 1))

theorem Property.nests (decl : Property) (h : (Part.item (.property decl)).WellNamed)
    (hvalue : ∀ value, decl.value = some value → value.Each Part.WellNamed)
    (hbody : ∀ body, decl.body = some body → ∀ i ∈ body, i.WellNamed) (level : Nat) :
    Nests .start .start (decl.render level) (decl.render (level + 1)) := by
  match decl with
  | .mk _ _ _ value body _ =>
    refine Property.nests_body h ?_ ?_
    · match value with
      | none => exact nofun
      | some value =>
        rintro _ ⟨⟩
        exact Expr.nests value (hvalue value rfl) level
    · match body with
      | none => exact nofun
      | some body =>
        rintro _ ⟨⟩
        exact Item.nests_renderAll body (hbody body rfl) (level + 1)

theorem Parameter.nests_renderAll (parameters : List Parameter)
    (hwords : ∀ p ∈ parameters, ∀ x ∈ p.words, IsSolid x)
    (htypes : ∀ p ∈ parameters, p.type.Each IsSolid)
    (h : ∀ p ∈ parameters, p.Each Part.WellNamed) (level : Nat) :
    TextsNest (Parameter.renderAll level parameters)
      (Parameter.renderAll (level + 1) parameters) := by
  match parameters with
  | [] => exact .nil
  | .mk label name type none isInOut isEscaping :: parameters =>
    obtain ⟨hword, hwords⟩ := List.forall_mem_cons.mp hwords
    obtain ⟨htype, htypes⟩ := List.forall_mem_cons.mp htypes
    obtain ⟨-, h⟩ := List.forall_mem_cons.mp h
    exact .cons (Parameter.nests_default hword htype nofun)
      (Parameter.nests_renderAll parameters hwords htypes h level)
  | .mk label name type (some value) isInOut isEscaping :: parameters =>
    obtain ⟨hword, hwords⟩ := List.forall_mem_cons.mp hwords
    obtain ⟨htype, htypes⟩ := List.forall_mem_cons.mp htypes
    obtain ⟨hvalue, h⟩ := List.forall_mem_cons.mp h
    refine .cons (Parameter.nests_default hword htype ?_)
      (Parameter.nests_renderAll parameters hwords htypes h level)
    rintro _ ⟨⟩
    exact Expr.nests value (hvalue value rfl) level

theorem Function.nests (f : Function) (h : (Part.item (.function f)).WellNamed)
    (hparameters : ∀ p ∈ f.parameters, p.Each Part.WellNamed)
    (hbody : ∀ i ∈ f.body, i.WellNamed) (level : Nat) :
    Nests .start .start (f.render level) (f.render (level + 1)) := by
  match f with
  | .mk _ _ parameters _ _ _ _ _ _ _ _ _ body =>
    refine Function.nests_body h ?_ (Item.nests_renderAll body hbody (level + 1))
    refine Parameter.nests_renderAll parameters (fun p hp x hx => ?_) (fun p hp => ?_) hparameters
      level
    · exact h.1 x (List.mem_append_right _ (List.mem_flatMap_of_mem hp hx))
    · exact h.2 p.type (by simp [Part.types, List.mem_map_of_mem hp])

theorem EnumCase.nests (decl : EnumCase) (h : (Part.item (.enumCase decl)).WellNamed)
    (hrawValue : ∀ value, decl.rawValue = some value → value.Each Part.WellNamed) (level : Nat) :
    Nests .start .start (decl.render level) (decl.render (level + 1)) := by
  match decl with
  | .mk _ _ none => exact EnumCase.nests_rawValue h nofun
  | .mk _ _ (some value) =>
    refine EnumCase.nests_rawValue h ?_
    rintro _ ⟨⟩
    exact Expr.nests value (hrawValue value rfl) level

theorem Condition.nests_renderAll (conditions : List Condition)
    (hwords : ∀ c ∈ conditions, ∀ x ∈ c.words, IsSolid x)
    (h : ∀ c ∈ conditions, c.Each Part.WellNamed) (level : Nat) :
    TextsNest (Condition.renderAll level conditions)
      (Condition.renderAll (level + 1) conditions) := by
  match conditions with
  | [] => exact .nil
  | .test value :: conditions =>
    obtain ⟨hc, hwords⟩ := List.forall_mem_cons.mp hwords
    obtain ⟨hvalue, h⟩ := List.forall_mem_cons.mp h
    exact .cons (Condition.nests_value hc (Expr.nests value hvalue level))
      (Condition.nests_renderAll conditions hwords h level)
  | .binding x value :: conditions =>
    obtain ⟨hc, hwords⟩ := List.forall_mem_cons.mp hwords
    obtain ⟨hvalue, h⟩ := List.forall_mem_cons.mp h
    exact .cons (Condition.nests_value hc (Expr.nests value hvalue level))
      (Condition.nests_renderAll conditions hwords h level)

theorem Pattern.nests (p : Pattern) (hp : ∀ x ∈ p.words, IsSolid x) (h : p.Each Part.WellNamed)
    (level : Nat) : Nests .margin .inside (p.render level) (p.render (level + 1)) := by
  match p with
  | .default | .tag _ | .bindings _ _ => exact Pattern.nests_value hp nofun
  | .value value =>
    refine Pattern.nests_value hp ?_
    rintro _ ⟨⟩
    exact Expr.nests value h level

theorem SwitchCase.nests_renderAll (cases : List SwitchCase)
    (hwords : ∀ c ∈ cases, ∀ x ∈ c.pattern.words, IsSolid x)
    (h : ∀ c ∈ cases, c.pattern.Each Part.WellNamed ∧ ∀ i ∈ c.body, i.WellNamed) (level : Nat) :
    Nests .start .start (SwitchCase.renderAll level cases)
      (SwitchCase.renderAll (level + 1) cases) := by
  match cases with
  | [] => exact .empty
  | .mk pattern body :: cases =>
    obtain ⟨hc, hwords⟩ := List.forall_mem_cons.mp hwords
    obtain ⟨⟨hpattern, hbody⟩, h⟩ := List.forall_mem_cons.mp h
    exact SwitchCase.nests_body (Pattern.nests pattern hc hpattern level)
      (Item.nests_renderAll body hbody (level + 1))
      (SwitchCase.nests_renderAll cases hwords h level)

theorem Catch.nests_renderAll (catches : List Catch)
    (h : ∀ c ∈ catches, (∀ e, c.pattern = some e → e.Each Part.WellNamed) ∧
      ∀ i ∈ c.body, i.WellNamed) (level : Nat) :
    Nests .start .start (Catch.renderAll level catches) (Catch.renderAll (level + 1) catches) := by
  match catches with
  | [] => exact .empty
  | .mk none body :: catches =>
    obtain ⟨⟨-, hbody⟩, h⟩ := List.forall_mem_cons.mp h
    exact Catch.nests_body nofun (Item.nests_renderAll body hbody (level + 1))
      (Catch.nests_renderAll catches h level)
  | .mk (some pattern) body :: catches =>
    obtain ⟨⟨hpattern, hbody⟩, h⟩ := List.forall_mem_cons.mp h
    refine Catch.nests_body ?_ (Item.nests_renderAll body hbody (level + 1))
      (Catch.nests_renderAll catches h level)
    rintro _ ⟨⟩
    exact Expr.nests pattern (hpattern pattern rfl) level
end

-- ---------------------------------------------------------------------------
-- Bodies
-- ---------------------------------------------------------------------------

theorem Item.renderAll_append (level : Nat) (xs ys : List Item) :
    Item.renderAll level (xs ++ ys) = Item.renderAll level xs ++ Item.renderAll level ys := by
  induction xs with
  | nil => simp [renderAll]
  | cons x xs ih => simp only [List.cons_append, renderAll, ih, String.append_assoc]

theorem SwitchCase.renderAll_append (level : Nat) (xs ys : List SwitchCase) :
    renderAll level (xs ++ ys) = renderAll level xs ++ renderAll level ys := by
  induction xs with
  | nil => simp [renderAll]
  | cons x xs ih =>
    obtain ⟨pattern, body⟩ := x
    simp only [List.cons_append, renderAll, ih, String.append_assoc]

theorem Catch.renderAll_append (level : Nat) (xs ys : List Catch) :
    renderAll level (xs ++ ys) = renderAll level xs ++ renderAll level ys := by
  induction xs with
  | nil => simp [renderAll]
  | cons x xs ih =>
    obtain ⟨_ | pattern, body⟩ := x <;>
      simp only [List.cons_append, renderAll, ih, String.append_assoc]

/-- An item with one of its bodies left open. -/
inductive Body where
  | type (decl : TypeDecl)
  | extension (decl : Extension)
  | property (decl : Property)
  | function (decl : Function)
  | thenBranch (conditions : List Condition) (orElse : Option (List Item))
  | elseBranch (conditions : List Condition) (body : List Item)
  | doBody (catches : List Catch)
  | catchBody (body : List Item) (before : List Catch) (pattern : Option Expr) (after : List Catch)
  | switchCase (subject : Expr) (before : List SwitchCase) (pattern : Pattern)
    (after : List SwitchCase)

def Body.fill (items : List Item) : Body → Item
  | .type decl => .type { decl with body := items }
  | .extension decl => .extension { decl with body := items }
  | .property decl => .property { decl with body := some items }
  | .function decl => .function { decl with body := items }
  | .thenBranch conditions orElse => .branch conditions items orElse
  | .elseBranch conditions body => .branch conditions body (some items)
  | .doBody catches => .doCatch items catches
  | .catchBody body before pattern after =>
    .doCatch body (before ++ { pattern, body := items } :: after)
  | .switchCase subject before pattern after =>
    .switch subject (before ++ { pattern, body := items } :: after)

/-- Around the lines of the items, one level deeper, the text is always the same. -/
def Encloses (level : Nat) (text : List Item → String) : Prop :=
  ∃ before after, ∀ items ≠ [], text items = before ++ Item.renderAll (level + 1) items ++ after

namespace Encloses

variable {level : Nat} {text text' : List Item → String}

theorem lines : Encloses level fun items => Item.renderAll (level + 1) items :=
  ⟨"", "", by simp⟩

theorem left (a : String) (h : Encloses level text) :
    Encloses level fun items => a ++ text items := by
  obtain ⟨before, after, h⟩ := h
  refine ⟨a ++ before, after, fun items hne => ?_⟩
  simp only [h items hne, String.append_assoc]

theorem right (b : String) (h : Encloses level text) :
    Encloses level fun items => text items ++ b := by
  obtain ⟨before, after, h⟩ := h
  refine ⟨before, after ++ b, fun items hne => ?_⟩
  simp only [h items hne, String.append_assoc]

theorem congr (h : Encloses level text) (heq : ∀ items ≠ [], text' items = text items) :
    Encloses level text' := by
  obtain ⟨before, after, h⟩ := h
  exact ⟨before, after, fun items hne => (heq items hne).trans (h items hne)⟩

theorem braced : Encloses level fun items =>
    braced level items.isEmpty (Item.renderAll (level + 1) items) := by
  refine ((lines.left " \x7b\n").right (fullLine level "\x7d")).congr fun items hne => ?_
  rw [List.isEmpty_eq_false_iff.mpr hne]
  rfl

theorem orBreak : Encloses level fun items =>
    if items.isEmpty then fullLine (level + 1) "break" else Item.renderAll (level + 1) items := by
  refine lines.congr fun items hne => ?_
  rw [List.isEmpty_eq_false_iff.mpr hne]
  rfl

end Encloses

theorem Body.encloses (body : Body) (level : Nat) :
    Encloses level fun items => (body.fill items).render level := by
  cases body with
  | type decl =>
    simp only [fill, Item.render, TypeDecl.render]
    exact Encloses.braced.left _
  | extension decl =>
    simp only [fill, Item.render, Extension.render]
    exact Encloses.braced.left _
  | property decl =>
    simp only [fill, Item.render]
    unfold Property.render
    exact Encloses.braced.left _
  | function decl =>
    simp only [fill, Item.render]
    unfold Function.render
    exact Encloses.braced.left _
  | thenBranch conditions orElse =>
    cases orElse with
    | none =>
      simp only [fill, Item.render]
      exact (Encloses.lines.left _).right _
    | some orElse =>
      simp only [fill, Item.render]
      exact (((Encloses.lines.left _).right _).right _).right _
  | elseBranch conditions body =>
    simp only [fill, Item.render]
    exact (Encloses.lines.left _).right _
  | doBody catches =>
    simp only [fill, Item.render]
    exact ((Encloses.lines.left _).right _).right _
  | catchBody body before pattern after =>
    have hcatch : Encloses level fun items =>
        Catch.renderAll level ({ pattern, body := items } :: after) := by
      unfold Catch.renderAll
      exact (Encloses.lines.left _).right _
    simp only [fill, Item.render, Catch.renderAll_append]
    exact ((hcatch.left _).left _).right _
  | switchCase subject before pattern after =>
    simp only [fill, Item.render, SwitchCase.renderAll_append, SwitchCase.renderAll]
    exact ((((Encloses.orBreak.left _).right _).left _).left _).right _

/-- The lines of items are those one level deeper, indented. -/
theorem Item.renderAll_succ {items : List Item} (h : ∀ i ∈ items, i.WellNamed) (level : Nat) :
    Item.renderAll (level + 1) items = Text.indented (Item.renderAll level items) := by
  have hempty : Reached .start "" "" := ⟨rfl, rfl⟩
  obtain ⟨-, hdeeper⟩ := Item.nests_renderAll items h level "" "" hempty
  rw [String.empty_append, String.empty_append] at hdeeper
  rw [← String.toList_inj, hdeeper, Text.toList_indented]

/-- Nesting only indents: in a body stand the lines that its items have outside of
it, with four spaces before each that is not empty. Items are written one after the
other, and after an item the next is indented as if it had not been there. -/
theorem renderAll_nested :
    (∀ (items : List Item) (level : Nat), (∀ i ∈ items, i.WellNamed) →
      Item.renderAll (level + 1) items = Text.indented (Item.renderAll level items)) ∧
    (∀ (body : Body) (level : Nat), ∃ before after, ∀ items ≠ [], (∀ i ∈ items, i.WellNamed) →
      (body.fill items).render level
        = before ++ Text.indented (Item.renderAll level items) ++ after) ∧
    (∀ (xs ys : List Item) (level : Nat),
      Item.renderAll level (xs ++ ys) = Item.renderAll level xs ++ Item.renderAll level ys) ∧
    ∀ (xs : List Item) (item : Item) (ys : List Item) (level : Nat),
      Item.renderAll level (xs ++ item :: ys)
        = Item.renderAll level xs ++ item.render level ++ Item.renderAll level ys := by
  refine ⟨fun items level h => Item.renderAll_succ h level, fun body level => ?_,
    fun xs ys level => Item.renderAll_append level xs ys, fun xs item ys level => ?_⟩
  · obtain ⟨before, after, hfill⟩ := body.encloses level
    refine ⟨before, after, fun items hne h => ?_⟩
    rw [← Item.renderAll_succ h]
    exact hfill items hne
  · rw [Item.renderAll_append, Item.renderAll, String.append_assoc]

theorem renderAll_nested_closure : ∃ items : List Item, items ≠ [] ∧ (∀ i ∈ items, i.WellNamed) ∧
    renderItems items
      = "/// First.\n///\n/// Second.\n\n"
        ++ "load \x7b entry in\n    show(\"a\\nb\")\n    keep(entry)\n\x7d\n" ∧
    Text.indented (renderItems items)
      = "    /// First.\n    ///\n    /// Second.\n\n"
        ++ "    load \x7b entry in\n        show(\"a\\nb\")\n        keep(entry)\n    \x7d\n" ∧
    Item.renderAll 1 items = Text.indented (renderItems items) ∧
    ∃ before after, (Body.fill items (.doBody [])).render 0
      = before ++ Text.indented (renderItems items) ++ after := by
  let body : List Item :=
    [.expr (.call (.name "show") [{ value := .string "a\nb" }]),
     .expr (.call (.name "keep") [{ value := .name "entry" }])]
  let items : List Item :=
    [.comment (.doc "First.\n\nSecond."), .blank,
     .expr (.call (.name "load") [{ value := .closure ["entry"] body }])]
  have hnamed : ∀ i ∈ items, i.WellNamed := by
    simp [items, body, Part.WellNamed, Part.words, Part.MentionsOnly, Part.types]
    decide
  obtain ⟨hsucc, hbody, -⟩ := renderAll_nested
  obtain ⟨before, after, hfill⟩ := hbody (.doBody []) 0
  exact ⟨items, List.cons_ne_nil _ _, hnamed, by decide +kernel, by decide +kernel,
    hsucc items 0 hnamed, before, after, hfill items (List.cons_ne_nil _ _) hnamed⟩

end EntityGen.Code
