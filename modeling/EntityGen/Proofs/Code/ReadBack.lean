import EntityGen.Code.Build
import EntityGen.Code.Render

/-!
# Reading expressions back

The text of an expression is read in one pass, with a stack of what stands
open around the place that is read. For expressions of names, literals,
postfix forms and infix operators the reader gives back the expression that
was written, so the text determines it: no two trees share a text, however
they are grouped.
-/

namespace EntityGen.Code

-- ---------------------------------------------------------------------------
-- Texts of parts
-- ---------------------------------------------------------------------------

theorem Expr.render_dot (level : Nat) (x : String) : (Expr.dot x).render level = "." ++ x := by
  rw [Expr.dot, Expr.render, Expr.render]
  rfl

theorem Expr.renderAll_eq_map (level : Nat) (es : List Expr) :
    Expr.renderAll level es = es.map (·.render level) := by
  induction es with
  | nil => rfl
  | cons e es ih => simp [Expr.renderAll, ih]

def Entry.text (level : Nat) (e : Entry) : String :=
  e.key.render level ++ ": " ++ e.value.render level

theorem Entry.renderAll_eq_map (level : Nat) (entries : List Entry) :
    Entry.renderAll level entries = entries.map (·.text level) := by
  induction entries with
  | nil => rfl
  | cons e entries ih =>
    obtain ⟨key, value⟩ := e
    simp [Entry.renderAll, Entry.text, ih]

def Argument.text (level : Nat) (a : Argument) : String := labelText a.label ++ a.value.render level

theorem Argument.renderAll_eq_map (level : Nat) (arguments : List Argument) :
    Argument.renderAll level arguments = arguments.map (·.text level) := by
  induction arguments with
  | nil => rfl
  | cons a arguments ih =>
    obtain ⟨label, value⟩ := a
    simp [Argument.renderAll, Argument.text, ih]

-- ---------------------------------------------------------------------------
-- Names and numbers
-- ---------------------------------------------------------------------------

/-- Letters, digits, `_` and `$`. Beyond ASCII every character counts as a letter. -/
def isNameChar (c : Char) : Bool := c.isAlphanum || c = '_' || c = '$' || 127 < c.toNat

def literalWords : List String := ["nil", "true", "false"]

/-- A name starts with no digit and is no literal. The words of operators, such
as `as`, may be names too: operators stand between spaces. -/
structure IsName (x : String) : Prop where
  ne_empty : x ≠ ""
  chars : ∀ c ∈ x.toList, isNameChar c
  head : ∀ c ∈ x.toList.head?, ¬c.isDigit
  notLiteral : x ∉ literalWords

instance (x : String) : Decidable (IsName x) :=
  have : Decidable (∀ c ∈ x.toList, isNameChar c) := List.decidableBAll _ _
  have : Decidable (∀ c ∈ x.toList.head?, ¬c.isDigit) := Option.decidableForallMem _
  decidable_of_iff (x ≠ "" ∧ (∀ c ∈ x.toList, isNameChar c) ∧
      (∀ c ∈ x.toList.head?, ¬c.isDigit) ∧ x ∉ literalWords)
    ⟨fun ⟨h₁, h₂, h₃, h₄⟩ => ⟨h₁, h₂, h₃, h₄⟩,
      fun ⟨h₁, h₂, h₃, h₄⟩ => ⟨h₁, h₂, h₃, h₄⟩⟩

def numberOf : List Char → Int
  | '-' :: digits => -(Nat.ofDigitChars 10 digits 0 : Int)
  | digits => Nat.ofDigitChars 10 digits 0

def Expr.ofWord (word : String) : Expr :=
  match word with
  | "nil" => .nil
  | "true" => .bool true
  | "false" => .bool false
  | word => .name word

-- ---------------------------------------------------------------------------
-- The reader
-- ---------------------------------------------------------------------------

/-- What is open around an expression that is being read. -/
inductive Frame where
  | operator (left : Expr) (op : InfixOp)
  | group
  | elements (done : List Expr)
  | key (done : List Entry)
  | value (done : List Entry) (key : Expr)
  | arguments (callee : Expr) (done : List Argument) (label : Option String)
  | position (base : Expr)

inductive Token where
  | word
  | number
  | implicitMember
  | member (base : Expr)

def Token.expr (chars : List Char) : Token → Expr
  | .word => .ofWord (String.ofList chars)
  | .number => .int (numberOf chars)
  | .implicitMember => .dot (String.ofList chars)
  | .member base => .member base (String.ofList chars)

/-- A place in a text. `stack` lists the innermost frame first. -/
inductive Reader where
  | before (stack : List Frame)
  | token (token : Token) (chars : List Char) (stack : List Frame)
  | string (chars : List Char) (stack : List Frame)
  | escaped (chars : List Char) (stack : List Frame)
  | after (e : Expr) (stack : List Frame)
  | symbol (left : Expr) (chars : List Char) (stack : List Frame)
  | noEntries (stack : List Frame)
  | failed

def unescape : Char → Char
  | 'n' => '\n'
  | 't' => '\t'
  | c => c

def InfixOp.all : List InfixOp :=
  [.equal, .notEqual, .less, .greater, .lessOrEqual, .greaterOrEqual, .and, .or, .nilCoalescing,
   .plus, .minus, .shiftLeft, .cast, .castOptional, .is]

def InfixOp.ofSymbol? (chars : List Char) : Option InfixOp :=
  InfixOp.all.find? fun op => op.symbol.toList = chars

namespace Reader

def reduce (e : Expr) : List Frame → Expr × List Frame
  | .operator left op :: stack => (.infixed left op e, stack)
  | stack => (e, stack)

def delimit (c : Char) : Expr × List Frame → Reader
  | (e, .group :: stack) => if c = ')' then .after e stack else .failed
  | (e, .position base :: stack) => if c = ']' then .after (.index base e) stack else .failed
  | (e, .elements done :: stack) =>
    if c = ',' then .before (.elements (done ++ [e]) :: stack)
    else if c = ']' then .after (.array (done ++ [e])) stack
    else if c = ':' && done.isEmpty then .before (.value [] e :: stack)
    else .failed
  | (e, .key done :: stack) => if c = ':' then .before (.value done e :: stack) else .failed
  | (e, .value done key :: stack) =>
    if c = ',' then .before (.key (done ++ [{ key, value := e }]) :: stack)
    else if c = ']' then .after (.dictionary (done ++ [{ key, value := e }])) stack
    else .failed
  | (e, .arguments callee done label :: stack) =>
    if c = ',' then .before (.arguments callee (done ++ [{ label, value := e }]) none :: stack)
    else if c = ')' then .after (.call callee (done ++ [{ label, value := e }])) stack
    else
      match c, e, label with
      | ':', .name x, none => .before (.arguments callee done (some x) :: stack)
      | _, _, _ => .failed
  | _ => .failed

def stepAfter (e : Expr) (stack : List Frame) : Char → Reader
  | '.' => .token (.member e) [] stack
  | '(' => .before (.arguments e [] none :: stack)
  | '[' => .before (.position e :: stack)
  | '?' => .after (.optionalChain e) stack
  | '!' => .after (.forceUnwrap e) stack
  | ' ' => .symbol e [] stack
  | c => delimit c (reduce e stack)

def stepBefore (stack : List Frame) (c : Char) : Reader :=
  if isNameChar c then .token (if c.isDigit then .number else .word) [c] stack
  else
    match c, stack with
    | ' ', stack => .before stack
    | '-', stack => .token .number ['-'] stack
    | '.', stack => .token .implicitMember [] stack
    | '"', stack => .string [] stack
    | '[', stack => .before (.elements [] :: stack)
    | '(', stack => .before (.group :: stack)
    | ']', .elements [] :: stack => .after (.array []) stack
    | ':', .elements [] :: stack => .noEntries stack
    | ')', .arguments callee [] none :: stack => .after (.call callee []) stack
    | _, _ => .failed

def step (r : Reader) (c : Char) : Reader :=
  match r with
  | .before stack => stepBefore stack c
  | .token t chars stack =>
    if isNameChar c then .token t (chars ++ [c]) stack else stepAfter (t.expr chars) stack c
  | .string chars stack =>
    if c = '"' then .after (.string (String.ofList chars)) stack
    else if c = '\\' then .escaped chars stack
    else .string (chars ++ [c]) stack
  | .escaped chars stack => .string (chars ++ [unescape c]) stack
  | .after e stack => stepAfter e stack c
  | .symbol left chars stack =>
    if c = ' ' then
      match InfixOp.ofSymbol? chars with
      | some op => .before (.operator left op :: stack)
      | none => .failed
    else .symbol left (chars ++ [c]) stack
  | .noEntries stack => if c = ']' then .after (.dictionary []) stack else .failed
  | .failed => .failed

def run (r : Reader) (chars : List Char) : Reader := chars.foldl step r

def read (r : Reader) (text : String) : Reader := r.run text.toList

/-- The end of a run of name characters is seen only after it. -/
def settled : Reader → Reader
  | .token t chars stack => .after (t.expr chars) stack
  | r => r

def result? (r : Reader) : Option Expr :=
  match r.settled with
  | .after e stack =>
    match reduce e stack with
    | (e, []) => some e
    | _ => none
  | _ => none

end Reader

def Expr.read? (text : String) : Option Expr := ((Reader.before []).read text).result?

namespace Reader

variable {stack : List Frame}

@[simp] theorem run_nil (r : Reader) : r.run [] = r := rfl

@[simp] theorem run_cons (r : Reader) (c : Char) (cs : List Char) :
    r.run (c :: cs) = (r.step c).run cs := rfl

theorem run_append (r : Reader) (xs ys : List Char) : r.run (xs ++ ys) = (r.run xs).run ys :=
  List.foldl_append

theorem read_append (r : Reader) (s t : String) : r.read (s ++ t) = (r.read s).read t := by
  rw [read, String.toList_append, run_append]
  rfl

-- ---------------------------------------------------------------------------
-- Words and numbers
-- ---------------------------------------------------------------------------

theorem run_token {t : Token} {chars xs : List Char} (h : ∀ c ∈ xs, isNameChar c) :
    (token t chars stack).run xs = .token t (chars ++ xs) stack := by
  induction xs generalizing chars with
  | nil => simp
  | cons c xs ih =>
    obtain ⟨hc, hxs⟩ := List.forall_mem_cons.mp h
    rw [run_cons, step, if_pos hc, ih hxs]
    simp

theorem step_before_nameChar {c : Char} (h : isNameChar c) :
    (before stack).step c = .token (if c.isDigit then .number else .word) [c] stack := by
  simp [step, stepBefore, h]

/-- A run of name characters is one token; its first character tells the kind. -/
theorem run_before_nameChars {c : Char} {cs : List Char} (h : ∀ d ∈ c :: cs, isNameChar d) :
    (before stack).run (c :: cs)
      = .token (if c.isDigit then .number else .word) (c :: cs) stack := by
  obtain ⟨hc, hcs⟩ := List.forall_mem_cons.mp h
  rw [run_cons, step_before_nameChar hc, run_token hcs]
  rfl

theorem ofWord_of_isName {x : String} (h : IsName x) : Expr.ofWord x = .name x := by
  have hx := h.notLiteral
  simp only [literalWords, List.mem_cons, List.not_mem_nil, or_false, not_or] at hx
  unfold Expr.ofWord
  split <;> simp_all

theorem settled_name {x : String} (h : IsName x) :
    ((before stack).read x).settled = .after (.name x) stack := by
  obtain ⟨c, cs, hx⟩ := List.exists_cons_of_ne_nil (mt String.toList_eq_nil_iff.mp h.ne_empty)
  have hdigit : ¬c.isDigit := h.head c (by simp [hx])
  rw [read, hx, run_before_nameChars (hx ▸ h.chars), if_neg hdigit, ← hx]
  simp [settled, Token.expr, ofWord_of_isName h]

theorem isNameChar_of_mem_toDigits {n : Nat} {c : Char} (h : c ∈ Nat.toDigits 10 n) :
    isNameChar c := by
  have hdigit := Nat.isDigit_of_mem_toDigits (by decide) (by decide) h
  simp [isNameChar, Char.isAlphanum, hdigit]

theorem numberOf_digits {cs : List Char} (h : ∀ c ∈ cs, c.isDigit) :
    numberOf cs = Nat.ofDigitChars 10 cs 0 := by
  unfold numberOf
  split
  · exact absurd (h '-' List.mem_cons_self) (by decide)
  · rfl

theorem settled_int (n : Int) :
    ((before stack).read n.repr).settled = .after (.int n) stack := by
  cases n with
  | ofNat n =>
    have hdigits : ∀ c ∈ Nat.toDigits 10 n, c.isDigit := fun c hc =>
      Nat.isDigit_of_mem_toDigits (by decide) (by decide) hc
    obtain ⟨c, cs, hcs⟩ := List.exists_cons_of_ne_nil (Nat.toDigits_ne_nil (n := n) (b := 10))
    have hc : c.isDigit := hdigits c (hcs ▸ List.mem_cons_self)
    rw [read, Int.repr, Nat.toList_repr, hcs,
      run_before_nameChars (hcs ▸ fun _ h => isNameChar_of_mem_toDigits h), if_pos hc, ← hcs]
    simp [settled, Token.expr, numberOf_digits hdigits]
  | negSucc n =>
    have hminus : (before stack).read "-" = .token .number ['-'] stack := rfl
    rw [Int.repr, read_append, hminus, read, Nat.toList_repr,
      run_token fun _ h => isNameChar_of_mem_toDigits h]
    simp [settled, Token.expr, numberOf, Int.negSucc_eq]

-- ---------------------------------------------------------------------------
-- Strings
-- ---------------------------------------------------------------------------

theorem run_string_escapeChar (chars : List Char) (c : Char) :
    (string chars stack).run (escapeChar c) = .string (chars ++ [c]) stack := by
  unfold escapeChar
  split
  · rfl
  · rfl
  · rfl
  · rfl
  · next hquote hbackslash _ _ =>
    rw [run_cons, run_nil, step, if_neg hquote, if_neg hbackslash]

theorem run_string (chars text : List Char) :
    (string chars stack).run (text.flatMap escapeChar) = .string (chars ++ text) stack := by
  induction text generalizing chars with
  | nil => simp
  | cons c text ih =>
    rw [List.flatMap_cons, run_append, run_string_escapeChar, ih, List.append_assoc,
      List.singleton_append]

theorem read_quoted (text : String) :
    (before stack).read (quoted text) = .after (.string text) stack := by
  have hopen : (before stack).read "\"" = .string [] stack := rfl
  have hinside : (string [] stack).read (String.ofList (text.toList.flatMap escapeChar))
      = .string text.toList stack := by
    rw [read, String.toList_ofList, run_string]
    rfl
  rw [quoted, read_append, read_append, hopen, hinside]
  change (string text.toList stack).step '"' = _
  simp [step]

-- ---------------------------------------------------------------------------
-- Operators
-- ---------------------------------------------------------------------------

theorem read_symbol (left : Expr) (op : InfixOp) :
    ((symbol left [] stack).read op.symbol).step ' ' = .before (.operator left op :: stack) := by
  cases op <;> rfl

end Reader

-- ---------------------------------------------------------------------------
-- The expressions that are read back
-- ---------------------------------------------------------------------------

/-- An expression of names, literals, postfix forms and infix operators. No
part of it is a closure. -/
inductive Expr.Plain : Expr → Prop
  | name {x : String} (hx : IsName x) : Plain (.name x)
  | dot {x : String} (hx : IsName x) : Plain (.dot x)
  | nil : Plain .nil
  | bool (value : Bool) : Plain (.bool value)
  | int (value : Int) : Plain (.int value)
  | string (value : String) : Plain (.string value)
  | array {elements : List Expr} (h : ∀ e ∈ elements, Plain e) : Plain (.array elements)
  | dictionary {entries : List Entry} (hkey : ∀ e ∈ entries, Plain e.key)
      (hvalue : ∀ e ∈ entries, Plain e.value) : Plain (.dictionary entries)
  | member {base : Expr} {x : String} (h : Plain base) (hx : IsName x) : Plain (.member base x)
  | call {callee : Expr} {arguments : List Argument} (h : Plain callee)
      (hlabel : ∀ a ∈ arguments, ∀ x, a.label = some x → IsName x)
      (hvalue : ∀ a ∈ arguments, Plain a.value) : Plain (.call callee arguments)
  | index {base position : Expr} (h : Plain base) (hposition : Plain position) :
      Plain (.index base position)
  | optionalChain {base : Expr} (h : Plain base) : Plain (.optionalChain base)
  | forceUnwrap {base : Expr} (h : Plain base) : Plain (.forceUnwrap base)
  | infixed {left right : Expr} {op : InfixOp} (hleft : Plain left) (hright : Plain right) :
      Plain (.infixed left op right)

def Expr.operandText (level : Nat) (e : Expr) : String :=
  parenthesizedIf e.needsParensAsOperand (e.render level)

/-- Of these expressions only infix ones need parentheses, as receivers too. -/
theorem Expr.Plain.receiverText {e : Expr} (h : e.Plain) (level : Nat) :
    parenthesizedIf e.needsParensAsReceiver (e.render level) = e.operandText level := by
  cases h <;> rfl

-- ---------------------------------------------------------------------------
-- Reading an expression
-- ---------------------------------------------------------------------------

open Reader

/-- The reader takes the text of the expression as the expression: as an
operand wherever one may stand, and as a whole where no operator waits for an
operand. -/
structure Expr.Reads (level : Nat) (e : Expr) : Prop where
  operand (stack : List Frame) :
    ((before stack).read (e.operandText level)).settled = .after e stack
  whole (stack : List Frame) (hstack : reduce e stack = (e, stack)) :
    ∃ e' stack', ((before stack).read (e.render level)).settled = .after e' stack'
      ∧ reduce e' stack' = (e, stack)

theorem Reader.step_of_settled {r : Reader} {e : Expr} {stack : List Frame} {c : Char}
    (h : r.settled = .after e stack) (hc : isNameChar c = false) :
    r.step c = stepAfter e stack c := by
  cases r with
  | token t chars stack' =>
    obtain ⟨rfl, rfl⟩ : t.expr chars = e ∧ stack' = stack := by simpa [settled] using h
    simp [step, hc]
  | after e' stack' =>
    obtain ⟨rfl, rfl⟩ : e' = e ∧ stack' = stack := by simpa [settled] using h
    rfl
  | _ => simp [settled] at h

def isDelimiter (c : Char) : Bool := c = ',' || c = ')' || c = ']' || c = ':'

theorem Reader.read_commaSeparated {α : Type} (place finish : List α → Reader) {text : α → String}
    {close : Char} {items : List α} (hspace : ∀ done, (place done).step ' ' = place done)
    (hnext : ∀ a ∈ items, ∀ done, ((place done).read (text a)).step ',' = place (done ++ [a]))
    (hlast : ∀ a ∈ items, ∀ done, ((place done).read (text a)).step close = finish (done ++ [a]))
    (hne : items ≠ []) (done : List α) :
    ((place done).read (commaSeparated (items.map text))).step close = finish (done ++ items) := by
  induction items generalizing done with
  | nil => exact absurd rfl hne
  | cons a items ih =>
    obtain ⟨hnext_a, hnext⟩ := List.forall_mem_cons.mp hnext
    obtain ⟨hlast_a, hlast⟩ := List.forall_mem_cons.mp hlast
    cases items with
    | nil => simpa [commaSeparated] using hlast_a done
    | cons b items =>
      have hfirst : ((place done).read (text a)).read ", " = place (done ++ [a]) := by
        change (((place done).read (text a)).step ',').step ' ' = _
        rw [hnext_a, hspace]
      have hrest := ih hnext hlast (List.cons_ne_nil _ _) (done ++ [a])
      rw [List.map_cons, List.map_cons, commaSeparated, String.intercalate_cons_cons, read_append,
        read_append, hfirst]
      simpa [commaSeparated] using hrest

namespace Expr.Reads

variable {level : Nat} {e : Expr} {stack : List Frame}

theorem of_settled (hparens : e.needsParensAsOperand = false)
    (h : ∀ stack, ((before stack).read (e.render level)).settled = .after e stack) :
    e.Reads level where
  operand stack := by simpa [operandText, parenthesizedIf, hparens] using h stack
  whole stack hstack := ⟨e, stack, h stack, hstack⟩

theorem step_operand (h : e.Reads level) {c : Char} (hc : isNameChar c = false) :
    ((before stack).read (e.operandText level)).step c = stepAfter e stack c :=
  step_of_settled (h.operand stack) hc

theorem step_whole (h : e.Reads level) (hstack : reduce e stack = (e, stack)) {c : Char}
    (hc : isDelimiter c) :
    ((before stack).read (e.render level)).step c = delimit c (e, stack) := by
  obtain ⟨e', stack', hread, hreduce⟩ := h.whole stack hstack
  rw [← hreduce]
  simp only [isDelimiter, Bool.or_eq_true, decide_eq_true_eq] at hc
  rcases hc with ((rfl | rfl) | rfl) | rfl
  all_goals exact step_of_settled hread (by decide)

-- ---------------------------------------------------------------------------
-- Collections
-- ---------------------------------------------------------------------------

theorem array {elements : List Expr} (h : ∀ e ∈ elements, e.Reads level) :
    (Expr.array elements).Reads level := by
  refine of_settled rfl fun stack => ?_
  rw [Expr.render, Expr.renderAll_eq_map, read_append, read_append]
  change (((before (.elements [] :: stack)).read _).step ']').settled = _
  cases elements with
  | nil => rfl
  | cons e elements =>
    rw [read_commaSeparated (fun done => before (.elements done :: stack))
      (fun done => .after (.array done) stack)]
    · rfl
    · exact fun _ => rfl
    · exact fun e he done => (h e he).step_whole rfl rfl
    · exact fun e he done => (h e he).step_whole rfl rfl
    · exact List.cons_ne_nil _ _

def entryFrame : List Entry → Frame
  | [] => .elements []
  | done => .key done

theorem step_entry {a : Entry} (hkey : a.key.Reads level) (hvalue : a.value.Reads level)
    (done : List Entry) {c : Char} (hc : isDelimiter c) :
    ((before (entryFrame done :: stack)).read (a.text level)).step c
      = delimit c (a.value, .value done a.key :: stack) := by
  have hcolon : ((before (entryFrame done :: stack)).read (a.key.render level)).step ':'
      = .before (.value done a.key :: stack) := by
    cases done <;> exact hkey.step_whole rfl rfl
  rw [Entry.text, read_append, read_append]
  change (((((before _).read _).step ':').step ' ').read _).step c = _
  rw [hcolon]
  exact hvalue.step_whole rfl hc

theorem dictionary {entries : List Entry} (hkey : ∀ a ∈ entries, a.key.Reads level)
    (hvalue : ∀ a ∈ entries, a.value.Reads level) : (Expr.dictionary entries).Reads level := by
  refine of_settled rfl fun stack => ?_
  cases entries with
  | nil =>
    rw [Expr.render]
    rfl
  | cons a entries =>
    rw [Expr.render, Entry.renderAll_eq_map, read_append, read_append]
    · change (((before (entryFrame [] :: stack)).read _).step ']').settled = _
      rw [read_commaSeparated (fun done => before (entryFrame done :: stack))
        (fun done => .after (.dictionary done) stack)]
      · rfl
      · exact fun _ => rfl
      · rintro ⟨key, value⟩ ha done
        rw [step_entry (hkey _ ha) (hvalue _ ha) done rfl]
        cases done <;> rfl
      · rintro ⟨key, value⟩ ha done
        exact step_entry (hkey _ ha) (hvalue _ ha) done rfl
      · exact List.cons_ne_nil _ _
    · exact List.cons_ne_nil a entries

-- ---------------------------------------------------------------------------
-- Postfix forms
-- ---------------------------------------------------------------------------

theorem member {base : Expr} {x : String} (hbase : base.Plain) (h : base.Reads level)
    (hx : IsName x) : (Expr.member base x).Reads level := by
  refine of_settled rfl fun stack => ?_
  rw [Expr.render, hbase.receiverText, read_append, read_append]
  change ((((before stack).read _).step '.').read x).settled = _
  rw [h.step_operand (by decide)]
  change ((token (.member base) [] stack).run x.toList).settled = _
  rw [run_token hx.chars]
  simp [settled, Token.expr]

theorem step_argument {a : Argument} (hlabel : ∀ x, a.label = some x → IsName x)
    (hvalue : a.value.Reads level) (callee : Expr) (done : List Argument) {c : Char}
    (hc : isDelimiter c) :
    ((before (.arguments callee done none :: stack)).read (a.text level)).step c
      = delimit c (a.value, .arguments callee done a.label :: stack) := by
  obtain ⟨label, value⟩ := a
  cases label with
  | none =>
    rw [Argument.text, labelText, String.empty_append]
    exact hvalue.step_whole rfl hc
  | some x =>
    have hcolon : ((before (.arguments callee done none :: stack)).read x).step ':'
        = .before (.arguments callee done (some x) :: stack) :=
      step_of_settled (settled_name (hlabel x rfl)) (by decide)
    rw [Argument.text, labelText, read_append, read_append]
    change (((((before _).read _).step ':').step ' ').read _).step c = _
    rw [hcolon]
    exact hvalue.step_whole rfl hc

theorem call {callee : Expr} {arguments : List Argument} (hcallee : callee.Plain)
    (h : callee.Reads level) (hlabel : ∀ a ∈ arguments, ∀ x, a.label = some x → IsName x)
    (hclosure : Argument.endInClosure arguments = false)
    (hvalue : ∀ a ∈ arguments, a.value.Reads level) : (Expr.call callee arguments).Reads level := by
  refine of_settled rfl fun stack => ?_
  rw [Expr.render, hcallee.receiverText, hclosure, callTail, if_neg Bool.false_ne_true,
    Argument.renderAll_eq_map, read_append, read_append, read_append]
  change (((((before stack).read _).step '(').read _).step ')').settled = _
  rw [h.step_operand (by decide)]
  change (((before (.arguments callee [] none :: stack)).read _).step ')').settled = _
  cases arguments with
  | nil => rfl
  | cons a arguments =>
    rw [read_commaSeparated (fun done => before (.arguments callee done none :: stack))
      (fun done => .after (.call callee done) stack)]
    · rfl
    · exact fun _ => rfl
    · rintro ⟨label, value⟩ ha done
      exact step_argument (hlabel _ ha) (hvalue _ ha) callee done rfl
    · rintro ⟨label, value⟩ ha done
      exact step_argument (hlabel _ ha) (hvalue _ ha) callee done rfl
    · exact List.cons_ne_nil _ _

theorem index {base position : Expr} (hbase : base.Plain) (h : base.Reads level)
    (hposition : position.Reads level) : (Expr.index base position).Reads level := by
  refine of_settled rfl fun stack => ?_
  rw [Expr.render, hbase.receiverText, read_append, read_append, read_append]
  change (((((before stack).read _).step '[').read _).step ']').settled = _
  rw [h.step_operand (by decide)]
  change (((before (.position base :: stack)).read _).step ']').settled = _
  rw [hposition.step_whole rfl rfl]
  rfl

theorem optionalChain {base : Expr} (hbase : base.Plain) (h : base.Reads level) :
    (Expr.optionalChain base).Reads level := by
  refine of_settled rfl fun stack => ?_
  rw [Expr.render, hbase.receiverText, read_append]
  change (((before stack).read _).step '?').settled = _
  rw [h.step_operand (by decide)]
  rfl

theorem forceUnwrap {base : Expr} (hbase : base.Plain) (h : base.Reads level) :
    (Expr.forceUnwrap base).Reads level := by
  refine of_settled rfl fun stack => ?_
  rw [Expr.render, hbase.receiverText, read_append]
  change (((before stack).read _).step '!').settled = _
  rw [h.step_operand (by decide)]
  rfl

-- ---------------------------------------------------------------------------
-- Infix operators
-- ---------------------------------------------------------------------------

/-- The operator waits for its right operand until something ends the whole. -/
theorem settled_infixed {left right : Expr} (op : InfixOp) (hleft : left.Reads level)
    (hright : right.Reads level) :
    ((before stack).read ((Expr.infixed left op right).render level)).settled
      = .after right (.operator left op :: stack) := by
  rw [Expr.render, read_append, read_append, read_append, read_append]
  change ((((((before stack).read (left.operandText level)).step ' ').read op.symbol).step ' ').read
    (right.operandText level)).settled = _
  rw [hleft.step_operand (by decide)]
  change ((((symbol left [] stack).read op.symbol).step ' ').read _).settled = _
  rw [read_symbol]
  exact hright.operand _

theorem infixed {left right : Expr} {op : InfixOp} (hleft : left.Reads level)
    (hright : right.Reads level) : (Expr.infixed left op right).Reads level where
  whole stack _ := ⟨right, .operator left op :: stack, settled_infixed op hleft hright, rfl⟩
  operand stack := by
    rw [operandText, needsParensAsOperand, parenthesizedIf, if_pos rfl, read_append, read_append]
    change (((before (.group :: stack)).read _).step ')').settled = _
    rw [step_of_settled (settled_infixed op hleft hright) (by decide)]
    rfl

end Expr.Reads

-- ---------------------------------------------------------------------------
-- Reading back
-- ---------------------------------------------------------------------------

theorem Expr.Plain.not_isClosure {a : Argument} (h : a.value.Plain) : a.isClosure = false := by
  obtain ⟨label, value⟩ := a
  cases label <;> cases h <;> rfl

theorem Expr.Plain.endInClosure_eq_false {arguments : List Argument}
    (h : ∀ a ∈ arguments, a.value.Plain) : Argument.endInClosure arguments = false := by
  unfold Argument.endInClosure
  cases hlast : arguments.getLast? with
  | none => rfl
  | some a => exact not_isClosure (h a (List.mem_of_getLast? hlast))

theorem Expr.Plain.reads {e : Expr} (h : e.Plain) (level : Nat) : e.Reads level := by
  induction h with
  | name hx =>
    refine .of_settled rfl fun stack => ?_
    rw [Expr.render]
    exact settled_name hx
  | @dot x hx =>
    refine .of_settled rfl fun stack => ?_
    rw [Expr.render_dot, read_append]
    change ((token .implicitMember [] stack).run x.toList).settled = _
    rw [run_token hx.chars]
    simp [settled, Token.expr]
  | nil =>
    refine .of_settled rfl fun stack => ?_
    rw [Expr.render]
    rfl
  | bool value =>
    refine .of_settled rfl fun stack => ?_
    rw [Expr.render]
    cases value <;> rfl
  | int value =>
    refine .of_settled rfl fun stack => ?_
    rw [Expr.render]
    exact settled_int value
  | string value =>
    refine .of_settled rfl fun stack => ?_
    rw [Expr.render, read_quoted]
    rfl
  | array _ ih => exact .array ih
  | dictionary _ _ ihkey ihvalue => exact .dictionary ihkey ihvalue
  | member hbase hx ih => exact .member hbase ih hx
  | call hcallee hlabel hvalue ih ihvalue =>
    exact .call hcallee ih hlabel (endInClosure_eq_false hvalue) ihvalue
  | index hbase _ ih ihposition => exact .index hbase ih ihposition
  | optionalChain hbase ih => exact .optionalChain hbase ih
  | forceUnwrap hbase ih => exact .forceUnwrap hbase ih
  | infixed _ _ ihleft ihright => exact .infixed ihleft ihright

theorem Expr.Plain.read?_text {e : Expr} (h : e.Plain) : Expr.read? e.text = some e := by
  obtain ⟨e', stack, hread, hreduce⟩ := (h.reads 0).whole [] rfl
  simp [Expr.read?, Expr.text, result?, hread, hreduce]

example : Expr.read? "(a && .b)[1]? ?? [c: \"\\n\"]" =
    some (.infixed (.optionalChain (.index (.infixed (.name "a") .and (.dot "b")) (.int 1)))
      .nilCoalescing (.dictionary [{ key := .name "c", value := .string "\n" }])) := by rfl

/-- The text determines the expression, its grouping included. -/
theorem text_eq_iff_of_plain {e e' : Expr} (h : e.Plain) (h' : e'.Plain) :
    e.text = e'.text ↔ e = e' := by
  constructor
  · intro htext
    have hread := h.read?_text
    rw [htext, h'.read?_text] at hread
    exact (Option.some.inj hread).symm
  · rintro rfl
    rfl

theorem text_eq_iff_of_plain_grouping :
    let a := Expr.name "a"
    let b := Expr.call (.name "b") [.labelled "at" (.int (-1))]
    (Expr.member (.orElse a b) "c").Plain ∧ (Expr.orElse a (.member b "c")).Plain ∧
      (Expr.member (.orElse a b) "c").text ≠ (Expr.orElse a (.member b "c")).text := by
  intro a b
  have ha : a.Plain := .name (by decide)
  have hb : b.Plain := by
    refine .call (.name (by decide)) ?_ ?_
    · simpa [Argument.labelled] using (by decide : IsName "at")
    · simpa [Argument.labelled] using .int (-1)
  have hwhole : (Expr.member (.orElse a b) "c").Plain := .member (.infixed ha hb) (by decide)
  have hsecond : (Expr.orElse a (.member b "c")).Plain := .infixed ha (.member hb (by decide))
  refine ⟨hwhole, hsecond, fun htext => ?_⟩
  cases (text_eq_iff_of_plain hwhole hsecond).mp htext

end EntityGen.Code
