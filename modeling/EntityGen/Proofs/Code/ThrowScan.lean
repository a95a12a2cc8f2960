import EntityGen.Proofs.Code.ReadBack

/-!
# Scanning a text for failures

In a text `try?` and `try!` absorb what everything after them throws, up to the
end of the element or the brackets in which they stand. A scan finds out whether
something else throws. Names, types and literals say nothing to it.
-/

namespace EntityGen.Code

-- ---------------------------------------------------------------------------
-- The scan
-- ---------------------------------------------------------------------------

inductive ScanMode where
  | code (depth : Nat)
  | string (depth : Nat)
  | escaped (depth : Nat)
  | comment (depth : Nat)

/-- A place in a text. `stack` tells for each open bracket whether failures are
absorbed around it, `angles` counts the open brackets of type arguments. -/
structure Scan where
  word : List Char
  absorbed : Bool
  throws : Bool
  stack : List Bool
  angles : Nat
  mode : ScanMode

namespace Scan

/-- A character after a word, which is `try` or `throw` if it counts. -/
def endWord (s : Scan) (c : Char) : Scan :=
  let absorbing := s.word = "try".toList && (c = '?' || c = '!')
  let throwing := s.word = "throw".toList || (s.word = "try".toList && !absorbing)
  { s with
    word := [], absorbed := s.absorbed || absorbing
    throws := s.throws || (!s.absorbed && throwing) }

def close (s : Scan) : Scan :=
  match s.stack with
  | [] => s
  | absorbed :: stack => { s with absorbed, stack }

/-- After a comma or a colon nothing is absorbed that is not around the brackets. -/
def nextElement (s : Scan) : Scan :=
  match s.stack, s.angles with
  | absorbed :: _, 0 => { s with absorbed }
  | _, _ => s

def punctuate (s : Scan) (afterWord : Bool) : Char → Scan
  | '(' | '[' => { s with stack := s.absorbed :: s.stack }
  | ')' | ']' => s.close
  | ',' | ':' => s.nextElement
  | '<' => { s with angles := if afterWord then s.angles + 1 else s.angles }
  | '>' => { s with angles := s.angles - 1 }
  | '"' => { s with mode := .string 0 }
  | '\x7b' => { s with mode := .code 1 }
  | _ => s

/-- A closure throws on its own, so only its end is looked for. With a slash a
comment starts, for nothing else is written with one. -/
def inBraces (depth : Nat) : Char → ScanMode
  | '\x7b' => .code (depth + 2)
  | '\x7d' => .code depth
  | '"' => .string (depth + 1)
  | '/' => .comment (depth + 1)
  | _ => .code (depth + 1)

def step (s : Scan) (c : Char) : Scan :=
  match s.mode with
  | .code 0 =>
    if isNameChar c then { s with word := s.word ++ [c] }
    else (s.endWord c).punctuate (!s.word.isEmpty) c
  | .code (depth + 1) => { s with mode := inBraces depth c }
  | .string depth =>
    if c = '"' then { s with mode := .code depth }
    else if c = '\\' then { s with mode := .escaped depth }
    else s
  | .escaped depth => { s with mode := .string depth }
  | .comment depth => if c = '\n' then { s with mode := .code depth } else s

def run (s : Scan) (chars : List Char) : Scan := chars.foldl step s

def read (s : Scan) (text : String) : Scan := s.run text.toList

theorem run_append (s : Scan) (xs ys : List Char) : s.run (xs ++ ys) = (s.run xs).run ys :=
  List.foldl_append

theorem read_append (s : Scan) (a b : String) : s.read (a ++ b) = (s.read a).read b := by
  rw [read, String.toList_append, run_append]
  rfl

end Scan

def throwsByText (text : String) : Bool :=
  ((Scan.mk [] false false [] 0 (.code 0)).read text).throws

-- ---------------------------------------------------------------------------
-- What texts say
-- ---------------------------------------------------------------------------

def IsQuiet (word : List Char) : Prop := word ≠ "try".toList ∧ word ≠ "throw".toList

instance : DecidablePred IsQuiet := fun _ => inferInstanceAs (Decidable (_ ∧ _))

/-- The text throws or not, absorbs what follows or not, and ends in a word that
is still to be ended, wherever it stands. -/
def Tells (text : String) (throws absorbs : Bool) (word : List Char) : Prop :=
  ∀ (absorbed thrown : Bool) (stack : List Bool),
    (Scan.mk [] absorbed thrown stack 0 (.code 0)).read text
      = { word, absorbed := absorbed || absorbs, throws := thrown || (!absorbed && throws), stack
          angles := 0, mode := .code 0 }

/-- A character that ends a word. It does not matter which word, if that is quiet. -/
def EndsWord (c : Char) : Prop := isNameChar c = false ∧ c ≠ '<'

instance : DecidablePred EndsWord := fun _ => inferInstanceAs (Decidable (_ ∧ _))

def StartsApart (text : String) : Prop := ∃ c ∈ text.toList.head?, EndsWord c

instance : DecidablePred StartsApart := fun _ => Option.decidableExistsMem _

theorem StartsApart.append {a : String} (h : StartsApart a) (b : String) :
    StartsApart (a ++ b) := by
  obtain ⟨c, hc, hends⟩ := h
  exact ⟨c, by simp [String.toList_append, Option.mem_def.mp hc], hends⟩

theorem Scan.endWord_quiet {word : List Char} (hword : IsQuiet word) (c : Char) (q t : Bool)
    (stack : List Bool) (angles : Nat) :
    (Scan.mk word q t stack angles (.code 0)).endWord c = .mk [] q t stack angles (.code 0) := by
  obtain ⟨htry, hthrow⟩ := hword
  simp only [endWord, decide_eq_false htry, decide_eq_false hthrow, Bool.false_and, Bool.or_false,
    Bool.and_false]

theorem Scan.punctuate_afterWord {c : Char} (hc : c ≠ '<') (s : Scan) (afterWord : Bool) :
    s.punctuate afterWord c = s.punctuate false c := by
  unfold punctuate
  split
  all_goals first | rfl | exact absurd rfl hc

theorem Scan.step_quiet {word : List Char} (hword : IsQuiet word) {c : Char} (hc : EndsWord c)
    (q t : Bool) (stack : List Bool) (angles : Nat) :
    (Scan.mk word q t stack angles (.code 0)).step c
      = (Scan.mk [] q t stack angles (.code 0)).step c := by
  simp only [step, hc.1, Bool.false_eq_true, if_false]
  rw [endWord_quiet hword, endWord_quiet (by decide), punctuate_afterWord hc.2,
    punctuate_afterWord hc.2 _ (!List.isEmpty [])]

theorem Scan.read_quiet {word : List Char} (hword : IsQuiet word) {text : String}
    (hstart : StartsApart text) (q t : Bool) (stack : List Bool) (angles : Nat) :
    (Scan.mk word q t stack angles (.code 0)).read text
      = (Scan.mk [] q t stack angles (.code 0)).read text := by
  obtain ⟨c, hc, hends⟩ := hstart
  obtain ⟨rest, hrest⟩ := List.head?_eq_some_iff.mp (Option.mem_def.mp hc)
  rw [read, read, hrest]
  change ((Scan.mk word q t stack angles (.code 0)).step c).run rest = _
  rw [step_quiet hword hends]
  rfl

namespace Tells

variable {a b : String} {throws throws' absorbs absorbs' : Bool} {word word' : List Char}

theorem append_of_closed (ha : Tells a throws absorbs []) (hb : Tells b throws' absorbs' word) :
    Tells (a ++ b) (throws || (!absorbs && throws')) (absorbs || absorbs') word := by
  intro q t stack
  rw [Scan.read_append, ha, hb]
  cases q <;> cases t <;> cases throws <;> cases absorbs <;> rfl

theorem append (ha : Tells a throws absorbs word) (hword : IsQuiet word) (hstart : StartsApart b)
    (hb : Tells b throws' absorbs' word') :
    Tells (a ++ b) (throws || (!absorbs && throws')) (absorbs || absorbs') word' := by
  intro q t stack
  rw [Scan.read_append, ha, Scan.read_quiet hword hstart, hb]
  cases q <;> cases t <;> cases throws <;> cases absorbs <;> rfl

theorem prefixOp (op : PrefixOp) :
    Tells op.symbol (op = .tryThrowing || op = .throwing) (op = .tryOptional || op = .tryForced)
      [] := by
  intro q t stack
  cases op <;> cases q <;> cases t <;> rfl

theorem space : Tells " " false false [] := by
  intro q t stack
  cases q <;> cases t <;> rfl

theorem infixOp (op : InfixOp) : Tells (" " ++ op.symbol ++ " ") false false [] := by
  intro q t stack
  cases op <;> cases q <;> cases t <;> rfl

end Tells

-- ---------------------------------------------------------------------------
-- Elements and brackets
-- ---------------------------------------------------------------------------

/-- What a text between brackets says, if it starts where an element does. -/
def TellsInside (text : String) (throws : Bool) : Prop :=
  ∀ (around thrown : Bool) (stack : List Bool), ∃ word absorbed, IsQuiet word ∧
    (Scan.mk [] around thrown (around :: stack) 0 (.code 0)).read text
      = { word, absorbed, throws := thrown || (!around && throws), stack := around :: stack
          angles := 0, mode := .code 0 }

namespace TellsInside

variable {x y : String} {throws throws' : Bool}

theorem empty : TellsInside "" false := by
  intro around t stack
  exact ⟨[], around, by decide, by simp [Scan.read, Scan.run]⟩

theorem of_tells {absorbs : Bool} {word : List Char} (h : Tells x throws absorbs word)
    (hword : IsQuiet word) : TellsInside x throws := fun around t stack =>
  ⟨word, around || absorbs, hword, h around t (around :: stack)⟩

theorem separated {c : Char} (hc : c = ',' ∨ c = ':') (hx : TellsInside x throws)
    (hy : TellsInside y throws') :
    TellsInside (x ++ String.ofList [c, ' '] ++ y) (throws || throws') := by
  intro around t stack
  obtain ⟨word, q, hword, hx⟩ := hx around t stack
  obtain ⟨word', q', hword', hy⟩ := hy around (t || (!around && throws)) stack
  refine ⟨word', q', hword', ?_⟩
  have hseparator (t : Bool) : (Scan.mk word q t (around :: stack) 0 (.code 0)).read
      (String.ofList [c, ' ']) = .mk [] around t (around :: stack) 0 (.code 0) := by
    have hstart : StartsApart (String.ofList [c, ' ']) := by rcases hc with rfl | rfl <;> decide
    rw [Scan.read_quiet hword hstart]
    rcases hc with rfl | rfl <;> cases q <;> cases t <;> cases around <;> rfl
  rw [Scan.read_append, Scan.read_append, hx, hseparator, hy]
  cases around <;> cases t <;> cases throws <;> rfl

theorem commaSeparated {α : Type} {items : List α} {text : α → String} {throws : α → Bool}
    (h : ∀ a ∈ items, TellsInside (text a) (throws a)) :
    TellsInside (commaSeparated (items.map text)) (items.any throws) := by
  induction items with
  | nil => exact empty
  | cons a items ih =>
    obtain ⟨ha, hitems⟩ := List.forall_mem_cons.mp h
    cases items with
    | nil => simpa [Code.commaSeparated] using ha
    | cons b items =>
      rw [List.map_cons, List.map_cons, Code.commaSeparated, String.intercalate_cons_cons,
        List.any_cons]
      exact separated (.inl rfl) ha (ih hitems)

theorem enclosed {opening closing : String}
    (hopen : ∀ q t stack, (Scan.mk [] q t stack 0 (.code 0)).read opening
      = .mk [] q t (q :: stack) 0 (.code 0))
    (hstart : StartsApart closing)
    (hclose : ∀ q q' t stack, (Scan.mk [] q' t (q :: stack) 0 (.code 0)).read closing
      = .mk [] q t stack 0 (.code 0))
    (h : TellsInside x throws) : Tells (opening ++ x ++ closing) throws false [] := by
  intro q t stack
  obtain ⟨word, q', hword, hx⟩ := h q t stack
  rw [Scan.read_append, Scan.read_append, hopen, hx, Scan.read_quiet hword hstart, hclose]
  cases q <;> rfl

theorem parentheses (h : TellsInside x throws) : Tells ("(" ++ x ++ ")") throws false [] := by
  refine h.enclosed (fun q t stack => ?_) (by decide) fun q q' t stack => ?_
  · cases q <;> cases t <;> rfl
  · cases q' <;> cases t <;> rfl

theorem squareBrackets (h : TellsInside x throws) : Tells ("[" ++ x ++ "]") throws false [] := by
  refine h.enclosed (fun q t stack => ?_) (by decide) fun q q' t stack => ?_
  · cases q <;> cases t <;> rfl
  · cases q' <;> cases t <;> rfl

end TellsInside

-- ---------------------------------------------------------------------------
-- Texts without effect
-- ---------------------------------------------------------------------------

/-- The text changes nothing but the word, not even between type arguments. -/
def Passes (text : String) (word : List Char) : Prop :=
  ∀ (absorbed thrown : Bool) (stack : List Bool) (angles : Nat),
    (Scan.mk [] absorbed thrown stack angles (.code 0)).read text
      = .mk word absorbed thrown stack angles (.code 0)

structure IsWord (x : String) : Prop where
  ne_empty : x ≠ ""
  chars : ∀ c ∈ x.toList, isNameChar c
  quiet : IsQuiet x.toList

instance (x : String) : Decidable (IsWord x) :=
  have : Decidable (∀ c ∈ x.toList, isNameChar c) := List.decidableBAll _ _
  decidable_of_iff (x ≠ "" ∧ (∀ c ∈ x.toList, isNameChar c) ∧ IsQuiet x.toList)
    ⟨fun ⟨hempty, hchars, hquiet⟩ => ⟨hempty, hchars, hquiet⟩,
      fun ⟨hempty, hchars, hquiet⟩ => ⟨hempty, hchars, hquiet⟩⟩

theorem Scan.run_nameChars {s : Scan} (hs : s.mode = .code 0) {cs : List Char}
    (h : ∀ c ∈ cs, isNameChar c) : s.run cs = { s with word := s.word ++ cs } := by
  induction cs generalizing s with
  | nil => simp [run]
  | cons c cs ih =>
    obtain ⟨hc, hcs⟩ := List.forall_mem_cons.mp h
    have hstep : s.step c = { s with word := s.word ++ [c] } := by simp [step, hs, hc]
    change (s.step c).run cs = _
    rw [hstep]
    refine (ih ?_ hcs).trans ?_
    · exact hs
    · simp

namespace Passes

variable {a b : String} {word word' : List Char}

theorem tells (h : Passes a word) : Tells a false false word := by
  intro q t stack
  rw [h q t stack 0]
  cases q <;> cases t <;> rfl

theorem append_of_closed (ha : Passes a []) (hb : Passes b word) : Passes (a ++ b) word := by
  intro q t stack angles
  rw [Scan.read_append, ha, hb]

theorem append (ha : Passes a word) (hword : IsQuiet word) (hstart : StartsApart b)
    (hb : Passes b word') : Passes (a ++ b) word' := by
  intro q t stack angles
  rw [Scan.read_append, ha, Scan.read_quiet hword hstart, hb]

theorem nameChars (h : ∀ c ∈ a.toList, isNameChar c) : Passes a a.toList := by
  intro q t stack angles
  rw [Scan.read, Scan.run_nameChars rfl h]
  rfl

end Passes

-- ---------------------------------------------------------------------------
-- Types
-- ---------------------------------------------------------------------------

inductive TypeName.Named : TypeName → Prop
  | mk {name : String} {parameters : List TypeName} {wrappers : List Wrapper} {isMetatype : Bool}
    (hname : IsWord name) (h : ∀ t ∈ parameters, Named t) :
    Named { name, parameters, wrappers, isMetatype }

namespace Passes

variable {a b : String} {word word' : List Char}

theorem optional (h : Passes a word) (hword : IsQuiet word) : Passes (a ++ "?") [] := by
  refine h.append (b := "?") hword (by decide) fun q t stack angles => ?_
  cases q <;> cases t <;> rfl

theorem metatype (h : Passes a word) (hword : IsQuiet word) :
    Passes (a ++ ".self") "self".toList := by
  refine h.append (b := ".self") hword (by decide) fun q t stack angles => ?_
  cases q <;> cases t <;> rfl

theorem array (h : Passes a word) (hword : IsQuiet word) : Passes ("[" ++ a ++ "]") [] := by
  intro q t stack angles
  have hopen : (Scan.mk [] q t stack angles (.code 0)).read "["
      = .mk [] q t (q :: stack) angles (.code 0) := by
    cases q <;> cases t <;> rfl
  rw [Scan.read_append, Scan.read_append, hopen, h, Scan.read_quiet hword (by decide)]
  cases q <;> cases t <;> rfl

theorem dictionary (ha : Passes a word) (hword : IsQuiet word) (hb : Passes b word')
    (hword' : IsQuiet word') : Passes ("[" ++ a ++ ": " ++ b ++ "]") [] := by
  intro q t stack angles
  have hopen : (Scan.mk [] q t stack angles (.code 0)).read "["
      = .mk [] q t (q :: stack) angles (.code 0) := by
    cases q <;> cases t <;> rfl
  have hcolon : (Scan.mk word q t (q :: stack) angles (.code 0)).read ": "
      = .mk [] q t (q :: stack) angles (.code 0) := by
    rw [Scan.read_quiet hword (by decide)]
    cases q <;> cases t <;> cases angles <;> rfl
  simp only [Scan.read_append]
  rw [hopen, ha, hcolon, hb, Scan.read_quiet hword' (by decide)]
  cases q <;> cases t <;> rfl

theorem arguments {texts : List String}
    (h : ∀ a ∈ texts, ∃ word, IsQuiet word ∧ Passes a word) :
    ∃ word, IsQuiet word ∧ ∀ (q t : Bool) (stack : List Bool) (angles : Nat),
      (Scan.mk [] q t stack (angles + 1) (.code 0)).read (", ".intercalate texts)
        = .mk word q t stack (angles + 1) (.code 0) := by
  induction texts with
  | nil => exact ⟨[], by decide, fun q t stack angles => rfl⟩
  | cons a texts ih =>
    obtain ⟨⟨word, hword, ha⟩, htexts⟩ := List.forall_mem_cons.mp h
    cases texts with
    | nil => exact ⟨word, hword, fun q t stack angles => by simpa using ha q t stack (angles + 1)⟩
    | cons b texts =>
      obtain ⟨word', hword', hrest⟩ := ih htexts
      refine ⟨word', hword', fun q t stack angles => ?_⟩
      have hcomma : (Scan.mk word q t stack (angles + 1) (.code 0)).read ", "
          = .mk [] q t stack (angles + 1) (.code 0) := by
        rw [Scan.read_quiet hword (by decide)]
        cases q <;> cases t <;> cases stack <;> rfl
      rw [String.intercalate_cons_cons, Scan.read_append, Scan.read_append, ha, hcomma, hrest]

/-- Right after a name, a bracket opens type arguments. -/
theorem generic {name : String} {texts : List String} (hname : IsWord name)
    (h : ∀ a ∈ texts, ∃ word, IsQuiet word ∧ Passes a word) :
    Passes (name ++ "<" ++ ", ".intercalate texts ++ ">") [] := by
  obtain ⟨word, hword, harguments⟩ := arguments h
  intro q t stack angles
  have hopen : (Scan.mk name.toList q t stack angles (.code 0)).read "<"
      = .mk [] q t stack (angles + 1) (.code 0) := by
    have hchars : name.toList ≠ [] := mt String.toList_eq_nil_iff.mp hname.ne_empty
    obtain ⟨c, cs, hcs⟩ := List.exists_cons_of_ne_nil hchars
    change (((Scan.mk name.toList q t stack angles (.code 0)).endWord '<').punctuate _ '<') = _
    rw [Scan.endWord_quiet hname.quiet, hcs]
    rfl
  rw [Scan.read_append, Scan.read_append, Scan.read_append, nameChars hname.chars, hopen,
    harguments, Scan.read_quiet hword (by decide)]
  cases q <;> cases t <;> rfl

theorem applied {name : String} {texts : List String} (hname : IsWord name)
    (h : ∀ a ∈ texts, ∃ word, IsQuiet word ∧ Passes a word) :
    ∃ word, IsQuiet word ∧ Passes (TypeName.applied name texts) word := by
  unfold TypeName.applied
  split
  · exact ⟨_, hname.quiet, nameChars hname.chars⟩
  · next key value =>
    obtain ⟨⟨word, hword, hkey⟩, ⟨word', hword', hvalue⟩, -⟩ :=
      List.forall_mem_cons.mp h |>.imp_right List.forall_mem_cons.mp
    split
    · exact ⟨[], by decide, dictionary hkey hword hvalue hword'⟩
    · refine ⟨[], by decide, ?_⟩
      have hgeneric := generic hname h
      simpa [String.append_assoc] using hgeneric
  · exact ⟨[], by decide, generic hname h⟩

theorem wrapped (wrappers : List Wrapper) (h : ∃ word, IsQuiet word ∧ Passes a word) :
    ∃ word, IsQuiet word ∧ Passes (wrappers.foldl Wrapper.wrap a) word := by
  induction wrappers generalizing a with
  | nil => exact h
  | cons wrapper wrappers ih =>
    obtain ⟨word, hword, ha⟩ := h
    apply ih
    cases wrapper with
    | optional => exact ⟨[], by decide, optional ha hword⟩
    | array => exact ⟨[], by decide, array ha hword⟩

end Passes

theorem TypeName.Named.passes {t : TypeName} (h : t.Named) :
    ∃ word, IsQuiet word ∧ Passes t.text word := by
  induction h with
  | @mk name parameters wrappers isMetatype hname _ ih =>
    have hall : ∀ a ∈ TypeName.texts parameters, ∃ word, IsQuiet word ∧ Passes a word := by
      rw [TypeName.texts_eq_map]
      simpa using ih
    obtain ⟨word, hword, hpasses⟩ :=
      Passes.wrapped wrappers (Passes.applied hname hall)
    cases isMetatype with
    | false => exact ⟨word, hword, hpasses⟩
    | true => exact ⟨_, by decide, hpasses.metatype hword⟩

-- ---------------------------------------------------------------------------
-- Literals
-- ---------------------------------------------------------------------------

def isNumeric (c : Char) : Bool := c.isDigit || c = '.' || c = '-'

theorem quiet_of_digits {word : List Char} (h : ∀ c ∈ word, c.isDigit) : IsQuiet word := by
  constructor
  all_goals
    rintro rfl
    exact absurd (h 't' (by decide)) (by decide)

theorem Scan.run_numeric {cs : List Char} (h : ∀ c ∈ cs, isNumeric c) {word : List Char}
    (hword : ∀ c ∈ word, c.isDigit) :
    ∃ word', (∀ c ∈ word', c.isDigit) ∧ ∀ (q t : Bool) (stack : List Bool) (angles : Nat),
      (Scan.mk word q t stack angles (.code 0)).run cs = .mk word' q t stack angles (.code 0) := by
  induction cs generalizing word with
  | nil => exact ⟨word, hword, fun q t stack angles => rfl⟩
  | cons c cs ih =>
    obtain ⟨hc, hcs⟩ := List.forall_mem_cons.mp h
    by_cases hdigit : c.isDigit
    · have hmore : ∀ d ∈ word ++ [c], d.isDigit := by
        simpa [or_imp, forall_and] using ⟨hword, hdigit⟩
      obtain ⟨word', hword', hrun⟩ := ih hcs hmore
      refine ⟨word', hword', fun q t stack angles => ?_⟩
      have hname : isNameChar c := by simp [isNameChar, Char.isAlphanum, hdigit]
      rw [← hrun]
      change ((Scan.mk word q t stack angles (.code 0)).step c).run cs = _
      simp [step, hname]
    · have hnone : ∀ d ∈ ([] : List Char), d.isDigit := by simp
      obtain ⟨word', hword', hrun⟩ := ih hcs hnone
      refine ⟨word', hword', fun q t stack angles => ?_⟩
      have hsign : c = '.' ∨ c = '-' := by simpa [isNumeric, hdigit] using hc
      have hends : EndsWord c := by rcases hsign with rfl | rfl <;> decide
      rw [← hrun]
      change ((Scan.mk word q t stack angles (.code 0)).step c).run cs = _
      rw [step_quiet (quiet_of_digits hword) hends]
      congr 1
      rcases hsign with rfl | rfl <;> cases q <;> cases t <;> rfl

theorem Passes.numeric {text : String} (h : ∀ c ∈ text.toList, isNumeric c) :
    ∃ word, IsQuiet word ∧ Passes text word := by
  have hnone : ∀ d ∈ ([] : List Char), d.isDigit := by simp
  obtain ⟨word, hword, hrun⟩ := Scan.run_numeric h hnone
  exact ⟨word, quiet_of_digits hword, fun q t stack angles => hrun q t stack angles⟩

theorem isNumeric_of_mem_repr {n : Nat} {c : Char} (h : c ∈ (Nat.repr n).toList) :
    isNumeric c := by
  rw [Nat.toList_repr] at h
  simp [isNumeric, Nat.isDigit_of_mem_toDigits (by decide) (by decide) h]

theorem isNumeric_of_mem_int {n : Int} {c : Char} (h : c ∈ n.repr.toList) : isNumeric c := by
  cases n with
  | ofNat n => exact isNumeric_of_mem_repr h
  | negSucc n =>
    rw [Int.repr, String.toList_append, List.mem_append] at h
    rcases h with h | h
    · obtain rfl := List.mem_singleton.mp h
      rfl
    · exact isNumeric_of_mem_repr h

theorem Passes.int (n : Int) : ∃ word, IsQuiet word ∧ Passes n.repr word :=
  numeric fun _ hc => isNumeric_of_mem_int hc

theorem isNumeric_of_mem_text {d : Decimal.Digits} {c : Char} (h : c ∈ d.text.toList) :
    isNumeric c := by
  have htrimmed : ∀ c ∈ Decimal.trimmed (Nat.repr d.digits).toList, isNumeric c := by
    intro c hc
    have hmem := (List.dropWhile_sublist _).subset (List.mem_reverse.mp hc)
    exact isNumeric_of_mem_repr (List.mem_reverse.mp hmem)
  have hzeros (n : Nat) : ∀ c ∈ Decimal.zeros n, isNumeric c := by
    intro c hc
    rw [List.eq_of_mem_replicate hc]
    rfl
  unfold Decimal.Digits.text at h
  dsimp only at h
  split at h
  · rw [String.toList_ofList, List.append_assoc, List.mem_append, List.mem_append] at h
    rcases h with h | h | h
    · exact List.all_eq_true.mp (by decide : "0.".toList.all isNumeric) c h
    · exact hzeros _ c h
    · exact htrimmed c h
  · split at h
    · rw [String.toList_ofList, List.mem_append] at h
      rcases h with h | h
      · exact htrimmed c h
      · exact hzeros _ c h
    · rw [String.toList_ofList, List.mem_append, List.mem_cons] at h
      rcases h with h | rfl | h
      · exact htrimmed c (List.mem_of_mem_take h)
      · rfl
      · exact htrimmed c (List.mem_of_mem_drop h)

theorem Passes.minus {a : String} {word : List Char} (h : Passes a word) : Passes ("-" ++ a) word :=
  append_of_closed (fun q t stack angles => by cases q <;> cases t <;> rfl) h

theorem Passes.signed {a : String} (isNegative : Bool)
    (h : ∃ word, IsQuiet word ∧ Passes a word) :
    ∃ word, IsQuiet word ∧ Passes (Decimal.signed isNegative a) word := by
  obtain ⟨word, hword, ha⟩ := h
  cases isNegative with
  | false => exact ⟨word, hword, ha⟩
  | true => exact ⟨word, hword, ha.minus⟩

theorem Passes.float (x : Float) :
    ∃ word, IsQuiet word ∧ Passes (Decimal.literalText x) word := by
  unfold Decimal.literalText
  split
  · refine ⟨"nan".toList, by decide, fun q t stack angles => ?_⟩
    cases q <;> cases t <;> rfl
  · refine signed _ ⟨"infinity".toList, by decide, fun q t stack angles => ?_⟩
    cases q <;> cases t <;> rfl
  · split
    · refine signed _ (numeric fun c hc => ?_)
      rw [String.toList_append, List.mem_append] at hc
      rcases hc with hc | hc
      · exact isNumeric_of_mem_repr hc
      · exact List.all_eq_true.mp (by decide : ".0".toList.all isNumeric) c hc
    · exact signed _ (numeric fun c hc => isNumeric_of_mem_text hc)

theorem Scan.run_escapeChar {s : Scan} {depth : Nat} (hs : s.mode = .string depth) (c : Char) :
    s.run (escapeChar c) = s := by
  obtain ⟨word, absorbed, throws, stack, angles, mode⟩ := s
  obtain rfl : mode = .string depth := hs
  unfold escapeChar
  split
  · rfl
  · rfl
  · rfl
  · rfl
  · next hquote hbackslash _ _ =>
    change (Scan.mk word absorbed throws stack angles (.string depth)).step c = _
    simp only [step, if_neg hquote, if_neg hbackslash]

theorem Scan.run_escaped {s : Scan} {depth : Nat} (hs : s.mode = .string depth)
    (text : List Char) : s.run (text.flatMap escapeChar) = s := by
  induction text with
  | nil => rfl
  | cons c text ih => rw [List.flatMap_cons, run_append, run_escapeChar hs, ih]

theorem Passes.quoted (text : String) : Passes (quoted text) [] := by
  intro q t stack angles
  have hopen : (Scan.mk [] q t stack angles (.code 0)).read "\""
      = .mk [] q t stack angles (.string 0) := by
    cases q <;> cases t <;> rfl
  have hinside : (Scan.mk [] q t stack angles (.string 0)).read
      (String.ofList (text.toList.flatMap escapeChar)) = .mk [] q t stack angles (.string 0) := by
    rw [Scan.read, String.toList_ofList, Scan.run_escaped rfl]
  rw [Code.quoted, Scan.read_append, Scan.read_append, hopen, hinside]
  rfl

end EntityGen.Code
