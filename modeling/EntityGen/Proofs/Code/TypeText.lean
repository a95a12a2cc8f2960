import EntityGen.Proofs.Code.Distinct
import EntityGen.Proofs.Code.ReadBack
import EntityGen.Proofs.Code.TypeNames
import Mathlib.Data.Set.Function

/-!
# Reading types back

The text of a type is read in one pass, with a stack of what stands open around
the place that is read. A question mark, a bracket or a mark for the metatype
belongs to all of the type before it, so the text determines the type and types
may be told apart by their texts.
-/

namespace EntityGen.Code

/-- A name of letters, digits and `_`, which may start with any of them. -/
def IsTypeWord (x : String) : Prop := x ≠ "" ∧ ∀ c ∈ x.toList, isNameChar c

instance : DecidablePred IsTypeWord := fun x =>
  have : Decidable (∀ c ∈ x.toList, isNameChar c) := List.decidableBAll _ _
  inferInstanceAs (Decidable (_ ∧ _))

instance (t : TypeName) : Decidable (t.Each IsTypeWord) :=
  inferInstanceAs (Decidable (∀ name ∈ t.mentions, IsTypeWord name))

-- ---------------------------------------------------------------------------
-- The reader
-- ---------------------------------------------------------------------------

inductive TypeFrame where
  | bracket
  | value (key : TypeName)
  | arguments (name : String) (done : List TypeName)

/-- A place in the text of a type. `stack` lists the innermost frame first. -/
inductive TypeReader where
  | before (stack : List TypeFrame)
  | word (chars : List Char) (stack : List TypeFrame)
  | after (t : TypeName) (stack : List TypeFrame)
  | mark (t : TypeName) (chars : List Char) (stack : List TypeFrame)
  | failed

namespace TypeReader

def delimit (t : TypeName) : List TypeFrame → Char → TypeReader
  | .bracket :: stack, ':' => .before (.value t :: stack)
  | .bracket :: stack, ']' => .after t.array stack
  | .value key :: stack, ']' => .after (.dictionary key t) stack
  | .arguments name done :: stack, ',' => .before (.arguments name (done ++ [t]) :: stack)
  | .arguments name done :: stack, '>' => .after { name, parameters := done ++ [t] } stack
  | _, _ => .failed

def stepAfter (t : TypeName) (stack : List TypeFrame) : Char → TypeReader
  | '?' => .after t.optional stack
  | '.' => .mark t [] stack
  | c => delimit t stack c

def step (r : TypeReader) (c : Char) : TypeReader :=
  match r with
  | .before stack =>
    if isNameChar c then .word [c] stack
    else if c = '[' then .before (.bracket :: stack)
    else if c = ' ' then .before stack
    else .failed
  | .word chars stack =>
    if isNameChar c then .word (chars ++ [c]) stack
    else if c = '<' then .before (.arguments (String.ofList chars) [] :: stack)
    else stepAfter { name := String.ofList chars } stack c
  | .after t stack => stepAfter t stack c
  | .mark t chars stack =>
    if chars ++ [c] = "self".toList then .after t.metatype stack else .mark t (chars ++ [c]) stack
  | .failed => .failed

def run (r : TypeReader) (chars : List Char) : TypeReader := chars.foldl step r

def read (r : TypeReader) (text : String) : TypeReader := r.run text.toList

def settled : TypeReader → TypeReader
  | .word chars stack => .after { name := String.ofList chars } stack
  | r => r

def result? (r : TypeReader) : Option TypeName :=
  match r.settled with
  | .after t [] => some t
  | _ => none

end TypeReader

def TypeName.read? (text : String) : Option TypeName := ((TypeReader.before []).read text).result?

namespace TypeReader

variable {stack : List TypeFrame} {x y : String} {t u : TypeName}

@[simp] theorem run_cons (r : TypeReader) (c : Char) (cs : List Char) :
    r.run (c :: cs) = (r.step c).run cs := rfl

theorem read_append (r : TypeReader) (s t : String) : r.read (s ++ t) = (r.read s).read t := by
  rw [read, String.toList_append, run, List.foldl_append]
  rfl

-- ---------------------------------------------------------------------------
-- Names
-- ---------------------------------------------------------------------------

theorem run_word {chars cs : List Char} (h : ∀ c ∈ cs, isNameChar c) :
    (word chars stack).run cs = .word (chars ++ cs) stack := by
  induction cs generalizing chars with
  | nil => simp [run]
  | cons c cs ih =>
    obtain ⟨hc, hcs⟩ := List.forall_mem_cons.mp h
    rw [run_cons, step, if_pos hc, ih hcs]
    simp

theorem read_word (h : IsTypeWord x) : (before stack).read x = .word x.toList stack := by
  obtain ⟨hne, hchars⟩ := h
  obtain ⟨c, cs, hx⟩ := List.exists_cons_of_ne_nil (mt String.toList_eq_nil_iff.mp hne)
  rw [hx] at hchars
  obtain ⟨hc, hcs⟩ := List.forall_mem_cons.mp hchars
  rw [read, hx, run_cons, step, if_pos hc, run_word hcs]
  rfl

-- ---------------------------------------------------------------------------
-- Types
-- ---------------------------------------------------------------------------

/-- Wherever a type may stand, the reader takes the text as the type. -/
def Reads (x : String) (t : TypeName) : Prop :=
  ∀ stack, ((before stack).read x).settled = .after t stack

namespace Reads

theorem word (h : IsTypeWord x) : Reads x { name := x } := by
  intro stack
  rw [read_word h]
  simp [settled]

theorem step (h : Reads x t) {c : Char} (hc : isNameChar c = false) (harguments : c ≠ '<') :
    ((before stack).read x).step c = stepAfter t stack c := by
  have hsettled := h stack
  cases hread : (before stack).read x with
  | word chars stack' =>
    obtain ⟨rfl, rfl⟩ : { name := String.ofList chars } = t ∧ stack' = stack := by
      simpa [hread, settled] using hsettled
    simp [TypeReader.step, hc, harguments]
  | after t' stack' =>
    obtain ⟨rfl, rfl⟩ : t' = t ∧ stack' = stack := by simpa [hread, settled] using hsettled
    rfl
  | _ => simp [hread, settled] at hsettled

theorem optional (h : Reads x t) : Reads (x ++ "?") t.optional := by
  intro stack
  rw [read_append]
  change (((before stack).read x).step '?').settled = _
  rw [h.step (by decide) (by decide)]
  rfl

theorem array (h : Reads x t) : Reads ("[" ++ x ++ "]") t.array := by
  intro stack
  rw [read_append, read_append]
  change (((before (.bracket :: stack)).read x).step ']').settled = _
  rw [h.step (by decide) (by decide)]
  rfl

theorem metatype (h : Reads x t) : Reads (x ++ ".self") t.metatype := by
  intro stack
  rw [read_append]
  change ((((before stack).read x).step '.').run "self".toList).settled = _
  rw [h.step (by decide) (by decide)]
  rfl

theorem dictionary (hx : Reads x t) (hy : Reads y u) :
    Reads ("[" ++ x ++ ": " ++ y ++ "]") (.dictionary t u) := by
  intro stack
  rw [read_append, read_append, read_append, read_append]
  change ((((((before (.bracket :: stack)).read x).step ':').step ' ').read y).step ']').settled = _
  rw [hx.step (by decide) (by decide)]
  change (((before (.value t :: stack)).read y).step ']').settled = _
  rw [hy.step (by decide) (by decide)]
  rfl

theorem arguments {name : String} {ts : List TypeName} (h : ∀ t ∈ ts, Reads t.text t)
    (hne : ts ≠ []) (done : List TypeName) :
    ((before (.arguments name done :: stack)).read
        (", ".intercalate (ts.map TypeName.text))).step '>'
      = .after { name, parameters := done ++ ts } stack := by
  induction ts generalizing done with
  | nil => exact absurd rfl hne
  | cons t ts ih =>
    obtain ⟨ht, hts⟩ := List.forall_mem_cons.mp h
    cases ts with
    | nil =>
      rw [List.map_singleton, String.intercalate_singleton, ht.step (by decide) (by decide)]
      rfl
    | cons u ts =>
      have hcomma : ((before (.arguments name done :: stack)).read t.text).read ", "
          = .before (.arguments name (done ++ [t]) :: stack) := by
        change (((before (.arguments name done :: stack)).read t.text).step ',').step ' ' = _
        rw [ht.step (by decide) (by decide)]
        rfl
      have hrest := ih hts (List.cons_ne_nil _ _) (done ++ [t])
      rw [List.map_cons, List.map_cons, String.intercalate_cons_cons, read_append, read_append,
        hcomma]
      simpa using hrest

theorem generic {name : String} {ts : List TypeName} (hname : IsTypeWord name)
    (h : ∀ t ∈ ts, Reads t.text t) (hne : ts ≠ []) :
    Reads (name ++ "<" ++ ", ".intercalate (ts.map TypeName.text) ++ ">")
      { name, parameters := ts } := by
  intro stack
  have hopen : ((before stack).read name).step '<' = .before (.arguments name [] :: stack) := by
    rw [read_word hname, TypeReader.step, if_neg (by decide), if_pos rfl, String.ofList_toList]
  rw [read_append, read_append, read_append]
  change (((((before stack).read name).step '<').read _).step '>').settled = _
  rw [hopen, arguments h hne]
  rfl

theorem applied {name : String} {ts : List TypeName} (hname : IsTypeWord name)
    (h : ∀ t ∈ ts, Reads t.text t) :
    Reads (TypeName.applied name (ts.map TypeName.text)) { name, parameters := ts } := by
  unfold TypeName.applied
  split
  · next hnil =>
    obtain rfl := List.map_eq_nil_iff.mp hnil
    exact word hname
  · next key value hpair =>
    obtain ⟨k, v, rfl, rfl, rfl⟩ : ∃ k v, ts = [k, v] ∧ k.text = key ∧ v.text = value := by
      simpa [List.map_eq_cons_iff] using hpair
    split
    · next hdictionary =>
      subst hdictionary
      exact dictionary (h k (by simp)) (h v (by simp))
    · have hgeneric := generic hname h (List.cons_ne_nil _ _)
      simpa [String.append_assoc] using hgeneric
  · next hnil _ => exact generic hname h (mt List.map_eq_nil_iff.mpr hnil)

theorem wrapped (wrappers : List Wrapper) (h : Reads x t) :
    Reads (wrappers.foldl Wrapper.wrap x) { t with wrappers := t.wrappers ++ wrappers } := by
  induction wrappers generalizing x t with
  | nil =>
    cases t
    simpa using h
  | cons w wrappers ih =>
    cases w with
    | optional => simpa [TypeName.optional, Wrapper.wrap] using ih h.optional
    | array => simpa [TypeName.array, Wrapper.wrap] using ih h.array

end Reads

end TypeReader

-- ---------------------------------------------------------------------------
-- Reading back
-- ---------------------------------------------------------------------------

namespace TypeName

open TypeReader

mutual
theorem reads_text (t : TypeName) (h : t.Each IsTypeWord) : Reads t.text t := by
  match t with
  | .mk name parameters wrappers isMetatype =>
    obtain ⟨hname, hparameters⟩ := each_mk.mp h
    have hwrapped := (Reads.applied hname (reads_texts parameters hparameters)).wrapped wrappers
    rw [text, texts_eq_map]
    cases isMetatype with
    | false => exact hwrapped
    | true => exact hwrapped.metatype

theorem reads_texts (ts : List TypeName) (h : ∀ t ∈ ts, t.Each IsTypeWord) :
    ∀ t ∈ ts, Reads t.text t := by
  match ts with
  | [] => exact nofun
  | t :: ts =>
    obtain ⟨ht, hts⟩ := List.forall_mem_cons.mp h
    exact List.forall_mem_cons.mpr ⟨reads_text t ht, reads_texts ts hts⟩
end

theorem read?_text {t : TypeName} (h : t.Each IsTypeWord) : read? t.text = some t := by
  simp [read?, result?, reads_text t h []]

theorem text_injOn : Set.InjOn text {t | t.Each IsTypeWord} := by
  intro a ha b hb htext
  have hread := read?_text ha
  rw [htext, read?_text hb] at hread
  exact (Option.some.inj hread).symm

-- ---------------------------------------------------------------------------
-- Telling types apart
-- ---------------------------------------------------------------------------

theorem map_text_sortedDistinct {ts : List TypeName} (h : ∀ t ∈ ts, t.Each IsTypeWord) :
    ((sortedDistinct ts).map text).Perm (ts.map text).eraseDups := by
  rw [← map_eraseDups text_injOn h]
  exact (List.mergeSort_perm _ _).map text

/-- The outermost form of a type shows in its text, whatever is inside. -/
structure FormsApart (t u v : TypeName) : Prop where
  wrapped : t.array.optional.text ≠ u.optional.array.text
  nested : t.optional.text ≠ t.text
  pair : (dictionary t u).text ≠ v.array.text
  mark : t.isMetatype = false → t.text ≠ u.metatype.text

theorem formsApart {t u v : TypeName} (ht : t.Each IsTypeWord) (hu : u.Each IsTypeWord)
    (hv : v.Each IsTypeWord) : FormsApart t u v := by
  have hdictionary : (dictionary t u).Each IsTypeWord := each_dictionary.mpr ⟨by decide, ht, hu⟩
  constructor
  case wrapped =>
    intro heq
    have htypes := text_injOn (by simpa using ht) (by simpa using hu) heq
    simpa [isOptional, array, optional] using congrArg isOptional htypes
  case nested =>
    intro heq
    have htypes := text_injOn (by simpa using ht) ht heq
    simpa [optional] using congrArg (fun t => t.wrappers.length) htypes
  case pair =>
    intro heq
    have htypes := text_injOn hdictionary (by simpa using hv) heq
    simpa [array, dictionary] using congrArg wrappers htypes
  case mark =>
    intro hmark heq
    have htypes := text_injOn ht (by simpa using hu) heq
    simpa [metatype, hmark] using congrArg isMetatype htypes

/-- Types of words are told apart by their texts, one by one and in lists without repetitions. -/
theorem text_identifies :
    (∀ a b : TypeName, a.Each IsTypeWord → b.Each IsTypeWord → (a.text = b.text ↔ a = b)) ∧
    (∀ t u v : TypeName, t.Each IsTypeWord → u.Each IsTypeWord → v.Each IsTypeWord →
      FormsApart t u v) ∧
    ∀ ts : List TypeName, (∀ t ∈ ts, t.Each IsTypeWord) →
      ts.eraseDups.map text = (ts.map text).eraseDups ∧
      ((sortedDistinct ts).map text).Perm (ts.map text).eraseDups ∧
      ∀ decl : TypeDecl, (∀ t ∈ decl.inherited, t.Each IsTypeWord) →
        (decl.inheriting ts).inherited.map text
          = addAllDistinct (decl.inherited.map text) (ts.map text) := by
  refine ⟨fun a b ha hb => text_injOn.eq_iff ha hb, fun t u v ht hu hv => formsApart ht hu hv,
    fun ts hts => ⟨map_eraseDups text_injOn hts, map_text_sortedDistinct hts, ?_⟩⟩
  exact fun decl hdecl => map_addAllDistinct text_injOn hdecl hts

theorem text_identifies_brackets :
    let ts := [int.optional.array, int.array.optional, dictionary string int.metatype,
      int.optional.array, dictionary string (dictionary int.array string.optional.optional)]
    (∀ t ∈ ts, t.Each IsTypeWord) ∧
      (int.optional.array.text = int.array.optional.text ↔
        int.optional.array = int.array.optional) ∧
      ts.eraseDups.map text
        = ["[Int?]", "[Int]?", "[String: Int.self]", "[String: [[Int]: String??]]"] := by
  intro ts
  have hwords : ∀ t ∈ ts, t.Each IsTypeWord := by decide +kernel
  refine ⟨hwords, text_identifies.1 _ _ (by decide +kernel) (by decide +kernel), ?_⟩
  rw [(text_identifies.2.2 ts hwords).1]
  decide +kernel

end TypeName
end EntityGen.Code
