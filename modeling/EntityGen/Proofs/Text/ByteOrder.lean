import Mathlib.Data.String.Basic
import Mathlib.Tactic.SplitIfs

/-!
# Texts by their bytes

Texts are compared character by character. Comparing their UTF-8 bytes comes to
the same: the first byte of a character tells its length, and longer characters
come later.
-/

namespace EntityGen.Text

def bytes (text : String) : List UInt8 := text.toUTF8.data.toList

theorem bytes_eq (text : String) : bytes text = text.toList.flatMap String.utf8EncodeChar := by
  rw [bytes, String.toUTF8, ← String.utf8Encode_toList, List.utf8Encode]
  simp

theorem ofNat_lt_ofNat {m n : Nat} (hm : m < 256) (hn : n < 256) :
    UInt8.ofNat m < UInt8.ofNat n ↔ m < n := by
  rw [UInt8.lt_iff_toNat_lt, UInt8.toNat_ofNat', UInt8.toNat_ofNat', Nat.mod_eq_of_lt hm,
    Nat.mod_eq_of_lt hn]

theorem ofNat_eq_ofNat {m n : Nat} (hm : m < 256) (hn : n < 256) :
    UInt8.ofNat m = UInt8.ofNat n ↔ m = n := by
  rw [← UInt8.toNat_inj, UInt8.toNat_ofNat', UInt8.toNat_ofNat', Nat.mod_eq_of_lt hm,
    Nat.mod_eq_of_lt hn]

theorem base64_digits (k : Nat) (hk : k < 1114112) : k / 262144 % 8 = k / 262144 ∧
    k / 64 = k / 4096 * 64 + k / 64 % 64 ∧ k / 4096 = k / 262144 * 64 + k / 4096 % 64 := by
  omega

/-- A later character has later bytes, whatever follows. -/
theorem utf8EncodeChar_lt {c c' : Char} (h : c < c') (rest rest' : List UInt8) :
    String.utf8EncodeChar c ++ rest < String.utf8EncodeChar c' ++ rest' := by
  have hlt : c.val.toNat < c'.val.toNat := h
  have hmax : c'.val.toNat < 1114112 := by
    rcases c'.valid with hvalid | ⟨-, hvalid⟩
    · omega
    · exact hvalid
  unfold String.utf8EncodeChar
  generalize c.val.toNat = m at hlt
  generalize c'.val.toNat = n at hlt hmax
  dsimp only
  split_ifs <;>
    simp (disch := omega) only [List.cons_append, List.nil_append, List.cons_lt_cons_iff,
      ofNat_lt_ofNat, ofNat_eq_ofNat]
  -- the first bytes tell characters of different lengths apart
  all_goals try exact .inl (by omega)
  all_goals
    have hm := base64_digits m (by omega)
    have hn := base64_digits n hmax
    omega

theorem flatMap_utf8EncodeChar_lt {cs cs' : List Char} (h : cs < cs') :
    cs.flatMap String.utf8EncodeChar < cs'.flatMap String.utf8EncodeChar := by
  induction h with
  | @nil c cs =>
    rw [List.flatMap_nil, List.flatMap_cons]
    cases hbytes : String.utf8EncodeChar c ++ cs.flatMap String.utf8EncodeChar with
    | nil => simp at hbytes
    | cons b bs => exact List.nil_lt_cons b bs
  | rel h =>
    rw [List.flatMap_cons, List.flatMap_cons]
    exact utf8EncodeChar_lt h _ _
  | cons _ ih =>
    rw [List.flatMap_cons, List.flatMap_cons]
    exact List.append_left_lt ih

/-- Texts are in the order of their bytes. -/
theorem bytes_lt_iff {text text' : String} : bytes text < bytes text' ↔ text < text' := by
  rw [bytes_eq, bytes_eq, String.lt_iff_toList_lt]
  refine ⟨fun h => ?_, flatMap_utf8EncodeChar_lt⟩
  rcases lt_trichotomy text.toList text'.toList with hlt | heq | hgt
  · exact hlt
  · rw [heq] at h
    exact absurd h (List.lt_irrefl _)
  · exact absurd h (List.lt_asymm (flatMap_utf8EncodeChar_lt hgt))

end EntityGen.Text
