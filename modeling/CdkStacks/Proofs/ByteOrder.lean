import Mathlib.Data.Char
import Mathlib.Tactic.SplitIfs

/-!
# Order of bytes

Names are compared character by character. That is the order of their bytes in UTF-8.

* `bytes` are the bytes of a text;
* `utf8EncodeChar_append_lt`: a less character has less bytes, whatever follows;
* `bytes_lt_bytes`: so a less text has less bytes.
-/

namespace CdkStacks.Text

/-- The bytes of a text in UTF-8. -/
def bytes (text : String) : List UInt8 :=
  text.toUTF8.data.toList

theorem bytes_eq (text : String) : bytes text = text.toList.flatMap String.utf8EncodeChar := by
  simp [bytes, String.toUTF8, ← String.utf8Encode_toList, List.utf8Encode]

/-- Bytes compare like the first numbers that differ. -/
theorem ofNat_cons_lt {m n : Nat} {first second : List UInt8} (hn : n < 256) (hle : m ≤ n)
    (hrest : m = n → first < second) : UInt8.ofNat m :: first < UInt8.ofNat n :: second := by
  rw [List.cons_lt_cons_iff]
  by_cases heq : m = n
  · exact Or.inr ⟨congrArg UInt8.ofNat heq, hrest heq⟩
  · refine Or.inl ?_
    rw [UInt8.lt_iff_toNat_lt, UInt8.toNat_ofNat', UInt8.toNat_ofNat']
    omega

/-- A less character has less bytes, whatever follows. -/
theorem utf8EncodeChar_append_lt {c d : Char} (h : c < d) (first second : List UInt8) :
    String.utf8EncodeChar c ++ first < String.utf8EncodeChar d ++ second := by
  have hlt : c.val.toNat < d.val.toNat := h
  have hmax : d.val.toNat < 0x110000 := by
    rcases d.valid with hvalid | ⟨-, hvalid⟩ <;> omega
  simp only [String.utf8EncodeChar]
  generalize c.val.toNat = m at hlt
  generalize d.val.toNat = n at hlt hmax
  -- a longer code starts with a greater byte, codes of one length compare digit by digit
  split_ifs <;> first
    | omega
    | repeat refine ofNat_cons_lt (by omega) (by omega) fun _ => ?_
      omega

theorem flatMap_utf8EncodeChar_lt {first second : List Char} (h : first < second) :
    first.flatMap String.utf8EncodeChar < second.flatMap String.utf8EncodeChar := by
  induction first generalizing second with
  | nil =>
    cases second with
    | nil => exact absurd h (List.not_lt_nil [])
    | cons d ds =>
      have hne : String.utf8EncodeChar d ≠ [] := String.utf8EncodeChar_ne_nil
      obtain ⟨byte, rest, hcode⟩ := List.exists_cons_of_ne_nil hne
      simp only [List.flatMap_nil, List.flatMap_cons, hcode]
      exact List.nil_lt_cons ..
  | cons c cs ih =>
    cases second with
    | nil => exact absurd h (List.not_lt_nil _)
    | cons d ds =>
      simp only [List.flatMap_cons]
      rcases List.cons_lt_cons_iff.1 h with hlt | ⟨rfl, hrest⟩
      · exact utf8EncodeChar_append_lt hlt _ _
      · exact List.append_left_lt (ih hrest)

/-- **A less text has less bytes.** -/
theorem bytes_lt_bytes {first second : String} (h : first < second) :
    bytes first < bytes second := by
  rw [bytes_eq, bytes_eq]
  exact flatMap_utf8EncodeChar_lt h

end CdkStacks.Text
