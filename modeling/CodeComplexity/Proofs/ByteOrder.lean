import Mathlib.Data.String.Basic

/-!
The order of names is the order of their bytes.

Strings are compared by code points. In UTF-8 a longer encoding has a larger first byte, and
encodings of one length are the digits of the code point to base 64, the most significant first. So
the bytes of two characters differ first where the one with the larger code point has the larger
byte, and comparing strings byte by byte comes to the same.
-/

namespace CodeComplexity

def bytes (s : String) : List UInt8 := s.toUTF8.data.toList

lemma bytes_eq (s : String) : bytes s = s.toList.flatMap String.utf8EncodeChar := by
  conv => lhs; rw [bytes, ← String.ofList_toList (s := s)]
  rw [String.toUTF8_eq_toByteArray]
  exact congrArg Array.toList List.data_toByteArray

lemma codePoint_lt (c : Char) : c.val.toNat < 0x110000 := by
  have h : c.val.toNat.isValidChar := c.valid
  unfold Nat.isValidChar at h
  omega

/-- A smaller code point has smaller bytes, whatever follows. -/
lemma utf8EncodeChar_append_lt {c d : Char} (h : c < d) (l m : List UInt8) :
    String.utf8EncodeChar c ++ l < String.utf8EncodeChar d ++ m := by
  have hlt : c.val.toNat < d.val.toNat := h
  have hc := codePoint_lt c
  have hd := codePoint_lt d
  unfold String.utf8EncodeChar
  dsimp only
  -- one case for each pair of lengths; where the first one is longer the order is wrong
  split_ifs <;>
    simp (disch := omega) only [List.cons_append, List.nil_append, List.cons_lt_cons_iff,
      UInt8.lt_iff_toNat_lt, ← UInt8.toNat_inj, UInt8.toNat_ofNat', Nat.mod_eq_of_lt] <;>
    omega

lemma flatMap_utf8EncodeChar_lt {l m : List Char} (h : l < m) :
    l.flatMap String.utf8EncodeChar < m.flatMap String.utf8EncodeChar := by
  induction h with
  | @nil c rest =>
    obtain ⟨b, bs, hb⟩ := List.exists_cons_of_ne_nil (String.utf8EncodeChar_ne_nil (c := c))
    rw [List.flatMap_cons, hb]
    exact List.nil_lt_cons ..
  | cons h ih => exact List.append_left_lt ih
  | rel h => exact utf8EncodeChar_append_lt h _ _

/-- **Names are ordered as their bytes are.** -/
theorem lt_iff_bytes_lt {s t : String} : s < t ↔ bytes s < bytes t := by
  have hmono {s t : String} (h : s < t) : bytes s < bytes t := by
    rw [bytes_eq, bytes_eq]
    exact flatMap_utf8EncodeChar_lt (String.lt_iff_toList_lt.1 h)
  refine ⟨hmono, fun h => ?_⟩
  rcases lt_trichotomy s t with hst | rfl | hts
  · exact hst
  · exact absurd h (List.lt_irrefl _)
  · exact absurd h (List.lt_asymm (hmono hts))

end CodeComplexity
