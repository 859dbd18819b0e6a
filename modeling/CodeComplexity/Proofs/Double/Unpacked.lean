import CodeComplexity.Proofs.Double.Nearest

/-!
Doubles taken apart.

A double unpacks to a sign, a mantissa and an exponent in a normal form: fifty-three digits, or
fewer at the smallest exponent. Packing gives such a number back, and an infinity instead of one
whose exponent is too large. So an operation on unpacked numbers that yields the normal form is an
operation on doubles, up to overflow.
-/

namespace CodeComplexity.Double

open Float.Model Float.Model.UnpackedFloat

/-! ### The normal form -/

/-- A number is in normal form: fifty-three digits, or fewer at the smallest exponent. -/
def Normal : UnpackedFloat → Prop
  | .finite _ m e _ => m < 2 ^ 53 ∧ -1074 ≤ e ∧ (2 ^ 52 ≤ m ∨ e = -1074)
  | _ => True

def InRange : UnpackedFloat → Prop
  | .finite _ _ e _ => e ≤ 971
  | _ => True

lemma toNat_one_append (m : BitVec 52) : (1#1 ++ m).toNat = 2 ^ 52 + m.toNat := by
  rw [BitVec.toNat_append, ← Nat.shiftLeft_add_eq_or_of_lt m.isLt]
  simp [Nat.shiftLeft_eq]

lemma unpack_normal (x : Float.Model) : Normal x.unpack ∧ InRange x.unpack := by
  have hm : (@unpackMantissa Format.binary64 x.toBits.toBitVec).toNat < 2 ^ 52 :=
    BitVec.isLt _
  have he : (@unpackExponent Format.binary64 x.toBits.toBitVec).toNat < 2 ^ 11 :=
    BitVec.isLt _
  unfold Float.Model.unpack UnpackedFloat.unpack
  dsimp only
  split
  · split <;> exact ⟨trivial, trivial⟩
  · rename_i hinf
    split
    · split
      · exact ⟨trivial, trivial⟩
      · rename_i hexp _
        simp only [Normal, InRange, hexp, Format.exponentBias, BitVec.toNat_zero]
        exact ⟨⟨by omega, by decide, .inr (by decide)⟩, by decide⟩
    · rename_i hexp
      have hexp' : (@unpackExponent Format.binary64 x.toBits.toBitVec).toNat ≠ 0 :=
        fun h => hexp (BitVec.eq_of_toNat_eq h)
      have hinf' : (@unpackExponent Format.binary64 x.toBits.toBitVec).toNat ≠ 2047 :=
        fun h => hinf (BitVec.eq_of_toNat_eq h)
      have hbias : ((Format.binary64.exponentBias : ℕ) : ℤ) = 1023 := by decide
      simp only [Normal, InRange, toNat_one_append, hbias]
      omega

/-! ### Packing and unpacking -/

lemma unpack_packComponents (s : Sign) (e : BitVec 11) (m : BitVec 52) :
    UnpackedFloat.unpack Format.binary64 (packComponents Format.binary64 s e m) =
      if e = -1#11 then (if m = 0#52 then .infinity s else .notANumber)
      else if e = 0#11 then
        if h : m = 0#52 then .zero s
        else .finite s m.toNat (-1074) (by simpa [BitVec.toNat_pos, BitVec.pos_iff_ne_zero])
      else .finite s (1#1 ++ m).toNat (e.toNat - 1075)
        (by rw [toNat_one_append]; omega) := by
  unfold UnpackedFloat.unpack
  simp only [unpackMantissa_packComponents, unpackExponent_packComponents,
    unpackSign_packComponents, Sign.ofBitVec_toBitVec]
  split
  · rfl
  · split
    · rename_i h
      subst h
      split <;> rfl
    · rfl

/-- What becomes of an unpacked number when it is stored as a double. -/
def store (f : UnpackedFloat) : UnpackedFloat := (Float.Model.pack f).unpack

lemma store_packed {f : UnpackedFloat} {s : Sign} {e : BitVec 11} {m : BitVec 52}
    (h : UnpackedFloat.pack Format.binary64 f = packComponents Format.binary64 s e m) :
    store f = UnpackedFloat.unpack Format.binary64 (packComponents Format.binary64 s e m) := by
  rw [← h]
  rfl

@[simp] lemma store_notANumber : store .notANumber = .notANumber := by
  rw [store_packed (s := .positive) (e := -1#11) (m := 1#52 <<< 51) rfl, unpack_packComponents]
  rfl

@[simp] lemma store_infinity (s : Sign) : store (.infinity s) = .infinity s := by
  rw [store_packed (s := s) (e := -1#11) (m := 0#52) rfl, unpack_packComponents]
  rfl

@[simp] lemma store_zero (s : Sign) : store (.zero s) = .zero s := by
  rw [store_packed (s := s) (e := 0#11) (m := 0#52) rfl, unpack_packComponents]
  rfl

lemma pack_finite (s : Sign) (m : ℕ) (e : ℤ) (hm : 0 < m) :
    UnpackedFloat.pack Format.binary64 (.finite s m e hm) =
      if 2 ^ 11 ≤ (e + 1023 + 52).toNat + 1 then packComponents Format.binary64 s (-1#11) 0#52
      else if m.log2 + 1 = 53 then
        packComponents Format.binary64 s (BitVec.ofNat 11 (e + 1023 + 52).toNat) (BitVec.ofNat 52 m)
      else packComponents Format.binary64 s 0#11 (BitVec.ofNat 52 m) := rfl

/-- **Overflow**: what is too large is stored as an infinity. -/
theorem store_of_lt {s : Sign} {m : ℕ} {e : ℤ} {hm : 0 < m} (h : 971 < e) :
    store (.finite s m e hm) = .infinity s := by
  have hpack := pack_finite s m e hm
  rw [if_pos (by omega)] at hpack
  rw [store_packed hpack, unpack_packComponents]
  rfl

/-- **Storing is lossless** for numbers in normal form that are in range. -/
theorem store_of_le {s : Sign} {m : ℕ} {e : ℤ} {hm : 0 < m} (hn : Normal (.finite s m e hm))
    (he : e ≤ 971) : store (.finite s m e hm) = .finite s m e hm := by
  obtain ⟨hlt, hmin, hdigits⟩ := hn
  have hpack := pack_finite s m e hm
  rw [if_neg (by omega)] at hpack
  by_cases hfull : 2 ^ 52 ≤ m
  · have hlog : m.log2 = 52 := (Nat.log2_eq_iff hm.ne').2 ⟨hfull, hlt⟩
    rw [if_pos (by omega)] at hpack
    have hexp : (BitVec.ofNat 11 (e + 1023 + 52).toNat).toNat = (e + 1023 + 52).toNat :=
      Nat.mod_eq_of_lt (by omega)
    have hinf : BitVec.ofNat 11 (e + 1023 + 52).toNat ≠ -1#11 := by
      intro h
      have : (e + 1023 + 52).toNat = 2047 := hexp.symm.trans (congrArg BitVec.toNat h)
      omega
    have hzero : BitVec.ofNat 11 (e + 1023 + 52).toNat ≠ 0#11 := by
      intro h
      have : (e + 1023 + 52).toNat = 0 := hexp.symm.trans (congrArg BitVec.toNat h)
      omega
    rw [store_packed hpack, unpack_packComponents, if_neg hinf, if_neg hzero]
    congr 1
    · rw [toNat_one_append, BitVec.toNat_ofNat]
      omega
    · rw [hexp]
      omega
  · obtain rfl : e = -1074 := hdigits.resolve_left hfull
    have hlog : m.log2 < 52 := (Nat.log2_lt hm.ne').2 (by omega)
    rw [if_neg (by omega)] at hpack
    have hmant : (BitVec.ofNat 52 m).toNat = m := Nat.mod_eq_of_lt (by omega)
    have hzero : BitVec.ofNat 52 m ≠ 0#52 := by
      intro h
      have : m = 0 := hmant.symm.trans (congrArg BitVec.toNat h)
      omega
    rw [store_packed hpack, unpack_packComponents, if_neg (by decide), if_pos rfl, dif_neg hzero]
    congr 1

end CodeComplexity.Double
