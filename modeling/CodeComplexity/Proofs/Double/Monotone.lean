import CodeComplexity.Proofs.Double.Operations

/-!
Doubles that are not below zero.

On them the arithmetic is monotone, rounding, overflow and all: what has run off the range stays
there, since every operation on infinity gives infinity or the value that is no number, and both
stand on top.
-/

namespace CodeComplexity.Double

open Float.Model Float.Model.UnpackedFloat

/-! ### Off the range -/

/-- A number on top of the line. -/
def OnTop : UnpackedFloat → Prop
  | .notANumber => True
  | .infinity .positive => True
  | _ => False

/-- A number that carries no minus sign, save perhaps on a zero. -/
def Unsigned : UnpackedFloat → Prop
  | .infinity .negative => False
  | .finite .negative _ _ _ => False
  | _ => True

section Unpacked

variable {f g : UnpackedFloat}

lemma onTop_iff : OnTop f ↔ valueOf f = ⊤ := by
  cases f with
  | notANumber => simp [OnTop, valueOf]
  | infinity s => cases s <;> simp [OnTop, valueOf]
  | zero s => simp [OnTop, valueOf]
  | finite s m e hm => simp [OnTop, valueOf]

lemma OnTop.store (h : OnTop f) : OnTop (store f) := by
  cases f with
  | notANumber => rwa [store_notANumber]
  | infinity s => rwa [store_infinity]
  | zero s => exact h.elim
  | finite s m e hm => exact h.elim

lemma Unsigned.of_nonneg (h : 0 ≤ valueOf f) : Unsigned f := by
  cases f with
  | notANumber => trivial
  | infinity s =>
    cases s
    exacts [absurd h EReal.bot_lt_zero.not_ge, trivial]
  | zero s => trivial
  | finite s m e hm =>
    cases s
    exacts [absurd (EReal.coe_nonneg.1 h) realOf_neg.not_ge, trivial]

lemma Unsigned.cases (h : Unsigned f) : f = .notANumber ∨ f = .infinity .positive ∨
    (∃ s, f = .zero s) ∨ ∃ m e hm, f = .finite .positive m e hm := by
  cases f with
  | notANumber => exact .inl rfl
  | infinity s =>
    cases s
    exacts [h.elim, .inr (.inl rfl)]
  | zero s => exact .inr (.inr (.inl ⟨s, rfl⟩))
  | finite s m e hm =>
    cases s
    exacts [h.elim, .inr (.inr (.inr ⟨m, e, hm, rfl⟩))]

lemma OnTop.cases (h : OnTop f) : f = .notANumber ∨ f = .infinity .positive := by
  cases f with
  | notANumber => exact .inl rfl
  | infinity s =>
    cases s
    exacts [h.elim, .inr rfl]
  | zero s => exact h.elim
  | finite s m e hm => exact h.elim

lemma OnTop.add (hf : Unsigned f) (hg : Unsigned g) (h : OnTop f ∨ OnTop g) :
    OnTop (UnpackedFloat.add Format.binary64 f g) := by
  rcases hf.cases with rfl | rfl | ⟨s, rfl⟩ | ⟨m, d, hm, rfl⟩ <;>
    rcases hg.cases with rfl | rfl | ⟨t, rfl⟩ | ⟨n, e, hn, rfl⟩ <;>
    first | trivial | exact (h.elim id id).elim

lemma OnTop.mul (hf : Unsigned f) (hg : Unsigned g) (h : OnTop f ∨ OnTop g) :
    OnTop (UnpackedFloat.mul Format.binary64 f g) := by
  rcases hf.cases with rfl | rfl | ⟨s, rfl⟩ | ⟨m, d, hm, rfl⟩ <;>
    rcases hg.cases with rfl | rfl | ⟨t, rfl⟩ | ⟨n, e, hn, rfl⟩ <;>
    first | trivial | exact (h.elim id id).elim

lemma OnTop.sqrt (h : OnTop f) : OnTop (UnpackedFloat.sqrt Format.binary64 f) := by
  rcases h.cases with rfl | rfl <;> trivial

/-- A quotient by a zero that has a minus sign would end below all. -/
lemma OnTop.div (h : OnTop f) (hg : Unsigned g) (h0 : ∀ s, g ≠ .zero s) :
    OnTop (UnpackedFloat.div Format.binary64 f g) := by
  rcases h.cases with rfl | rfl <;>
    rcases hg.cases with rfl | rfl | ⟨t, rfl⟩ | ⟨n, e, hn, rfl⟩ <;>
    first | trivial | exact absurd rfl (h0 t)

end Unpacked

variable {x x' y y' c : Float}

lemma value_eq_top (hx : unpacked x = store f) (hf : OnTop f) : value x = ⊤ := by
  rw [value, hx, ← onTop_iff]
  exact hf.store

/-- A double that is not below zero is finite or stands on top. -/
lemma finite_of_nonneg (h : 0 ≤ value x) (htop : value x ≠ ⊤) : x.isFinite ∧ 0 ≤ real x := by
  have hfinite : x.isFinite := by
    rw [value, ne_eq, ← onTop_iff] at htop
    rw [← isFinite_unpacked]
    rcases (Unsigned.of_nonneg h).cases with hf | hf | ⟨s, hf⟩ | ⟨m, e, hm, hf⟩ <;>
      rw [hf] at htop ⊢ <;> first | rfl | exact absurd trivial htop
  rw [value_of_isFinite hfinite] at h
  exact ⟨hfinite, EReal.coe_nonneg.1 h⟩

/-! ### Monotone operations -/

/-- Two doubles in order, neither below zero. -/
structure Below (x y : Float) : Prop where
  nonneg : 0 ≤ value x
  le : value x ≤ value y

lemma Below.nonneg_right (h : Below x y) : 0 ≤ value y := h.nonneg.trans h.le

lemma Below.refl (h : 0 ≤ value x) : Below x x := ⟨h, le_rfl⟩

section Operation

variable {g : Float → Float} {f : ℝ → ℝ}
  (hg : ∀ x, x.isFinite → 0 ≤ real x → value (g x) = rounded (f (real x)))
  (htop : ∀ x, value x = ⊤ → value (g x) = ⊤)

include hg htop

lemma nonneg_unary (hf : ∀ a, 0 ≤ a → 0 ≤ f a) (h : 0 ≤ value x) : 0 ≤ value (g x) := by
  by_cases hx : value x = ⊤
  · rw [htop x hx]
    exact le_top
  · obtain ⟨hfinite, h0⟩ := finite_of_nonneg h hx
    rw [hg x hfinite h0]
    exact rounded_nonneg (hf _ h0)

/-- **Monotone operations.** An operation is monotone if it rounds what a monotone function of the
reals gives, and answers something on top with something on top. -/
theorem below_unary (hf : ∀ a, 0 ≤ a → 0 ≤ f a) (hmono : ∀ a b, 0 ≤ a → a ≤ b → f a ≤ f b)
    (h : Below x y) : Below (g x) (g y) := by
  refine ⟨nonneg_unary hg htop hf h.nonneg, ?_⟩
  by_cases hy : value y = ⊤
  · rw [htop y hy]
    exact le_top
  have hx : value x ≠ ⊤ := fun hx => hy (top_le_iff.1 (hx ▸ h.le))
  obtain ⟨hxf, hx0⟩ := finite_of_nonneg h.nonneg hx
  obtain ⟨hyf, hy0⟩ := finite_of_nonneg h.nonneg_right hy
  have hle := h.le
  rw [value_of_isFinite hxf, value_of_isFinite hyf, EReal.coe_le_coe_iff] at hle
  rw [hg x hxf hx0, hg y hyf hy0]
  exact rounded_mono (hmono _ _ hx0 hle)

end Operation

section Operation

variable {g : Float → Float → Float} {f : ℝ → ℝ → ℝ}
  (hg : ∀ x y, x.isFinite → y.isFinite → value (g x y) = rounded (f (real x) (real y)))
  (htop : ∀ x y, 0 ≤ value x → 0 ≤ value y → value x = ⊤ ∨ value y = ⊤ → value (g x y) = ⊤)

include hg htop

lemma nonneg_binary (hf : ∀ a b, 0 ≤ a → 0 ≤ b → 0 ≤ f a b) (hx : 0 ≤ value x) (hy : 0 ≤ value y) :
    0 ≤ value (g x y) := by
  by_cases h : value x = ⊤ ∨ value y = ⊤
  · rw [htop x y hx hy h]
    exact le_top
  · obtain ⟨h₁, h₂⟩ := not_or.1 h
    obtain ⟨hxf, hx0⟩ := finite_of_nonneg hx h₁
    obtain ⟨hyf, hy0⟩ := finite_of_nonneg hy h₂
    rw [hg x y hxf hyf]
    exact rounded_nonneg (hf _ _ hx0 hy0)

/-- The same for two operands. -/
theorem below_binary (hf : ∀ a b, 0 ≤ a → 0 ≤ b → 0 ≤ f a b)
    (hmono : ∀ a a' b b', 0 ≤ a → a ≤ a' → 0 ≤ b → b ≤ b' → f a b ≤ f a' b')
    (h : Below x x') (h' : Below y y') : Below (g x y) (g x' y') := by
  refine ⟨nonneg_binary hg htop hf h.nonneg h'.nonneg, ?_⟩
  by_cases hr : value x' = ⊤ ∨ value y' = ⊤
  · rw [htop x' y' h.nonneg_right h'.nonneg_right hr]
    exact le_top
  obtain ⟨hx', hy'⟩ := not_or.1 hr
  have hx : value x ≠ ⊤ := fun hx => hx' (top_le_iff.1 (hx ▸ h.le))
  have hy : value y ≠ ⊤ := fun hy => hy' (top_le_iff.1 (hy ▸ h'.le))
  obtain ⟨hxf, hx0⟩ := finite_of_nonneg h.nonneg hx
  obtain ⟨hyf, hy0⟩ := finite_of_nonneg h'.nonneg hy
  obtain ⟨hxf', -⟩ := finite_of_nonneg h.nonneg_right hx'
  obtain ⟨hyf', -⟩ := finite_of_nonneg h'.nonneg_right hy'
  have hle := h.le
  have hle' := h'.le
  rw [value_of_isFinite hxf, value_of_isFinite hxf', EReal.coe_le_coe_iff] at hle
  rw [value_of_isFinite hyf, value_of_isFinite hyf', EReal.coe_le_coe_iff] at hle'
  rw [hg x y hxf hyf, hg x' y' hxf' hyf']
  exact rounded_mono (hmono _ _ _ _ hx0 hle hy0 hle')

end Operation

lemma Below.add (h : Below x x') (h' : Below y y') : Below (x + y) (x' + y') :=
  below_binary (fun _ _ hx hy => (approximates_add hx hy).value)
    (fun x y hx hy htop => value_eq_top (x := x + y) rfl
      (.add (.of_nonneg hx) (.of_nonneg hy) (htop.imp onTop_iff.2 onTop_iff.2)))
    (fun _ _ => add_nonneg) (fun _ _ _ _ _ ha _ hb => add_le_add ha hb) h h'

lemma Below.mul (h : Below x x') (h' : Below y y') : Below (x * y) (x' * y') :=
  below_binary (fun _ _ hx hy => (approximates_mul hx hy).value)
    (fun x y hx hy htop => value_eq_top (x := x * y) rfl
      (.mul (.of_nonneg hx) (.of_nonneg hy) (htop.imp onTop_iff.2 onTop_iff.2)))
    (fun _ _ => mul_nonneg) (fun _ _ _ _ h0 ha h0' hb => mul_le_mul ha hb h0' (h0.trans ha)) h h'

lemma Below.sqrt (h : Below x y) : Below x.sqrt y.sqrt :=
  below_unary (fun _ hx h0 => (approximates_sqrt hx h0).value)
    (fun x htop => value_eq_top (x := x.sqrt) rfl (.sqrt (onTop_iff.2 htop)))
    (fun _ _ => Real.sqrt_nonneg _) (fun _ _ _ => Real.sqrt_le_sqrt) h

@[simp] lemma value_zero : value 0.0 = 0 := rfl

lemma nonneg_of_le (h : 0.0 ≤ x) : 0 ≤ value x := value_zero ▸ (le_iff.1 h).2.2

lemma pos_of_lt (h : 0.0 < x) : 0 < value x := value_zero ▸ (lt_iff.1 h).2.2

lemma nonneg_of_lt (h : 0.0 < x) : 0 ≤ value x := (pos_of_lt h).le

lemma below_of_le (h : 0.0 ≤ x) (h' : x ≤ y) : Below x y := ⟨nonneg_of_le h, (le_iff.1 h').2.2⟩

/-- An upper limit that the greater number keeps is kept by the smaller one. -/
lemma lt_of_value_le (h : value x ≤ value y) (hy : y < c) : x < c := by
  obtain ⟨-, hc, hlt⟩ := lt_iff.1 hy
  have hx : x.isNaN = false := by
    by_contra hx
    have htop := value_of_isNaN (Bool.not_eq_false _ ▸ hx)
    exact not_top_lt (htop ▸ h.trans_lt hlt)
  exact lt_iff.2 ⟨hx, hc, h.trans_lt hlt⟩

/-- One upper limit of a classification: what keeps it is classed no worse than what does not. -/
lemma ite_lt_mono {α : Type} [LE α] (h : value x ≤ value y) {a b d : α} (ha : a ≤ a) (had : a ≤ d)
    (hbd : b ≤ d) : (if x < c then a else b) ≤ (if y < c then a else d) := by
  by_cases hy : y < c
  · rwa [if_pos (lt_of_value_le h hy), if_pos hy]
  · rw [if_neg hy]
    split_ifs
    exacts [had, hbd]

lemma Below.lt (h : Below x y) (hy : y < c) : x < c := lt_of_value_le h.le hy

lemma Below.not_lt (h : Below x y) : ¬y < x := fun hlt => (lt_iff.1 hlt).2.2.not_ge h.le

lemma below_foldl {ι : Type} (l : List ι) {f g : ι → Float} (h : ∀ i, Below (f i) (g i)) :
    Below (l.foldl (fun s i => s + f i) 0) (l.foldl (fun s i => s + g i) 0) :=
  List.foldl_rel (r := Below) (.refl le_rfl) fun i _ _ _ hs => hs.add (h i)

lemma value_div_infinity (hx : x.isFinite) (hc : unpacked c = .infinity .positive) :
    value (x / c) = 0 := by
  have h : unpacked (x / c) = store (UnpackedFloat.div Format.binary64 (unpacked x) (unpacked c)) :=
    rfl
  rw [hc] at h
  rw [value, h]
  rcases zero_or_finite (f := unpacked x) hx with ⟨s, hf⟩ | ⟨s, m, e, hm, hf⟩ <;> rw [hf]
  · exact congrArg valueOf (store_zero _)
  · exact congrArg valueOf (store_zero _)

/-- The divisor may be infinite, which leaves nothing of what is finite. -/
lemma Below.div (h : Below x y) (hc : 0.0 < c) : Below (x / c) (y / c) := by
  have hnumber := (lt_iff.1 hc).2.1
  have hpos := pos_of_lt hc
  have hnonzero (s : Sign) : unpacked c ≠ .zero s := fun h => by
    rw [value, h] at hpos
    exact lt_irrefl _ hpos
  have htop (x : Float) (hx : value x = ⊤) : value (x / c) = ⊤ :=
    value_eq_top (x := x / c) rfl (.div (onTop_iff.2 hx) (.of_nonneg hpos.le) hnonzero)
  by_cases hinf : value c = ⊤
  · have hc' : unpacked c = .infinity .positive := by
      refine (onTop_iff.2 hinf).cases.resolve_left fun hnan => ?_
      rw [← isNaN_unpacked, hnan] at hnumber
      exact Bool.noConfusion hnumber
    exact below_unary (g := (· / c)) (f := fun _ => 0)
      (fun x hx _ => (value_div_infinity hx hc').trans rounded_zero.symm) htop
      (fun _ _ => le_rfl) (fun _ _ _ _ => le_rfl) h
  · obtain ⟨hfinite, hreal⟩ := finite_of_nonneg hpos.le hinf
    have hreal' : 0 < real c := by
      rwa [value_of_isFinite hfinite, EReal.coe_pos] at hpos
    exact below_unary (g := (· / c)) (f := (· / real c))
      (fun x hx _ => (approximates_div hx hfinite hreal'.ne').value) htop
      (fun _ h0 => div_nonneg h0 hreal) (fun _ _ _ hle => div_le_div_of_nonneg_right hle hreal) h

end CodeComplexity.Double
