import CodeComplexity.Proofs.Double.Difference
import CodeComplexity.Proofs.History

/-!
When a history oscillates.

The turns of the changes are the triples of scores in a row whose two changes have a product below
zero. Their number is compared with a share of the number of changes that a double cannot hold; it
falls short by so little that the product, rounded, decides as the share itself does.
-/

namespace CodeComplexity.History

open Double

/-- The entries of a list three in a row. -/
def triples {α : Type} (l : List α) : List (α × α × α) := l.zip (l.tail.zip l.tail.tail)

/-- The changes from a score to the next and on to the one after it have opposite signs, by their
product. -/
def Reverses (a b c : Float) : Prop := (b - a) * (c - b) < 0.0

instance (a b c : Float) : Decidable (Reverses a b c) := inferInstanceAs (Decidable (_ < _))

/-- How many triples in a row reverse. -/
def reversals (l : List Float) : Nat := (triples l).countP fun t => Reverses t.1 t.2.1 t.2.2

variable {l : List Float}

/-! ### Changes and triples -/

lemma triples_cons {α : Type} (a b c : α) (rest : List α) :
    triples (a :: b :: c :: rest) = (a, b, c) :: triples (b :: c :: rest) := rfl

lemma length_triples_le {α : Type} (l : List α) : (triples l).length ≤ l.length := by
  rw [triples, List.length_zip]
  exact Nat.min_le_left _ _

/-- What holds from each entry to the next holds twice in a triple. -/
lemma related_of_mem_triples {α : Type} {R : α → α → Prop} :
    ∀ {l : List α}, l.IsChain R → ∀ t ∈ triples l, R t.1 t.2.1 ∧ R t.2.1 t.2.2
  | [], _, t, ht | [_], _, t, ht | [_, _], _, t, ht => by simp [triples] at ht
  | a :: b :: c :: rest, h, t, ht => by
    rw [List.isChain_cons_cons] at h
    rw [triples_cons, List.mem_cons] at ht
    rcases ht with rfl | ht
    · exact ⟨h.1, (List.isChain_cons_cons.1 h.2).1⟩
    · exact related_of_mem_triples h.2 t ht

lemma length_changes : ∀ l : List Float, (changes l).length = l.length - 1
  | [] | [_] => rfl
  | _ :: b :: rest => congrArg (· + 1) (length_changes (b :: rest))

lemma turns_changes : ∀ l : List Float, turns (changes l) = reversals l
  | [] | [_] | [_, _] => rfl
  | a :: b :: c :: rest => by
    have hturns : turns (changes (a :: b :: c :: rest)) =
        (if Reverses a b c then 1 else 0) + turns (changes (b :: c :: rest)) := rfl
    rw [hturns, turns_changes (b :: c :: rest), reversals, reversals, triples_cons,
      List.countP_cons, Nat.add_comm]
    simp only [decide_eq_true_iff]

lemma reversals_le (l : List Float) : reversals l ≤ l.length :=
  List.countP_le_length.trans (length_triples_le l)

/-- Nothing reverses in what only rises or only falls, levels and what is no number included. -/
lemma reversals_eq_zero (h : l.IsChain (fun a b => ¬b < a) ∨ l.IsChain (fun a b => ¬a < b)) :
    reversals l = 0 := by
  refine List.countP_eq_zero.2 fun t ht => ?_
  rw [decide_eq_true_iff]
  exact not_mul_sub_lt_zero (h.imp (related_of_mem_triples · t ht) (related_of_mem_triples · t ht))

/-! ### The share of the changes -/

/-- The ratio is less than three fifths, by a fifth of its last place. -/
lemma real_oscillationRatio : real oscillationRatio = (3 - 2 ^ (-53 : ℤ)) / 5 := by
  have h : unpacked oscillationRatio = .finite .positive 5404319552844595 (-53) (by decide) := rfl
  rw [real_of_unpacked h]
  norm_num

/-- **The share is compared exactly**: where it is a whole number it rounds to that number, and
otherwise it is too far from the next one below to be rounded to it. -/
theorem ofNat_mul_oscillationRatio_le_iff {m k : ℕ} (hm : m < 2 ^ 50) (hk : k < 2 ^ 50) :
    Float.ofNat m * oscillationRatio ≤ Float.ofNat k ↔ 3 * m ≤ 5 * k := by
  obtain ⟨hmfinite, hmreal⟩ := real_ofNat (n := m) (by omega)
  obtain ⟨hkfinite, hkreal⟩ := real_ofNat (n := k) (by omega)
  have hshare := approximates_mul (y := oscillationRatio) hmfinite rfl
  rw [hmreal, real_oscillationRatio] at hshare
  rw [le_iff_value hshare.not_isNaN (not_isNaN_of_isFinite hkfinite)]
  have hm' : (m : ℝ) < 2 ^ 50 := by exact_mod_cast hm
  constructor
  · intro h
    by_contra hlt
    -- the share is a fifth above `k`, less what the ratio falls short by
    have hge : 5 * (k : ℝ) + 1 ≤ 3 * m := by exact_mod_cast not_le.1 hlt
    have hgrid : OnGrid (k + 1 / 8) :=
      ⟨8 * k + 1, -3, by norm_num, abs_lt.2 (by omega), by push_cast; norm_num; ring⟩
    have hrange : |(k : ℝ) + 1 / 8| < Double.limit := by
      refine lt_of_le_of_lt ?_ (natCast_lt_limit (n := k + 1) (by omega))
      rw [Nat.abs_cast, abs_of_nonneg (by positivity)]
      push_cast
      linarith
    have hshort : (k : ℝ) + 1 / 8 ≤ m * ((3 - 2 ^ (-53 : ℤ)) / 5) := by
      norm_num
      linarith
    rw [hshare.value, value_of_isFinite hkfinite, hkreal] at h
    have hle := (onGrid_le_rounded hgrid hrange hshort).trans h
    exact hle.not_gt (EReal.coe_lt_coe_iff.2 (by linarith))
  · intro h
    have hle : 3 * (m : ℝ) ≤ 5 * k := by exact_mod_cast h
    have hnonneg : (0 : ℝ) ≤ m := m.cast_nonneg
    refine hshare.value_le hkfinite ?_
    rw [hkreal]
    norm_num
    linarith

/-! ### The two conditions -/

/-- **Oscillation is a condition on integers.** A history oscillates exactly if it has at least four
scores and the triples in a row that reverse are at least three fifths of the changes. So one that
never decreases does not oscillate, and neither does one that never increases. -/
theorem isOscillating_iff (h : History) (hn : h.scores.length < 2 ^ 50) :
    (h.isOscillating = true ↔
      4 ≤ h.scores.length ∧ 3 * (h.scores.length - 1) ≤ 5 * reversals h.scores) ∧
    (h.scores.IsChain (fun a b => ¬b < a) ∨ h.scores.IsChain (fun a b => ¬a < b) →
      h.isOscillating = false) := by
  have hiff : h.isOscillating = true ↔
      4 ≤ h.scores.length ∧ 3 * (h.scores.length - 1) ≤ 5 * reversals h.scores := by
    have hshare := ofNat_mul_oscillationRatio_le_iff (m := h.scores.length - 1) (by omega)
      ((reversals_le h.scores).trans_lt hn)
    simp only [isOscillating, length_changes, turns_changes, Bool.and_eq_true, decide_eq_true_iff,
      hshare]
    rfl
  refine ⟨hiff, fun hchain => ?_⟩
  rw [← Bool.not_eq_true, hiff, reversals_eq_zero hchain]
  omega

/-- Two of the four triples would be too few, and three are just enough: the share of five changes
is three, rounded. -/
theorem isOscillating_six :
    let h : History := ⟨[1.0, 2.0, 1.0, 2.0, 3.0, 2.0], 10⟩
    h.scores.length < 2 ^ 50 ∧ reversals h.scores = 3 ∧ h.isOscillating = true := by
  intro h
  have hreversals : reversals h.scores = 3 := by decide
  refine ⟨by decide, hreversals, (isOscillating_iff h (by decide)).1.2 ⟨by decide, ?_⟩⟩
  rw [hreversals]
  decide

end CodeComplexity.History
