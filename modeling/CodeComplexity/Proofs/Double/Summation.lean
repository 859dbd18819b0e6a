import CodeComplexity.Proofs.Double.Error
import CodeComplexity.Proofs.Double.TotalOrder

/-!
Sums of doubles in some order.

An order of summation is a binary tree with the summands at its leaves. For summands that are not
below zero, whatever the tree, the result is at least each of them, lies close to the exact sum, and
is the exact sum if no addition has anything to round.
-/

namespace CodeComplexity.Double

/-- An order in which doubles are added up. -/
inductive Summation
  | summand (x : Float)
  | add (l r : Summation)

namespace Summation

/-- The sum as doubles give it. -/
def result : Summation → Float
  | summand x => x
  | add l r => l.result + r.result

/-- What is added up, from left to right. -/
def summands : Summation → List Float
  | summand x => [x]
  | add l r => l.summands ++ r.summands

/-- The number of additions on top of each other. -/
def depth : Summation → ℕ
  | summand _ => 0
  | add l r => max l.depth r.depth + 1

/-- The sum as reals give it. -/
noncomputable def exact (t : Summation) : ℝ := (t.summands.map real).sum

lemma exact_add (l r : Summation) : (add l r).exact = l.exact + r.exact := by
  simp [exact, summands]

variable {t : Summation} (h : ∀ x ∈ t.summands, 0.0 ≤ x)

include h

/-- **No result is below zero**, and so none fails to be a number. -/
theorem zero_le_result : 0.0 ≤ t.result := by
  induction t with
  | summand x => exact h x (List.mem_singleton.2 rfl)
  | add l r ihl ihr =>
    obtain ⟨hl, hr⟩ := List.forall_mem_append.1 h
    exact zero_le_add (ihl hl) (ihr hr)

/-- **A result is at least each summand.** -/
theorem le_result : ∀ x ∈ t.summands, value x ≤ value t.result := by
  induction t with
  | summand x => simp [summands, result]
  | add l r ihl ihr =>
    obtain ⟨hl, hr⟩ := List.forall_mem_append.1 h
    obtain ⟨hlsum, hrsum⟩ := le_add (zero_le_result hl) (zero_le_result hr)
    refine List.forall_mem_append.2 ⟨fun x hx => ?left, fun x hx => ?right⟩
    case left => exact (ihl hl x hx).trans (le_iff.1 hlsum).2.2
    case right => exact (ihr hr x hx).trans (le_iff.1 hrsum).2.2

/-- **Only negative zeros add up to one.** -/
theorem result_eq_neg_zero_iff : t.result = -0.0 ↔ ∀ x ∈ t.summands, x = -0.0 := by
  induction t with
  | summand x => simp [summands, result]
  | add l r ihl ihr =>
    obtain ⟨hl, hr⟩ := List.forall_mem_append.1 h
    rw [result, add_eq_neg_zero_iff (zero_le_result hl) (zero_le_result hr), ihl hl, ihr hr,
      summands, List.forall_mem_append]

/-- **A finite result is close to the exact sum.** No part of it has run off the range then. -/
theorem estimates_of_isFinite (hfinite : t.result.isFinite) (hdepth : t.depth ≤ 2 ^ 52) :
    0 ≤ t.exact ∧ Estimates t.depth t.exact t.result := by
  induction t with
  | summand x =>
    have hx : 0.0 ≤ x := h x (List.mem_singleton.2 rfl)
    have hexact : (summand x).exact = real x := by simp [exact, summands]
    rw [hexact]
    exact ⟨(le_iff_real rfl hfinite).1 hx, .self hfinite⟩
  | add l r ihl ihr =>
    obtain ⟨hl, hr⟩ := List.forall_mem_append.1 h
    have hl0 := zero_le_result hl
    have hr0 := zero_le_result hr
    obtain ⟨hlsum, hrsum⟩ := le_add hl0 hr0
    rw [depth] at hdepth ⊢
    obtain ⟨hlexact, hleft⟩ := ihl hl (isFinite_of_le hl0 hlsum hfinite) (by omega)
    obtain ⟨hrexact, hright⟩ := ihr hr (isFinite_of_le hr0 hrsum hfinite) (by omega)
    rw [exact_add]
    exact ⟨add_nonneg hlexact hrexact, (hleft.mono hlexact (le_max_left _ _)).add_of_isFinite
      (hright.mono hrexact (le_max_right _ _)) hlexact hrexact (by omega) hfinite⟩

section Finite

variable (hfinite : ∀ x ∈ t.summands, x.isFinite)

include hfinite

lemma exact_nonneg : 0 ≤ t.exact := by
  refine List.sum_nonneg fun r hr => ?_
  obtain ⟨x, hx, rfl⟩ := List.mem_map.1 hr
  simpa using (le_iff_real rfl (hfinite x hx)).1 (h x hx)

/-- **A result is close to the exact sum**, unless that is near the end of the range. -/
theorem estimates {k : ℕ} (hk : k + 1 < 1024) (hrange : t.exact ≤ 2 ^ k)
    (hdepth : t.depth ≤ 2 ^ 52) : Estimates t.depth t.exact t.result := by
  induction t with
  | summand x =>
    have hself := Estimates.self (hfinite x (List.mem_singleton.2 rfl))
    simpa [exact, summands, depth, result] using hself
  | add l r ihl ihr =>
    obtain ⟨hl, hr⟩ := List.forall_mem_append.1 h
    obtain ⟨hlf, hrf⟩ := List.forall_mem_append.1 hfinite
    have hl0 := exact_nonneg hl hlf
    have hr0 := exact_nonneg hr hrf
    rw [exact_add] at hrange ⊢
    rw [depth] at hdepth ⊢
    have hleft := ihl hl hlf (by linarith) (by omega)
    have hright := ihr hr hrf (by linarith) (by omega)
    exact (hleft.mono hl0 (le_max_left _ _)).add (hright.mono hr0 (le_max_right _ _)) hl0 hr0
      (by omega) hk hrange

end Finite

omit h in
/-- **A result is exact** if all summands are multiples of one power of two that leaves room for
their sum. -/
theorem exists_multiple {e : ℤ} (hlow : -1074 ≤ e) (hhigh : e ≤ 971)
    (hmultiple : ∀ x ∈ t.summands, ∃ n, Multiple e n x) (hrange : t.exact < 2 ^ (e + 53)) :
    ∃ n : ℕ, Multiple e n t.result ∧ t.exact = n * 2 ^ e := by
  induction t with
  | summand x =>
    obtain ⟨n, hn⟩ := hmultiple x (List.mem_singleton.2 rfl)
    exact ⟨n, hn, by simpa [exact, summands] using hn.eq⟩
  | add l r ihl ihr =>
    obtain ⟨hl, hr⟩ := List.forall_mem_append.1 hmultiple
    have hnonneg {t : Summation} (ht : ∀ x ∈ t.summands, ∃ n, Multiple e n x) : 0 ≤ t.exact := by
      refine List.sum_nonneg fun r hr => ?_
      obtain ⟨x, hx, rfl⟩ := List.mem_map.1 hr
      obtain ⟨n, hn⟩ := ht x hx
      rw [hn.eq]
      exact mul_nonneg n.cast_nonneg (two_zpow_pos e).le
    rw [exact_add] at hrange ⊢
    have hl0 := hnonneg hl
    have hr0 := hnonneg hr
    obtain ⟨m, hm, hmexact⟩ := ihl hl (by linarith)
    obtain ⟨n, hn, hnexact⟩ := ihr hr (by linarith)
    have hsum : l.exact + r.exact = (m + n : ℕ) * 2 ^ e := by
      rw [hmexact, hnexact]
      push_cast
      ring
    refine ⟨m + n, hm.add hn hlow hhigh ?_, hsum⟩
    rw [hsum, add_comm e, two_zpow_add] at hrange
    exact_mod_cast lt_of_mul_lt_mul_right hrange (two_zpow_pos e).le

end Summation

end CodeComplexity.Double
