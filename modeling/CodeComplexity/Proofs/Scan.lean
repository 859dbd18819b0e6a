import Mathlib.Data.List.Basic
import CodeComplexity.Dimension

/-!
Scans of ordered lists.

A scan ends at the first entry that answers. In a list whose entries ascend that is the least one
that answers, so the outcome can be said without the list. Everything that lists dimensions lists
them in ascending order.
-/

namespace CodeComplexity

section Ascending

variable {α β : Type} {r : α → α → Prop} (hr : ∀ a b, r a b → ¬r b a) {l : List α}
  (h : l.Pairwise r)

include hr h

/-- **A scan for an answer** ends at the least entry that has one. -/
theorem findSome?_eq_some_of_pairwise {f : α → Option β} {b : β} :
    l.findSome? f = some b ↔ ∃ a ∈ l, f a = some b ∧ ∀ c ∈ l, r c a → f c = none := by
  rw [List.findSome?_eq_some_iff]
  constructor
  · rintro ⟨before, a, after, rfl, ha, hbefore⟩
    obtain ⟨-, hafter, -⟩ := List.pairwise_append.1 h
    refine ⟨a, by simp, ha, fun c hc hca => ?_⟩
    rcases List.mem_append.1 hc with hc | hc
    · exact hbefore c hc
    · rcases List.mem_cons.1 hc with rfl | hc
      · exact absurd hca (hr _ _ hca)
      · exact absurd hca (hr _ _ ((List.pairwise_cons.1 hafter).1 c hc))
  · rintro ⟨a, ha, hb, hleast⟩
    obtain ⟨before, after, rfl⟩ := List.append_of_mem ha
    obtain ⟨-, -, hbefore⟩ := List.pairwise_append.1 h
    exact ⟨before, a, after, rfl, hb, fun c hc =>
      hleast c (List.mem_append_left _ hc) (hbefore c hc a List.mem_cons_self)⟩

/-- **A search** ends at the least entry that satisfies it. -/
theorem find?_eq_some_of_pairwise {q : α → Bool} {a : α} :
    l.find? q = some a ↔ a ∈ l ∧ q a = true ∧ ∀ c ∈ l, r c a → q c = false := by
  rw [← List.findSome?_guard, findSome?_eq_some_of_pairwise hr h]
  simp only [Option.guard_eq_some_iff, Option.guard_eq_none_iff]
  constructor
  · rintro ⟨_, ha, ⟨rfl, hq⟩, hleast⟩
    exact ⟨ha, hq, hleast⟩
  · rintro ⟨ha, hq, hleast⟩
    exact ⟨a, ha, ⟨rfl, hq⟩, hleast⟩

end Ascending

namespace Dimension

lemma pairwise_all : all.Pairwise (·.index < ·.index) := by decide

/-- A scan of the dimensions ends at the one that comes before all others it could end at. -/
lemma find?_all_eq_some {q : Dimension → Bool} {d : Dimension} :
    all.find? q = some d ↔ q d = true ∧ ∀ e, e.index < d.index → q e = false := by
  simp [find?_eq_some_of_pairwise (fun _ _ => Nat.lt_asymm) pairwise_all]

end Dimension

end CodeComplexity
