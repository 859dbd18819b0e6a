import Mathlib.Data.List.Basic
import CodeComplexity.BestFit

/-!
The search for the nearest module type stays among the known ones: it neither finds the unknown
type nor asks for the distance to it.
-/

namespace CodeComplexity.BestFit

theorem nearest_ne_unknown (distance : ModuleType → Float) : nearest distance ≠ .unknown := by
  unfold nearest
  apply List.foldlRecOn (motive := fun best : ModuleType => best ≠ .unknown)
  · decide
  · intro best hbest t ht
    split_ifs
    exacts [ModuleType.mem_allKnown.1 ht, hbest]

/-- Two searches by the same distances to the known types go the same way. -/
theorem nearest_congr {d e : ModuleType → Float} (h : ∀ t, t ≠ .unknown → d t = e t) :
    nearest d = nearest e := by
  unfold nearest
  -- side by side, the searches hold the same known type
  refine (List.foldl_rel (r := fun a b => a = b ∧ a ≠ .unknown) ⟨rfl, by decide⟩ ?_).1
  rintro t ht best _ ⟨rfl, hbest⟩
  have hne := ModuleType.mem_allKnown.1 ht
  rw [h t hne, h best hbest]
  split_ifs
  exacts [⟨rfl, hne⟩, ⟨rfl, hbest⟩]

end CodeComplexity.BestFit
