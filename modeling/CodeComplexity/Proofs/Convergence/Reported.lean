import CodeComplexity.Proofs.Convergence.Order
import CodeComplexity.Proofs.Double.TotalOrder

/-!
What the reported convergence score tells of the verdict.

The verdict is that of the score before it is rounded. Rounding keeps the order, so the two can part
only next to the ends of the stretch, where a score is moved onto an end that it has not reached.
Where that begins is settled by two pairs of neighbouring doubles, of which rounding moves the upper
one to the end and the lower one not.
-/

namespace CodeComplexity

open Double
open DoubleBits (rank)

namespace Rounding

variable {x a b c : Float}

/-- Neighbours that are rounded to different sides of a number part all others. -/
lemma toPlaces_three_lt_iff (hab : rank b.toBits = rank a.toBits + 1) (ha : a.isNaN = false)
    (hb : b.isNaN = false) (hlow : toPlaces a 3 < c) (hhigh : ¬toPlaces b 3 < c) :
    toPlaces x 3 < c ↔ x ≤ a := by
  constructor
  · intro h
    have hx : x.isNaN = false := (exact_three.isNaN_toPlaces x).symm.trans (lt_iff.1 h).1
    refine le_of_lt_neighbour hab ha ((not_le_iff hb hx).1 fun hle => hhigh ?_)
    exact lt_of_value_le (exact_three.value_toPlaces_mono (le_iff.1 hle).2.2) h
  · exact fun h => lt_of_value_le (exact_three.value_toPlaces_mono (le_iff.1 h).2.2) hlow

lemma toPlaces_three_neg_iff : toPlaces x 3 < 0.0 ↔ x ≤ -0.0005 :=
  toPlaces_three_lt_iff (b := -0.0004999999999999999) (by decide +kernel) rfl rfl
    (by decide +kernel) (by decide +kernel)

lemma toPlaces_three_lt_one_iff : toPlaces x 3 < 1.0 ↔ x ≤ 0.9994999999999998 :=
  toPlaces_three_lt_iff (b := 0.9994999999999999) (by decide +kernel) rfl rfl
    (by decide +kernel) (by decide +kernel)

end Rounding

namespace Convergence

open Rounding (toPlaces)

/-- A score below the stretch by so little that rounding moves it to where the stretch begins. -/
def RoundsToStart (q : Float) : Prop := -0.0005 < q ∧ q < 0.0

/-- A score inside the stretch that rounding moves to where the stretch ends. -/
def RoundsToEnd (q : Float) : Prop := 0.9994999999999998 < q ∧ q < 1.0

instance (q : Float) : Decidable (RoundsToStart q) := inferInstanceAs (Decidable (_ ∧ _))

instance (q : Float) : Decidable (RoundsToEnd q) := inferInstanceAs (Decidable (_ ∧ _))

variable {q : Float}

lemma roundsToStart_iff : RoundsToStart q ↔ q < 0.0 ∧ ¬toPlaces q 3 < 0.0 := by
  rw [RoundsToStart, Rounding.toPlaces_three_neg_iff, and_comm]
  exact and_congr_right fun h => (not_le_iff (lt_iff.1 h).1 rfl).symm

lemma roundsToEnd_iff : RoundsToEnd q ↔ q < 1.0 ∧ ¬toPlaces q 3 < 1.0 := by
  rw [RoundsToEnd, Rounding.toPlaces_three_lt_one_iff, and_comm]
  exact and_congr_right fun h => (not_le_iff (lt_iff.1 h).1 rfl).symm

/-- Rounding takes no score back over an end, and none across the whole stretch. -/
lemma reported_sides : (toPlaces q 3 < 0.0 → q < 0.0) ∧ (toPlaces q 3 < 1.0 → q < 1.0) ∧
    (q < 0.0 → toPlaces q 3 < 1.0) := by
  rw [Rounding.toPlaces_three_neg_iff, Rounding.toPlaces_three_lt_one_iff]
  have hle {a b : Float} (hab : a < b) (h : q ≤ a) : q < b := lt_of_value_le (le_iff.1 h).2.2 hab
  refine ⟨hle (by decide +kernel), hle (by decide +kernel), fun h => ?_⟩
  obtain ⟨hq, -, hlt⟩ := lt_iff.1 h
  refine (le_iff_value hq rfl).2 (hlt.le.trans (le_iff.1 ?_).2.2)
  decide +kernel

/-- Read off the reported score, the verdict is the same exactly off the ends. -/
lemma ofScore_reported_iff :
    ConvergenceStatus.ofScore q false = .ofScore (toPlaces q 3) false ↔
      ¬RoundsToStart q ∧ ¬RoundsToEnd q := by
  obtain ⟨hstart, hend, hcross⟩ := reported_sides (q := q)
  rw [roundsToStart_iff, roundsToEnd_iff]
  simp only [ConvergenceStatus.ofScore, Bool.false_eq_true, if_false]
  by_cases hneg : q < 0.0
  · by_cases hneg' : toPlaces q 3 < 0.0 <;> simp [hneg, hneg', hcross hneg]
  · have hneg' : ¬toPlaces q 3 < 0.0 := fun h => hneg (hstart h)
    by_cases hone : q < 1.0
    · by_cases hone' : toPlaces q 3 < 1.0 <;> simp [hneg, hneg', hone, hone']
    · have hone' : ¬toPlaces q 3 < 1.0 := fun h => hone (hend h)
      simp [hneg, hneg', hone, hone']

lemma reported_of_roundsToStart (h : RoundsToStart q) : (toPlaces q 3 == 0.0) = true ∧
    ConvergenceStatus.ofScore q false = .safe ∧
    ConvergenceStatus.ofScore (toPlaces q 3) false = .review := by
  obtain ⟨hneg, hneg'⟩ := roundsToStart_iff.1 h
  obtain ⟨hq, -, hlt⟩ := lt_iff.1 hneg
  have hnumber := (Rounding.exact_three.isNaN_toPlaces q).trans hq
  have hzero : toPlaces 0.0 3 = 0.0 := by decide +kernel
  have hle := Rounding.exact_three.value_toPlaces_mono hlt.le
  rw [hzero] at hle
  refine ⟨(beq_iff_value hnumber rfl).2 (le_antisymm hle ?_), ?_, ?_⟩
  · rwa [lt_iff_value hnumber rfl, not_lt] at hneg'
  · simp [ConvergenceStatus.ofScore, hneg]
  · simp [ConvergenceStatus.ofScore, hneg', reported_sides.2.2 hneg]

lemma reported_of_roundsToEnd (h : RoundsToEnd q) : (toPlaces q 3 == 1.0) = true ∧
    ConvergenceStatus.ofScore q false = .review ∧
    ConvergenceStatus.ofScore (toPlaces q 3) false = .violation := by
  obtain ⟨hone, hone'⟩ := roundsToEnd_iff.1 h
  obtain ⟨hq, -, hlt⟩ := lt_iff.1 hone
  have hnumber := (Rounding.exact_three.isNaN_toPlaces q).trans hq
  have hneg : ¬q < 0.0 := fun hneg => hone' (reported_sides.2.2 hneg)
  have hneg' : ¬toPlaces q 3 < 0.0 := fun hneg' => hneg (reported_sides.1 hneg')
  have hle := Rounding.toPlaces_three_le_one ((le_iff_value hq rfl).2 hlt.le)
  refine ⟨(beq_iff_value hnumber rfl).2 (le_antisymm (le_iff.1 hle).2.2 ?_), ?_, ?_⟩
  · rwa [lt_iff_value hnumber rfl, not_lt] at hone'
  · simp [ConvergenceStatus.ofScore, hneg, hone]
  · simp [ConvergenceStatus.ofScore, hneg', hone']

/-- **What the report tells of the verdict.** Of every request: the verdict is that of the score
before it is rounded, and oscillation overrides it. The reported score has the same one, unless the
unit does not oscillate and rounding has moved the score onto an end of the stretch: onto the
beginning, which makes a safe score look like one for review, or onto the end, which makes a score
for review look like a violation. -/
theorem reported_spec (r : Request) :
    let c := ofRequest r
    let q := scoreOf c.score c.threshold c.epsilon
    c.status = .ofScore q r.oscillating ∧
    (c.status = .ofScore c.convergenceScore r.oscillating ↔
      r.oscillating = true ∨ ¬RoundsToStart q ∧ ¬RoundsToEnd q) ∧
    (r.oscillating = false → RoundsToStart q → c.status = .safe ∧
      (c.convergenceScore == 0.0) = true ∧
      ConvergenceStatus.ofScore c.convergenceScore r.oscillating = .review) ∧
    (r.oscillating = false → RoundsToEnd q → c.status = .review ∧
      (c.convergenceScore == 1.0) = true ∧
      ConvergenceStatus.ofScore c.convergenceScore r.oscillating = .violation) := by
  intro c q
  have hstatus : c.status = .ofScore q r.oscillating := rfl
  have hscore : c.convergenceScore = toPlaces q 3 := rfl
  rw [hstatus, hscore]
  refine ⟨rfl, ?agree, ?start, ?stop⟩
  case agree =>
    cases r.oscillating with
    | true => simp [ConvergenceStatus.ofScore]
    | false => simpa using ofScore_reported_iff
  case start =>
    rintro hflag h
    obtain ⟨hzero, hsafe, hreview⟩ := reported_of_roundsToStart h
    rw [hflag]
    exact ⟨hsafe, hzero, hreview⟩
  case stop =>
    rintro hflag h
    obtain ⟨hone, hreview, hviolation⟩ := reported_of_roundsToEnd h
    rw [hflag]
    exact ⟨hreview, hone, hviolation⟩

/-- Under the usual threshold and strength, a score just below the target and one just below the
threshold. -/
theorem reported_spec_near_ends :
    (let r : Request := .ofScore 7.9995
     RoundsToStart (scoreOf 7.9995 10.0 2.0) ∧ (ofRequest r).status = .safe ∧
       ((ofRequest r).convergenceScore == 0.0) = true) ∧
    let r : Request := .ofScore 9.9995
    RoundsToEnd (scoreOf 9.9995 10.0 2.0) ∧ (ofRequest r).status = .review ∧
      ((ofRequest r).convergenceScore == 1.0) = true := by
  have hstart : RoundsToStart (scoreOf 7.9995 10.0 2.0) := by decide +kernel
  have hend : RoundsToEnd (scoreOf 9.9995 10.0 2.0) := by decide +kernel
  obtain ⟨hsafe, hzero, -⟩ := (reported_spec (.ofScore 7.9995)).2.2.1 rfl hstart
  obtain ⟨hreview, hone, -⟩ := (reported_spec (.ofScore 9.9995)).2.2.2 rfl hend
  exact ⟨⟨hstart, hsafe, hzero⟩, hend, hreview, hone⟩

/-- The verdict cannot always be read off the reported score. -/
theorem not_forall_status_eq_reported :
    ¬∀ (score threshold epsilon : Float) (oscillating : Bool), score.isFinite →
      Config.Admits threshold epsilon →
      let c := ofRequest ⟨score, some threshold, some epsilon, none, oscillating⟩
      c.status = .ofScore c.convergenceScore oscillating := by
  intro h
  have hadmits : Config.Admits 10.0 2.0 := Config.admits_iff.2 (by decide)
  have hequal := h 9.9995 10.0 2.0 false rfl hadmits
  revert hequal
  decide +kernel

end Convergence

end CodeComplexity
