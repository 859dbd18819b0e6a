import CodeComplexity.Proofs.Double.Underflow
import CodeComplexity.Proofs.Oscillation

/-!
Turns and extrema.

A history turns at a score if the changes before and after it have a product below zero. Then the
score is a strict extremum: its neighbours are both smaller or both greater. The converse fails for
changes so small that their product vanishes; such an extremum is missed, and every other one is
seen. As long as none is missed, whether a history oscillates is a matter of how neighbours compare.
-/

namespace CodeComplexity.History

open Double

/-- The middle one of three scores in a row lies above both others, or below both. -/
def IsExtremum (a b c : Float) : Prop := a < b ∧ c < b ∨ b < a ∧ b < c

instance (a b c : Float) : Decidable (IsExtremum a b c) := inferInstanceAs (Decidable (_ ∨ _))

/-- The changes on both sides of the middle one of three scores have a product that is rounded to
zero. -/
def Vanishes (a b c : Float) : Prop := ((b - a) * (c - b) == 0.0) = true

instance (a b c : Float) : Decidable (Vanishes a b c) := inferInstanceAs (Decidable (_ = true))

/-- How many scores between the first and the last are extrema. -/
def extrema (l : List Float) : Nat := (triples l).countP fun t => IsExtremum t.1 t.2.1 t.2.2

/-- How many of these are not seen. -/
def missed (l : List Float) : Nat :=
  (triples l).countP fun t => IsExtremum t.1 t.2.1 t.2.2 ∧ Vanishes t.1 t.2.1 t.2.2

/-- How a score compares to the next one. -/
def direction (a b : Float) : Ordering := if a < b then .lt else if b < a then .gt else .eq

/-- How each score of a list compares to the next one. -/
def directions (l : List Float) : List Ordering := List.zipWith direction l l.tail

/-- Two to the power of −537. Two changes of this size have a product that is still a double. -/
def clearChange : Float := Float.ofBits 0x1E60000000000000

variable {a b c : Float} {l : List Float}

/-! ### Three scores -/

section Finite

variable (ha : a.isFinite) (hb : b.isFinite) (hc : c.isFinite)

include ha hb hc

lemma reverses_iff : Reverses a b c ↔ IsExtremum a b c ∧ ¬Vanishes a b c :=
  mul_sub_lt_zero_iff ha hb hc

lemma vanishes_iff (h : IsExtremum a b c) : Vanishes a b c ↔
    (b - a).isFinite ∧ (c - b).isFinite ∧ |real (b - a) * real (c - b)| ≤ 2 ^ (-1075 : ℤ) := by
  have hne : value (b - a) ≠ 0 ∧ value (c - b) ≠ 0 := by
    rcases h with ⟨hab, hcb⟩ | ⟨hba, hbc⟩
    · exact ⟨(sub_of_lt ha hb hab).1.ne', (sub_of_lt hc hb hcb).2.ne⟩
    · exact ⟨(sub_of_lt hb ha hba).2.ne, (sub_of_lt hb hc hbc).1.ne'⟩
  exact mul_beq_zero_iff (approximates_sub hb ha).not_isNaN (approximates_sub hc hb).not_isNaN
    hne.1 hne.2

end Finite

lemma real_clearChange : real clearChange = 2 ^ (-537 : ℤ) := by
  have h : unpacked clearChange = .finite .positive (2 ^ 52) (-589) (by decide) := rfl
  rw [real_of_unpacked h, show (-537 : ℤ) = 52 + -589 by norm_num, two_zpow_add]
  norm_num

/-- Two clear changes are seen. -/
lemma not_vanishes_of_clear (ha : a.isFinite) (hb : b.isFinite) (hc : c.isFinite)
    (h : IsExtremum a b c) (hab : clearChange ≤ (b - a).abs) (hbc : clearChange ≤ (c - b).abs) :
    ¬Vanishes a b c := by
  have hclear {x : Float} (hx : x.isFinite) (hle : clearChange ≤ x.abs) :
      2 ^ (-537 : ℤ) ≤ |real x| := by
    obtain ⟨habs, hreal⟩ := real_abs hx
    rwa [le_iff_real rfl habs, hreal, real_clearChange] at hle
  rw [vanishes_iff ha hb hc h, abs_mul]
  rintro ⟨hba, hcb, hle⟩
  have hproduct := mul_le_mul (hclear hba hab) (hclear hcb hbc) (two_zpow_pos _).le (abs_nonneg _)
  rw [← two_zpow_add] at hproduct
  exact absurd (two_zpow_le.1 (hproduct.trans hle)) (by norm_num)

lemma isExtremum_iff_direction :
    IsExtremum a b c ↔ direction a b ≠ .eq ∧ direction b c = (direction a b).swap := by
  have hasymm {x y : Float} (h : x < y) : ¬y < x :=
    fun h' => (lt_iff.1 h).2.2.not_gt (lt_iff.1 h').2.2
  unfold IsExtremum direction
  by_cases hab : a < b
  · by_cases hcb : c < b
    · simp [hab, hcb, hasymm hcb]
    · by_cases hbc : b < c <;> simp [hab, hcb, hbc, hasymm hab]
  · by_cases hba : b < a
    · by_cases hbc : b < c
      · simp [hba, hbc, hasymm hba]
      · by_cases hcb : c < b <;> simp [hab, hba, hcb, hbc]
    · simp [hab, hba]

/-- An extremum equals neither of its neighbours. -/
lemma IsExtremum.ne (h : IsExtremum a b c) : ¬(a == b) = true ∧ ¬(b == c) = true := by
  have hne {x y : Float} (h : x < y ∨ y < x) : ¬(x == y) = true := fun heq =>
    h.elim (fun hlt => (lt_iff.1 hlt).2.2.ne (beq_iff.1 heq).2.2)
      fun hlt => (lt_iff.1 hlt).2.2.ne' (beq_iff.1 heq).2.2
  rcases h with ⟨hab, hcb⟩ | ⟨hba, hbc⟩
  exacts [⟨hne (.inl hab), hne (.inr hcb)⟩, ⟨hne (.inr hba), hne (.inl hbc)⟩]

/-! ### All scores -/

lemma mem_of_mem_triples {α : Type} {l : List α} {t : α × α × α} (ht : t ∈ triples l) :
    t.1 ∈ l ∧ t.2.1 ∈ l ∧ t.2.2 ∈ l := by
  obtain ⟨hfirst, hpair⟩ := List.of_mem_zip ht
  obtain ⟨hsecond, hthird⟩ := List.of_mem_zip hpair
  exact ⟨hfirst, List.mem_of_mem_tail hsecond, List.mem_of_mem_tail (List.mem_of_mem_tail hthird)⟩

/-- Each extremum is seen or missed, and nothing else is seen. -/
lemma reversals_add_missed (hl : ∀ x ∈ l, x.isFinite) : reversals l + missed l = extrema l := by
  have hseen : reversals l =
      (triples l).countP fun t => IsExtremum t.1 t.2.1 t.2.2 ∧ ¬Vanishes t.1 t.2.1 t.2.2 := by
    refine List.countP_congr fun t ht => ?_
    obtain ⟨ha, hb, hc⟩ := mem_of_mem_triples ht
    simp only [decide_eq_true_iff, reverses_iff (hl _ ha) (hl _ hb) (hl _ hc)]
  have hsplit := List.countP_eq_countP_filter_add (triples l)
    (fun t => IsExtremum t.1 t.2.1 t.2.2) (fun t => Vanishes t.1 t.2.1 t.2.2)
  rw [List.countP_filter, List.countP_filter, ← extrema] at hsplit
  simp only [hseen, missed, hsplit, Bool.decide_and, decide_not, Nat.add_comm]

/-- The extrema can be told from how neighbours compare. -/
lemma extrema_eq : ∀ l, extrema l = ((directions l).zip (directions l).tail).countP
    fun p => p.1 ≠ .eq ∧ p.2 = p.1.swap
  | [] | [_] | [_, _] => rfl
  | a :: b :: c :: rest => by
    have hpairs : (directions (a :: b :: c :: rest)).zip
        (directions (a :: b :: c :: rest)).tail = (direction a b, direction b c) ::
          (directions (b :: c :: rest)).zip (directions (b :: c :: rest)).tail := rfl
    rw [hpairs, List.countP_cons, ← extrema_eq (b :: c :: rest), extrema, triples_cons,
      List.countP_cons, extrema]
    simp only [isExtremum_iff_direction]

lemma length_directions (l : List Float) : (directions l).length = l.length - 1 := by
  rw [directions, List.length_zipWith, List.length_tail]
  omega

lemma isOscillating_congr {h h' : History}
    (hlength : (directions h'.scores).length = (directions h.scores).length)
    (hturns : turns (changes h'.scores) = turns (changes h.scores)) :
    h'.isOscillating = h.isOscillating := by
  rw [length_directions, length_directions] at hlength
  have hsamples : minSamples ≤ h'.scores.length ↔ minSamples ≤ h.scores.length := by
    unfold minSamples
    omega
  simp only [isOscillating, length_changes, hsamples, hlength, hturns]

/-- **Which extrema are seen.** For finite scores the turns that decide on oscillation are the
extrema that are not missed. An extremum is missed exactly if both changes beside it are finite and
the product of their magnitudes is at most half the smallest double. None is missed in a history
whose neighbours are equal or clearly apart. Among histories in which none is missed, oscillation
depends on how neighbours compare, and on nothing else. -/
theorem turns_extrema (h : History) (hfinite : ∀ x ∈ h.scores, x.isFinite) :
    turns (changes h.scores) + missed h.scores = extrema h.scores ∧
    (∀ t ∈ triples h.scores, IsExtremum t.1 t.2.1 t.2.2 → (Vanishes t.1 t.2.1 t.2.2 ↔
      (t.2.1 - t.1).isFinite ∧ (t.2.2 - t.2.1).isFinite ∧
        |real (t.2.1 - t.1) * real (t.2.2 - t.2.1)| ≤ 2 ^ (-1075 : ℤ))) ∧
    (h.scores.IsChain (fun a b => (a == b) = true ∨ clearChange ≤ (b - a).abs) →
      missed h.scores = 0) ∧
    ∀ h' : History, (∀ x ∈ h'.scores, x.isFinite) → missed h.scores = 0 → missed h'.scores = 0 →
      directions h'.scores = directions h.scores → h'.isOscillating = h.isOscillating := by
  have hcount {h : History} (hfinite : ∀ x ∈ h.scores, x.isFinite) :
      turns (changes h.scores) + missed h.scores = extrema h.scores := by
    rw [turns_changes, reversals_add_missed hfinite]
  refine ⟨hcount hfinite, fun t ht hext => ?criterion, fun hclear => ?clear,
    fun h' hfinite' hseen hseen' hdirections => ?order⟩
  case criterion =>
    obtain ⟨ha, hb, hc⟩ := mem_of_mem_triples ht
    exact vanishes_iff (hfinite _ ha) (hfinite _ hb) (hfinite _ hc) hext
  case clear =>
    refine List.countP_eq_zero.2 fun t ht => ?_
    obtain ⟨ha, hb, hc⟩ := mem_of_mem_triples ht
    obtain ⟨hab, hbc⟩ := related_of_mem_triples hclear t ht
    rw [decide_eq_true_iff]
    rintro ⟨hext, hvanish⟩
    obtain ⟨hne, hne'⟩ := hext.ne
    exact not_vanishes_of_clear (hfinite _ ha) (hfinite _ hb) (hfinite _ hc) hext
      (hab.resolve_left hne) (hbc.resolve_left hne') hvanish
  case order =>
    have hturns := hcount hfinite
    have hturns' := hcount hfinite'
    rw [extrema_eq, hdirections, ← extrema_eq] at hturns'
    exact isOscillating_congr (by rw [hdirections]) (by omega)

/-- Clear changes whose products are off the range, beside changes of one in the same directions. -/
theorem turns_extrema_clear :
    let h : History := ⟨[0.0, 1e200, -1e200, 1.0], 10⟩
    let h' : History := ⟨[1.0, 2.0, 1.0, 2.0], 10⟩
    (∀ x ∈ h.scores, x.isFinite) ∧ (∀ x ∈ h'.scores, x.isFinite) ∧
      h.scores.IsChain (fun a b => (a == b) = true ∨ clearChange ≤ (b - a).abs) ∧
      missed h'.scores = 0 ∧ directions h'.scores = directions h.scores ∧
      turns (changes h.scores) = extrema h.scores ∧ h'.isOscillating = h.isOscillating := by
  intro h h'
  have hfinite : ∀ x ∈ h.scores, x.isFinite := by decide +kernel
  have hfinite' : ∀ x ∈ h'.scores, x.isFinite := by decide +kernel
  have hclear : h.scores.IsChain (fun a b => (a == b) = true ∨ clearChange ≤ (b - a).abs) := by
    decide +kernel
  have hseen' : missed h'.scores = 0 := by decide +kernel
  have hdirections : directions h'.scores = directions h.scores := by decide +kernel
  obtain ⟨hcount, -, hmissed, horder⟩ := turns_extrema h hfinite
  have hseen := hmissed hclear
  exact ⟨hfinite, hfinite', hclear, hseen', hdirections, by rw [← hcount, hseen, Nat.add_zero],
    horder h' hfinite' hseen hseen' hdirections⟩

/-- Changes of 1e-200 back and forth are all missed, and among as many changes of one they are not:
the one history oscillates, the other does not, and their neighbours compare in the same way. -/
theorem extrema_not_seen :
    (∀ x ∈ [0.0, 1e-200, 0.0, 1e-200], Float.isFinite x) ∧
    turns (changes [0.0, 1e-200, 0.0, 1e-200]) = 0 ∧ extrema [0.0, 1e-200, 0.0, 1e-200] = 2 ∧
    directions [0.0, 1e-200, 0.0, 1e-200] = directions [0.0, 1.0, 0.0, 1.0] ∧
    (⟨[0.0, 1e-200, 0.0, 1e-200], 10⟩ : History).isOscillating = false ∧
    (⟨[0.0, 1.0, 0.0, 1.0], 10⟩ : History).isOscillating = true := by
  decide +kernel

end CodeComplexity.History
