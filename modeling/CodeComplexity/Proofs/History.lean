import Mathlib.Data.List.DropRight
import CodeComplexity.Document.Json
import CodeComplexity.Form.Result
import CodeComplexity.Proofs.Document

/-!
What a history holds after any number of scores.

As long as a history keeps to its limit, it holds the latest scores, as many as the limit allows.
A history that does not, because it was read from a record whose limit is zero or below the number
of its scores, drops nothing any more.
-/

namespace CodeComplexity.History

def pushAll (h : History) (scores : List Float) : History := scores.foldl push h

@[simp] lemma pushAll_nil (h : History) : h.pushAll [] = h := rfl

@[simp] lemma pushAll_cons (h : History) (x : Float) (scores : List Float) :
    h.pushAll (x :: scores) = (h.push x).pushAll scores := rfl

lemma pushAll_append (h : History) (s t : List Float) :
    h.pushAll (s ++ t) = (h.pushAll s).pushAll t := by
  simp [pushAll, List.foldl_append]

/-- There is room for a score, and no more scores than there is room for. -/
def KeepsLimit (h : History) : Prop := 0 < h.limit ∧ h.scores.length ≤ h.limit

instance (h : History) : Decidable h.KeepsLimit := inferInstanceAs (Decidable (_ ∧ _))

lemma keepsLimit_withLimit (limit : Nat) : (withLimit limit).KeepsLimit :=
  ⟨Nat.lt_of_lt_of_le Nat.zero_lt_one (Nat.le_max_right limit 1), Nat.zero_le _⟩

/-! ### One score -/

variable {h : History}

@[simp] lemma limit_push (h : History) (x : Float) : (h.push x).limit = h.limit := by
  unfold push
  split <;> rfl

@[simp] lemma latest?_push (h : History) (x : Float) : (h.push x).latest? = some x := by
  unfold push latest?
  split <;> simp

lemma scores_push_of_keepsLimit (hk : h.KeepsLimit) (x : Float) :
    (h.push x).scores = (h.scores ++ [x]).rtake h.limit := by
  obtain ⟨hpos, hle⟩ := hk
  unfold push List.rtake
  rw [List.length_append, List.length_singleton]
  split_ifs with hfull
  · rw [hfull, Nat.add_sub_cancel_left, List.drop_append_of_le_length (by omega)]
  · rw [Nat.sub_eq_zero_of_le (by omega), List.drop_zero]

lemma scores_push_of_not_keepsLimit (hk : ¬h.KeepsLimit) (x : Float) :
    (h.push x).scores = h.scores ++ [x] := by
  unfold push
  split_ifs with hfull
  · -- nothing is there to be dropped
    have hzero : h.scores.length = 0 := by
      by_contra hne
      exact hk ⟨by omega, by omega⟩
    rw [List.length_eq_zero_iff.1 hzero]
    rfl
  · rfl

lemma keepsLimit_push (x : Float) : (h.push x).KeepsLimit ↔ h.KeepsLimit := by
  by_cases hk : h.KeepsLimit
  · refine iff_of_true ⟨by rw [limit_push]; exact hk.1, ?_⟩ hk
    rw [limit_push, scores_push_of_keepsLimit hk, List.rtake, List.length_drop]
    omega
  · refine iff_of_false (fun hpush => ?_) hk
    rw [KeepsLimit, limit_push, scores_push_of_not_keepsLimit hk, List.length_append,
      List.length_singleton] at hpush
    exact hk ⟨hpush.1, by omega⟩

/-! ### Any number of scores -/

@[simp] lemma limit_pushAll (h : History) (scores : List Float) :
    (h.pushAll scores).limit = h.limit := by
  induction scores generalizing h with
  | nil => rfl
  | cons x rest ih => rw [pushAll_cons, ih, limit_push]

/-- The end of a list does not depend on what was cut off before more was appended. -/
lemma rtake_rtake_append (s t : List Float) (k : Nat) :
    (s.rtake k ++ t).rtake k = (s ++ t).rtake k := by
  simp only [List.rtake_eq_reverse_take_reverse, List.reverse_append, List.reverse_reverse,
    List.take_append, List.take_take, Nat.min_eq_left (Nat.sub_le k _)]

/-- **Within its limit** a history holds the latest scores. -/
theorem scores_pushAll_of_keepsLimit (hk : h.KeepsLimit) (scores : List Float) :
    (h.pushAll scores).scores = (h.scores ++ scores).rtake h.limit := by
  induction scores generalizing h with
  | nil => rw [pushAll_nil, List.append_nil, List.rtake, Nat.sub_eq_zero_of_le hk.2, List.drop_zero]
  | cons x rest ih =>
    rw [pushAll_cons, ih ((keepsLimit_push x).2 hk), limit_push, scores_push_of_keepsLimit hk,
      rtake_rtake_append, List.append_assoc, List.singleton_append]

/-- **Beyond its limit** a history holds every score. -/
theorem scores_pushAll_of_not_keepsLimit (hk : ¬h.KeepsLimit) (scores : List Float) :
    (h.pushAll scores).scores = h.scores ++ scores := by
  induction scores generalizing h with
  | nil => rw [pushAll_nil, List.append_nil]
  | cons x rest ih =>
    rw [pushAll_cons, ih (mt (keepsLimit_push x).1 hk), scores_push_of_not_keepsLimit hk,
      List.append_assoc, List.singleton_append]

lemma pushAll_withLimit (limit : Nat) (scores : List Float) :
    (withLimit limit).pushAll scores = ⟨scores.rtake (max limit 1), max limit 1⟩ := by
  have hscores := scores_pushAll_of_keepsLimit (keepsLimit_withLimit limit) scores
  have hlimit := limit_pushAll (withLimit limit) scores
  cases hp : (withLimit limit).pushAll scores
  rw [hp] at hscores hlimit
  exact congrArg₂ History.mk hscores hlimit

lemma latest?_pushAll (h : History) (hempty : h.scores = []) (scores : List Float) :
    (h.pushAll scores).latest? = scores.getLast? := by
  cases scores using List.reverseRecOn with
  | nil => rw [pushAll_nil, latest?, hempty]
  | append_singleton before x _ =>
    rw [pushAll_append, pushAll_cons, pushAll_nil, latest?_push, List.getLast?_append]
    rfl

lemma not_isOscillating_of_few (hfew : h.scores.length < minSamples) : h.isOscillating = false := by
  unfold isOscillating
  rw [decide_eq_false (Nat.not_le.2 hfew), Bool.false_and]

/-! ### The two ways to a history -/

open Document in
/-- A history comes back from its record, whether it keeps to its limit or not. -/
theorem ofDocument?_toDocument {h : History} (hs : ∀ x ∈ h.scores, x.isFinite)
    (hl : h.limit < unsignedBound) : ofDocument? h.toDocument = some h := by
  have hscores : (list (h.scores.map ofFloat)).toList? toFloat? = some h.scores :=
    toList?_list fun x hx => toFloat?_ofFloat (hs x hx)
  have hfields : h.toDocument.fields? .refused ["scores", "limit"] =
      some [("scores", list (h.scores.map ofFloat)), ("limit", ofNat h.limit)] :=
    fields?_table .refused rfl (by decide)
  unfold ofDocument?
  rw [hfields]
  simp [Fields.required, List.lookup_cons, hscores, toNatBelow?_ofNat hl]

/-- **The window.** Starting empty, after any number of scores a history holds exactly the latest
ones, in their order, as many as it is asked to keep, and at least one. So what it says depends on
no earlier score, and one that keeps fewer than four never oscillates. Every beginning of a sequence
is a sequence, so this is how it stands after each score. -/
theorem window_spec (limit : Nat) (scores : List Float) :
    let k := max limit 1
    let h := (withLimit limit).pushAll scores
    (h.scores <:+ scores ∧ h.scores.length = min scores.length k) ∧
    (h.limit = k ∧ h.scores.length ≤ h.limit) ∧
    h.latest? = scores.getLast? ∧
    (∀ limit' scores', max limit' 1 = k → scores'.rtake k = scores.rtake k →
      (withLimit limit').pushAll scores' = h) ∧
    (k < 4 → h.isOscillating = false) ∧
    empty.pushAll scores = (withLimit 10).pushAll scores := by
  intro k h
  have hh : h = ⟨scores.rtake k, k⟩ := pushAll_withLimit limit scores
  have hlength : (scores.rtake k).length = min scores.length k := by
    rw [List.rtake, List.length_drop]
    omega
  refine ⟨?window, ?limit, latest?_pushAll _ rfl scores, ?state, ?few, rfl⟩
  case window =>
    rw [hh]
    exact ⟨List.drop_suffix _ _, hlength⟩
  case limit =>
    rw [hh]
    exact ⟨rfl, hlength.trans_le (Nat.min_le_right _ _)⟩
  case state =>
    intro limit' scores' hk hscores
    rw [hh, pushAll_withLimit, hk, hscores]
  case few =>
    intro hk
    refine not_isOscillating_of_few ?_
    rw [hh]
    exact (hlength.trans_le (Nat.min_le_right _ _)).trans_lt hk

example : (withLimit 3).pushAll [1.0, 2.0, 3.0, 4.0] = ⟨[2.0, 3.0, 4.0], 3⟩ := rfl

/-- **Which histories are bounded.** A record gives back any history, since its scores are not held
against its limit. Whatever is recorded then, the history stays bounded exactly if it has room for a
score and no more scores than room; if so it holds the latest scores, and otherwise all of them. -/
theorem bounded_iff (h : History) :
    ((∀ x ∈ h.scores, x.isFinite) → h.limit < Document.unsignedBound →
      ofDocument? h.toDocument = some h) ∧
    ((∀ scores, (h.pushAll scores).scores.length ≤ max (max h.limit h.scores.length) 1) ↔
      h.KeepsLimit) ∧
    ∀ scores, (h.pushAll scores).scores =
      if h.KeepsLimit then (h.scores ++ scores).rtake h.limit else h.scores ++ scores := by
  refine ⟨ofDocument?_toDocument, ⟨?room, ?bounded⟩, ?scores⟩
  case room =>
    intro hbounded
    by_contra hk
    have hlong := hbounded (List.replicate (max h.limit 1 + 1) 0.0)
    rw [scores_pushAll_of_not_keepsLimit hk, List.length_append, List.length_replicate] at hlong
    omega
  case bounded =>
    intro hk scores
    rw [scores_pushAll_of_keepsLimit hk, List.rtake, List.length_drop]
    omega
  case scores =>
    intro scores
    split_ifs with hk
    exacts [scores_pushAll_of_keepsLimit hk scores, scores_pushAll_of_not_keepsLimit hk scores]

/-- A record with a limit of zero, and one with more scores than its limit, give histories that
outgrow the limit, the scores they came with and one. -/
theorem not_bounded :
    ((Document.Json.read? "\x7b\"scores\":[],\"limit\":0\x7d").bind ofDocument? = some ⟨[], 0⟩ ∧
      ¬((⟨[], 0⟩ : History).pushAll [1.0, 2.0]).scores.length ≤ max (max 0 0) 1) ∧
    (Document.Json.read? "\x7b\"scores\":[1,2],\"limit\":1\x7d").bind ofDocument? =
        some ⟨[1.0, 2.0], 1⟩ ∧
      ¬((⟨[1.0, 2.0], 1⟩ : History).pushAll [3.0]).scores.length ≤ max (max 1 2) 1 := by
  decide +kernel

end CodeComplexity.History
