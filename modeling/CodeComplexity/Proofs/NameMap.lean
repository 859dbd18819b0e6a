import Mathlib.Data.List.Perm.Basic
import CodeComplexity.NameMap
import CodeComplexity.Proofs.Scan

/-!
Maps from names as finite functions. Reading and the list of entries say the same, the order in
which entries were put in is lost, and a scan of the entries meets the least key first.
-/

namespace CodeComplexity.NameMap

variable {α ε : Type} {m : NameMap α}

lemma lt_of_append {before after : List (String × α)} {p : String × α}
    (h : m.entries = before ++ p :: after) :
    (∀ q ∈ before, q.1 < p.1) ∧ ∀ q ∈ after, p.1 < q.1 := by
  have hasc := m.ascending
  rw [h, List.pairwise_append, List.pairwise_cons] at hasc
  exact ⟨fun q hq => hasc.2.2 q hq p List.mem_cons_self, hasc.2.1.1⟩

/-- What is found at a key is the entry with that key. -/
theorem get?_eq_some {k : String} {a : α} : m.get? k = some a ↔ (k, a) ∈ m.entries := by
  rw [get?, List.lookup_eq_some_iff]
  constructor
  · rintro ⟨before, after, h, -⟩
    simp [h]
  · intro h
    obtain ⟨before, after, h⟩ := List.append_of_mem h
    refine ⟨before, after, h, fun p hp => ?_⟩
    have := (lt_of_append h).1 p hp
    simpa using (String.ne_of_lt this).symm

lemma mem_keys {k : String} : k ∈ m.keys ↔ ∃ a, m.get? k = some a := by
  simp [keys, get?_eq_some]

/-! ### The order of insertion -/

lemma insertEntry_perm {k : String} (a : α) {es : List (String × α)} (h : k ∉ es.map (·.1)) :
    (insertEntry k a es).Perm ((k, a) :: es) := by
  induction es with
  | nil => exact .refl _
  | cons e rest ih =>
    obtain ⟨l, b⟩ := e
    simp only [List.map_cons, List.mem_cons, not_or] at h
    unfold insertEntry
    split
    · exact .refl _
    · rw [if_neg h.1]
      exact ((ih h.2).cons _).trans (.swap _ _ _)

lemma foldl_insert_perm (es : List (String × α)) (m : NameMap α)
    (h : ((es ++ m.entries).map (·.1)).Nodup) :
    (es.foldl (fun m e => m.insert e.1 e.2) m).entries.Perm (es ++ m.entries) := by
  induction es generalizing m with
  | nil => exact .refl _
  | cons e rest ih =>
    rw [List.cons_append, List.map_cons, List.nodup_cons, List.map_append, List.mem_append,
      not_or] at h
    have hput : (m.insert e.1 e.2).entries.Perm (e :: m.entries) := insertEntry_perm e.2 h.1.2
    have hall : (rest ++ (m.insert e.1 e.2).entries).Perm (e :: (rest ++ m.entries)) :=
      (hput.append_left rest).trans List.perm_middle
    refine (ih _ ?_).trans hall
    rw [(hall.map (·.1)).nodup_iff, List.map_cons, List.nodup_cons, List.map_append,
      List.mem_append, not_or]
    exact h

lemma entries_ofList_perm {es : List (String × α)} (h : (es.map (·.1)).Nodup) :
    (ofList es).entries.Perm es := by
  simpa [ofList, empty] using foldl_insert_perm es empty (by simpa [empty] using h)

lemma eq_of_perm {m n : NameMap α} (h : m.entries.Perm n.entries) : m = n := by
  refine ext (h.eq_of_pairwise (fun a b _ _ hab hba => ?_) m.ascending n.ascending)
  exact absurd hab (String.lt_asymm hba)

/-- Entries with different keys make the same map in whatever order they are put in. -/
theorem ofList_perm {es fs : List (String × α)} (h : es.Perm fs) (hes : (es.map (·.1)).Nodup) :
    ofList es = ofList fs := by
  have hfs : (fs.map (·.1)).Nodup := (h.map _).nodup_iff.1 hes
  exact eq_of_perm (((entries_ofList_perm hes).trans h).trans (entries_ofList_perm hfs).symm)

/-! ### The least key with a fault -/

/-- The fault of the entry with the least key among those that have one. -/
def LeastFault (m : NameMap α) (f : String → α → Option ε) (e : ε) : Prop :=
  ∃ k a, m.get? k = some a ∧ f k a = some e ∧
    ∀ l b, m.get? l = some b → f l b ≠ none → k ≤ l

/-- A scan of the entries in their order ends at the least key with a fault. -/
theorem findSome?_eq_some_iff_least {f : String → α → Option ε} {e : ε} :
    (m.entries.findSome? fun p => f p.1 p.2) = some e ↔ m.LeastFault f e := by
  rw [findSome?_eq_some_of_pairwise (fun _ _ => String.lt_asymm) m.ascending, LeastFault]
  simp only [Prod.exists, Prod.forall, get?_eq_some]
  refine exists₂_congr fun k a => and_congr_right fun _ => and_congr_right fun _ => ?_
  refine forall₂_congr fun l b => forall_congr' fun _ => ?_
  rw [← String.not_lt, not_imp_not]

lemma findSome?_eq_none_iff_get? {f : String → α → Option ε} :
    (m.entries.findSome? fun p => f p.1 p.2) = none ↔
      ∀ k a, m.get? k = some a → f k a = none := by
  simp only [List.findSome?_eq_none_iff, Prod.forall, get?_eq_some]

end CodeComplexity.NameMap
