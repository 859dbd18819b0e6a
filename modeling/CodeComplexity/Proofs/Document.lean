import Mathlib.Data.List.Basic
import CodeComplexity.Document.Json

/-!
Reading what was written. A record is written with all its fields, each under a name of its own, so
reading it comes down to reading the fields.
-/

namespace CodeComplexity.Document

variable {α β : Type}

/-- What has no form as a number is not read as one. -/
lemma toFloat?_ofFloat_eq (x : Float) :
    (ofFloat x).toFloat? = if x.isFinite then some x else none := by
  rw [ofFloat]
  split_ifs with hx
  · rfl
  · rw [toFloat?] <;> simp

lemma toFloat?_ofFloat {x : Float} (hx : x.isFinite) : (ofFloat x).toFloat? = some x := by
  rw [toFloat?_ofFloat_eq, if_pos hx]

lemma toNatBelow?_ofNat {bound n : Nat} (hn : n < bound) :
    (ofNat n).toNatBelow? bound = some n := by
  change (if n < bound then some n else none) = some n
  rw [if_pos hn]

lemma mapM_map_eq_some {write : α → β} {read : β → Option α} {as : List α}
    (h : ∀ a ∈ as, read (write a) = some a) : (as.map write).mapM read = some as := by
  induction as with
  | nil => rfl
  | cons a rest ih =>
    obtain ⟨ha, hrest⟩ := List.forall_mem_cons.1 h
    rw [List.map_cons, List.mapM_cons, ha, ih hrest]
    rfl

lemma toList?_list {write : α → Document} {read : Document → Option α} {as : List α}
    (h : ∀ a ∈ as, read (write a) = some a) : (list (as.map write)).toList? read = some as :=
  mapM_map_eq_some h

/-- A value that may be missing comes back if it does and is not written like a missing one. -/
lemma optional?_getD {write : α → Document} {read : Document → Option α} {o : Option α}
    (hnull : ∀ a, write a ≠ null) (h : ∀ a ∈ o, read (write a) = some a) :
    optional? read ((o.map write).getD null) = some o := by
  cases o with
  | none => rfl
  | some a =>
    rw [Option.map_some, Option.getD_some]
    unfold optional?
    split
    · rename_i hnone
      exact absurd hnone (hnull a)
    · rw [h a rfl]
      rfl

/-! ### Records -/

/-- A table that holds every field of a record once gives them back. -/
lemma fields?_table (surplus : Surplus) {names : List String} {es : Fields}
    (h : es.map (·.1) = names) (hn : names.Nodup) : (table es).fields? surplus names = some es := by
  subst h
  have hknown : es.filter (fun e => (es.map (·.1)).contains e.1) = es :=
    List.filter_eq_self.2 fun e he => List.contains_iff_mem.2 (List.mem_map.2 ⟨e, he, rfl⟩)
  simp only [fields?, hknown, if_pos hn]

lemma Fields.required_cons (k : String) (d : Document) (es : Fields) (name : String)
    (read : Document → Option α) :
    Fields.required ((k, d) :: es) name read =
      if name = k then read d else Fields.required es name read := by
  unfold required
  rw [List.lookup_cons]
  by_cases h : name = k
  · rw [if_pos h, beq_iff_eq.2 h]
    rfl
  · rw [if_neg h, beq_eq_false_iff_ne.2 h]

lemma Fields.optional_cons (k : String) (d : Document) (es : Fields) (name : String)
    (read : Document → Option α) (default : α) :
    Fields.optional ((k, d) :: es) name read default =
      if name = k then read d else Fields.optional es name read default := by
  unfold optional
  rw [List.lookup_cons]
  by_cases h : name = k
  · rw [if_pos h, beq_iff_eq.2 h]
  · rw [if_neg h, beq_eq_false_iff_ne.2 h]

/-! ### Records with a field for each dimension -/

lemma lookup_name (f : Dimension → Document) (d : Dimension) :
    (Dimension.all.map fun e => (e.name, f e)).lookup d.name = some (f d) := by
  cases d <;> rfl

lemma mapM?_eq_some {f : β → Option α} {w : PerDimension β} {v : PerDimension α}
    (h : ∀ d, f (w.get d) = some (v.get d)) : w.mapM? f = some v := by
  have hc := h .control
  have hn := h .nesting
  have hs := h .state
  have ha := h .async
  have hk := h .coupling
  simp only [PerDimension.get] at hc hn hs ha hk
  simp only [PerDimension.mapM?, hc, hn, hs, ha, hk]
  rfl

variable {write : α → Document} {read : Document → Option α} {v : PerDimension α}

lemma perDimension?_ofPerDimension (surplus : Surplus)
    (h : ∀ d, read (write (v.get d)) = some (v.get d)) :
    perDimension? surplus read (ofPerDimension write v) = some v := by
  rw [perDimension?, ofPerDimension, fields?_table surplus (by rfl) (by decide),
    Option.bind_eq_bind, Option.bind_some]
  refine mapM?_eq_some fun d => ?_
  rw [PerDimension.get_ofFn, id, Fields.required, lookup_name]
  exact h d

lemma perDimensionOr?_ofPerDimension (surplus : Surplus) (default : PerDimension α)
    (h : ∀ d, read (write (v.get d)) = some (v.get d)) :
    perDimensionOr? surplus read default (ofPerDimension write v) = some v := by
  rw [perDimensionOr?, ofPerDimension, fields?_table surplus (by rfl) (by decide),
    Option.bind_eq_bind, Option.bind_some]
  refine mapM?_eq_some fun d => ?_
  rw [PerDimension.get_ofFn, id, Fields.optional, lookup_name]
  exact h d

/-! ### Rows of fixed length -/

lemma row?_list (surplus : Surplus) {items : List Document} {n : Nat} (h : items.length = n) :
    (list items).row? surplus n = some items := by
  rw [row?, if_pos (.inl h), ← h, List.take_length]

/-- Reads a row with one value for each dimension. -/
def family? (surplus : Surplus) (read : Document → Option α) (d : Document) :
    Option (PerDimension α) := do
  PerDimension.ofList? (← (← d.row? surplus 5).mapM read)

lemma family?_list (surplus : Surplus) {write : α → Document} {read : Document → Option α}
    {v : PerDimension α} (h : ∀ a ∈ v.toList, read (write a) = some a) :
    family? surplus read (list (v.toList.map write)) = some v := by
  rw [family?, row?_list surplus (by rfl), Option.bind_eq_bind, Option.bind_some,
    mapM_map_eq_some h, Option.bind_eq_bind, Option.bind_some, PerDimension.ofList?_toList]

/-! ### Texts -/

lemma Json.read?_eq_some_of_toList {content : String} {cs : List Char} {d : Document}
    (hcs : content.toList = cs)
    (h : Json.value? (cs.length + 1) (cs.length + 1) cs = some (d, [])) :
    Json.read? content = some d := by
  rw [Json.read?, hcs, h]
  rfl

end CodeComplexity.Document
