/-!
# Maps from names

A map keyed by strings lists its entries by ascending key, in the order of their code points. The
order is part of the type: two maps are equal exactly when they hold the same entries, however
they were put together.
-/

namespace CodeComplexity

/-- Entries with strictly ascending keys. -/
structure NameMap (α : Type) where
  entries : List (String × α)
  ascending : entries.Pairwise fun a b => a.1 < b.1

namespace NameMap

variable {α : Type}

@[ext] theorem ext {m n : NameMap α} (h : m.entries = n.entries) : m = n := by
  cases m; cases n; cases h; rfl

def empty : NameMap α := ⟨[], .nil⟩

/-- Puts an entry into its place and drops the entry that had the same key. -/
def insertEntry (k : String) (a : α) : List (String × α) → List (String × α)
  | [] => [(k, a)]
  | (l, b) :: rest =>
    if k < l then (k, a) :: (l, b) :: rest
    else if k = l then (k, a) :: rest
    else (l, b) :: insertEntry k a rest

theorem mem_insertEntry {k : String} {a : α} {es : List (String × α)} {e : String × α}
    (h : e ∈ insertEntry k a es) : e = (k, a) ∨ e ∈ es := by
  induction es with
  | nil => simpa [insertEntry] using h
  | cons f rest ih =>
    obtain ⟨l, b⟩ := f
    simp only [insertEntry] at h
    split at h
    · simpa using h
    · split at h
      · rcases List.mem_cons.1 h with h | h
        · exact .inl h
        · exact .inr (List.mem_cons_of_mem _ h)
      · rcases List.mem_cons.1 h with h | h
        · exact .inr (h ▸ List.mem_cons_self)
        · exact (ih h).imp_right (List.mem_cons_of_mem _)

theorem pairwise_insertEntry (k : String) (a : α) {es : List (String × α)}
    (h : es.Pairwise fun a b => a.1 < b.1) :
    (insertEntry k a es).Pairwise fun a b => a.1 < b.1 := by
  induction es with
  | nil => simp [insertEntry]
  | cons f rest ih =>
    obtain ⟨l, b⟩ := f
    obtain ⟨first, others⟩ := List.pairwise_cons.1 h
    simp only [insertEntry]
    split
    · rename_i hkl
      refine List.pairwise_cons.2 ⟨fun e he => ?_, h⟩
      rcases List.mem_cons.1 he with rfl | he
      · exact hkl
      · exact String.lt_trans hkl (first e he)
    · split
      · rename_i hkl
        subst hkl
        exact List.pairwise_cons.2 ⟨first, others⟩
      · rename_i hlt hne
        refine List.pairwise_cons.2 ⟨fun e he => ?_, ih others⟩
        rcases mem_insertEntry he with rfl | he
        · refine String.not_le.1 fun hle => hne (String.le_antisymm hle ?_)
          exact String.not_lt.1 hlt
        · exact first e he

/-- Puts an entry into a map; an entry with the same key is replaced. -/
def insert (m : NameMap α) (k : String) (a : α) : NameMap α :=
  ⟨insertEntry k a m.entries, pairwise_insertEntry k a m.ascending⟩

/-- The map of a list of entries; of several with one key the last counts. -/
def ofList (es : List (String × α)) : NameMap α := es.foldl (fun m e => m.insert e.1 e.2) empty

def get? (m : NameMap α) (k : String) : Option α := m.entries.lookup k

theorem lookup_insertEntry (k : String) (a : α) (es : List (String × α)) (l : String) :
    (insertEntry k a es).lookup l = if l = k then some a else es.lookup l := by
  have lookup_cons (j : String) (b : α) (rest : List (String × α)) :
      ((j, b) :: rest).lookup l = if l = j then some b else rest.lookup l := by
    rw [List.lookup_cons]
    by_cases h : l = j
    · simp [h]
    · simp [h, beq_eq_false_iff_ne.2 h]
  induction es with
  | nil => rw [insertEntry, lookup_cons]
  | cons e rest ih =>
    obtain ⟨j, b⟩ := e
    rw [insertEntry]
    split
    · rw [lookup_cons]
    · split
      · rename_i hkj
        subst hkj
        rw [lookup_cons, lookup_cons]
        split <;> rfl
      · rename_i hne
        rw [lookup_cons, lookup_cons, ih]
        by_cases hj : l = j
        · simp [hj, Ne.symm hne]
        · simp [hj]

/-- The entry that was put in last is the one that is found. -/
@[simp] theorem get?_insert (m : NameMap α) (k : String) (a : α) (l : String) :
    (m.insert k a).get? l = if l = k then some a else m.get? l :=
  lookup_insertEntry k a m.entries l

def keys (m : NameMap α) : List String := m.entries.map (·.1)

end NameMap

end CodeComplexity
