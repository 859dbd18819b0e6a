import Mathlib.Data.Option.Basic
import Mathlib.Logic.Function.Basic
import CodeComplexity.Proofs.Document

/-!
How the reading of a document depends on a part of it.

A part is what stands in the hole of a context. The readers of records and of tables read each part
once: what comes of the whole is a function of what was read from the part, and nothing comes of the
whole if nothing can be read from the part. This passes from one level to the next.
-/

namespace CodeComplexity

lemma Dimension.name_injective {d e : Dimension} (h : d.name = e.name) : d = e := by
  simpa using congrArg ofName? h

namespace Document

variable {α β γ : Type}

/-- A document with a hole: the tables on the way down to it, with their other entries. -/
inductive Context
  | hole
  | entry (before : List (String × Document)) (key : String) (inner : Context)
      (after : List (String × Document))

namespace Context

def fill : Context → Document → Document
  | hole, x => x
  | entry before key inner after, x => table (before ++ (key, inner.fill x) :: after)

/-- The keys on the way down to the hole. -/
def path : Context → List String
  | hole => []
  | entry _ key inner _ => key :: inner.path

/-- Through the context, the whole is read by way of the part. -/
def Through (C : Context) (whole : Document → Option α) (part : Document → Option β) : Prop :=
  ∃ g : β → Option α, ∀ x, whole (C.fill x) = (part x).bind g

end Context

/-- Whatever stands at an entry with this key, a table is read by way of it. -/
def ReadsAt (key : String) (whole : Document → Option α) (part : Document → Option β) : Prop :=
  ∀ before after, ∃ g : β → Option α,
    ∀ x, whole (table (before ++ (key, x) :: after)) = (part x).bind g

section Through

variable {C : Context} {whole : Document → Option α} {mid : Document → Option β}
  {part : Document → Option γ}

lemma through_hole (h : C.path = []) : C.Through part part := by
  cases C with
  | hole => exact ⟨some, fun x => (Option.bind_fun_some (part x)).symm⟩
  | entry => cases h

/-- One step down the path of a context. -/
lemma ReadsAt.through {key : String} {keys : List String} (hread : ReadsAt key whole mid)
    (h : C.path = key :: keys) (hinner : ∀ C : Context, C.path = keys → C.Through mid part) :
    C.Through whole part := by
  cases C with
  | hole => cases h
  | entry before k C after =>
    obtain ⟨rfl, hpath⟩ := List.cons.inj h
    obtain ⟨g, hg⟩ := hread before after
    obtain ⟨f, hf⟩ := hinner C hpath
    refine ⟨fun c => (f c).bind g, fun x => ?_⟩
    rw [Context.fill, hg, hf, Option.bind_assoc]

lemma Context.Through.eq_none (h : C.Through whole part) {x : Document} (hx : part x = none) :
    whole (C.fill x) = none := by
  obtain ⟨g, hg⟩ := h
  rw [hg, hx, Option.bind_none]

lemma Context.Through.congr (h : C.Through whole part) {x y : Document} (hxy : part x = part y) :
    whole (C.fill x) = whole (C.fill y) := by
  obtain ⟨g, hg⟩ := h
  rw [hg, hg, hxy]

end Through

/-- What is read before a part does not depend on it. -/
lemma exists_bind_after (before : Option γ) {make : γ → Document → Option α}
    {part : Document → Option β} (h : ∀ c, ∃ g : β → Option α, ∀ x, make c x = (part x).bind g) :
    ∃ g : β → Option α, ∀ x, (before.bind fun c => make c x) = (part x).bind g := by
  choose g hg using h
  refine ⟨fun b => before.bind fun c => g c b, fun x => ?_⟩
  simp only [hg]
  exact Option.bind_comm _ _

/-! ### Records -/

namespace Fields

variable {before after : Fields} {key name : String} {read : Document → Option α} {default : α}

lemma lookup_ne (h : name ≠ key) (x : Document) :
    (before ++ (key, x) :: after).lookup name = (before ++ after).lookup name := by
  rw [List.lookup_append, List.lookup_append, List.lookup_cons, beq_eq_false_iff_ne.2 h]

lemma lookup_self (h : key ∉ before.map (·.1)) (x : Document) :
    (before ++ (key, x) :: after).lookup key = some x := by
  have hbefore : before.lookup key = none := by
    rw [List.lookup_eq_none_iff]
    intro e he
    rw [bne_iff_ne]
    rintro rfl
    exact h (List.mem_map.2 ⟨e, he, rfl⟩)
  rw [List.lookup_append, hbefore, Option.none_or, List.lookup_cons, beq_self_eq_true]

lemma optional_ne (h : name ≠ key) (x : Document) :
    optional (before ++ (key, x) :: after) name read default =
      optional (before ++ after) name read default := by
  rw [optional, optional, lookup_ne h]

lemma optional_self (h : key ∉ before.map (·.1)) (x : Document) :
    optional (before ++ (key, x) :: after) key read default = read x := by
  rw [optional, lookup_self h]

lemma required_self (h : key ∉ before.map (·.1)) (x : Document) :
    required (before ++ (key, x) :: after) key read = read x := by
  rw [required, lookup_self h]
  rfl

end Fields

/-- Whether the fields of a record can be looked up does not depend on what stands at them, and what
stands at one of them is found once. -/
lemma fields?_entry (surplus : Surplus) {names : List String} {key : String} (hkey : key ∈ names)
    (before after : List (String × Document)) :
    ∃ found : Option (Fields × Fields),
      (∀ f ∈ found, key ∉ f.1.map (·.1)) ∧
      ∀ x, (table (before ++ (key, x) :: after)).fields? surplus names =
        found.map fun f => f.1 ++ (key, x) :: f.2 := by
  let known (es : List (String × Document)) := es.filter fun e => names.contains e.1
  have hknown (x : Document) : known (before ++ (key, x) :: after) =
      known before ++ (key, x) :: known after := by
    change List.filter _ _ = _
    rw [List.filter_append, List.filter_cons_of_pos (by simpa using hkey)]
  have hread (x : Document) : (table (before ++ (key, x) :: after)).fields? surplus names =
      if ((known before).map (·.1) ++ key :: (known after).map (·.1)).Nodup then
        some (known before ++ (key, x) :: known after) else none := by
    change (if ((known _).map (·.1)).Nodup then some (known _) else none) = _
    rw [hknown, List.map_append, List.map_cons]
  by_cases hnodup : ((known before).map (·.1) ++ key :: (known after).map (·.1)).Nodup
  · refine ⟨some (known before, known after), ?_, fun x => by rw [hread, if_pos hnodup]; rfl⟩
    rintro f ⟨⟩ hmem
    exact (List.nodup_append.1 hnodup).2.2 key hmem key List.mem_cons_self rfl
  · exact ⟨none, by simp, fun x => by rw [hread, if_neg hnodup]; rfl⟩

/-- A record is read by way of a field, if what is made of its fields is. -/
lemma readsAt_record (surplus : Surplus) {names : List String} {key : String} (hkey : key ∈ names)
    {make : Fields → Option α} {part : Document → Option β}
    (h : ∀ before after : Fields, key ∉ before.map (·.1) →
      ∃ g : β → Option α, ∀ x, make (before ++ (key, x) :: after) = (part x).bind g) :
    ReadsAt key (fun d => (d.fields? surplus names).bind make) part := by
  intro before after
  obtain ⟨found, habsent, hfound⟩ := fields?_entry surplus hkey before after
  simp only [hfound]
  cases found with
  | none => exact ⟨fun _ => none, fun x => (Option.bind_fun_none _).symm⟩
  | some f => exact h f.1 f.2 (habsent f rfl)

/-! ### Records with a field for each dimension -/

lemma mapM?_eq_none {f : α → Option β} {v : PerDimension α} {d : Dimension}
    (h : f (v.get d) = none) : v.mapM? f = none := by
  cases d <;> simp only [PerDimension.get] at h <;> simp [PerDimension.mapM?, h]

/-- Five values that are read one after the other are read by way of each of them. -/
lemma mapM?_update (d : Dimension) (f : Dimension → Option α) :
    ∃ g : α → Option (PerDimension α),
      ∀ o, (PerDimension.ofFn id).mapM? (Function.update f d o) = o.bind g := by
  refine ⟨fun a => (PerDimension.ofFn id).mapM? (Function.update f d (some a)), fun o => ?_⟩
  cases o with
  | some a => rfl
  | none => exact mapM?_eq_none (d := d) (by rw [PerDimension.get_ofFn, id, Function.update_self])

lemma readsAt_perDimensionOr? (surplus : Surplus) (read : Document → Option α)
    (default : PerDimension α) (d : Dimension) :
    ReadsAt d.name (perDimensionOr? surplus read default) read := by
  have hname : d.name ∈ dimensionNames := List.mem_map_of_mem (Dimension.mem_all d)
  refine readsAt_record surplus hname fun before after habsent => ?_
  let f (e : Dimension) := Fields.optional (before ++ after) e.name read (default.get e)
  obtain ⟨g, hg⟩ := mapM?_update d f
  refine ⟨g, fun x => ?_⟩
  rw [← hg]
  congr 1
  funext e
  by_cases he : e = d
  · subst he
    rw [Function.update_self, Fields.optional_self habsent]
  · rw [Function.update_of_ne he, Fields.optional_ne fun h => he (Dimension.name_injective h)]

end Document

end CodeComplexity
