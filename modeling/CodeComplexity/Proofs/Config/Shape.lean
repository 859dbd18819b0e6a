import Mathlib
import CodeComplexity.Proofs.Config.Refusal
import CodeComplexity.Proofs.Document.Part

/-!
The shapes of overrides: a matrix is five rows of five numbers, an interval two numbers.

JSON refuses an array of any other shape. TOML takes what it needs of an array and passes over the
surplus, so it refuses those that are too short and reads the others like the array cut down to its
shape.
-/

namespace CodeComplexity

namespace Document

/-! ### Shapes -/

/-- Arrays of arrays of numbers, of the given lengths from the outside in. -/
def HasShape : List Nat → Document → Prop
  | [], d => d.toFloat?.isSome
  | n :: shape, list items => items.length = n ∧ ∀ d ∈ items, HasShape shape d
  | _ :: _, _ => False

lemma hasShape_cons {n : Nat} {shape : List Nat} {d : Document} :
    HasShape (n :: shape) d ↔
      ∃ items, d = list items ∧ items.length = n ∧ ∀ x ∈ items, HasShape shape x := by
  cases d <;> simp [HasShape]

/-- Drops the surplus of arrays. -/
def cut : List Nat → Document → Document
  | n :: shape, list items => list ((items.take n).map (cut shape))
  | _, d => d

lemma cut_list (n : Nat) (shape : List Nat) (items : List Document) :
    cut (n :: shape) (list items) = list ((items.take n).map (cut shape)) := rfl

lemma cut_cut (shape : List Nat) (d : Document) : cut shape (cut shape d) = cut shape d := by
  induction shape generalizing d with
  | nil => rfl
  | cons n shape ih =>
    cases d with
    | list items =>
      simp only [cut_list, ← List.map_take, List.map_map, List.take_take, Nat.min_self]
      congr 2
      funext x
      exact ih x
    | _ => rfl

section Rows

variable {α : Type} {d : Document}

lemma row?_refused {n : Nat} {items : List Document} :
    d.row? .refused n = some items ↔ d = list items ∧ items.length = n := by
  constructor
  · intro h
    cases d with
    | list ds =>
      simp only [row?, reduceCtorEq, false_and, or_false] at h
      split_ifs at h with hlength
      subst hlength
      rw [List.take_length, Option.some_inj] at h
      exact ⟨congrArg list h, congrArg List.length h.symm⟩
    | _ => cases h
  · rintro ⟨rfl, hlength⟩
    exact row?_list .refused hlength

/-- Where surplus is passed over, a row is what remains of it when the surplus is dropped. -/
lemma row?_cut (n : Nat) (shape : List Nat) (d : Document) :
    (d.cut (n :: shape)).row? .refused n = (d.row? .ignored n).map (·.map (cut shape)) := by
  cases d with
  | list items =>
    have hlength : ((items.take n).map (cut shape)).length = min n items.length := by simp
    by_cases hn : n ≤ items.length
    · rw [cut_list, row?_list .refused (hlength.trans (Nat.min_eq_left hn)), row?,
        if_pos ((Nat.eq_or_lt_of_le hn).imp Eq.symm (⟨rfl, ·⟩))]
      rfl
    · rw [cut_list, row?, row?, hlength, if_neg, if_neg]
      · rfl
      · rintro (h | ⟨-, h⟩) <;> omega
      · rintro (h | ⟨h, -⟩)
        · omega
        · cases h
  | _ => rfl

lemma isSome_mapM {read : Document → Option α} {items : List Document} :
    (items.mapM read).isSome ↔ ∀ x ∈ items, (read x).isSome := by
  induction items with
  | nil => simp
  | cons x rest ih =>
    rw [List.mapM_cons, List.forall_mem_cons, ← ih]
    cases read x <;> cases rest.mapM read <;> simp

lemma length_of_mapM {read : Document → Option α} {items : List Document} {as : List α}
    (h : items.mapM read = some as) : as.length = items.length := by
  induction items generalizing as with
  | nil =>
    cases h
    rfl
  | cons x rest ih =>
    rw [List.mapM_cons] at h
    obtain ⟨a, -, h⟩ := Option.bind_eq_some_iff.1 h
    obtain ⟨bs, hrest, h⟩ := Option.bind_eq_some_iff.1 h
    cases h
    rw [List.length_cons, List.length_cons, ih hrest]

lemma isSome_family? {read : Document → Option α} {shape : List Nat}
    (h : ∀ x, (read x).isSome ↔ HasShape shape x) :
    (family? .refused read d).isSome ↔ HasShape (5 :: shape) d := by
  simp only [hasShape_cons, ← h]
  constructor
  · intro h
    obtain ⟨v, hv⟩ := Option.isSome_iff_exists.1 h
    obtain ⟨items, hitems, hv⟩ := Option.bind_eq_some_iff.1 hv
    obtain ⟨as, has, -⟩ := Option.bind_eq_some_iff.1 hv
    obtain ⟨rfl, hlength⟩ := row?_refused.1 hitems
    exact ⟨items, rfl, hlength, isSome_mapM.1 (Option.isSome_iff_exists.2 ⟨as, has⟩)⟩
  · rintro ⟨items, rfl, hlength, hread⟩
    obtain ⟨as, has⟩ := Option.isSome_iff_exists.1 (isSome_mapM.2 hread)
    have hfive : as.length = 5 := (length_of_mapM has).trans hlength
    obtain ⟨a, b, c, d, e, rfl⟩ : ∃ a b c d e, as = [a, b, c, d, e] := by
      match as, hfive with
      | [a, b, c, d, e], _ => exact ⟨a, b, c, d, e, rfl⟩
    rw [family?, row?_list .refused hlength, Option.bind_eq_bind, Option.bind_some, has]
    rfl

lemma family?_cut {read kept : Document → Option α} {shape : List Nat}
    (h : ∀ x, read x = kept (cut shape x)) (d : Document) :
    family? .ignored read d = family? .refused kept (d.cut (5 :: shape)) := by
  rw [family?, family?, row?_cut]
  cases d.row? .ignored 5 with
  | none => rfl
  | some items =>
    have hread : items.mapM read = (items.map (cut shape)).mapM kept := by
      rw [List.mapM_map]
      congr 1
      funext x
      exact h x
    simp only [Option.map_some, Option.bind_eq_bind, Option.bind_some, hread]

end Rows

/-- A reader accepts the arrays of a shape, and where surplus is passed over, those that have it
once they are cut. -/
structure ReadsShape {α : Type} (shape : List Nat) (part : Surplus → Document → Option α) :
    Prop where
  cut : ∀ x, part .ignored x = part .refused (cut shape x)
  isSome : ∀ items, (part .refused (list items)).isSome ↔ HasShape shape (list items)

lemma readsShape_matrix : ReadsShape [5, 5] InteractionMatrix.ofDocument? where
  cut := family?_cut (family?_cut fun _ => rfl)
  isSome _ := isSome_family? fun _ => isSome_family? fun _ => Iff.rfl

lemma interval_cut (x : Document) :
    Interval.ofDocument? .ignored x = Interval.ofDocument? .refused (x.cut [2]) := by
  have hrow : (x.cut [2]).row? .refused 2 = x.row? .ignored 2 := by
    rw [row?_cut]
    exact (congrArg (Option.map · _) (funext List.map_id)).trans Option.map_id'
  rw [Interval.ofDocument?, Interval.ofDocument?, hrow]

lemma isSome_interval (items : List Document) :
    (Interval.ofDocument? .refused (list items)).isSome ↔ HasShape [2] (list items) := by
  match items with
  | [] => simp [Interval.ofDocument?, row?, HasShape]
  | [_] => simp [Interval.ofDocument?, row?, HasShape]
  | [a, b] =>
    cases ha : a.toFloat? <;> cases hb : b.toFloat? <;>
      simp [Interval.ofDocument?, row?, HasShape, ha, hb]
  | _ :: _ :: _ :: _ => simp [Interval.ofDocument?, row?, HasShape]

lemma readsShape_interval :
    ReadsShape [2] fun surplus => optional? (Interval.ofDocument? surplus) where
  cut x := by
    cases x with
    | list items => exact congrArg (Option.map some) (interval_cut (list items))
    | _ => rfl
  isSome items := by
    rw [← isSome_interval]
    exact Bool.eq_iff_iff.1 Option.isSome_map

end Document

/-! ### Arrays in a configuration -/

namespace Config

open Document

lemma readsAt_matrices (surplus : Surplus) :
    ReadsAt "matrices" (ofDocument? surplus) (NameMap.ofDocument? (matrixOverride? surplus)) := by
  refine readsAt_record surplus (by decide) fun before after habsent => ?_
  simp only [Fields.optional_self habsent, Fields.optional_ne (by decide : "scoring" ≠ "matrices"),
    Fields.optional_ne (by decide : "profiles" ≠ "matrices"),
    Fields.optional_ne (by decide : "inference" ≠ "matrices")]
  exact exists_bind_after _ fun _ => ⟨_, fun _ => rfl⟩

lemma readsAt_profiles (surplus : Surplus) :
    ReadsAt "profiles" (ofDocument? surplus)
      (NameMap.ofDocument? (ProfileOverride.ofDocument? surplus)) := by
  refine readsAt_record surplus (by decide) fun before after habsent => ?_
  simp only [Fields.optional_self habsent, Fields.optional_ne (by decide : "scoring" ≠ "profiles"),
    Fields.optional_ne (by decide : "matrices" ≠ "profiles"),
    Fields.optional_ne (by decide : "inference" ≠ "profiles")]
  exact exists_bind_after _ fun _ => exists_bind_after _ fun _ => ⟨_, fun _ => rfl⟩

lemma readsAt_rows (surplus : Surplus) :
    ReadsAt "rows" (matrixOverride? surplus) (InteractionMatrix.ofDocument? surplus) := by
  refine readsAt_record surplus (by decide) fun before after habsent => ⟨some, fun x => ?_⟩
  rw [Fields.required_self habsent, Option.bind_fun_some]

lemma readsAt_nameMap {α : Type} (read : Document → Option α) (key : String) :
    ReadsAt key (NameMap.ofDocument? read) read := by
  intro before after
  let entry (e : String × Document) := (read e.2).map fun a => (e.1, a)
  refine ⟨fun a => (before.mapM entry).bind fun b => (after.mapM entry).map fun c =>
    NameMap.ofList (b ++ (key, a) :: c), fun x => ?_⟩
  have hread : (table (before ++ (key, x) :: after)).entries? read =
      (before ++ (key, x) :: after).mapM entry := rfl
  have hentry : entry (key, x) = (read x).map fun a => (key, a) := rfl
  rw [NameMap.ofDocument?, hread, List.mapM_append, List.mapM_cons, hentry]
  cases before.mapM entry <;> cases read x <;> cases after.mapM entry <;> rfl

/-- Where arrays of a fixed shape stand: the rows of a matrix and the ends of an interval. -/
inductive ArrayAt : List String → List Nat → Prop
  | matrix (t : String) : ArrayAt ["matrices", t, "rows"] [5, 5]
  | interval (t : String) (d : Dimension) : ArrayAt ["profiles", t, d.name] [2]

/-- A configuration is read by way of each of these arrays. -/
lemma ArrayAt.exists_through {C : Context} {shape : List Nat} (h : ArrayAt C.path shape) :
    ∃ (α : Type) (part : Surplus → Document → Option α),
      ReadsShape shape part ∧ ∀ surplus, C.Through (ofDocument? surplus) (part surplus) := by
  generalize hpath : C.path = path at h
  cases h with
  | matrix t =>
    refine ⟨_, _, readsShape_matrix, fun surplus => ?_⟩
    exact (readsAt_matrices surplus).through hpath fun _ hpath =>
      (readsAt_nameMap _ t).through hpath fun _ hpath =>
      (readsAt_rows surplus).through hpath fun _ => through_hole
  | interval t d =>
    refine ⟨_, _, readsShape_interval, fun surplus => ?_⟩
    exact (readsAt_profiles surplus).through hpath fun _ hpath =>
      (readsAt_nameMap _ t).through hpath fun _ hpath =>
      (readsAt_perDimensionOr? surplus _ _ d).through hpath fun _ => through_hole

section Arrays

variable {C : Context} {shape : List Nat} {items : List Document}

lemma ofDocument?_refused_eq_none (hC : ArrayAt C.path shape)
    (hshape : ¬HasShape shape (list items)) :
    ofDocument? .refused (C.fill (list items)) = none := by
  obtain ⟨α, part, hpart, hthrough⟩ := hC.exists_through
  refine (hthrough .refused).eq_none ?_
  rwa [← hpart.isSome, Option.not_isSome_iff_eq_none] at hshape

lemma ofDocument?_ignored_cut (hC : ArrayAt C.path shape) (x : Document) :
    ofDocument? .ignored (C.fill x) = ofDocument? .ignored (C.fill (x.cut shape)) := by
  obtain ⟨α, part, hpart, hthrough⟩ := hC.exists_through
  refine (hthrough .ignored).congr ?_
  rw [hpart.cut, hpart.cut, cut_cut]

lemma ofDocument?_ignored_eq_none (hC : ArrayAt C.path shape)
    (hshape : ¬HasShape shape ((list items).cut shape)) :
    ofDocument? .ignored (C.fill (list items)) = none := by
  obtain ⟨α, part, hpart, hthrough⟩ := hC.exists_through
  obtain ⟨kept, hkept⟩ : ∃ kept, (list items).cut shape = list kept := by
    cases shape <;> exact ⟨_, rfl⟩
  refine (hthrough .ignored).eq_none ?_
  rwa [hkept, ← hpart.isSome, ← hkept, ← hpart.cut, Option.not_isSome_iff_eq_none] at hshape

end Arrays

/-- **Arrays of a wrong shape**, whatever reads the texts. A JSON text with such an array is
refused, be the array too long or too short at either level or no array of numbers. A TOML text is
read like the one with the array cut down to its shape: it is accepted exactly with what is then
read, and malformed if nothing can be; which is so if even the cut array has not the shape, because
it is too short or holds other things than numbers. -/
theorem parse_array (r : ConfigReader) {C : Context} {shape : List Nat}
    (hC : ArrayAt C.path shape) (items : List Document) :
    (∀ content, r.json? content = some (C.fill (list items)) →
      ¬HasShape shape (list items) → r.parse .json content = .error (.malformed .json)) ∧
    ∀ content, r.toml? content = some (C.fill (list items)) →
      let kept := (list items).cut shape
      (∀ c, r.parse .toml content = .ok c ↔
        ofDocument? .ignored (C.fill kept) = some c ∧ c.validate = .ok ()) ∧
      (r.parse .toml content = .error (.malformed .toml) ↔
        ofDocument? .ignored (C.fill kept) = none) ∧
      (¬HasShape shape kept → r.parse .toml content = .error (.malformed .toml)) := by
  refine ⟨fun content hcontent hshape => ?refused, fun content hcontent => ?ignored⟩
  case refused =>
    rw [ConfigReader.parse_eq_malformed, ConfigReader.said?, ConfigReader.document?, hcontent,
      Option.bind_some]
    exact ofDocument?_refused_eq_none hC hshape
  case ignored =>
    have hsaid : r.said? .toml content =
        ofDocument? .ignored (C.fill ((list items).cut shape)) := by
      rw [ConfigReader.said?, ConfigReader.document?, hcontent, Option.bind_some]
      exact ofDocument?_ignored_cut hC _
    refine ⟨fun c => ?_, ?_, fun hshape => ?_⟩
    · rw [ConfigReader.parse_eq_ok, hsaid]
    · rw [ConfigReader.parse_eq_malformed, hsaid]
    · rw [ConfigReader.parse_eq_malformed, hsaid, ← ofDocument?_ignored_cut hC]
      exact ofDocument?_ignored_eq_none hC hshape

/-- The place of an interval in a text that says nothing else. -/
def controlOfApi : Context :=
  .entry [] "profiles" (.entry [] "api" (.entry [] "control" .hole []) []) []

def surplusInterval : List Document := [int 0, int 6, int 9]

def surplusIntervalToml : String := "[profiles.api]\ncontrol = [0, 6, 9]\n"

lemma read?_surplusInterval :
    Toml.read? surplusIntervalToml = some (controlOfApi.fill (list surplusInterval)) := by
  cbv

lemma not_hasShape_surplusInterval : ¬HasShape [2] (list surplusInterval) := by
  simp [HasShape, surplusInterval]

/-- An interval of three numbers is malformed in JSON and not in TOML; one of a single number is
malformed in TOML, too. -/
theorem parse_surplusInterval :
    ArrayAt controlOfApi.path [2] ∧
    parse .json "\x7b\"profiles\": \x7b\"api\": \x7b\"control\": [0, 6, 9]\x7d\x7d\x7d" =
      .error (.malformed .json) ∧
    parse .toml surplusIntervalToml ≠ .error (.malformed .toml) ∧
    parse .toml "[profiles.api]\ncontrol = [6]\n" = .error (.malformed .toml) := by
  have hplace : ArrayAt controlOfApi.path [2] := .interval "api" .control
  have hlong : Json.read?
      "\x7b\"profiles\": \x7b\"api\": \x7b\"control\": [0, 6, 9]\x7d\x7d\x7d" =
        some (controlOfApi.fill (list surplusInterval)) := by cbv
  have hshort : Toml.read? "[profiles.api]\ncontrol = [6]\n" =
      some (controlOfApi.fill (list [int 6])) := by cbv
  obtain ⟨hjson, htoml⟩ := parse_array .standard hplace surplusInterval
  obtain ⟨-, hmalformed, -⟩ := htoml surplusIntervalToml read?_surplusInterval
  have hread : (ofDocument? .ignored
      (controlOfApi.fill ((list surplusInterval).cut [2]))).isSome := by decide +kernel
  refine ⟨hplace, hjson _ hlong not_hasShape_surplusInterval, fun h => ?_, ?_⟩
  · rw [hmalformed.1 h] at hread
    cases hread
  · exact ((parse_array .standard hplace [int 6]).2 _ hshort).2.2 (by simp [HasShape, cut])

/-- The place of a matrix in a text that says nothing else. -/
def matrixOfLib : Context :=
  .entry [] "matrices" (.entry [] "lib" (.entry [] "rows" .hole []) []) []

/-- The identity with a sixth number in its first row. -/
def surplusRows : List Document :=
  [list [int 1, int 0, int 0, int 0, int 0, int 7], list [int 0, int 1, int 0, int 0, int 0],
    list [int 0, int 0, int 1, int 0, int 0], list [int 0, int 0, int 0, int 1, int 0],
    list [int 0, int 0, int 0, int 0, int 1]]

def surplusRowsToml : String :=
  "[matrices.lib]\nrows = [[1, 0, 0, 0, 0, 7], [0, 1, 0, 0, 0], [0, 0, 1, 0, 0], " ++
    "[0, 0, 0, 1, 0], [0, 0, 0, 0, 1]]\n"

/-- **TOML drops surplus numbers without a word.** Neither array has the shape of what it stands
for, and both texts are accepted: one gives the identity, the other the interval without its third
number. -/
theorem parse_surplus_silent :
    (Toml.read? surplusRowsToml = some (matrixOfLib.fill (list surplusRows)) ∧
      ArrayAt matrixOfLib.path [5, 5] ∧ ¬HasShape [5, 5] (list surplusRows) ∧
      ((parse .toml surplusRowsToml).toOption.bind fun c => c.matrices.get? "lib") =
        some .identity) ∧
    (Toml.read? surplusIntervalToml = some (controlOfApi.fill (list surplusInterval)) ∧
      ArrayAt controlOfApi.path [2] ∧ ¬HasShape [2] (list surplusInterval) ∧
      ((parse .toml surplusIntervalToml).toOption.bind fun c =>
        (c.profiles.get? "api").bind (·.control)) = some ⟨0.0, 6.0⟩) := by
  have hrows : Toml.read? surplusRowsToml = some (matrixOfLib.fill (list surplusRows)) := by cbv
  have hshape : ¬HasShape [5, 5] (list surplusRows) := by simp [HasShape, surplusRows]
  exact ⟨⟨hrows, .matrix "lib", hshape, by decide +kernel⟩, read?_surplusInterval,
    .interval "api" .control, not_hasShape_surplusInterval, by decide +kernel⟩

end Config

end CodeComplexity
