import CodeComplexity.Proofs.History

/-!
Histories that are saved and read back.

A record holds the whole state of a history, so reading it back gives the same history, as long as
its scores are finite and its limit fits a word. Recording finite scores keeps it so. Hence a run in
which a history is saved and read back, at any points and any number of times, goes on as if it had
not been.
-/

namespace CodeComplexity.History

/-- What happens to a history: a score is recorded, or the history is saved and read back. -/
inductive Event
  | record (score : Float)
  | reload
  deriving DecidableEq

def Event.score? : Event → Option Float
  | record score => some score
  | reload => none

def recorded (events : List Event) : List Float := events.filterMap Event.score?

/-- A history after one event, unless its record cannot be read. -/
def after? (h : History) : Event → Option History
  | .record score => some (h.push score)
  | .reload => ofDocument? h.toDocument

/-- A history after a run, unless one of its records cannot be read. -/
def afterAll? (h : History) (events : List Event) : Option History := events.foldlM after? h

/-- What a record can hold. -/
structure Storable (h : History) : Prop where
  finite : ∀ x ∈ h.scores, x.isFinite
  limit_lt : h.limit < Document.unsignedBound

variable {h : History}

lemma storable_withLimit {limit : Nat} (hlimit : limit < Document.unsignedBound) :
    (withLimit limit).Storable :=
  ⟨fun _ hx => absurd hx List.not_mem_nil, Nat.max_lt.2 ⟨hlimit, by decide⟩⟩

lemma mem_scores_push {x y : Float} (hy : y ∈ (h.push x).scores) : y ∈ h.scores ∨ y = x := by
  unfold push at hy
  split_ifs at hy <;> rw [List.mem_append, List.mem_singleton] at hy
  exacts [hy.imp_left List.mem_of_mem_drop, hy]

lemma Storable.push (hs : h.Storable) {x : Float} (hx : x.isFinite) : (h.push x).Storable where
  finite y hy := (mem_scores_push hy).elim (hs.finite y) fun h => h ▸ hx
  limit_lt := (limit_push h x).trans_lt hs.limit_lt

lemma Storable.reload (hs : h.Storable) : h.after? .reload = some h :=
  ofDocument?_toDocument hs.finite hs.limit_lt

/-- **A run with reloads** ends where the scores alone lead. -/
theorem Storable.afterAll?_eq (hs : h.Storable) {events : List Event}
    (hevents : ∀ x ∈ recorded events, x.isFinite) :
    h.afterAll? events = some (h.pushAll (recorded events)) := by
  induction events generalizing h with
  | nil => rfl
  | cons e rest ih =>
    cases e with
    | record x =>
      have hx : x.isFinite := hevents x List.mem_cons_self
      exact ih (hs.push hx) fun y hy => hevents y (List.mem_cons_of_mem x hy)
    | reload =>
      rw [afterAll?, List.foldlM_cons, hs.reload]
      exact ih hs hevents

/-- **Saving is transparent.** Let a history start empty, with the usual limit or any that fits a
word, and let it be saved and read back anywhere between finite scores. Every record can be read,
and the history is the one that the scores alone give: the latest of them, as many as the limit
allows. So what it says from then on is the same, be it the trend, oscillation or the verdict on a
request. Every beginning of a run is a run, so this is how it stands after each event. -/
theorem afterAll?_eq_pushAll (start : History)
    (hstart : start = empty ∨ ∃ limit < Document.unsignedBound, start = withLimit limit)
    (events : List Event) (hevents : ∀ x ∈ recorded events, x.isFinite) :
    let unsaved := start.pushAll (recorded events)
    start.afterAll? events = some unsaved ∧
    unsaved = ⟨(recorded events).rtake start.limit, start.limit⟩ ∧
    ∀ r : Convergence.Request,
      (start.afterAll? events).map (fun h => (Convergence.ofRequest (r.withHistory h)).status) =
        some (Convergence.ofRequest (r.withHistory unsaved)).status := by
  obtain ⟨limit, hlimit, rfl⟩ : ∃ limit < Document.unsignedBound, start = withLimit limit :=
    hstart.elim (fun h => ⟨defaultLimit, by decide, h⟩) id
  have hrun := (storable_withLimit hlimit).afterAll?_eq hevents
  exact ⟨hrun, pushAll_withLimit limit (recorded events), fun r => by rw [hrun, Option.map_some]⟩

/-- Saved empty, before the window is full and after, and twice in a row. -/
theorem afterAll?_window :
    let events : List Event :=
      [.reload, .record 1.0, .reload, .record 2.5, .record (-0.0), .reload, .reload]
    (∀ x ∈ recorded events, x.isFinite) ∧
      (withLimit 2).afterAll? events = some ⟨[2.5, -0.0], 2⟩ := by
  intro events
  have hevents : ∀ x ∈ recorded events, x.isFinite := by decide
  obtain ⟨hrun, hwindow, -⟩ :=
    afterAll?_eq_pushAll (withLimit 2) (.inr ⟨2, by decide, rfl⟩) events hevents
  exact ⟨hevents, hrun.trans (congrArg some hwindow)⟩

end CodeComplexity.History
