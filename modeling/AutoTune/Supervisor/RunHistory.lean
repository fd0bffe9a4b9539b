import AutoTune.Supervisor.Liveness
import AutoTune.Supervisor.Writes

/-!
# The history of a run

Every status a run has had is in its `run_transition` events. A legal store is one where each run's
events walk along `ALLOWED_TRANSITIONS` from a live status to the one it is in. Only `_transition`
writes a status, and it checks, so every write of a run procedure keeps the store legal.
-/

namespace AutoTune

open Lib

/-- The status a walk along allowed transitions ends in, if the events are such a walk. -/
def walks : RunStatus → List TransitionEvent → Option RunStatus
  | s, [] => some s
  | s, e :: es => if e.source = s ∧ canTransition s e.target = true then walks e.target es else none

/-- A run's own `run_transition` events. -/
def Db.historyOf (db : Db) (id : RunId) : List TransitionEvent :=
  db.transitions.filter fun e => e.runId == id

/-- Every run got where it is by allowed transitions from a live status. -/
structure Legal (db : Db) : Prop where
  known : ∀ e ∈ db.transitions, ∃ r ∈ db.runs.rows, r.id = e.runId
  walk : ∀ r ∈ db.runs.rows, ∃ start, start.terminal = false ∧
    walks start (db.historyOf r.id) = some r.status

/-! ## Walks -/

theorem walks_append {s t : RunStatus} {es : List TransitionEvent} {e : TransitionEvent}
    (h : walks s es = some t) (hsrc : e.source = t) (hcan : canTransition t e.target = true) :
    walks s (es ++ [e]) = some e.target := by
  induction es generalizing s with
  | nil =>
      have : s = t := by simpa [walks] using h
      subst this
      simp [walks, hsrc, hcan]
  | cons e' es ih =>
      simp only [walks] at h
      split_ifs at h with hstep
      simp only [List.cons_append, walks, hstep, and_self, if_true]
      exact ih h

/-- How many events reach a terminal status. -/
def terminalEvents (es : List TransitionEvent) : Nat :=
  (es.filter fun e => e.target.terminal).length

/-- A walk from a live status enters a terminal status once if it ends in one, else never. -/
theorem terminalEvents_of_walks {s t : RunStatus} {es : List TransitionEvent}
    (hs : s.terminal = false) (h : walks s es = some t) :
    terminalEvents es = if t.terminal then 1 else 0 := by
  induction es generalizing s with
  | nil =>
      have : s = t := by simpa [walks] using h
      subst this
      simp [terminalEvents, hs]
  | cons e es ih =>
      simp only [walks] at h
      split_ifs at h with hstep
      cases hterm : e.target.terminal with
      | false =>
          have := ih hterm h
          simpa [terminalEvents, hterm] using this
      | true =>
          -- nothing leaves a terminal status, so the walk ends here
          cases es with
          | nil =>
              have : e.target = t := by simpa [walks] using h
              simp [terminalEvents, hterm, ← this]
          | cons e' es =>
              simp only [walks] at h
              split_ifs at h with hnext
              rw [canTransition_terminal hterm e'.target] at hnext
              simp at hnext

/-! ## What keeps a store legal -/

/-- The two stores have the same events and the same statuses. -/
structure SameHistory (db db' : Db) : Prop where
  transitions : db'.transitions = db.transitions
  runs : List.Forall₂ (fun r r' : Run => r'.id = r.id ∧ r'.status = r.status)
    db.runs.rows db'.runs.rows

theorem SameHistory.of_runs {db db' : Db} (ht : db'.transitions = db.transitions)
    (hr : db'.runs = db.runs) : SameHistory db db' where
  transitions := ht
  runs := by
    rw [hr]
    exact List.forall₂_same.mpr fun _ _ => ⟨rfl, rfl⟩

theorem SameHistory.setRun {db : Db} {id : RunId} {f : Run → Run} {hf : ∀ r, (f r).id = r.id}
    (hstatus : ∀ r, (f r).status = r.status) : SameHistory db (db.setRun id f hf) where
  transitions := rfl
  runs := by
    rw [Db.setRun_runs, Table.rows_modify, List.forall₂_map_right_iff]
    apply List.forall₂_same.mpr
    intro r _
    by_cases h : r.id = id <;> simp [h, hf, hstatus]

theorem Legal.of_same {db db' : Db} (h : Legal db) (hs : SameHistory db db') : Legal db' := by
  have hrows := List.forall₂_iff_get.mp hs.runs
  have hlen := hrows.1
  refine ⟨?_, ?_⟩
  · intro e he
    rw [hs.transitions] at he
    rcases h.known e he with ⟨r, hr, hid⟩
    rcases List.mem_iff_getElem.mp hr with ⟨i, hi, rfl⟩
    have hi' : i < db'.runs.rows.length := by omega
    exact ⟨db'.runs.rows[i], List.getElem_mem hi', (hrows.2 i hi hi').1.trans hid⟩
  · intro r' hr'
    rcases List.mem_iff_getElem.mp hr' with ⟨i, hi', rfl⟩
    have hi : i < db.runs.rows.length := by omega
    have hsame := hrows.2 i hi hi'
    simp only [List.get_eq_getElem] at hsame
    rw [hsame.1, hsame.2, Db.historyOf, hs.transitions]
    exact h.walk _ (List.getElem_mem hi)

/-- A legal move extends the walk of its run by one event and leaves the others alone. -/
theorem Legal.moveRun {db : Db} (h : Legal db) {id : RunId} {r : Run} {target : RunStatus}
    (hget : db.runs.get? id = some r) (hcan : canTransition r.status target = true) :
    Legal (db.moveRun id r.status target) := by
  rcases Table.get?_eq_some_iff.mp hget with ⟨hr, hid⟩
  refine ⟨?_, ?_⟩
  · intro e he
    have hold : ∃ q ∈ db.runs.rows, q.id = e.runId := by
      rcases List.mem_append.mp he with he | he
      · exact h.known e he
      · have : e = ⟨id, r.status, target⟩ := by simpa using he
        exact ⟨r, hr, by simpa [this] using hid⟩
    rcases hold with ⟨q, hq, hqid⟩
    rcases Table.exists_mem_modify id (fun r => { r with status := target }) (fun _ => rfl) hq
      with ⟨q', hq', hkey⟩
    exact ⟨q', hq', hkey.trans hqid⟩
  · intro q' hq'
    rcases List.mem_map.mp hq' with ⟨q, hq, rfl⟩
    rcases h.walk q hq with ⟨start, hstart, hwalk⟩
    refine ⟨start, hstart, ?_⟩
    by_cases hqid : q.id = id
    · have : q = r := Table.eq_of_key_eq hq hr (hqid.trans hid.symm)
      subst this
      have hwalk' : walks start (db.historyOf id) = some q.status := by simpa [hqid] using hwalk
      -- the new event is the run's own, so it lands at the end of its history
      simpa [Db.historyOf, Db.moveRun, hqid] using
        walks_append (e := ⟨id, q.status, target⟩) hwalk' rfl hcan
    · have hne : ¬ id = q.id := fun he => hqid he.symm
      simpa [hqid, Db.historyOf, Db.moveRun, hne] using hwalk

theorem Legal.of_write {db db' : Db} (hw : Write db db') (h : Legal db) : Legal db' := by
  cases hw with
  | rebook id f hf hbook => exact h.of_same (SameHistory.setRun fun r => by rw [hbook r])
  | move id r target hget hcan => exact h.moveRun hget hcan
  | free id => exact h.of_same (SameHistory.of_runs rfl rfl)
  | quarantine id => exact h.of_same (SameHistory.of_runs rfl rfl)
  | candidate id f hf => exact h.of_same (SameHistory.of_runs rfl rfl)

theorem Legal.of_writes {db db' : Db} (h : Legal db) (hw : Writes db db') : Legal db' :=
  hw.preserves (fun _ _ => Legal.of_write) h

end AutoTune
