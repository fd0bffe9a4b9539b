import AutoTune.Supervisor.TransitionSafety
import AutoTune.Supervisor.Withdrawals

/-!
# How a run ended stays as it was

`_finish` and the janitor write candidates nowhere, and what they write of a run that is over is
neither its status nor its failure class. `Db.Ends` states this of two stores. Giving a candidate back
is always a write of its own after it.
-/

namespace AutoTune

open Lib

/-- `r'` is `r` at a later point: one that was over ended as it did, and only a failure renames the
class. -/
structure Run.Ends (r r' : Run) : Prop where
  id : r'.id = r.id
  campaignId : r'.campaignId = r.campaignId
  candidateId : r'.candidateId = r.candidateId
  kind : r'.kind = r.kind
  policySessionId : r'.policySessionId = r.policySessionId
  live : r'.live = true → r.live = true
  ended : r.live = false → r'.status = r.status ∧ r'.failureClass = r.failureClass
  kept : r'.status ≠ .failed → r'.failureClass = r.failureClass

/-- `db'` is `db` with work ended and no candidate touched. -/
structure Db.Ends (db db' : Db) : Prop where
  runs : List.Forall₂ Run.Ends db.runs.rows db'.runs.rows
  candidates : db'.candidates = db.candidates
  campaigns : db'.campaigns = db.campaigns
  sessions : db'.sessions = db.sessions

namespace Run.Ends

theorem refl (r : Run) : Run.Ends r r where
  id := rfl
  campaignId := rfl
  candidateId := rfl
  kind := rfl
  policySessionId := rfl
  live := fun h => h
  ended := fun _ => ⟨rfl, rfl⟩
  kept := fun _ => rfl

theorem trans {r r' r'' : Run} (h : Run.Ends r r') (h' : Run.Ends r' r'') : Run.Ends r r'' where
  id := h'.id.trans h.id
  campaignId := h'.campaignId.trans h.campaignId
  candidateId := h'.candidateId.trans h.candidateId
  kind := h'.kind.trans h.kind
  policySessionId := h'.policySessionId.trans h.policySessionId
  live := fun hl => h.live (h'.live hl)
  ended := by
    intro hover
    have hover' : r'.live = false := by
      rw [Run.live, (h.ended hover).1]
      exact hover
    exact ⟨(h'.ended hover').1.trans (h.ended hover).1, (h'.ended hover').2.trans (h.ended hover).2⟩
  kept := by
    intro hnot
    have hnot' : r'.status ≠ .failed := by
      intro hf
      -- it had failed already, and stays failed
      have hover : r'.live = false := by simp [Run.live, hf, RunStatus.terminal]
      exact hnot ((h'.ended hover).1.trans hf)
    exact (h'.kept hnot).trans (h.kept hnot')

end Run.Ends

namespace Db.Ends

variable {db db' db'' : Db}

theorem refl (db : Db) : Db.Ends db db where
  runs := List.forall₂_same.mpr fun r _ => Run.Ends.refl r
  candidates := rfl
  campaigns := rfl
  sessions := rfl

theorem trans (h : Db.Ends db db') (h' : Db.Ends db' db'') : Db.Ends db db'' where
  runs := forall₂_trans (R := Run.Ends) (fun _ _ _ a b => Run.Ends.trans a b) h.runs h'.runs
  candidates := h'.candidates.trans h.candidates
  campaigns := h'.campaigns.trans h.campaigns
  sessions := h'.sessions.trans h.sessions

/-- A store with the same rows as far as they matter here. -/
theorem of_rows (hruns : db'.runs = db.runs) (hcandidates : db'.candidates = db.candidates)
    (hcampaigns : db'.campaigns = db.campaigns) (hsessions : db'.sessions = db.sessions) :
    Db.Ends db db' where
  runs := by
    rw [hruns]
    exact (refl db).runs
  candidates := hcandidates
  campaigns := hcampaigns
  sessions := hsessions

/-- Updating one run, when the update ends the row it meets. -/
theorem of_modify {id : RunId} {f : Run → Run}
    (hruns : db'.runs.rows = db.runs.rows.map fun r => if r.id = id then f r else r)
    (hcandidates : db'.candidates = db.candidates) (hcampaigns : db'.campaigns = db.campaigns)
    (hsessions : db'.sessions = db.sessions)
    (h : ∀ r ∈ db.runs.rows, r.id = id → Run.Ends r (f r)) : Db.Ends db db' where
  runs := by
    rw [hruns, List.forall₂_map_right_iff]
    apply List.forall₂_same.mpr
    intro r hr
    by_cases hid : r.id = id
    · simpa [hid] using h r hr hid
    · simpa [hid] using Run.Ends.refl r
  candidates := hcandidates
  campaigns := hcampaigns
  sessions := hsessions

theorem setRun {id : RunId} {f : Run → Run} {hf : ∀ r, (f r).id = r.id}
    (h : ∀ r ∈ db.runs.rows, r.id = id → Run.Ends r (f r)) : Db.Ends db (db.setRun id f hf) :=
  of_modify rfl rfl rfl rfl h

theorem foldl {ι : Type} {f : Db → ι → Db} (hf : ∀ db i, Db.Ends db (f db i)) (l : List ι)
    (db : Db) : Db.Ends db (l.foldl f db) := by
  induction l generalizing db with
  | nil => exact refl db
  | cons i l ih => exact (hf db i).trans (ih (f db i))

theorem exists_run (h : Db.Ends db db') {r' : Run} (hr' : r' ∈ db'.runs.rows) :
    ∃ r ∈ db.runs.rows, Run.Ends r r' :=
  exists_mem_of_forall₂ h.runs hr'

end Db.Ends

/-! ## What ends work ends it -/

theorem releaseRunMachines_ends (db : Db) (r : Run) : Db.Ends db (releaseRunMachines db r) := by
  unfold releaseRunMachines
  refine Db.Ends.foldl ?_ _ db
  intro db id
  refine Db.Ends.of_rows (releaseMachineIfIdle_runs db id) ?_
    (releaseMachineIfIdle_settles db id).campaigns (releaseMachineIfIdle_settles db id).sessions
  unfold releaseMachineIfIdle
  split
  · rfl
  · split_ifs <;> rfl

theorem stampFinished_ends (db : Db) (id : RunId) (now : Time) (error : String) (cleaned : Bool) :
    Db.Ends db (db.stampFinished id now error cleaned) :=
  Db.Ends.setRun fun _ _ _ => ⟨rfl, rfl, rfl, rfl, rfl, fun h => h, fun _ => ⟨rfl, rfl⟩, fun _ => rfl⟩

/-- A live run moves on under the failure class it has. -/
theorem transition_ends (db : Db) (id : RunId) (target : RunStatus) :
    Db.Ends db (transition db id target).state := by
  unfold transition
  cases hget : db.runs.get? id with
  | none => exact Db.Ends.refl db
  | some r =>
      by_cases hcan : canTransition r.status target = true
      · simp only [hcan, if_true, Ran.done_state]
        refine Db.Ends.of_modify (f := fun q => { q with status := target }) rfl rfl rfl rfl ?_
        intro q hq hid
        have hqr : q = r := by
          have hgetq := Table.get?_eq_some_iff.mpr ⟨hq, hid⟩
          simpa [hgetq] using hget
        have hlive : q.live = true := by simp [hqr, Run.live, live_of_canTransition hcan]
        refine ⟨rfl, rfl, rfl, rfl, rfl, fun _ => hlive, ?_, fun _ => rfl⟩
        intro hover
        rw [hlive] at hover
        cases hover
      · simpa [hcan] using Db.Ends.refl db

section Finish

variable (drivers : RunId → TeardownReplies) (now : Time)

theorem finishRow_ends (db : Db) (id : RunId) (status : RunStatus) (error : String) :
    Db.Ends db (finishRow drivers now db id status error).state := by
  unfold finishRow
  split
  · exact Db.Ends.refl db
  · refine Ran.andThen_preserves (I := Db.Ends db) ?_ ?_
    · exact (stampFinished_ends db id now error _).trans (transition_ends _ id status)
    · intro db' hdb'
      rw [Ran.done_state]
      split_ifs
      · exact hdb'.trans (releaseRunMachines_ends db' _)
      · exact hdb'

/-- The rows a legal `_finish` leaves. -/
theorem finishRow_runs {db : Db} {id : RunId} {r : Run} {target : RunStatus} (error : String)
    (hget : db.runs.get? id = some r) (hcan : canTransition r.status target = true) :
    ∃ cleaned, (finishRow drivers now db id target error).state.runs =
      ((db.stampFinished id now error cleaned).moveRun id r.status target).runs := by
  refine ⟨r.kind.notOurs || beginTeardown (drivers id), ?_⟩
  rcases get?_stampFinished now error (r.kind.notOurs || beginTeardown (drivers id)) hget with
    ⟨r', hget', hstatus⟩
  have htransition : transition (db.stampFinished id now error
      (r.kind.notOurs || beginTeardown (drivers id))) id target =
      Ran.done ((db.stampFinished id now error
        (r.kind.notOurs || beginTeardown (drivers id))).moveRun id r.status target) := by
    simp [transition, hget', hstatus, hcan]
  simp only [finishRow, hget, htransition, Ran.andThen_done, Ran.done_state]
  split_ifs
  · rw [releaseRunMachines_runs]
  · rfl

/-- Failing a live run under a new class. -/
theorem failRow_ends {db : Db} {id : RunId} {r : Run} (failureClass error : String)
    (hget : db.runs.get? id = some r) (hlive : r.live = true) :
    Db.Ends db
      (finishRow drivers now (db.setFailureClass id failureClass) id .failed error).state := by
  have hget' := get?_setFailureClass failureClass hget
  rcases finishRow_runs drivers now error hget' (canTransition_of_live hlive).1 with ⟨cleaned, hruns⟩
  have hends := finishRow_ends drivers now (db.setFailureClass id failureClass) id .failed error
  refine @Db.Ends.of_modify _ _ id (fun q => { q with
    failureClass := failureClass
    teardownPending := q.teardownPending || !cleaned
    error := if error = "" then q.error else error
    finishedAt := some now
    status := .failed }) ?_ hends.candidates hends.campaigns hends.sessions ?_
  · rw [hruns]
    simp only [Db.moveRun, Db.stampFinished, Db.setFailureClass, Db.setRun, Table.rows_modify,
      List.map_map]
    refine List.map_congr_left fun q _ => ?_
    by_cases hid : q.id = id <;> simp [hid]
  · intro q hq hid
    have hqr : q = r := by
      have hgetq := Table.get?_eq_some_iff.mpr ⟨hq, hid⟩
      simpa [hgetq] using hget
    refine ⟨rfl, rfl, rfl, rfl, rfl, fun _ => hqr ▸ hlive, ?_, fun hnot => absurd rfl hnot⟩
    intro hover
    rw [hqr, hlive] at hover
    cases hover

theorem stopBenchmark_ends (launch : Run) {db : Db} {bench : RunId} (hlive : db.isLive bench = true) :
    Db.Ends db (stopBenchmark drivers now launch bench db).state := by
  rcases isLive_iff.mp hlive with ⟨b, hb, hid, hl⟩
  have hget : db.runs.get? bench = some b := Table.get?_eq_some_iff.mpr ⟨hb, hid⟩
  unfold stopBenchmark
  split_ifs
  · exact failRow_ends drivers now _ _ hget hl
  · exact finishRow_ends drivers now db bench _ _

/-- The benchmarks still to be stopped are live when their turn comes. -/
theorem forEach_stopBenchmark_ends (launch : Run) {l : List RunId} (hnd : l.Nodup) {db : Db}
    (hlive : ∀ b ∈ l, db.isLive b = true) :
    Db.Ends db (Ran.forEach (stopBenchmark drivers now launch) l db).state := by
  induction l generalizing db with
  | nil => exact Db.Ends.refl db
  | cons b l ih =>
      rw [List.nodup_cons] at hnd
      have hb := stopBenchmark_live drivers now launch (hlive b List.mem_cons_self)
      rw [Ran.forEach_cons, Ran.andThen_of_returned hb.1]
      refine (stopBenchmark_ends drivers now launch (hlive b List.mem_cons_self)).trans (ih hnd.2 ?_)
      intro c hc
      have hne : c ≠ b := by
        rintro rfl
        exact hnd.1 hc
      rw [hb.2 c, if_neg hne]
      exact hlive c (List.mem_cons_of_mem b hc)

theorem stopBenchmarksOf_ends (db : Db) (launch : RunId) :
    Db.Ends db (stopBenchmarksOf drivers now db launch).state := by
  unfold stopBenchmarksOf
  split
  · exact Db.Ends.refl db
  · refine forEach_stopBenchmark_ends drivers now _ (liveBenchmarksOf_nodup db launch) ?_
    intro b hb
    rcases mem_liveBenchmarksOf.mp hb with ⟨r, hr, hid, -, hlive⟩
    exact isLive_iff.mpr ⟨r, hr, hid, hlive⟩

/-- What `_finish` does after the row itself. -/
theorem finish_ends_of_row {db : Db} {db₀ : Db} {id : RunId} {status : RunStatus} {error : String}
    (hrow : Db.Ends db₀ (finishRow drivers now db id status error).state) :
    Db.Ends db₀ (finish drivers now db id status error).state := by
  refine Ran.andThen_preserves (I := Db.Ends db₀) hrow ?_
  intro db' hdb'
  split
  · exact hdb'
  · split_ifs
    · exact hdb'.trans (stopBenchmarksOf_ends drivers now db' id)
    · exact hdb'

theorem finish_ends (db : Db) (id : RunId) (status : RunStatus) (error : String) :
    Db.Ends db (finish drivers now db id status error).state :=
  finish_ends_of_row drivers now (finishRow_ends drivers now db id status error)

/-- A run `_finish` ends is left in the status asked for, under the failure class it had. -/
theorem finish_outcome {db : Db} {id : RunId} {r : Run} {target : RunStatus} (error : String)
    (hget : db.runs.get? id = some r) (hcan : canTransition r.status target = true)
    (hterm : target.terminal = true) {r' : Run}
    (hr' : r' ∈ (finish drivers now db id target error).state.runs.rows) (hid : r'.id = id) :
    r'.status = target ∧ r'.failureClass = r.failureClass := by
  have hrow : ∀ q ∈ (finishRow drivers now db id target error).state.runs.rows, q.id = id →
      q.status = target ∧ q.failureClass = r.failureClass := by
    rcases finishRow_runs drivers now error hget hcan with ⟨cleaned, hruns⟩
    rw [hruns]
    intro q hq hqid
    rcases Db.mem_moveRun.mp hq with ⟨q₁, hq₁, rfl⟩
    rcases Db.mem_setRun.mp hq₁ with ⟨q₀, hq₀, rfl⟩
    have hqr : q₀.id = id → q₀.failureClass = r.failureClass := by
      intro hid₀
      rw [Table.get?_eq_some_iff.mpr ⟨hq₀, hid₀⟩] at hget
      rw [Option.some.inj hget]
    by_cases hid₀ : q₀.id = id
    · simp [hid₀, hqr hid₀]
    · simp [hid₀] at hqid
  -- what follows the row leaves a finished run as it is
  have hrest : Db.Ends (finishRow drivers now db id target error).state
      (finish drivers now db id target error).state := by
    rw [finish, Ran.andThen_of_returned (finishRow_legal drivers now error hget hcan).1]
    split
    · exact Db.Ends.refl _
    · split_ifs
      · exact stopBenchmarksOf_ends drivers now _ id
      · exact Db.Ends.refl _
  rcases hrest.exists_run hr' with ⟨q, hq, hqr⟩
  rcases hrow q hq (hqr.id.symm.trans hid) with ⟨hstatus, hclass⟩
  have hover : q.live = false := by simp [Run.live, hstatus, hterm]
  exact ⟨(hqr.ended hover).1.trans hstatus, (hqr.ended hover).2.trans hclass⟩

/-- `_fail` of a live run, before its candidate is looked at. -/
theorem failing_ends {db : Db} {id : RunId} {r : Run} (failureClass error : String)
    (hget : db.runs.get? id = some r) (hlive : r.live = true) :
    Db.Ends db (finish drivers now (db.setFailureClass id failureClass) id .failed error).state :=
  finish_ends_of_row drivers now (failRow_ends drivers now failureClass error hget hlive)

end Finish

section Reap

variable (replies : RunId → ReapReplies) (clock : TeardownClock) (now : Time)

/-- Teardown flags say nothing about how a run ended. -/
theorem setTeardown_ends (db : Db) (id : RunId) (pending : Run → Bool) (attempts : Run → Nat) :
    Db.Ends db (db.setRun id fun r =>
      { r with teardownPending := pending r, teardownAttempts := attempts r }) :=
  Db.Ends.setRun fun _ _ _ => ⟨rfl, rfl, rfl, rfl, rfl, fun h => h, fun _ => ⟨rfl, rfl⟩, fun _ => rfl⟩

theorem reapTeardown_ends (db : Db) (id : RunId) :
    Db.Ends db (reapTeardown replies clock now db id) := by
  unfold reapTeardown
  split
  · exact Db.Ends.refl db
  · rename_i r hget
    split
    · exact Db.Ends.refl db
    · split_ifs
      · simp only [confirmTeardown, hget]
        exact (setTeardown_ends db id _ Run.teardownAttempts).trans (releaseRunMachines_ends _ _)
      · exact Db.Ends.refl db
    · split_ifs
      · refine Db.Ends.trans ?_ (setTeardown_ends _ id _ Run.teardownAttempts)
        exact Db.Ends.foldl (f := quarantineMachine) (fun _ _ => Db.Ends.of_rows rfl rfl rfl rfl) _ db
      · split
        · exact Db.Ends.refl db
        · exact setTeardown_ends db id Run.teardownPending _
      · exact Db.Ends.refl db

theorem reapTeardowns_ends (db : Db) : Db.Ends db (reapTeardowns replies clock now db) :=
  Db.Ends.foldl (reapTeardown_ends replies clock now) _ db

end Reap

end AutoTune
