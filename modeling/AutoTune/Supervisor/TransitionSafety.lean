import AutoTune.Lib.Sweep
import AutoTune.Supervisor.RunHistory
import AutoTune.Supervisor.Steps

/-!
# Which loops can meet a run that is already over

A loop over live runs read at its start may reach a benchmark its launch has ended in the meantime.
The stop-request loop looks again and the advance loop does nothing to a finished benchmark; the
other three go wrong exactly when a benchmark stands behind its launch in the list they walk.
-/

namespace AutoTune

open Lib

/-- In this list, no benchmark stands behind the launch it ends with. -/
def LaunchesLast (db : Db) (l : List RunId) : Prop :=
  l.Pairwise fun a b => ¬ db.dragsDown a b = true

/-! ## Killing a list of live runs -/

/-- Killing runs is a sweep: `_finish` succeeds on live runs, raises on finished ones, and a launch
drags its benchmarks down. -/
def killing (drivers : RunId → TeardownReplies) (clock : RunId → Time) (why : RunId → String)
    (db₀ : Db) : Stopping Db RunId IllegalTransition where
  stop id db := finish drivers (clock id) db id .killed (why id)
  item id := ∃ r ∈ db₀.runs.rows, r.id = id
  up db id := db.isLive id = true
  drags a b := db₀.dragsDown a b = true
  inv db := Db.Settles db₀ db
  inv_stop := by
    intro db id hset hlive
    refine hset.trans (finish_settles drivers (clock id) ?_ _ _)
    intro r hr hid
    rcases isLive_iff.mp hlive with ⟨q, hq, hqid, hl⟩
    left
    rw [Table.eq_of_key_eq hr hq (hid.trans hqid.symm)]
    exact hl
  stop_up := by
    intro db id _ hlive
    rcases isLive_iff.mp hlive with ⟨r, hr, hid, hl⟩
    exact (finish_legal drivers (clock id) _ (Table.get?_eq_some_iff.mpr ⟨hr, hid⟩) (canTransition_of_live hl).2 rfl).1
  stop_down := by
    intro db id hset hitem hdown
    rcases hitem with ⟨r₀, hr₀, hid₀⟩
    rcases hset.exists_run' hr₀ with ⟨r, hr, hrr⟩
    have hget : db.runs.get? id = some r :=
      Table.get?_eq_some_iff.mpr ⟨hr, hrr.id.trans hid₀⟩
    have hterm : r.status.terminal = true := by
      rw [isLive_of_get? hget] at hdown
      simpa [Run.live] using hdown
    rw [finish_illegal drivers (clock id) _ _ hget hterm]
    simp
  up_stop := by
    intro db id j hset hlive
    rcases isLive_iff.mp hlive with ⟨r, hr, hid, hl⟩
    have h := (finish_legal drivers (clock id) (why id)
      (Table.get?_eq_some_iff.mpr ⟨hr, hid⟩) (canTransition_of_live hl).2 rfl).2 j
    rw [h, dragsDown_settles hset]
    simp [and_assoc]

theorem nodup_arranged {db : Db} {rows : List Run} (hsub : rows.Sublist db.runs.rows)
    (order : RowOrder RunId) : (order.arrange (rows.map Run.id)).Nodup :=
  (order.perm _).nodup_iff.mpr (db.runs.nodup.sublist (hsub.map _))

/-- Killing the live runs of a query, in the order it lists them, returns exactly when no benchmark
is listed behind its launch. -/
theorem killing_returns_iff (drivers : RunId → TeardownReplies) (clock : RunId → Time)
    (why : RunId → String) {db : Db} {rows : List Run} (hsub : rows.Sublist db.runs.rows)
    (hlive : ∀ r ∈ rows, r.live = true) (order : RowOrder RunId) (sel : RunId → Bool) :
    (Ran.forEach (killing drivers clock why db).stop
      ((order.arrange (rows.map Run.id)).filter sel) db).raised = none ↔
      LaunchesLast db ((order.arrange (rows.map Run.id)).filter sel) := by
  have hrow : ∀ id ∈ (order.arrange (rows.map Run.id)).filter sel,
      ∃ r ∈ db.runs.rows, r.id = id ∧ r.live = true := by
    intro id hid
    have := (order.perm _).mem_iff.mp (List.mem_of_mem_filter hid)
    rcases List.mem_map.mp this with ⟨r, hr, rfl⟩
    exact ⟨r, hsub.subset hr, rfl, hlive r hr⟩
  refine (killing drivers clock why db).returns_iff (Db.Settles.refl db) ?_
    ((nodup_arranged hsub order).filter _) ?_
  · intro id hid
    rcases hrow id hid with ⟨r, hr, h, _⟩
    exact ⟨r, hr, h⟩
  · intro id hid
    exact isLive_iff.mpr (hrow id hid)

theorem windowOver_settles {db db' : Db} (h : Db.Settles db db') (now : Time) (id : RunId) :
    db'.windowOver now id = db.windowOver now id := by
  have hcampaign : (db'.runs.get? id).bind db'.campaignOf = (db.runs.get? id).bind db.campaignOf := by
    cases hget : db.runs.get? id with
    | none =>
        have : db'.runs.get? id = none := by
          rw [Table.get?_eq_none_iff] at hget ⊢
          intro r' hr'
          rcases h.exists_run hr' with ⟨r, hr, hrr⟩
          rw [hrr.id]
          exact hget r hr
        simp [this]
    | some r =>
        rcases Table.get?_eq_some_iff.mp hget with ⟨hr, hid⟩
        rcases h.exists_run' hr with ⟨r', hr', hrr⟩
        have : db'.runs.get? id = some r' := Table.get?_eq_some_iff.mpr ⟨hr', hrr.id.trans hid⟩
        simp [this, Db.campaignOf, hrr.campaignId, h.campaigns]
  simp [Db.windowOver, hcampaign]

/-! ## The three loops that do not look again -/

section Loops

variable (drivers : RunId → TeardownReplies)

/-- The runs `_enforce_windows` ends, in the order it meets them. -/
def windowVictims (clock : RunId → Time) (order : RowOrder RunId) (db : Db) : List RunId :=
  (order.arrange (db.liveRuns.map Run.id)).filter fun id => db.windowOver (clock id) id

theorem enforceWindows_returns_iff (clock : RunId → Time) (why : RunId → String)
    (order : RowOrder RunId) (db : Db) :
    (enforceWindows drivers clock why order db).raised = none ↔
      LaunchesLast db (windowVictims clock order db) := by
  have hfilter : enforceWindows drivers clock why order db =
      Ran.forEach (killing drivers clock why db).stop (windowVictims clock order db) db := by
    unfold enforceWindows windowVictims
    refine (killing drivers clock why db).forEach_filter ?_ ?_ (Db.Settles.refl db)
    · intro id db' hset
      rw [windowOver_settles hset]
      rfl
    · intro id hid
      have := (order.perm _).mem_iff.mp hid
      rcases List.mem_map.mp this with ⟨r, hr, hrid⟩
      exact ⟨r, (Db.mem_liveRuns.mp hr).1, hrid⟩
  rw [hfilter]
  exact killing_returns_iff drivers clock why List.filter_sublist (fun r hr => (Db.mem_liveRuns.mp hr).2) order _

/-- The runs an eager drain ends: none while a session lives on the machine, or while it waits. -/
def drainVictims (now : Time) (order : RowOrder RunId) (db : Db) (m : Machine) : List RunId :=
  if (db.liveSessionsOn m.id).isEmpty && drainKillsRunning m now then
    order.arrange ((db.liveRunsOn m.id).map Run.id)
  else []

theorem advanceDrain_returns_iff (now : Time) (sessions : RowOrder PolicySession)
    (order : RowOrder RunId) (db : Db) (m : Machine) :
    (advanceDrain drivers now sessions order db m).raised = none ↔
      LaunchesLast db (drainVictims now order db m) := by
  have hnone : LaunchesLast db [] := List.Pairwise.nil
  unfold advanceDrain drainVictims
  cases hs : sessions.arrange (db.liveSessionsOn m.id) with
  | cons s rest =>
      have hne : (db.liveSessionsOn m.id).isEmpty = false := by
        have hperm := sessions.perm (db.liveSessionsOn m.id)
        rw [hs] at hperm
        have : db.liveSessionsOn m.id ≠ [] := by
          intro he
          rw [he] at hperm
          exact absurd hperm.eq_nil (by simp)
        simpa using this
      simp [hne, hnone]
  | nil =>
      have he : (db.liveSessionsOn m.id).isEmpty = true := by
        have hperm := sessions.perm (db.liveSessionsOn m.id)
        rw [hs] at hperm
        simpa using hperm.nil_eq.symm
      simp only [he, Bool.true_and]
      by_cases hkill : drainKillsRunning m now = true
      · rw [if_pos hkill]
        by_cases hlive : ((db.liveRunsOn m.id).map Run.id).isEmpty = true
        · have hlive' : (db.liveRunsOn m.id).map Run.id = [] := by
            simpa using hlive
          have harr : order.arrange [] = [] := (order.perm []).eq_nil
          simp [hlive', harr, hnone]
        · have hsweep := killing_returns_iff drivers (fun _ => now) (fun _ => "lease ended")
            (List.filter_sublist : (db.liveRunsOn m.id).Sublist db.runs.rows) (fun r hr => (Db.mem_liveRunsOn.mp hr).2.1) order (fun _ => true)
          rw [List.filter_eq_self.mpr fun _ _ => rfl] at hsweep
          rw [if_pos (by simpa using hlive), if_neg (by simp [hkill])]
          exact hsweep
      · rw [if_neg hkill]
        by_cases hlive : ((db.liveRunsOn m.id).map Run.id).isEmpty = true
        · simp [hlive, hnone]
        · simp [hlive, hkill, hnone]

theorem killSessionRuns_returns_iff (now : Time) (order : RowOrder RunId) (session : SessionId)
    (reason : String) (db : Db) :
    (killSessionRuns drivers now order session reason db).raised = none ↔
      LaunchesLast db (order.arrange ((db.liveRunsOfSession session).map Run.id)) := by
  have hlive : ∀ r ∈ db.liveRunsOfSession session, r.live = true := by
    intro r hr
    have := (List.mem_filter.mp hr).2
    simp only [Bool.and_eq_true] at this
    exact this.2
  have hsweep := killing_returns_iff drivers (fun _ => now) (fun _ => reason)
    (List.filter_sublist : (db.liveRunsOfSession session).Sublist db.runs.rows) hlive order (fun _ => true)
  rw [List.filter_eq_self.mpr fun _ _ => rfl] at hsweep
  exact hsweep

/-! ## The two loops that do -/

theorem requeueIfInfrastructure_runs (db : Db) (id : RunId) :
    (requeueIfInfrastructure db id).runs = db.runs := by
  unfold requeueIfInfrastructure
  split
  · rfl
  · dsimp only
    split_ifs <;> rfl

theorem requeueIfInfrastructure_settles (db : Db) (id : RunId) :
    Db.Settles db (requeueIfInfrastructure db id) := by
  unfold requeueIfInfrastructure
  split
  · exact Db.Settles.refl db
  · dsimp only
    split_ifs
    all_goals first
      | exact Db.Settles.refl db
      | exact Db.Settles.setCandidate

/-- A legal move of one run: it returns, takes nothing, and ends nobody but the run itself and what
it drags down. -/
structure Moves (db : Db) (id : RunId) (x : Ran Db IllegalTransition) : Prop where
  returned : x.raised = none
  settles : Db.Settles db x.state
  others : ∀ j, j ≠ id → db.isLive j = true → x.state.isLive j = true ∨ db.dragsDown id j = true

theorem Moves.stay (db : Db) (id : RunId) : Moves db id (Ran.done db) where
  returned := rfl
  settles := Db.Settles.refl db
  others := fun _ _ h => Or.inl h

theorem Moves.transition {db : Db} {id : RunId} {r : Run} {target : RunStatus}
    (hget : db.runs.get? id = some r) (hcan : canTransition r.status target = true) :
    Moves db id (transition db id target) where
  returned := (transition_legal hget hcan).1
  settles := transition_settles db id target
  others := by
    intro j hj hlive
    rw [(transition_legal hget hcan).2 j, if_neg hj]
    exact Or.inl hlive

theorem Moves.finish (now : Time) (error : String) {db : Db} {id : RunId} {r : Run}
    {target : RunStatus} (hget : db.runs.get? id = some r) (hcan : canTransition r.status target = true)
    (hterm : target.terminal = true) : Moves db id (finish drivers now db id target error) where
  returned := (finish_legal drivers now error hget hcan hterm).1
  settles := by
    apply finish_settles drivers now
    intro q hq hqid
    rcases Table.get?_eq_some_iff.mp hget with ⟨hr, hid⟩
    left
    rw [Table.eq_of_key_eq hq hr (hqid.trans hid.symm)]
    simp [Run.live, live_of_canTransition hcan]
  others := by
    intro j hj hlive
    rw [(finish_legal drivers now error hget hcan hterm).2 j]
    cases hd : db.dragsDown id j
    · simp [hlive, hj]
    · simp

/-- A failure class written first makes no difference. -/
theorem Moves.of_setFailureClass {db : Db} {id : RunId} {failureClass : String}
    {x : Ran Db IllegalTransition} (h : Moves (db.setFailureClass id failureClass) id x) :
    Moves db id x where
  returned := h.returned
  settles := (setFailureClass_settles db id failureClass).trans h.settles
  others := by
    intro j hj hl
    have hother := h.others j hj (by rw [isLive_setFailureClass]; exact hl)
    rwa [dragsDown_settles (setFailureClass_settles db id failureClass)] at hother

/-- Nor does what is written to a candidate afterwards. -/
theorem Moves.andThen_done {db : Db} {id : RunId} {x : Ran Db IllegalTransition} {g : Db → Db}
    (h : Moves db id x) (hruns : ∀ db, (g db).runs = db.runs) (hg : ∀ db, Db.Settles db (g db)) :
    Moves db id (x.andThen fun db => Ran.done (g db)) := by
  rw [Ran.andThen_of_returned h.returned]
  refine ⟨rfl, h.settles.trans (hg _), ?_⟩
  intro j hj hl
  rw [Ran.done_state, Db.isLive, hruns]
  exact h.others j hj hl

theorem Moves.fail {now : Time} {db : Db} {id : RunId} {r : Run} {failureClass error : String}
    (hget : db.runs.get? id = some r) (hlive : r.live = true) :
    Moves db id (fail drivers now db id failureClass error) := by
  refine Moves.andThen_done ?_ (fun db => requeueIfInfrastructure_runs db id)
    (fun db => requeueIfInfrastructure_settles db id)
  exact Moves.of_setFailureClass (Moves.finish drivers now error
    (get?_setFailureClass failureClass hget) (canTransition_of_live hlive).1 rfl)

/-- Advancing a live run, or one that is over and not ours, is a legal move. -/
theorem advanceOne_moves {now : Time} {o : Observed} {db : Db} {id : RunId}
    (h : Finishable db id) : Moves db id (advanceOne drivers now o db id) := by
  cases hget : db.runs.get? id with
  | none =>
      simp only [advanceOne, hget]
      exact Moves.stay db id
  | some r =>
      rcases Table.get?_eq_some_iff.mp hget with ⟨hr, rfl⟩
      have hadvances := advanceOne_advances drivers now hget (o := o)
      generalize advanceOne drivers now o db r.id = x at hadvances ⊢
      cases hadvances with
      | stay => exact Moves.stay db r.id
      | move target hcan _ => exact Moves.transition hget hcan
      | succeed hcan => exact Moves.finish drivers now _ hget hcan rfl
      | fail failureClass error _ hlive =>
          -- a run that is over is failed only if it is ours, and then it was live all along
          rcases hlive with hlive | hours
          · exact Moves.fail drivers hget hlive
          · rcases h r hr rfl with hlive | hnot
            · exact Moves.fail drivers hget hlive
            · rw [hours] at hnot
              cases hnot

/-- A legal move of one run leaves every other run to be finished or looked at as before. -/
theorem Moves.finishable {db : Db} {id j : RunId} {x : Ran Db IllegalTransition} (h : Moves db id x)
    (hne : j ≠ id) (hj : Finishable db j) : Finishable x.state j := by
  intro r' hr' hid'
  rcases h.settles.exists_run hr' with ⟨r, hr, hrr⟩
  have hid : r.id = j := hrr.id.symm.trans hid'
  rw [hrr.kind]
  rcases hj r hr hid with hl | hk
  · rcases h.others j hne (isLive_iff.mpr ⟨r, hr, hid, hl⟩) with hlive | hdrag
    · rcases isLive_iff.mp hlive with ⟨q, hq, hqid, hql⟩
      left
      rw [Table.eq_of_key_eq hr' hq (hid'.trans hqid.symm)]
      exact hql
    · have hext : r.kind.isExternal = true := by
        have hget := Table.get?_eq_some_iff.mpr ⟨hr, hid⟩
        simp only [Db.dragsDown, hget, Bool.and_eq_true, Option.any_some, beq_iff_eq] at hdrag
        cases hk : r.kind <;> simp_all [Run.launchRunId, RunKind.isExternal]
      right
      cases hk : r.kind <;> simp_all [RunKind.isExternal, RunKind.notOurs]
  · exact Or.inr hk

theorem forEach_moves {f : RunId → Db → Ran Db IllegalTransition}
    (hf : ∀ id db, Finishable db id → Moves db id (f id db)) {l : List RunId} (hnd : l.Nodup)
    {db : Db} (hl : ∀ id ∈ l, Finishable db id) : (Ran.forEach f l db).raised = none := by
  induction l generalizing db with
  | nil => rfl
  | cons id l ih =>
      rw [List.nodup_cons] at hnd
      have h := hf id db (hl id List.mem_cons_self)
      rw [Ran.forEach_cons, Ran.andThen_of_returned h.returned]
      apply ih hnd.2
      intro j hj
      have hne : j ≠ id := by
        rintro rfl
        exact hnd.1 hj
      exact h.finishable hne (hl j (List.mem_cons_of_mem id hj))

/-- Loop rule: what each legal move keeps, a loop of them over distinct runs keeps. -/
theorem forEach_moves_preserves {I : Db → Prop} {f : RunId → Db → Ran Db IllegalTransition}
    (hf : ∀ id db, Finishable db id → Moves db id (f id db)) {l : List RunId}
    (hI : ∀ id ∈ l, ∀ db, Finishable db id → I db → I (f id db).state) (hnd : l.Nodup)
    {db : Db} (hl : ∀ id ∈ l, Finishable db id) (hdb : I db) : I (Ran.forEach f l db).state := by
  induction l generalizing db with
  | nil => exact hdb
  | cons id l ih =>
      rw [List.nodup_cons] at hnd
      have h := hf id db (hl id List.mem_cons_self)
      rw [Ran.forEach_cons, Ran.andThen_of_returned h.returned]
      refine ih (fun j hj => hI j (List.mem_cons_of_mem id hj)) hnd.2 ?_
        (hI id List.mem_cons_self db (hl id List.mem_cons_self) hdb)
      intro j hj
      have hne : j ≠ id := by
        rintro rfl
        exact hnd.1 hj
      exact h.finishable hne (hl j (List.mem_cons_of_mem id hj))

/-- The runs of a query for live runs may all be finished. -/
theorem finishable_of_live {db : Db} {rows : List Run} (hsub : rows.Sublist db.runs.rows)
    (hlive : ∀ r ∈ rows, r.live = true) (order : RowOrder RunId) :
    ∀ id ∈ order.arrange (rows.map Run.id), Finishable db id := by
  intro id hid r hr hrid
  rcases List.mem_map.mp ((order.perm _).mem_iff.mp hid) with ⟨q, hq, hqid⟩
  left
  rw [Table.eq_of_key_eq hr (hsub.subset hq) (hrid.trans hqid.symm)]
  exact hlive q hq

/-- `_advance_runs` never meets an illegal transition, whatever the order. -/
theorem advanceRuns_returns (clock : RunId → Time) (observed : RunId → Observed)
    (order : RowOrder RunId) (db : Db) :
    (advanceRuns drivers clock observed order db).raised = none := by
  exact forEach_moves (fun id db h => advanceOne_moves drivers h)
    (nodup_arranged List.filter_sublist order)
    (finishable_of_live List.filter_sublist (fun r hr => (Db.mem_liveRuns.mp hr).2) order)

theorem processStop_returns (now : Time) (e : StopRequest) (db : Db) :
    (processStop drivers now e db).raised = none := by
  unfold processStop
  cases hget : db.runs.get? e.runId with
  | none => rfl
  | some r =>
      dsimp only
      by_cases hterm : r.status.terminal = true
      · rw [if_pos hterm]
        rfl
      · rw [if_neg hterm]
        have hlive : r.live = true := by simpa [Run.live] using hterm
        rw [Ran.andThen_of_returned (finish_legal drivers now _ hget (canTransition_of_live hlive).2 rfl).1]
        split_ifs <;> rfl

/-- `_process_stop_requests` never meets an illegal transition, whatever the order. -/
theorem processStopRequests_returns (now : Time) (order : RowOrder StopRequest) (db : Db) :
    (processStopRequests drivers now order db).raised = none :=
  Ran.forEach_returns (processStop_returns drivers now) _ db

theorem advanceLease_keepsLegal (now : Time) (sessions : RowOrder PolicySession)
    (order : RowOrder RunId) (machine : MachineId) {db : Db} (h : Legal db) :
    Legal (advanceLease drivers now sessions order machine db).state := by
  have hexpire : Legal (expireLease now machine db) := by
    unfold expireLease
    split
    · exact h
    · split_ifs
      · exact h.of_same (SameHistory.of_runs rfl rfl)
      · exact h
  unfold advanceLease
  dsimp only
  split
  · exact hexpire
  · split_ifs
    · exact hexpire
    · -- a drain tells a session, kills runs, or writes the machine row
      unfold advanceDrain
      split
      · refine hexpire.of_same ?_
        unfold drainSession
        split_ifs <;> exact SameHistory.of_runs rfl rfl
      · dsimp only
        split_ifs
        · exact hexpire
        · exact hexpire.of_writes (killRuns_writes drivers _ _ _ _)
        · exact hexpire.of_same (SameHistory.of_runs rfl rfl)

end Loops

/-! ## Runs of the supervisor -/

namespace SupervisorStep

/-- In the list of runs the step is about to end, no benchmark stands behind its launch. -/
def Ordered (db : Db) : SupervisorStep → Prop
  | .enforceWindows _ clock _ order => LaunchesLast db (windowVictims clock order db)
  | .advanceLease _ now _ order machine =>
      ∀ m ∈ (expireLease now machine db).machines.get? machine, m.leaseState = .draining →
        LaunchesLast (expireLease now machine db)
          (drainVictims now order (expireLease now machine db) m)
  | .killSessionRuns _ _ order session _ =>
      LaunchesLast db (order.arrange ((db.liveRunsOfSession session).map Run.id))
  | _ => True

/-- A step meets no illegal transition exactly when the list it walks is in order. -/
theorem returns_iff (db : Db) (s : SupervisorStep) : (s.run db).raised = none ↔ s.Ordered db := by
  cases s with
  | enforceWindows drivers clock why order =>
      exact enforceWindows_returns_iff drivers clock why order db
  | advanceLease drivers now sessions order machine =>
      simp only [run, Ordered, AutoTune.advanceLease]
      cases (expireLease now machine db).machines.get? machine with
      | none => simp
      | some m =>
          dsimp only
          by_cases hd : m.leaseState = .draining
          · rw [if_neg (by simp [hd])]
            simpa [hd] using advanceDrain_returns_iff drivers now sessions order _ m
          · rw [if_pos hd]
            simp [hd]
  | processStopRequests drivers now order =>
      simpa [run, Ordered] using processStopRequests_returns drivers now order db
  | advanceRuns drivers clock observed order =>
      simpa [run, Ordered] using advanceRuns_returns drivers clock observed order db
  | killSessionRuns drivers now order session reason =>
      exact killSessionRuns_returns_iff drivers now order session reason db
  | reapTeardowns drivers clock now => simp [run, Ordered]
  | schedule row => simp [run, Ordered]
  | lease call => simp [run, Ordered]
  | outside machines campaigns candidates sessions stopRequests => simp [run, Ordered]

theorem schedule_keepsLegal {db : Db} {row : Run} (hlive : row.live = true) (h : Legal db) :
    Legal { db with runs := db.runs.insert fun id => { row with id := id } } where
  known := by
    intro e he
    rcases h.known e he with ⟨r, hr, hid⟩
    exact ⟨r, List.mem_append_left _ hr, hid⟩
  walk := by
    intro r hr
    rcases List.mem_append.mp hr with hr | hr
    · exact h.walk r hr
    · -- no event names the new run yet
      have hr' : r = { row with id := db.runs.nextKey } := by simpa using hr
      have hnone : db.transitions.filter (fun e => e.runId == db.runs.nextKey) = [] := by
        rw [List.filter_eq_nil_iff]
        intro e he heq
        rcases h.known e he with ⟨q, hq, hid⟩
        have hlt := Table.key_lt_nextKey hq
        have hkey : e.runId = db.runs.nextKey := by simpa using heq
        rw [hid, hkey] at hlt
        exact absurd hlt (Nat.lt_irrefl _)
      refine ⟨row.status, by simpa [Run.live] using hlive, ?_⟩
      simp [hr', Db.historyOf, hnone, walks]

/-- Every step keeps histories legal. -/
theorem run_keepsLegal (s : SupervisorStep) {db : Db} (h : Legal db) : Legal (s.run db).state := by
  cases s with
  | enforceWindows drivers clock why order =>
      exact h.of_writes (enforceWindows_writes drivers clock why order db)
  | advanceLease drivers now sessions order machine =>
      exact advanceLease_keepsLegal drivers now sessions order machine h
  | processStopRequests drivers now order =>
      exact h.of_writes (processStopRequests_writes drivers now order db)
  | advanceRuns drivers clock observed order =>
      exact h.of_writes (advanceRuns_writes drivers clock observed order db)
  | killSessionRuns drivers now order session reason =>
      exact h.of_writes (killSessionRuns_writes drivers now order session reason db)
  | reapTeardowns drivers clock now =>
      exact h.of_writes (reapTeardowns_writes drivers clock now db)
  | schedule row =>
      simp only [run, Ran.done_state]
      split_ifs with hlive
      · exact schedule_keepsLegal hlive h
      · exact h
  | lease call =>
      exact h.of_same (SameHistory.of_runs (call.apply_runs db).2 (call.apply_runs db).1)
  | outside machines campaigns candidates sessions stopRequests =>
      simp only [run, Ran.done_state]
      split_ifs
      · exact h.of_same (SameHistory.of_runs rfl rfl)
      · exact h

theorem apply_keepsLegal (s : SupervisorStep) {db : Db} (h : Legal db) : Legal (s.apply db) :=
  s.apply_preserves h (s.run_keepsLegal h)

end SupervisorStep

/-- A step meets no illegal transition exactly when no benchmark stands behind its launch in the
list it walks. In every run of such steps no `_finish` reaches a run that is over (it would raise),
every run moves along `ALLOWED_TRANSITIONS` only, and it enters a terminal status at most once. -/
theorem supervisor_transitions_legal (db : Db) :
    (∀ s : SupervisorStep, (s.run db).raised = none ↔ s.Ordered db) ∧
      ∀ steps : List SupervisorStep, Legal db →
        Along SupervisorStep.apply (fun db s => s.Ordered db) db steps →
        Along SupervisorStep.apply (fun db s => (s.run db).raised = none) db steps ∧
          ∀ r ∈ (runFrom SupervisorStep.apply db steps).runs.rows,
            ∃ start, start.terminal = false ∧
              walks start ((runFrom SupervisorStep.apply db steps).historyOf r.id) = some r.status ∧
              terminalEvents ((runFrom SupervisorStep.apply db steps).historyOf r.id) =
                if r.status.terminal then 1 else 0 := by
  refine ⟨SupervisorStep.returns_iff db, ?_⟩
  intro steps hlegal hordered
  refine ⟨?_, ?_⟩
  · exact along_of_invariant (I := fun _ => True)
      (fun db s _ ho => ⟨trivial, (s.returns_iff db).mpr ho⟩) trivial hordered
  · intro r hr
    have hend : Legal (runFrom SupervisorStep.apply db steps) :=
      invariant_of_step (fun db s h => s.apply_keepsLegal h) hlegal steps
    rcases hend.walk r hr with ⟨start, hstart, hwalk⟩
    exact ⟨start, hstart, hwalk, terminalEvents_of_walks hstart hwalk⟩

/-- A policy campaign with its session searching; the window ends at 10. -/
def policyNight : Db where
  machines := .single { id := 1, name := "node-1", state := .reserved, leaseState := .active }
  campaigns := .single { id := 1, status := .active, policyId := some 1, windowEnd := some 10 }
  sessions := .single { id := 1, campaignId := 1, machineId := some 1, status := .searching,
                        gpuIndices := List.range 8 }

/-- Everything the outside is asked about goes well. -/
def allWell : Observed where
  crash := none
  launch := .launched
  attached := true
  state := .ready
  timedOut := false
  failure := ("", "")
  health := .passed
  unreachable := none
  readyTimedOut := false
  benchStart := .started
  bench := .running
  restarted := none

/-- The container goes at once. -/
def cleanTeardown : TeardownReplies where
  attach := .value true
  requestStop := .value ()
  isGone := .value true
  releaseLeftovers := .value true

/-- The policy launches an engine, it comes up, and the policy benchmarks it. -/
def launchAndBench : List SupervisorStep :=
  let tick := .advanceRuns (fun _ => cleanTeardown) (fun _ => 5) (fun _ => allWell) (RowOrder.byKey _)
  [.schedule { id := 0, campaignId := 1, candidateId := 1, machineId := some 1,
               kind := .policyLaunch, policySessionId := some 1, gpuIndices := [0] },
   tick, tick, tick,
   .schedule { id := 0, campaignId := 1, candidateId := 1, machineId := some 1,
               kind := .external (some 1), policySessionId := some 1, status := .healthCheck },
   tick]

/-- At the end of the window both the session's cutoff and `_enforce_windows` end the launch first,
meet the benchmark it took with it, and raise. -/
theorem launchAndBench_illegal :
    let db := runFrom SupervisorStep.apply policyNight launchAndBench
    ((SupervisorStep.enforceWindows (fun _ => cleanTeardown) (fun _ => 10) (fun _ => "window cutoff")
        (RowOrder.byKey _)).run db).raised = some ⟨2, .killed, .killed⟩ ∧
      ((SupervisorStep.killSessionRuns (fun _ => cleanTeardown) 10 (RowOrder.byKey _) 1
        "window cutoff").run db).raised = some ⟨2, .killed, .killed⟩ := by
  decide

/-- Rows listed newest first. -/
def RowOrder.newestFirst (α : Type) : RowOrder α := ⟨List.reverse, fun l => List.reverse_perm l⟩

/-- Listed the other way round, the same night ends both runs without an exception. -/
theorem supervisor_transitions_legal_newestFirst :
    let steps := launchAndBench ++
      [.enforceWindows (fun _ => cleanTeardown) (fun _ => 10) (fun _ => "window cutoff")
        (RowOrder.newestFirst _)]
    (runFrom SupervisorStep.apply policyNight steps).runs.rows.map Run.status =
        [.killed, .killed] ∧
      Along SupervisorStep.apply (fun db s => (s.run db).raised = none) policyNight steps := by
  refine ⟨by decide, ((supervisor_transitions_legal policyNight).2 _ ?_ ?_).1⟩
  · exact ⟨by simp [policyNight], by simp [policyNight]⟩
  · refine ⟨trivial, trivial, trivial, trivial, trivial, trivial, ?_, trivial⟩
    show List.Pairwise _ _
    decide

end AutoTune
