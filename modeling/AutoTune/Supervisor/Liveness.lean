import AutoTune.Supervisor.Settle

/-!
# Who is live after `_finish`

`_finish` of a live run never raises; it ends that run and, for a launch, the benchmarks that
measure it, and nobody else. `_finish` of a finished run always raises.
-/

namespace AutoTune

open Lib

/-- Is the run under this id live? -/
def Db.isLive (db : Db) (id : RunId) : Bool := (db.runs.get? id).any Run.live

/-- Does ending run `launch` end run `bench` with it? -/
def Db.dragsDown (db : Db) (launch bench : RunId) : Bool :=
  (db.runs.get? launch).any (fun l => l.kind == .policyLaunch) &&
    (db.runs.get? bench).any (fun b => b.launchRunId == some launch)

theorem isLive_iff {db : Db} {id : RunId} :
    db.isLive id = true ↔ ∃ r ∈ db.runs.rows, r.id = id ∧ r.live = true := by
  rw [Db.isLive, Option.any_eq_true]
  constructor
  · rintro ⟨r, hr, hl⟩
    rcases Table.get?_eq_some_iff.mp hr with ⟨hr, hid⟩
    exact ⟨r, hr, hid, hl⟩
  · rintro ⟨r, hr, hid, hl⟩
    exact ⟨r, Table.get?_eq_some_iff.mpr ⟨hr, hid⟩, hl⟩

theorem isLive_of_get? {db : Db} {id : RunId} {r : Run} (h : db.runs.get? id = some r) :
    db.isLive id = r.live := by
  simp [Db.isLive, h]

/-! ## Frames -/

theorem releaseMachineIfIdle_runs (db : Db) (id : MachineId) :
    (releaseMachineIfIdle db id).runs = db.runs := by
  unfold releaseMachineIfIdle
  split
  · rfl
  · split_ifs <;> rfl

theorem releaseRunMachines_runs (db : Db) (r : Run) : (releaseRunMachines db r).runs = db.runs := by
  unfold releaseRunMachines
  induction r.nodes.filterMap RunNode.machineId generalizing db with
  | nil => rfl
  | cons m l ih => exact (ih _).trans (releaseMachineIfIdle_runs db m)

/-- Rewriting a column other than the status changes nobody's liveness. -/
theorem isLive_setRun {db : Db} {id : RunId} {f : Run → Run} {hf : ∀ r, (f r).id = r.id}
    (hlive : ∀ r, (f r).live = r.live) (j : RunId) : (db.setRun id f hf).isLive j = db.isLive j := by
  rw [Db.isLive, Db.setRun, Table.get?_modify, Db.isLive]
  cases db.runs.get? j with
  | none => rfl
  | some r => by_cases h : j = id <;> simp [h, hlive]

theorem isLive_setFailureClass (db : Db) (id : RunId) (failureClass : String) (j : RunId) :
    (db.setFailureClass id failureClass).isLive j = db.isLive j := by
  apply isLive_setRun
  intro r
  rfl

theorem isLive_stampFinished (db : Db) (id : RunId) (now : Time) (error : String) (cleaned : Bool)
    (j : RunId) : (db.stampFinished id now error cleaned).isLive j = db.isLive j := by
  apply isLive_setRun
  intro r
  rfl

theorem get?_stampFinished (now : Time) (error : String) (cleaned : Bool) {db : Db} {id : RunId}
    {r : Run} (h : db.runs.get? id = some r) :
    ∃ r', (db.stampFinished id now error cleaned).runs.get? id = some r' ∧ r'.status = r.status := by
  rw [Db.stampFinished, Db.setRun_runs, Table.get?_modify_self, h]
  exact ⟨_, rfl, rfl⟩

theorem get?_setFailureClass (failureClass : String) {db : Db} {id : RunId} {r : Run}
    (h : db.runs.get? id = some r) :
    (db.setFailureClass id failureClass).runs.get? id = some { r with failureClass := failureClass } := by
  rw [Db.setFailureClass, Db.setRun_runs, Table.get?_modify_self, h]
  rfl

theorem dragsDown_settles {db db' : Db} (h : Db.Settles db db') (l b : RunId) :
    db'.dragsDown l b = db.dragsDown l b := by
  -- what is asked of either run is asked of its kind only
  have hget : ∀ j, ∀ p : Run → Bool, (∀ r r' : Run, r'.kind = r.kind → p r' = p r) →
      (db'.runs.get? j).any p = (db.runs.get? j).any p := by
    intro j p hp
    rw [Bool.eq_iff_iff, Option.any_eq_true, Option.any_eq_true]
    constructor
    · rintro ⟨r', hr', hpr⟩
      rcases Table.get?_eq_some_iff.mp hr' with ⟨hmem, hid⟩
      rcases h.exists_run hmem with ⟨r, hr, hrr⟩
      exact ⟨r, Table.get?_eq_some_iff.mpr ⟨hr, hrr.id.symm.trans hid⟩, hp r r' hrr.kind ▸ hpr⟩
    · rintro ⟨r, hr, hpr⟩
      rcases Table.get?_eq_some_iff.mp hr with ⟨hmem, hid⟩
      rcases h.exists_run' hmem with ⟨r', hr', hrr⟩
      exact ⟨r', Table.get?_eq_some_iff.mpr ⟨hr', hrr.id.trans hid⟩, (hp r r' hrr.kind).trans hpr⟩
  have hb := hget b (fun r => r.launchRunId == some l) fun r r' hk => by
    simp only [Run.launchRunId, hk]
  have hl := hget l (fun r => r.kind == .policyLaunch) fun r r' hk => by rw [hk]
  simp only [Db.dragsDown, hl, hb]

/-! ## `_finish`, one row -/

theorem transition_legal {db : Db} {id : RunId} {r : Run} {target : RunStatus}
    (hget : db.runs.get? id = some r) (hcan : canTransition r.status target = true) :
    (transition db id target).raised = none ∧
      ∀ j, (transition db id target).state.isLive j =
        if j = id then !target.terminal else db.isLive j := by
  simp only [transition, hget, hcan, if_true, Ran.done_raised, Ran.done_state, true_and]
  intro j
  rw [Db.isLive, Db.moveRun, Table.get?_modify]
  by_cases hj : j = id
  · subst hj
    simp [hget, Run.live]
  · cases h : db.runs.get? j <;> simp [hj, Db.isLive, h]

theorem finishRow_legal (drivers : RunId → TeardownReplies) (now : Time) (error : String) {db : Db}
    {id : RunId} {r : Run} {target : RunStatus} (hget : db.runs.get? id = some r)
    (hcan : canTransition r.status target = true) :
    (finishRow drivers now db id target error).raised = none ∧
      ∀ j, (finishRow drivers now db id target error).state.isLive j =
        if j = id then !target.terminal else db.isLive j := by
  set cleaned := r.kind.notOurs || beginTeardown (drivers id) with hcleaned
  rcases get?_stampFinished now error cleaned hget with
    ⟨r', hget', hstatus⟩
  have hstep := transition_legal hget' (hstatus ▸ hcan)
  have heq : finishRow drivers now db id target error =
      Ran.done (if cleaned then
        releaseRunMachines (transition (db.stampFinished id now error cleaned) id target).state r
        else (transition (db.stampFinished id now error cleaned) id target).state) := by
    simp only [finishRow, hget, ← hcleaned]
    rw [Ran.andThen_of_returned hstep.1]
  rw [heq]
  refine ⟨rfl, fun j => ?_⟩
  have hruns : ∀ db' : Db, (if cleaned then releaseRunMachines db' r else db').isLive j =
      db'.isLive j := by
    intro db'
    split_ifs
    · simp [Db.isLive, releaseRunMachines_runs]
    · rfl
  rw [Ran.done_state, hruns, hstep.2 j, isLive_stampFinished]

theorem finishRow_illegal (drivers : RunId → TeardownReplies) (now : Time) (error : String)
    {db : Db} {id : RunId} {r : Run} {target : RunStatus} (hget : db.runs.get? id = some r)
    (hcan : canTransition r.status target = false) :
    (finishRow drivers now db id target error).raised = some ⟨id, r.status, target⟩ := by
  set cleaned := r.kind.notOurs || beginTeardown (drivers id) with hcleaned
  rcases get?_stampFinished now error cleaned hget with
    ⟨r', hget', hstatus⟩
  have htrans : transition (db.stampFinished id now error cleaned) id target =
      Ran.raise (db.stampFinished id now error cleaned) ⟨id, r.status, target⟩ := by
    simp [transition, hget', hstatus, hcan]
  simp only [finishRow, hget, ← hcleaned, htrans, Ran.andThen_raise, Ran.raise_raised]

/-- Every live run may be failed or killed. -/
theorem canTransition_of_live {r : Run} (h : r.live = true) :
    canTransition r.status .failed = true ∧ canTransition r.status .killed = true := by
  cases hs : r.status <;> simp_all [Run.live, RunStatus.terminal] <;> decide

/-- A finished run goes nowhere. -/
theorem canTransition_terminal {current : RunStatus} (h : current.terminal = true)
    (target : RunStatus) :
    canTransition current target = false := by
  cases current <;> simp_all [RunStatus.terminal, canTransition, allowedTransitions]

/-! ## `_finish` -/

section Finish

variable (drivers : RunId → TeardownReplies) (now : Time)

theorem stopBenchmark_live (launch : Run) {db : Db} {bench : RunId} (hlive : db.isLive bench = true) :
    (stopBenchmark drivers now launch bench db).raised = none ∧
      ∀ j, (stopBenchmark drivers now launch bench db).state.isLive j =
        if j = bench then false else db.isLive j := by
  rcases isLive_iff.mp hlive with ⟨b, hb, hid, hl⟩
  have hget : db.runs.get? bench = some b := Table.get?_eq_some_iff.mpr ⟨hb, hid⟩
  have hcan := canTransition_of_live hl
  unfold stopBenchmark
  split_ifs
  · have hget' := get?_setFailureClass (inheritedClass launch) hget
    have h := finishRow_legal drivers now (stoppedWithLaunch launch) hget' hcan.1
    refine ⟨h.1, fun j => ?_⟩
    rw [h.2 j, isLive_setFailureClass]
    rfl
  · exact finishRow_legal drivers now _ hget hcan.2

/-- Stopping live runs one by one ends those and no others. -/
theorem forEach_stopBenchmark (launch : Run) {l : List RunId} (hnd : l.Nodup) {db : Db}
    (hlive : ∀ b ∈ l, db.isLive b = true) :
    (Ran.forEach (stopBenchmark drivers now launch) l db).raised = none ∧
      ∀ j, (Ran.forEach (stopBenchmark drivers now launch) l db).state.isLive j =
        (db.isLive j && !l.contains j) := by
  induction l generalizing db with
  | nil => simp
  | cons b l ih =>
      rw [List.nodup_cons] at hnd
      have hb := stopBenchmark_live drivers now launch (hlive b List.mem_cons_self)
      have hrest : ∀ c ∈ l, (stopBenchmark drivers now launch b db).state.isLive c = true := by
        intro c hc
        have hne : c ≠ b := by
          rintro rfl
          exact hnd.1 hc
        rw [hb.2 c, if_neg hne]
        exact hlive c (List.mem_cons_of_mem b hc)
      rw [Ran.forEach_cons, Ran.andThen_of_returned hb.1]
      refine ⟨(ih hnd.2 hrest).1, fun j => ?_⟩
      rw [(ih hnd.2 hrest).2 j, hb.2 j]
      by_cases hj : j = b <;> simp [hj]

theorem mem_liveBenchmarksOf {db : Db} {launch bench : RunId} :
    bench ∈ liveBenchmarksOf db launch ↔
      ∃ b ∈ db.runs.rows, b.id = bench ∧ b.launchRunId = some launch ∧ b.live = true := by
  simp only [liveBenchmarksOf, List.mem_map, List.mem_filter, Bool.and_eq_true, beq_iff_eq]
  constructor
  · rintro ⟨b, ⟨hb, hl, hlive⟩, hid⟩
    exact ⟨b, hb, hid, hl, hlive⟩
  · rintro ⟨b, hb, hid, hl, hlive⟩
    exact ⟨b, ⟨hb, hl, hlive⟩, hid⟩

theorem liveBenchmarksOf_nodup (db : Db) (launch : RunId) : (liveBenchmarksOf db launch).Nodup :=
  db.runs.nodup.sublist (List.filter_sublist.map _)

theorem stopBenchmarksOf_live {db : Db} {launch : RunId} {l : Run}
    (hget : db.runs.get? launch = some l) :
    (stopBenchmarksOf drivers now db launch).raised = none ∧
      ∀ j, (stopBenchmarksOf drivers now db launch).state.isLive j =
        (db.isLive j && !(liveBenchmarksOf db launch).contains j) := by
  simp only [stopBenchmarksOf, hget]
  apply forEach_stopBenchmark drivers now l (liveBenchmarksOf_nodup db launch)
  intro b hb
  rcases mem_liveBenchmarksOf.mp hb with ⟨r, hr, hid, _, hlive⟩
  exact isLive_iff.mpr ⟨r, hr, hid, hlive⟩

/-- `_finish` of a run that may reach `target` ends it and what it drags down, and nothing else. -/
theorem finish_legal (error : String) {db : Db} {id : RunId} {r : Run} {target : RunStatus}
    (hget : db.runs.get? id = some r) (hcan : canTransition r.status target = true)
    (hterm : target.terminal = true) :
    (finish drivers now db id target error).raised = none ∧
      ∀ j, (finish drivers now db id target error).state.isLive j =
        (db.isLive j && j != id && !db.dragsDown id j) := by
  have hlive : r.live = true := by simp [Run.live, live_of_canTransition hcan]
  rcases Table.get?_eq_some_iff.mp hget with ⟨hr, hid⟩
  have hfin : Finishable db id := by
    intro q hq hqid
    left
    rw [Table.eq_of_key_eq hq hr (hqid.trans hid.symm)]
    exact hlive
  have hrow := finishRow_legal drivers now error hget hcan
  have hset := finishRow_settles drivers now hfin target error
  set db₁ := (finishRow drivers now db id target error).state with hdb₁
  rcases hset.exists_run' hr with ⟨r₁, hr₁, hrr⟩
  have hget₁ : db₁.runs.get? id = some r₁ :=
    Table.get?_eq_some_iff.mpr ⟨hr₁, hrr.id.trans hid⟩
  have heq : finish drivers now db id target error =
      if r₁.kind = .policyLaunch then stopBenchmarksOf drivers now db₁ id else Ran.done db₁ := by
    rw [finish, Ran.andThen_of_returned hrow.1]
    simp only [← hdb₁, hget₁]
  rw [heq, hrr.kind]
  by_cases hk : r.kind = .policyLaunch
  · rw [if_pos hk]
    have hstop := stopBenchmarksOf_live drivers now hget₁
    refine ⟨hstop.1, fun j => ?_⟩
    rw [hstop.2 j, hrow.2 j]
    by_cases hj : j = id
    · simp [hj, hterm]
    · by_cases hjl : db.isLive j = true
      · have hmem : (liveBenchmarksOf db₁ id).contains j = db.dragsDown id j := by
          rw [← dragsDown_settles hset, Bool.eq_iff_iff, List.contains_iff_mem, mem_liveBenchmarksOf]
          have hlive₁ : db₁.isLive j = true := by rw [hrow.2 j, if_neg hj]; exact hjl
          constructor
          · rintro ⟨b, hb, hbid, hbl, _⟩
            have hgb := Table.get?_eq_some_iff.mpr ⟨hb, hbid⟩
            simp [Db.dragsDown, hget₁, hrr.kind, hk, hgb, hbl]
          · intro hd
            rcases isLive_iff.mp hlive₁ with ⟨b, hb, hbid, hbl⟩
            have hgb := Table.get?_eq_some_iff.mpr ⟨hb, hbid⟩
            simp only [Db.dragsDown, hgb, Bool.and_eq_true, Option.any_some, beq_iff_eq] at hd
            exact ⟨b, hb, hbid, hd.2, hbl⟩
        have hne : (j != id) = true := by simpa using hj
        rw [if_neg hj, hmem, hne, Bool.and_true]
      · simp [hj, hjl]
  · rw [if_neg hk]
    refine ⟨rfl, fun j => ?_⟩
    have hdrag : db.dragsDown id j = false := by simp [Db.dragsDown, hget, hk]
    rw [Ran.done_state, hrow.2 j, hdrag]
    by_cases hj : j = id <;> simp [hj, hterm]

/-- `_finish` of a finished run raises. -/
theorem finish_illegal (target : RunStatus) (error : String) {db : Db} {id : RunId} {r : Run}
    (hget : db.runs.get? id = some r) (hterm : r.status.terminal = true) :
    (finish drivers now db id target error).raised = some ⟨id, r.status, target⟩ := by
  have h := finishRow_illegal drivers now error hget (canTransition_terminal hterm target)
  rw [finish, Ran.andThen_of_raised h, h]

end Finish

end AutoTune
