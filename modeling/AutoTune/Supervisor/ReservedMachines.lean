import AutoTune.Supervisor.HandBack
import AutoTune.Supervisor.Retries

/-!
# Reserved machines are held

A machine is RESERVED while somebody stands on it. Three paths offer machines back, each of them every
machine its run or session was on: a run that finishes, a teardown that is confirmed and a session that
ends. The janitor's fourth path, giving a teardown up, offers nothing back: it quarantines the machines
that are stuck.
-/

namespace AutoTune

open Lib

/-- No machine is RESERVED for nothing: somebody is on it, or it was quarantined. -/
def Db.Held (db : Db) : Prop :=
  ∀ m ∈ db.machines.rows, m.state = .reserved → ¬ db.Vacant m.id ∨ m.needsAttention = true

/-- The same, of every machine but those about to be offered back. -/
def Db.HeldBut (offered : List MachineId) (db : Db) : Prop :=
  ∀ m ∈ db.machines.rows, m.state = .reserved → m.id ∉ offered →
    ¬ db.Vacant m.id ∨ m.needsAttention = true

instance (db : Db) : Decidable db.Held := by
  unfold Db.Held
  infer_instance

/-- The machines a run is on, which `_release_run_machines` offers back. -/
def Run.members (r : Run) : List MachineId := r.nodes.filterMap RunNode.machineId

theorem Run.mem_members {r : Run} {m : MachineId} : m ∈ r.members ↔ r.onMachine m = true := by
  simp [Run.members, Db.onMachine_iff]

theorem heldBut_nil {db : Db} : db.HeldBut [] ↔ db.Held := by
  simp [Db.HeldBut, Db.Held]

theorem Db.Held.but {db : Db} (h : db.Held) (offered : List MachineId) : db.HeldBut offered :=
  fun m hm hres _ => h m hm hres

/-- A vacant machine has no run that holds and no live session on it. -/
theorem vacant_iff {db : Db} {m : MachineId} :
    db.Vacant m ↔ (∀ r ∈ db.runs.rows, r.holding = true → r.onMachine m = false) ∧
      ∀ s ∈ db.sessions.rows, s.live = true → s.machineId ≠ some m := by
  simp only [Db.Vacant, Db.liveRunsOn, Db.liveSessionsOn, Db.teardownPendingOn,
    List.filter_eq_nil_iff, Run.holding, Bool.and_eq_true, Bool.or_eq_true, not_and,
    Bool.not_eq_true, beq_iff_eq]
  constructor
  · rintro ⟨hlive, hsessions, hpending⟩
    refine ⟨fun r hr hholds => ?_, hsessions⟩
    rcases hholds with hl | hp
    · exact hlive r hr hl
    · exact hpending r hr hp
  · rintro ⟨hruns, hsessions⟩
    exact ⟨fun r hr hl => hruns r hr (Or.inl hl), hsessions, fun r hr hp => hruns r hr (Or.inr hp)⟩

/-- Somebody is on a machine: a run that holds it, or a live session. -/
theorem not_vacant_iff {db : Db} {m : MachineId} :
    ¬ db.Vacant m ↔ (∃ r ∈ db.runs.rows, r.holding = true ∧ r.onMachine m = true) ∨
      ∃ s ∈ db.sessions.rows, s.live = true ∧ s.machineId = some m := by
  rw [vacant_iff, not_and_or]
  push Not
  simp only [Bool.not_eq_false]

theorem vacant_congr {db db' : Db} (hruns : db'.runs = db.runs) (hsessions : db'.sessions = db.sessions)
    (m : MachineId) : db'.Vacant m ↔ db.Vacant m := by
  rw [vacant_iff, vacant_iff, hruns, hsessions]

/-! ## Nobody leaves -/

/-- Who was on a machine still is, and no machine becomes RESERVED or leaves its quarantine. -/
structure Db.KeepsHolders (db db' : Db) : Prop where
  vacant : ∀ m, db'.Vacant m → db.Vacant m
  machines : ∀ m' ∈ db'.machines.rows, m'.state = .reserved → ∃ m ∈ db.machines.rows,
    m.id = m'.id ∧ m.state = .reserved ∧ (m.needsAttention = true → m'.needsAttention = true)

theorem Db.HeldBut.keeps {offered : List MachineId} {db db' : Db} (h : db.HeldBut offered)
    (hk : db.KeepsHolders db') : db'.HeldBut offered := by
  intro m' hm' hres hfree
  rcases hk.machines m' hm' hres with ⟨m, hm, hid, hres₀, hattention⟩
  rw [← hid] at hfree ⊢
  rcases h m hm hres₀ hfree with hheld | hat
  · exact Or.inl fun hvacant => hheld (hk.vacant m.id hvacant)
  · exact Or.inr (hattention hat)

theorem Db.Held.keeps {db db' : Db} (h : db.Held) (hk : db.KeepsHolders db') : db'.Held :=
  heldBut_nil.mp ((heldBut_nil.mpr h).keeps hk)

namespace Db.KeepsHolders

variable {db db' db'' : Db}

/-- The machine rows are as they were. -/
theorem sameMachines (h : db'.machines = db.machines) : ∀ m' ∈ db'.machines.rows,
    m'.state = .reserved → ∃ m ∈ db.machines.rows, m.id = m'.id ∧ m.state = .reserved ∧
      (m.needsAttention = true → m'.needsAttention = true) := by
  intro m' hm' hres
  exact ⟨m', by rwa [h] at hm', rfl, hres, fun hat => hat⟩

theorem of_eq (hmachines : db'.machines = db.machines) (hruns : db'.runs = db.runs)
    (hsessions : db'.sessions = db.sessions) : db.KeepsHolders db' where
  vacant := fun m => (vacant_congr hruns hsessions m).mp
  machines := sameMachines hmachines

theorem refl (db : Db) : db.KeepsHolders db := of_eq rfl rfl rfl

theorem trans (h : db.KeepsHolders db') (h' : db'.KeepsHolders db'') : db.KeepsHolders db'' where
  vacant := fun m hvacant => h.vacant m (h'.vacant m hvacant)
  machines := by
    intro m₃ hm₃ hres₃
    rcases h'.machines m₃ hm₃ hres₃ with ⟨m₂, hm₂, hid₂, hres₂, hat₂⟩
    rcases h.machines m₂ hm₂ hres₂ with ⟨m₁, hm₁, hid₁, hres₁, hat₁⟩
    exact ⟨m₁, hm₁, hid₁.trans hid₂, hres₁, fun hat => hat₂ (hat₁ hat)⟩

/-- Every run that holds goes on holding, and every live session stays live where it is. -/
theorem of_rows (hmachines : db'.machines = db.machines)
    (hruns : ∀ r ∈ db.runs.rows, r.holding = true →
      ∃ r' ∈ db'.runs.rows, r'.holding = true ∧ r'.nodes = r.nodes)
    (hsessions : ∀ s ∈ db.sessions.rows, s.live = true → ∀ m, s.machineId = some m →
      ∃ s' ∈ db'.sessions.rows, s'.live = true ∧ s'.machineId = some m) : db.KeepsHolders db' where
  vacant := by
    intro m hvacant
    rw [vacant_iff] at hvacant ⊢
    refine ⟨fun r hr hholds => ?_, fun s hs hlive hon => ?_⟩
    · rcases hruns r hr hholds with ⟨r', hr', hholds', hnodes⟩
      have hoff := hvacant.1 r' hr' hholds'
      rwa [Run.onMachine, hnodes] at hoff
    · rcases hsessions s hs hlive m hon with ⟨s', hs', hlive', hon'⟩
      exact hvacant.2 s' hs' hlive' hon'
  machines := sameMachines hmachines

/-- Runs and sessions that are only added. -/
theorem of_added {runs : List Run} {sessions : List PolicySession}
    (hmachines : db'.machines = db.machines) (hruns : db'.runs.rows = db.runs.rows ++ runs)
    (hsessions : db'.sessions.rows = db.sessions.rows ++ sessions) : db.KeepsHolders db' := by
  refine of_rows hmachines ?_ ?_
  · intro r hr hholds
    exact ⟨r, by rw [hruns]; exact List.mem_append_left _ hr, hholds, rfl⟩
  · intro s hs hlive m hon
    exact ⟨s, by rw [hsessions]; exact List.mem_append_left _ hs, hlive, hon⟩

/-- One run is updated and goes on holding what it held. -/
theorem of_modify {id : RunId} {f : Run → Run} (hmachines : db'.machines = db.machines)
    (hruns : db'.runs.rows = db.runs.rows.map fun r => if r.id = id then f r else r)
    (hsessions : db'.sessions = db.sessions)
    (h : ∀ r ∈ db.runs.rows, r.id = id → r.holding = true →
      (f r).holding = true ∧ (f r).nodes = r.nodes) : db.KeepsHolders db' := by
  refine of_rows hmachines ?_ ?_
  · intro r hr hholds
    refine ⟨if r.id = id then f r else r, ?_, ?_⟩
    · rw [hruns]
      exact List.mem_map_of_mem hr
    · split_ifs with hid
      · exact h r hr hid hholds
      · exact ⟨hholds, rfl⟩
  · intro s hs hlive m hon
    exact ⟨s, by rwa [hsessions], hlive, hon⟩

theorem setRun {id : RunId} {f : Run → Run} {hf : ∀ r, (f r).id = r.id}
    (h : ∀ r, r.holding = true → (f r).holding = true ∧ (f r).nodes = r.nodes) :
    db.KeepsHolders (db.setRun id f hf) :=
  of_modify rfl rfl rfl fun r _ _ => h r

theorem setSession {id : SessionId} {f : PolicySession → PolicySession}
    {hf : ∀ s, (f s).id = s.id}
    (h : ∀ s ∈ db.sessions.rows, s.id = id → s.live = true → ∀ m, s.machineId = some m →
      (f s).live = true ∧ (f s).machineId = some m) : db.KeepsHolders (db.setSession id f hf) := by
  refine of_rows rfl (fun r hr hholds => ⟨r, hr, hholds, rfl⟩) ?_
  intro s hs hlive m hon
  refine ⟨if s.id = id then f s else s, Db.mem_setSession.mpr ⟨s, hs, rfl⟩, ?_⟩
  split_ifs with hid
  · exact h s hs hid hlive m hon
  · exact ⟨hlive, hon⟩

theorem setMachine {id : MachineId} {f : Machine → Machine} {hf : ∀ m, (f m).id = m.id}
    (hstate : ∀ m, (f m).state = .reserved → m.state = .reserved)
    (hattention : ∀ m, m.needsAttention = true → (f m).needsAttention = true) :
    db.KeepsHolders (db.setMachine id f hf) where
  vacant := fun m => (vacant_congr rfl rfl m).mp
  machines := by
    intro m' hm' hres
    rcases Db.mem_setMachine.mp hm' with ⟨m, hm, rfl⟩
    refine ⟨m, hm, ?_⟩
    split_ifs at hres ⊢
    · exact ⟨(hf m).symm, hstate m hres, hattention m⟩
    · exact ⟨rfl, hres, fun hat => hat⟩

theorem foldl {ι : Type} {f : Db → ι → Db} (hf : ∀ db i, Db.KeepsHolders db (f db i)) (l : List ι)
    (db : Db) : Db.KeepsHolders db (l.foldl f db) := by
  induction l generalizing db with
  | nil => exact refl db
  | cons i l ih => exact (hf db i).trans (ih (f db i))

end Db.KeepsHolders

/-! ## Offering machines back -/

/-- A machine that is offered back is taken or held. -/
theorem Db.HeldBut.offer {id : MachineId} {offered : List MachineId} {db : Db}
    (h : db.HeldBut (id :: offered)) : (releaseMachineIfIdle db id).HeldBut offered := by
  have helse : ∀ m ∈ db.machines.rows, m.id ≠ id → m.state = .reserved → m.id ∉ offered →
      ¬ db.Vacant m.id ∨ m.needsAttention = true := by
    intro m hm hne hres hfree
    exact h m hm hres (by simp [hne, hfree])
  -- the machine may stay as it is if it is not RESERVED or somebody is on it
  have hstays : (∀ m, db.machines.get? id = some m → m.state = .reserved → ¬ db.Vacant id) →
      db.HeldBut offered := by
    intro hid m hm hres hfree
    by_cases hm_id : m.id = id
    · have hget := Table.get?_key hm
      rw [hm_id] at hget
      exact Or.inl (hm_id ▸ hid m hget hres)
    · exact helse m hm hm_id hres hfree
  unfold releaseMachineIfIdle
  cases hget : db.machines.get? id with
  | none =>
      refine hstays fun m hm => ?_
      rw [hget] at hm
      cases hm
  | some m₀ =>
      dsimp only
      split_ifs with hstate hlive hpending hsession
      · refine hstays fun m hm hres => ?_
        rw [hget] at hm
        cases hm
        simp [hres] at hstate
      · exact hstays fun _ _ _ hvacant => by simp [hvacant.1] at hlive
      · exact hstays fun _ _ _ hvacant => by simp [hvacant.2.2] at hpending
      · refine hstays fun _ _ _ hvacant => ?_
        rw [machineHasLiveSession_eq_false.mpr hvacant.2.1] at hsession
        cases hsession
      · intro m' hm' hres hfree
        rcases Db.mem_setMachine.mp hm' with ⟨m, hm, rfl⟩
        by_cases hm_id : m.id = id
        · simp [hm_id] at hres
        · rw [if_neg hm_id] at hres hfree ⊢
          exact helse m hm hm_id hres hfree

theorem Db.HeldBut.offerAll {l : List MachineId} {db : Db} (h : db.HeldBut l) :
    (l.foldl releaseMachineIfIdle db).Held := by
  induction l generalizing db with
  | nil => exact heldBut_nil.mp h
  | cons id l ih => exact ih h.offer

/-- Offering machines back takes nothing from anybody. -/
theorem releaseMachineIfIdle_held {db : Db} (h : db.Held) (id : MachineId) :
    (releaseMachineIfIdle db id).Held :=
  heldBut_nil.mp (h.but [id]).offer

/-- Whatever becomes of a run, only its own machines can lose their holder. -/
theorem Db.Held.leave {db db' : Db} (h : db.Held) {id : RunId} {r : Run} {f : Run → Run}
    (hget : db.runs.get? id = some r) (hmachines : db'.machines = db.machines)
    (hruns : db'.runs.rows = db.runs.rows.map fun r => if r.id = id then f r else r)
    (hsessions : db'.sessions = db.sessions) : db'.HeldBut r.members := by
  intro m hm hres hfree
  rw [hmachines] at hm
  refine (h m hm hres).imp (fun hheld hvacant => hheld ?_) fun hat => hat
  rw [vacant_iff] at hvacant ⊢
  refine ⟨fun q hq hholds => ?_, ?_⟩
  · by_cases hid : q.id = id
    · have hqr : q = r := by
        have hgetq := Table.get?_eq_some_iff.mpr ⟨hq, hid⟩
        exact Option.some.inj (hgetq.symm.trans hget)
      rw [Run.mem_members] at hfree
      rw [hqr]
      exact Bool.eq_false_iff.mpr hfree
    · refine hvacant.1 q ?_ hholds
      rw [hruns]
      exact List.mem_map.mpr ⟨q, hq, by rw [if_neg hid]⟩
  · rw [hsessions] at hvacant
    exact hvacant.2

/-! ## A run ends -/

section Finish

variable (drivers : RunId → TeardownReplies) (now : Time)

/-- A row that is finished gives its machines back, or keeps them while it tears down. -/
theorem finishRow_held {db : Db} (h : db.Held) (id : RunId) (status : RunStatus) (error : String) :
    (finishRow drivers now db id status error).state.Held := by
  unfold finishRow
  cases hget : db.runs.get? id with
  | none => exact h
  | some r =>
      dsimp only
      generalize (r.kind.notOurs || beginTeardown (drivers id)) = cleaned
      have hstamped : (db.stampFinished id now error cleaned).Held :=
        h.keeps (Db.KeepsHolders.setRun fun q hq => ⟨by
          simp only [Run.holding, Run.live, Bool.or_eq_true] at hq ⊢
          exact hq.imp (fun hl => hl) Or.inl, rfl⟩)
      obtain ⟨r', hget', hmembers, hpending⟩ :
          ∃ r', (db.stampFinished id now error cleaned).runs.get? id = some r' ∧
            r'.members = r.members ∧ (¬ cleaned = true → r'.teardownPending = true) := by
        rw [Db.stampFinished, Db.setRun_runs, Table.get?_modify_self, hget]
        refine ⟨_, rfl, rfl, fun hstill => ?_⟩
        simp [hstill]
      unfold transition
      rw [hget']
      dsimp only
      by_cases hcan : canTransition r'.status status = true
      · rw [if_pos hcan, Ran.andThen_done, Ran.done_state]
        split_ifs with hcleaned
        · -- the container is gone, and every machine of the run is offered back
          have hleft : ((db.stampFinished id now error cleaned).moveRun id r'.status status).HeldBut
              r'.members :=
            hstamped.leave (f := fun q => { q with status := status }) hget' rfl rfl rfl
          rw [hmembers] at hleft
          exact hleft.offerAll
        · -- the row holds its machines as `teardown_pending`
          refine hstamped.keeps (Db.KeepsHolders.of_modify rfl rfl rfl fun q hq hid _ => ⟨?_, rfl⟩)
          rw [Table.get?_eq_some_iff.mpr ⟨hq, hid⟩] at hget'
          rw [Option.some.inj hget']
          simp [Run.holding, hpending hcleaned]
      · rw [if_neg hcan, Ran.andThen_raise, Ran.raise_state]
        exact hstamped

/-- Columns nobody's hold depends on. -/
theorem setFailureClass_held {db : Db} (h : db.Held) (id : RunId) (failureClass : String) :
    (db.setFailureClass id failureClass).Held :=
  h.keeps (Db.KeepsHolders.setRun fun _ hq => ⟨hq, rfl⟩)

theorem stopBenchmark_held {db : Db} (h : db.Held) (launch : Run) (bench : RunId) :
    (stopBenchmark drivers now launch bench db).state.Held := by
  unfold stopBenchmark
  split_ifs
  · exact finishRow_held drivers now (setFailureClass_held h bench _) bench _ _
  · exact finishRow_held drivers now h bench _ _

theorem finish_held {db : Db} (h : db.Held) (id : RunId) (status : RunStatus) (error : String) :
    (finish drivers now db id status error).state.Held := by
  refine Ran.andThen_preserves (I := Db.Held) (finishRow_held drivers now h id status error) ?_
  intro db' h'
  split
  · exact h'
  · split_ifs
    · unfold stopBenchmarksOf
      split
      · exact h'
      · exact Ran.forEach_preserves (I := Db.Held)
          (fun bench _ _ hdb => stopBenchmark_held drivers now hdb _ bench) h'
    · exact h'

theorem requeueIfInfrastructure_keeps (db : Db) (id : RunId) :
    db.KeepsHolders (requeueIfInfrastructure db id) := by
  unfold requeueIfInfrastructure
  split
  · exact .refl db
  · dsimp only
    split_ifs
    · exact .refl db
    · exact .refl db
    · exact .refl db
    · exact .of_eq rfl rfl rfl

theorem fail_held {db : Db} (h : db.Held) (id : RunId) (failureClass error : String) :
    (fail drivers now db id failureClass error).state.Held := by
  refine Ran.andThen_preserves (I := Db.Held)
    (finish_held drivers now (setFailureClass_held h id failureClass) id _ error) ?_
  intro db' h'
  exact h'.keeps (requeueIfInfrastructure_keeps db' id)

/-- A run that moves on frees nothing unless it ends. -/
theorem transition_held {db : Db} (h : db.Held) {id : RunId} {target : RunStatus}
    (hlive : target.terminal = false) : (transition db id target).state.Held := by
  unfold transition
  split
  · exact h
  · split_ifs
    · refine h.keeps (Db.KeepsHolders.of_modify rfl rfl rfl fun q _ _ _ => ⟨?_, rfl⟩)
      simp [Run.holding, Run.live, hlive]
    · exact h

end Finish

/-! ## A run is advanced -/

section Advance

variable (drivers : RunId → TeardownReplies) (now : Time) (o : Observed) {db : Db}

theorem startBench_held (h : db.Held) (id : RunId) : (startBench drivers now o db id).state.Held := by
  unfold startBench
  split
  · exact h
  · exact fail_held drivers now h id _ _
  · exact transition_held h rfl

theorem pollBench_held (h : db.Held) (id : RunId) : (pollBench drivers now o db id).state.Held := by
  unfold pollBench
  split
  · exact h
  · exact finish_held drivers now h id _ _
  · exact fail_held drivers now h id _ _

theorem advanceBaseline_held (h : db.Held) (r : Run) :
    (advanceBaseline drivers now o db r).state.Held := by
  unfold advanceBaseline
  split
  · split
    · exact h
    · exact startBench_held drivers now o h r.id
    · split
      · split_ifs
        · exact fail_held drivers now h r.id _ _
        · exact h
      · exact fail_held drivers now h r.id _ _
  · exact pollBench_held drivers now o h r.id
  · exact h

theorem awaitReady_held (h : db.Held) (r : Run) : (awaitReady drivers now o db r).state.Held := by
  unfold awaitReady
  split
  · exact fail_held drivers now h r.id _ _
  · split
    · exact transition_held h rfl
    · exact fail_held drivers now h r.id _ _
    · split_ifs
      · exact fail_held drivers now h r.id _ _
      · exact transition_held h rfl
      · exact h
    · split_ifs
      · exact fail_held drivers now h r.id _ _
      · exact transition_held h rfl
      · exact h

theorem advanceLaunched_held (h : db.Held) (r : Run) :
    (advanceLaunched drivers now o db r).state.Held := by
  unfold advanceLaunched
  split
  · split_ifs
    · exact h
    · split
      · exact h
      · exact fail_held drivers now h r.id _ _
      · exact transition_held h rfl
  · exact awaitReady_held drivers now o h r
  · exact awaitReady_held drivers now o h r
  · split
    · exact h
    · exact fail_held drivers now h r.id _ _
    · split_ifs
      · exact transition_held h rfl
      · exact startBench_held drivers now o h r.id
  · exact pollBench_held drivers now o h r.id
  · split_ifs
    · exact finish_held drivers now h r.id _ _
    · exact fail_held drivers now h r.id _ _
    · exact fail_held drivers now h r.id _ _
    · split
      · exact h
      · exact fail_held drivers now h r.id _ _
  · exact h

theorem advanceOne_held (h : db.Held) (id : RunId) : (advanceOne drivers now o db id).state.Held := by
  unfold advanceOne
  split
  · exact h
  · split_ifs
    · exact h
    · split
      · exact fail_held drivers now h id _ _
      · exact advanceBaseline_held drivers now o h _
    · split
      · exact fail_held drivers now h id _ _
      · exact advanceLaunched_held drivers now o h _

end Advance

/-! ## The loops -/

section Loops

variable (drivers : RunId → TeardownReplies) {db : Db}

theorem killRuns_held (now : Time) (reason : String) (l : List RunId) (h : db.Held) :
    (Ran.forEach (fun id db => finish drivers now db id .killed reason) l db).state.Held :=
  Ran.forEach_preserves (I := Db.Held) (fun id _ _ hdb => finish_held drivers now hdb id _ _) h

theorem enforceWindows_held (h : db.Held) (clock : RunId → Time) (why : RunId → String)
    (order : RowOrder RunId) : (enforceWindows drivers clock why order db).state.Held := by
  refine Ran.forEach_preserves (I := Db.Held) ?_ h
  intro id _ db' h'
  split_ifs
  · exact finish_held drivers _ h' id _ _
  · exact h'

theorem advanceRuns_held (h : db.Held) (clock : RunId → Time) (observed : RunId → Observed)
    (order : RowOrder RunId) : (advanceRuns drivers clock observed order db).state.Held :=
  Ran.forEach_preserves (I := Db.Held) (fun id _ _ hdb => advanceOne_held drivers _ _ hdb id) h

theorem giveBack_keeps (db : Db) (r : Run) : db.KeepsHolders (db.giveBack r) :=
  .of_modify rfl rfl rfl fun _ _ _ hq => ⟨hq, rfl⟩

theorem processStop_held (h : db.Held) (now : Time) (e : StopRequest) :
    (processStop drivers now e db).state.Held := by
  unfold processStop
  split
  · exact h
  · split
    · exact h
    · refine Ran.andThen_preserves (I := Db.Held) (finish_held drivers now h e.runId _ _) ?_
      intro db' h'
      split_ifs
      · exact h'.keeps (giveBack_keeps db' _)
      · exact h'

theorem processStopRequests_held (h : db.Held) (now : Time) (order : RowOrder StopRequest) :
    (processStopRequests drivers now order db).state.Held :=
  Ran.forEach_preserves (I := Db.Held) (fun e _ _ hdb => processStop_held drivers hdb now e) h

theorem releaseQueued_held (h : db.Held) (clock : RunId → Time) (finds : RunId → QueueFinds)
    (id : RunId) : (releaseQueued drivers clock finds id db).state.Held := by
  unfold releaseQueued
  split
  · exact h
  · split_ifs
    · refine Ran.andThen_preserves (I := Db.Held)
        (finish_held drivers _ (setFailureClass_held h _ released) _ _ _) ?_
      exact fun db' h' => h'.keeps (.of_eq rfl rfl rfl)
    · exact h

theorem releaseQueuedWhilePaused_held (h : db.Held) (clock : RunId → Time) (finds : RunId → QueueFinds)
    (campaigns : RowOrder CampaignId) (order : RowOrder RunId) :
    (releaseQueuedWhilePaused drivers clock finds campaigns order db).state.Held :=
  Ran.forEach_preserves (I := Db.Held)
    (fun _ _ _ hdb => Ran.forEach_preserves (I := Db.Held)
      (fun id _ _ hdb' => releaseQueued_held drivers hdb' clock finds id) hdb) h

theorem reconcile_held (h : db.Held) (clock : RunId → Time) (attached : RunId → Bool)
    (order : RowOrder RunId) : (reconcile drivers clock attached order db).state.Held := by
  refine Ran.forEach_preserves (I := Db.Held) ?_ h
  intro id _ db' h'
  unfold reconcileRun
  split
  · exact h'
  · split_ifs
    · exact h'
    · exact fail_held drivers _ h' id _ _
    · exact h'

/-- A lease step marks a drain, tells a session, ends runs or hands the machine back as AWAY. -/
theorem advanceLease_held (h : db.Held) (now : Time) (sessions : RowOrder PolicySession)
    (order : RowOrder RunId) (id : MachineId) :
    (advanceLease drivers now sessions order id db).state.Held := by
  have hexpired : (expireLease now id db).Held := by
    unfold expireLease
    split
    · exact h
    · split_ifs
      · exact h.keeps (.setMachine (fun _ hres => hres) fun _ hat => hat)
      · exact h
  unfold advanceLease
  generalize expireLease now id db = db' at hexpired
  dsimp only
  split
  · exact hexpired
  · split
    · exact hexpired
    · unfold advanceDrain
      split
      · rw [Ran.done_state, drainSession]
        split_ifs
        · exact hexpired.keeps (.setSession fun _ _ _ hlive _ hon => ⟨hlive, hon⟩)
        · exact hexpired.keeps (.setSession fun _ _ _ hlive _ hon => ⟨hlive, hon⟩)
      · dsimp only
        split_ifs
        · exact hexpired
        · exact killRuns_held drivers now _ _ hexpired
        · refine hexpired.keeps (.setMachine ?_ fun _ hat => hat)
          intro m hres
          cases hres

end Loops

/-! ## A run is placed -/

theorem mem_reserveMachines {db : Db} {plan : List (MachineId × List Nat)} {m' : Machine}
    (hm' : m' ∈ (reserveMachines db plan).machines.rows) :
    m' ∈ db.machines.rows ∨ m'.id ∈ plan.map Prod.fst := by
  induction plan generalizing db with
  | nil => exact Or.inl hm'
  | cons p plan ih =>
      rcases ih hm' with hold | hlater
      · rcases Db.mem_setMachine.mp hold with ⟨m, hm, rfl⟩
        split_ifs with hid
        · exact Or.inr (by simp [hid])
        · exact Or.inl hm
      · exact Or.inr (List.mem_cons_of_mem _ hlater)

/-- The machines a placement reserves are the ones its run is on. -/
theorem createRun_held {db : Db} (h : db.Held) (c : Campaign) (candidate : CandidateId)
    (plan : List (MachineId × List Nat)) (port dist : Nat) :
    (createRun db c candidate plan port dist).Held := by
  cases plan with
  | nil => exact h
  | cons master workers =>
      rcases createRun_created db c candidate (List.cons_ne_nil master workers) port dist with
        ⟨r, hcreated, -⟩
      have hlater : ∀ m, ¬ db.Vacant m →
          ¬ (createRun db c candidate (master :: workers) port dist).Vacant m := by
        intro m hheld hvacant
        rw [vacant_iff, hcreated.rows, hcreated.sessions] at hvacant
        exact hheld (vacant_iff.mpr
          ⟨fun q hq => hvacant.1 q (List.mem_append_left _ hq), hvacant.2⟩)
      intro m hm hres
      have hrow : m ∈ (reserveMachines db (master :: workers)).machines.rows := hm
      rcases mem_reserveMachines hrow with hold | hnew
      · exact (h m hold hres).imp_left (hlater m.id)
      · refine Or.inl (not_vacant_iff.mpr (Or.inl ⟨r, ?_, ?_, ?_⟩))
        · rw [hcreated.rows]
          exact List.mem_append_right _ List.mem_cons_self
        · simp [Run.holding, hcreated.live]
        · rcases List.mem_map.mp hnew with ⟨p, hp, hid⟩
          rw [Db.onMachine_iff, hcreated.nodes]
          exact ⟨_, List.mem_map_of_mem hp, by rw [hid]⟩

theorem maybeFinishCampaign_keeps (f : FinishFinds) (c : CampaignId) (db : Db) :
    db.KeepsHolders (maybeFinishCampaign f c db) := by
  have hqueue : ∀ verify configs, db.KeepsHolders (db.queueConfigs c verify configs) := by
    intro verify configs
    rcases queueConfigs_frame db c verify configs with ⟨t, ht⟩
    rw [ht]
    exact .of_eq rfl rfl rfl
  unfold maybeFinishCampaign
  dsimp only
  split
  · exact .refl db
  split
  · exact .refl db
  split
  · exact hqueue false f.confirmations
  split
  · exact .refl db
  split
  · exact hqueue true f.verifications
  · exact .of_eq rfl rfl rfl

theorem startOne_held {db : Db} (h : db.Held) (held : Reservations) (blocked : List MachineId)
    (stageAllowed : Bool → Bool) (c : Campaign) :
    (startOne held blocked stageAllowed db c).db.Held := by
  have hretired : (retireInPlace db (db.validCandidates c)).Held := by
    rcases retireInPlace_frame db (db.validCandidates c) with ⟨t, ht⟩
    rw [ht]
    exact h.keeps (.of_eq rfl rfl rfl)
  rcases startOne_spec held blocked stageAllowed db c with
    ⟨-, hnone⟩ | ⟨-, plan, port, dist, k, -, -, -, -, hplaced⟩
  · rw [hnone]
    exact hretired
  · rw [hplaced]
    exact createRun_held hretired c k.id plan port dist

theorem campaignTurn_held {db : Db} (h : db.Held) (held : Reservations) (blocked : List MachineId)
    (f : TurnFinds) (id : CampaignId) : (campaignTurn held blocked f id db).Held := by
  unfold campaignTurn
  split
  · exact h
  · split_ifs
    · exact h
    · dsimp only
      split_ifs
      · exact startOne_held h held blocked f.stageAllowed _
      · exact (startOne_held h held blocked f.stageAllowed _).keeps
          (maybeFinishCampaign_keeps f.finish _ _)

theorem planCandidate_keeps (id : CampaignId) (verify : Bool) (q : QueuedConfig) (valid : Bool)
    (db : Db) : db.KeepsHolders (planCandidate id verify q valid db) := by
  unfold planCandidate
  split
  · exact .refl db
  · split
    · exact .refl db
    · exact .of_eq rfl rfl rfl

theorem launchValidationRun_keeps (session : SessionId) (config : LaunchConfig) (db : Db) :
    db.KeepsHolders ((launchValidationRun session config db).getD db) := by
  cases hrun : launchValidationRun session config db with
  | none => exact .refl db
  | some db' =>
      rcases launchValidationRun_adds hrun with ⟨s, c, cards, -, -, -, rfl⟩
      exact .of_added rfl rfl (List.append_nil _).symm

/-- A lease request reserves nothing and leaves what is reserved as it is, or makes it AVAILABLE. -/
theorem leaseCall_keeps (db : Db) (call : LeaseCall) : db.KeepsHolders (call.apply db) := by
  cases call with
  | lease body =>
      simp only [LeaseCall.apply, leaseMachine]
      split
      · refine ⟨fun m => (vacant_congr rfl rfl m).mp, ?_⟩
        intro m' hm' hres
        rcases Table.mem_insert.mp hm' with hm' | rfl
        · exact ⟨m', hm', rfl, hres, fun hat => hat⟩
        · cases hres
      · split_ifs
        · exact .refl db
        · refine .setMachine ?_ fun _ hat => hat
          intro m hres
          cases hres
  | endLease name mode deadline =>
      simp only [LeaseCall.apply, AutoTune.endLease]
      split
      · exact .refl db
      · split_ifs
        · exact .setMachine (fun _ hres => hres) fun _ hat => hat
        · exact .refl db
  | setState id away =>
      simp only [LeaseCall.apply, setMachineState]
      split
      · exact .refl db
      · split
        · exact .refl db
        · refine .setMachine ?_ fun _ hat => hat
          intro m hres
          cases away <;> cases hres

/-! ## The janitor -/

section Reap

variable (drivers : RunId → ReapReplies) (clock : TeardownClock) (now : Time)

/-- Does the janitor give this run's teardown up: its container is still there after
`teardown_giveup_seconds`. -/
def givesUp (r : Run) : Bool :=
  (drivers r.id).attach == .value true && decide (clock.giveup ≤ r.elapsed now)

/-- Every RESERVED machine of the run is stuck, was quarantined before, or is held by somebody else. -/
def Db.LeavesNobody (db : Db) (r : Run) (unfinished : Reply (List String)) : Prop :=
  ∀ m ∈ db.machines.rows, m.state = .reserved → r.onMachine m.id = true →
    m.id ∈ stuckMachines db r unfinished ∨ m.needsAttention = true ∨ r.live = true ∨
      (∃ q ∈ db.runs.rows, q.id ≠ r.id ∧ q.holding = true ∧ q.onMachine m.id = true) ∨
      db.liveSessionsOn m.id ≠ []

/-- The janitor does not look at the run, does not give it up, or leaves nobody by giving it up. -/
def Db.GiveUpSpares (db : Db) (id : RunId) : Prop :=
  ∀ r ∈ db.runs.rows, r.id = id → givesUp drivers clock now r = true →
    db.LeavesNobody r (drivers id).unfinished

instance (db : Db) (r : Run) (unfinished : Reply (List String)) :
    Decidable (db.LeavesNobody r unfinished) :=
  @List.decidableBAll _ _ (fun _ => @instDecidableForall _ _ inferInstance
    (@instDecidableForall _ _ inferInstance inferInstance)) _

instance (db : Db) (id : RunId) : Decidable (Db.GiveUpSpares drivers clock now db id) :=
  @List.decidableBAll _ _ (fun _ => @instDecidableForall _ _ inferInstance
    (@instDecidableForall _ _ inferInstance inferInstance)) _

theorem confirmTeardown_held {db : Db} (h : db.Held) (id : RunId) : (confirmTeardown db id).Held := by
  unfold confirmTeardown
  cases hget : db.runs.get? id with
  | none => exact h
  | some r =>
      have hleft : (db.setRun id fun r => { r with teardownPending := false }).HeldBut r.members :=
        h.leave (f := fun r => { r with teardownPending := false }) hget rfl rfl rfl
      exact hleft.offerAll

theorem quarantineAll_frame (l : List MachineId) (db : Db) :
    (l.foldl quarantineMachine db).runs = db.runs ∧
      (l.foldl quarantineMachine db).sessions = db.sessions ∧
      (l.foldl quarantineMachine db).machines.rows = db.machines.rows.map fun m =>
        { m with needsAttention := m.needsAttention || decide (m.id ∈ l) } := by
  induction l generalizing db with
  | nil => simp
  | cons id l ih =>
      rcases ih (quarantineMachine db id) with ⟨hruns, hsessions, hmachines⟩
      refine ⟨hruns, hsessions, ?_⟩
      rw [List.foldl_cons, hmachines, quarantineMachine, Db.setMachine, Table.rows_modify,
        List.map_map]
      refine List.map_congr_left fun m _ => ?_
      by_cases hid : m.id = id <;> simp [hid]

/-- Giving a run up leaves no machine RESERVED for nothing exactly when it leaves nobody behind. -/
theorem giveUp_held_iff {db : Db} (h : db.Held) {r : Run} (hr : r ∈ db.runs.rows)
    (unfinished : Reply (List String)) :
    (((stuckMachines db r unfinished).foldl quarantineMachine db).setRun r.id
      fun r => { r with teardownPending := false }).Held ↔ db.LeavesNobody r unfinished := by
  rcases quarantineAll_frame (stuckMachines db r unfinished) db with ⟨hruns, hsessions, hmachines⟩
  generalize (stuckMachines db r unfinished).foldl quarantineMachine db = db₁ at hruns hsessions hmachines
  -- who is left on a machine once the run lets go
  have hleft : ∀ m, ¬ (db₁.setRun r.id fun r => { r with teardownPending := false }).Vacant m ↔
      r.live = true ∧ r.onMachine m = true ∨
        (∃ q ∈ db.runs.rows, q.id ≠ r.id ∧ q.holding = true ∧ q.onMachine m = true) ∨
        db.liveSessionsOn m ≠ [] := by
    intro m
    rw [not_vacant_iff]
    constructor
    · rintro (⟨q', hq', hholds, hon⟩ | ⟨s, hs, hlive, hon⟩)
      · rcases Db.mem_setRun.mp hq' with ⟨q, hq, rfl⟩
        rw [hruns] at hq
        by_cases hid : q.id = r.id
        · rw [if_pos hid] at hholds hon
          have hqr : q = r := Table.eq_of_key_eq hq hr hid
          subst hqr
          exact Or.inl ⟨by simpa [Run.holding, Run.live] using hholds, hon⟩
        · rw [if_neg hid] at hholds hon
          exact Or.inr (Or.inl ⟨q, hq, hid, hholds, hon⟩)
      · have hs' : s ∈ db.sessions.rows := hsessions ▸ hs
        exact Or.inr (Or.inr (List.ne_nil_of_mem (Db.mem_liveSessionsOn.mpr ⟨hs', hlive, hon⟩)))
    · rintro (⟨hlive, hon⟩ | ⟨q, hq, hne, hholds, hon⟩ | hsession)
      · refine Or.inl ⟨{ r with teardownPending := false },
          Db.mem_setRun.mpr ⟨r, hruns ▸ hr, by rw [if_pos rfl]⟩, ?_, hon⟩
        exact Bool.or_eq_true_iff.mpr (Or.inl hlive)
      · exact Or.inl ⟨q, Db.mem_setRun.mpr ⟨q, hruns ▸ hq, by rw [if_neg hne]⟩, hholds, hon⟩
      · rcases List.exists_mem_of_ne_nil _ hsession with ⟨s, hs⟩
        rcases Db.mem_liveSessionsOn.mp hs with ⟨hrow, hlive, hon⟩
        have hrow' : s ∈ db₁.sessions.rows := hsessions ▸ hrow
        exact Or.inr ⟨s, hrow', hlive, hon⟩
  constructor
  · intro hheld m hm hres hon
    have hrow : ∃ m' ∈ db₁.machines.rows, m'.id = m.id ∧ m'.state = m.state ∧ m'.needsAttention =
        (m.needsAttention || decide (m.id ∈ stuckMachines db r unfinished)) := by
      rw [hmachines]
      exact ⟨_, List.mem_map_of_mem hm, rfl, rfl, rfl⟩
    rcases hrow with ⟨m', hm', hid, hstate, hattention⟩
    have hstays := hheld m' hm' (hstate.trans hres)
    rw [hid, hattention] at hstays
    rcases hstays with hstill | hat
    · rcases (hleft m.id).mp hstill with ⟨hlive, -⟩ | hothers
      · exact Or.inr (Or.inr (Or.inl hlive))
      · exact Or.inr (Or.inr (Or.inr hothers))
    · rcases Bool.or_eq_true_iff.mp hat with hat | hstuck
      · exact Or.inr (Or.inl hat)
      · exact Or.inl (of_decide_eq_true hstuck)
  · intro hspares m' hm' hres
    change m' ∈ db₁.machines.rows at hm'
    rw [hmachines] at hm'
    rcases List.mem_map.mp hm' with ⟨m, hm, rfl⟩
    dsimp only at hres ⊢
    rw [hleft, Bool.or_eq_true, decide_eq_true_eq]
    by_cases hon : r.onMachine m.id = true
    · rcases hspares m hm hres hon with hstuck | hat | hlive | hothers
      · exact Or.inr (Or.inr hstuck)
      · exact Or.inr (Or.inl hat)
      · exact Or.inl (Or.inl ⟨hlive, hon⟩)
      · exact Or.inl (Or.inr hothers)
    · -- the run was not what held it
      rcases h m hm hres with hheld | hat
      · rcases not_vacant_iff.mp hheld with ⟨q, hq, hholds, hqon⟩ | ⟨s, hs, hlive, hson⟩
        · refine Or.inl (Or.inr (Or.inl ⟨q, hq, ?_, hholds, hqon⟩))
          intro hid
          rw [Table.eq_of_key_eq hq hr hid] at hqon
          exact hon hqon
        · exact Or.inl (Or.inr (Or.inr
            (List.ne_nil_of_mem (Db.mem_liveSessionsOn.mpr ⟨hs, hlive, hson⟩))))
      · exact Or.inr (Or.inl hat)

/-- A run on one machine leaves nobody: the driver names that machine, or none, or does not answer. -/
theorem leavesNobody_of_single {db : Db} {r : Run} (hone : r.workers = [])
    {unfinished : Reply (List String)}
    (hnames : ∀ names, unfinished = .value names → names ≠ [] →
      ∀ m ∈ db.machines.rows, r.machineId = some m.id → m.name ∈ names) :
    db.LeavesNobody r unfinished := by
  intro m hm _ hon
  have hid : r.machineId = some m.id := by
    simpa [Run.onMachine, Run.nodes, Run.masterNode, hone] using hon
  have hown : (r.machineId.bind db.machines.get?).toList.map Machine.name = [m.name] := by
    rw [hid, Option.bind_some, Table.get?_key hm]
    rfl
  refine Or.inl ?_
  unfold stuckMachines
  dsimp only
  split
  · -- no machine has such a name, and the run's own stands for it
    rw [hid]
    exact List.mem_singleton_self _
  · refine List.mem_map.mpr ⟨m, List.mem_filter.mpr ⟨hm, List.contains_iff_mem.mpr ?_⟩, rfl⟩
    rw [hown]
    cases unfinished with
    | raised => exact List.mem_singleton_self _
    | value names =>
        cases names with
        | nil => exact List.mem_singleton_self _
        | cons name names => exact hnames _ rfl (List.cons_ne_nil _ _) m hm hid

/-- One iteration of `_reap_teardowns` leaves no machine RESERVED for nothing exactly when a run it gives
up leaves nobody behind. -/
theorem reapTeardown_held_iff {db : Db} (h : db.Held) (id : RunId) :
    (reapTeardown drivers clock now db id).Held ↔ Db.GiveUpSpares drivers clock now db id := by
  unfold reapTeardown
  cases hget : db.runs.get? id with
  | none =>
      refine iff_of_true h fun r hr hid => ?_
      exact absurd hid (Table.get?_eq_none_iff.mp hget r hr)
  | some r =>
      rcases Table.get?_eq_some_iff.mp hget with ⟨hr, rfl⟩
      have hspares : Db.GiveUpSpares drivers clock now db r.id ↔
          (givesUp drivers clock now r = true → db.LeavesNobody r (drivers r.id).unfinished) := by
        constructor
        · exact fun hall hgives => hall r hr rfl hgives
        · intro hone q hq hid
          rw [Table.eq_of_key_eq hq hr hid]
          exact hone
      rw [hspares]
      dsimp only
      cases hattach : (drivers r.id).attach with
      | raised => exact iff_of_true h fun hgives => by simp [givesUp, hattach] at hgives
      | value found =>
          cases found with
          | false =>
              refine iff_of_true ?_ fun hgives => by simp [givesUp, hattach] at hgives
              dsimp only
              split_ifs
              · exact confirmTeardown_held h r.id
              · exact h
          | true =>
              dsimp only
              by_cases hover : clock.giveup ≤ r.elapsed now
              · have hgives : givesUp drivers clock now r = true := by simp [givesUp, hattach, hover]
                rw [if_pos hover, giveUp_held_iff h hr]
                exact ⟨fun hone _ => hone, fun himp => himp hgives⟩
              · rw [if_neg hover]
                refine iff_of_true ?_ fun hgives => by simp [givesUp, hover] at hgives
                split_ifs
                · split
                  · exact h
                  · exact h.keeps (.setRun fun _ hq => ⟨hq, rfl⟩)
                · exact h

/-- The runs `_reap_teardowns` reads before its loop. -/
def Db.pendingIds (db : Db) : List RunId := (db.runs.rows.filter Run.teardownPending).map Run.id

theorem reapTeardowns_held {db : Db} (h : db.Held)
    (hspares : Along (reapTeardown drivers clock now) (Db.GiveUpSpares drivers clock now) db
      db.pendingIds) : (reapTeardowns drivers clock now db).Held :=
  invariant_runFrom (I := Db.Held)
    (fun _ id hdb hone => (reapTeardown_held_iff drivers clock now hdb id).mpr hone) h hspares

end Reap

end AutoTune
