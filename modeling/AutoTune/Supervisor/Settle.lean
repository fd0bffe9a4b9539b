import AutoTune.Supervisor.Janitor

/-!
# Ending work never takes anything

Whatever `_finish` and the janitor do, a run keeps the machines, cards and port it was placed with,
a finished run stays finished, and nothing is held afterwards that was not held before. `Db.Settles`
states this of two stores; it is reflexive and transitive, so it passes through every loop.
-/

namespace AutoTune

open Lib

/-- A run holds its cards while it is live or its teardown is not confirmed. -/
def Run.holding (r : Run) : Bool := r.live || r.teardownPending

/-- `r'` is `r` at a later point of its life. -/
structure Run.Settles (r r' : Run) : Prop where
  id : r'.id = r.id
  campaignId : r'.campaignId = r.campaignId
  kind : r'.kind = r.kind
  machineId : r'.machineId = r.machineId
  gpuIndices : r'.gpuIndices = r.gpuIndices
  workers : r'.workers = r.workers
  servicePort : r'.servicePort = r.servicePort
  policySessionId : r'.policySessionId = r.policySessionId
  live : r'.live = true → r.live = true
  holding : r'.holding = true → r.holding = true

/-- `m'` is the same box as `m`. -/
structure Machine.SameBox (m m' : Machine) : Prop where
  id : m'.id = m.id
  name : m'.name = m.name
  gpuCount : m'.gpuCount = m.gpuCount
  pool : m'.isNodePool = m.isNodePool

/-- `db'` is `db` with work ended and nothing started. -/
structure Db.Settles (db db' : Db) : Prop where
  runs : List.Forall₂ Run.Settles db.runs.rows db'.runs.rows
  machines : List.Forall₂ Machine.SameBox db.machines.rows db'.machines.rows
  sessions : db'.sessions = db.sessions
  campaigns : db'.campaigns = db.campaigns

namespace Run.Settles

theorem refl (r : Run) : Run.Settles r r where
  id := rfl
  campaignId := rfl
  kind := rfl
  machineId := rfl
  gpuIndices := rfl
  workers := rfl
  servicePort := rfl
  policySessionId := rfl
  live := fun h => h
  holding := fun h => h

theorem trans {r r' r'' : Run} (h : Run.Settles r r') (h' : Run.Settles r' r'') :
    Run.Settles r r'' where
  id := h'.id.trans h.id
  campaignId := h'.campaignId.trans h.campaignId
  kind := h'.kind.trans h.kind
  machineId := h'.machineId.trans h.machineId
  gpuIndices := h'.gpuIndices.trans h.gpuIndices
  workers := h'.workers.trans h.workers
  servicePort := h'.servicePort.trans h.servicePort
  policySessionId := h'.policySessionId.trans h.policySessionId
  live := fun hl => h.live (h'.live hl)
  holding := fun hl => h.holding (h'.holding hl)

theorem nodes {r r' : Run} (h : Run.Settles r r') : r'.nodes = r.nodes := by
  simp [Run.nodes, Run.masterNode, h.machineId, h.gpuIndices, h.workers]

theorem onMachine {r r' : Run} (h : Run.Settles r r') (m : MachineId) :
    r'.onMachine m = r.onMachine m := by
  simp [Run.onMachine, h.nodes]

end Run.Settles

namespace Machine.SameBox

theorem refl (m : Machine) : Machine.SameBox m m := ⟨rfl, rfl, rfl, rfl⟩

theorem trans {m m' m'' : Machine} (h : Machine.SameBox m m') (h' : Machine.SameBox m' m'') :
    Machine.SameBox m m'' :=
  ⟨h'.id.trans h.id, h'.name.trans h.name, h'.gpuCount.trans h.gpuCount, h'.pool.trans h.pool⟩

end Machine.SameBox

namespace Db.Settles

variable {db db' db'' : Db}

theorem refl (db : Db) : Db.Settles db db where
  runs := List.forall₂_same.mpr fun r _ => Run.Settles.refl r
  machines := List.forall₂_same.mpr fun m _ => Machine.SameBox.refl m
  sessions := rfl
  campaigns := rfl

theorem trans (h : Db.Settles db db') (h' : Db.Settles db' db'') : Db.Settles db db'' where
  runs := forall₂_trans (R := Run.Settles) (fun _ _ _ a b => Run.Settles.trans a b) h.runs h'.runs
  machines := forall₂_trans (R := Machine.SameBox) (fun _ _ _ a b => Machine.SameBox.trans a b) h.machines h'.machines
  sessions := h'.sessions.trans h.sessions
  campaigns := h'.campaigns.trans h.campaigns

/-- Updating one run settles when the update settles the row it meets. -/
theorem setRun {id : RunId} {f : Run → Run} {hf : ∀ r, (f r).id = r.id}
    (h : ∀ r ∈ db.runs.rows, r.id = id → Run.Settles r (f r)) :
    Db.Settles db (db.setRun id f hf) where
  runs := by
    rw [Db.setRun, Table.rows_modify, List.forall₂_map_right_iff]
    apply List.forall₂_same.mpr
    intro r hr
    by_cases hid : r.id = id
    · simpa [hid] using h r hr hid
    · simpa [hid] using Run.Settles.refl r
  machines := List.forall₂_same.mpr fun m _ => Machine.SameBox.refl m
  sessions := rfl
  campaigns := rfl

theorem setMachine {id : MachineId} {f : Machine → Machine} {hf : ∀ m, (f m).id = m.id}
    (h : ∀ m, Machine.SameBox m (f m)) : Db.Settles db (db.setMachine id f hf) where
  runs := List.forall₂_same.mpr fun r _ => Run.Settles.refl r
  machines := by
    rw [Db.setMachine, Table.rows_modify, List.forall₂_map_right_iff]
    apply List.forall₂_same.mpr
    intro m _
    by_cases hid : m.id = id
    · simpa [hid] using h m
    · simpa [hid] using Machine.SameBox.refl m
  sessions := rfl
  campaigns := rfl

theorem setCandidate {id : CandidateId} {f : Candidate → Candidate} {hf : ∀ c, (f c).id = c.id} :
    Db.Settles db (db.setCandidate id f hf) :=
  ⟨(refl db).runs, (refl db).machines, rfl, rfl⟩

theorem foldl {ι : Type} {f : Db → ι → Db} (hf : ∀ db i, Db.Settles db (f db i)) (l : List ι)
    (db : Db) : Db.Settles db (l.foldl f db) := by
  induction l generalizing db with
  | nil => exact refl db
  | cons i l ih => exact (hf db i).trans (ih (f db i))

/-- A run of the later store is a run of the earlier one, settled. -/
theorem exists_run (h : Db.Settles db db') {r' : Run} (hr' : r' ∈ db'.runs.rows) :
    ∃ r ∈ db.runs.rows, Run.Settles r r' :=
  exists_mem_of_forall₂ h.runs hr'

/-- A run of the earlier store is still there. -/
theorem exists_run' (h : Db.Settles db db') {r : Run} (hr : r ∈ db.runs.rows) :
    ∃ r' ∈ db'.runs.rows, Run.Settles r r' :=
  exists_mem_of_forall₂ h.runs.flip hr

/-- A machine of the later store is a machine of the earlier one. -/
theorem exists_machine (h : Db.Settles db db') {m' : Machine} (hm' : m' ∈ db'.machines.rows) :
    ∃ m ∈ db.machines.rows, Machine.SameBox m m' :=
  exists_mem_of_forall₂ h.machines hm'

theorem hasLiveSession (h : Db.Settles db db') (m : MachineId) :
    db'.machineHasLiveSession m = db.machineHasLiveSession m := by
  simp [Db.machineHasLiveSession, h.sessions]

end Db.Settles

/-! ## What ends work settles -/

section Steps

variable (drivers : RunId → TeardownReplies) (now : Time)

theorem releaseMachineIfIdle_settles (db : Db) (id : MachineId) :
    Db.Settles db (releaseMachineIfIdle db id) := by
  unfold releaseMachineIfIdle
  split
  · exact Db.Settles.refl db
  · split_ifs
    all_goals first
      | exact Db.Settles.refl db
      | exact Db.Settles.setMachine fun m => ⟨rfl, rfl, rfl, rfl⟩

theorem releaseRunMachines_settles (db : Db) (r : Run) : Db.Settles db (releaseRunMachines db r) :=
  Db.Settles.foldl releaseMachineIfIdle_settles _ db

theorem transition_settles (db : Db) (id : RunId) (target : RunStatus) :
    Db.Settles db (transition db id target).state := by
  unfold transition
  cases h : db.runs.get? id with
  | none => exact Db.Settles.refl db
  | some r =>
      by_cases hcan : canTransition r.status target = true
      · have hlive : r.live = true := by simp [Run.live, live_of_canTransition hcan]
        have hset : Db.Settles db (db.setRun id fun r => { r with status := target }) := by
          apply Db.Settles.setRun
          intro r₀ hr₀ hid
          have : r₀ = r := by
            have := Table.get?_eq_some_iff.mpr ⟨hr₀, hid⟩
            simpa [this] using h
          subst this
          exact ⟨rfl, rfl, rfl, rfl, rfl, rfl, rfl, rfl, fun _ => hlive,
            fun _ => by simp [Run.holding, hlive]⟩
        simpa [hcan] using ⟨hset.runs, hset.machines, rfl, rfl⟩
      · simpa [hcan] using Db.Settles.refl db

/-- `_finish` reaches a live run, or one whose deployment is not ours to tear down. -/
def Finishable (db : Db) (id : RunId) : Prop :=
  ∀ r ∈ db.runs.rows, r.id = id → r.live = true ∨ r.kind.notOurs = true

theorem finishRow_settles {db : Db} {id : RunId} (h : Finishable db id) (status : RunStatus)
    (error : String) : Db.Settles db (finishRow drivers now db id status error).state := by
  unfold finishRow
  cases hget : db.runs.get? id with
  | none => exact Db.Settles.refl db
  | some r =>
      rcases Table.get?_eq_some_iff.mp hget with ⟨hr, hid⟩
      have hstamp : ∀ cleaned, (cleaned = true ∨ r.live = true) →
          Db.Settles db (db.stampFinished id now error cleaned) := by
        intro cleaned hc
        apply Db.Settles.setRun
        intro r₀ hr₀ hid₀
        have : r₀ = r := Table.eq_of_key_eq hr₀ hr (hid₀.trans hid.symm)
        subst this
        refine ⟨rfl, rfl, rfl, rfl, rfl, rfl, rfl, rfl, fun hl => hl, ?_⟩
        rcases hc with rfl | hl
        · simp [Run.holding, Run.live]
        · simp [Run.holding, hl]
      have hcleaned : (r.kind.notOurs || beginTeardown (drivers id)) = true ∨ r.live = true := by
        rcases h r hr hid with hl | hk
        · exact Or.inr hl
        · simp [hk]
      refine Ran.andThen_preserves (I := Db.Settles db) ?_ ?_
      · exact (hstamp _ hcleaned).trans (transition_settles _ _ _)
      · intro db' hdb'
        by_cases hc : (r.kind.notOurs || beginTeardown (drivers id)) = true
        · simpa [hc] using hdb'.trans (releaseRunMachines_settles db' r)
        · simpa [hc] using hdb'

theorem finishable_of_external {db : Db} {id : RunId}
    (h : ∀ r ∈ db.runs.rows, r.id = id → r.kind.isExternal = true) : Finishable db id := by
  intro r hr hid
  have := h r hr hid
  right
  cases hk : r.kind <;> simp_all [RunKind.isExternal, RunKind.notOurs]

theorem setFailureClass_settles (db : Db) (id : RunId) (failureClass : String) :
    Db.Settles db (db.setFailureClass id failureClass) :=
  Db.Settles.setRun fun _ _ _ =>
    ⟨rfl, rfl, rfl, rfl, rfl, rfl, rfl, rfl, fun hl => hl, fun hh => hh⟩

theorem stopBenchmark_settles {db : Db} {launch : Run} {bench : RunId}
    (h : ∀ r ∈ db.runs.rows, r.id = bench → r.kind.isExternal = true) :
    Db.Settles db (stopBenchmark drivers now launch bench db).state := by
  unfold stopBenchmark
  split_ifs
  · have hset := setFailureClass_settles db bench (inheritedClass launch)
    refine hset.trans (finishRow_settles drivers now (finishable_of_external ?_) _ _)
    intro r' hr' hid'
    rcases hset.exists_run hr' with ⟨r, hr, hrr'⟩
    rw [hrr'.kind]
    exact h r hr (hrr'.id.symm.trans hid')
  · exact finishRow_settles drivers now (finishable_of_external h) _ _

theorem isExternal_of_mem_liveBenchmarksOf {db : Db} {launch bench : RunId}
    (h : bench ∈ liveBenchmarksOf db launch) :
    ∀ r ∈ db.runs.rows, r.id = bench → r.kind.isExternal = true := by
  intro r hr hid
  rcases List.mem_map.mp h with ⟨b, hb, rfl⟩
  rcases List.mem_filter.mp hb with ⟨hb, hcond⟩
  have : r = b := Table.eq_of_key_eq hr hb hid
  subst this
  cases hk : r.kind <;> simp_all [Run.launchRunId, RunKind.isExternal]

theorem stopBenchmarksOf_settles (db : Db) (launch : RunId) :
    Db.Settles db (stopBenchmarksOf drivers now db launch).state := by
  unfold stopBenchmarksOf
  split
  · exact Db.Settles.refl db
  · refine Ran.forEach_preserves (I := Db.Settles db) ?_ (Db.Settles.refl db)
    intro bench hbench db' hdb'
    refine hdb'.trans (stopBenchmark_settles drivers now ?_)
    intro r' hr' hid'
    rcases hdb'.exists_run hr' with ⟨r, hr, hrr'⟩
    rw [hrr'.kind]
    exact isExternal_of_mem_liveBenchmarksOf hbench r hr (hrr'.id.symm.trans hid')

theorem finish_settles {db : Db} {id : RunId} (h : Finishable db id) (status : RunStatus)
    (error : String) : Db.Settles db (finish drivers now db id status error).state := by
  refine Ran.andThen_preserves (I := Db.Settles db) (finishRow_settles drivers now h status error) ?_
  intro db' hdb'
  split
  · exact hdb'
  · split_ifs
    · exact hdb'.trans (stopBenchmarksOf_settles drivers now db' id)
    · exact hdb'

theorem confirmTeardown_settles (db : Db) (id : RunId) : Db.Settles db (confirmTeardown db id) := by
  unfold confirmTeardown
  split
  · exact Db.Settles.refl db
  · refine Db.Settles.trans ?_ (releaseRunMachines_settles _ _)
    apply Db.Settles.setRun
    intro r _ _
    refine ⟨rfl, rfl, rfl, rfl, rfl, rfl, rfl, rfl, fun hl => hl, ?_⟩
    simp only [Run.holding, Run.live, Bool.or_false]
    intro hl
    simp [hl]

theorem quarantineMachine_settles (db : Db) (id : MachineId) :
    Db.Settles db (quarantineMachine db id) :=
  Db.Settles.setMachine fun _ => ⟨rfl, rfl, rfl, rfl⟩

theorem reapTeardown_settles (replies : RunId → ReapReplies) (clock : TeardownClock) (now : Time)
    (db : Db) (id : RunId) : Db.Settles db (reapTeardown replies clock now db id) := by
  have hgiveup : ∀ db : Db,
      Db.Settles db (db.setRun id fun r => { r with teardownPending := false }) := by
    intro db
    apply Db.Settles.setRun
    intro r _ _
    refine ⟨rfl, rfl, rfl, rfl, rfl, rfl, rfl, rfl, fun hl => hl, ?_⟩
    simp only [Run.holding, Run.live, Bool.or_false]
    intro hl
    simp [hl]
  unfold reapTeardown
  split
  · exact Db.Settles.refl db
  · split
    · exact Db.Settles.refl db
    · split_ifs
      · exact confirmTeardown_settles db id
      · exact Db.Settles.refl db
    · split_ifs
      · refine Db.Settles.trans ?_ (hgiveup _)
        exact Db.Settles.foldl quarantineMachine_settles _ db
      · split
        · exact Db.Settles.refl db
        · exact Db.Settles.setRun fun r _ _ =>
            ⟨rfl, rfl, rfl, rfl, rfl, rfl, rfl, rfl, fun hl => hl, fun hh => hh⟩
      · exact Db.Settles.refl db

theorem reapTeardowns_settles (replies : RunId → ReapReplies) (clock : TeardownClock) (now : Time)
    (db : Db) : Db.Settles db (reapTeardowns replies clock now db) :=
  Db.Settles.foldl (reapTeardown_settles replies clock now) _ db

end Steps

end AutoTune
