import AutoTune.Lib.Ran
import AutoTune.Store.Occupancy

/-!
# Ending a run

`_transition`, `_finish` and what they call: the run state machine, the graceful half of a teardown,
giving machines back, and the benchmarks that end with the launch they measure. Driver calls are
replies: every function here is given what the driver answered.
-/

namespace AutoTune

open Lib

/-! ## The run state machine -/

/-- `ALLOWED_TRANSITIONS`. -/
def allowedTransitions : RunStatus → List RunStatus
  | .pending => [.launching, .killed, .failed]
  | .launching => [.waitingReady, .healthCheck, .failed, .killed]
  | .waitingReady => [.healthCheck, .failed, .killed]
  | .healthCheck => [.benching, .serving, .failed, .killed]
  | .benching => [.succeeded, .failed, .killed]
  | .serving => [.succeeded, .failed, .killed]
  | .succeeded => []
  | .failed => []
  | .killed => []

def canTransition (current target : RunStatus) : Bool :=
  (allowedTransitions current).contains target

/-- The RuntimeError of `_transition`. -/
structure IllegalTransition where
  run : RunId
  source : RunStatus
  target : RunStatus
deriving DecidableEq, Repr

/-- Record the `run_transition` event and write the status. -/
def Db.moveRun (db : Db) (id : RunId) (source target : RunStatus) : Db :=
  { db with
    transitions := db.transitions ++ [⟨id, source, target⟩]
    runs := db.runs.modify id fun r => { r with status := target } }

theorem Db.mem_moveRun {db : Db} {id : RunId} {source target : RunStatus} {r' : Run} :
    r' ∈ (db.moveRun id source target).runs.rows ↔
      ∃ r ∈ db.runs.rows, r' = if r.id = id then { r with status := target } else r := by
  simp [Db.moveRun, eq_comm]

/-- `_transition`: refuse an illegal move. -/
def transition (db : Db) (id : RunId) (target : RunStatus) : Ran Db IllegalTransition :=
  match db.runs.get? id with
  | none => Ran.done db
  | some r =>
      if canTransition r.status target then Ran.done (db.moveRun id r.status target)
      else Ran.raise db ⟨id, r.status, target⟩

/-- A legal target is reached from a live run only. -/
theorem live_of_canTransition {current target : RunStatus}
    (h : canTransition current target = true) : current.terminal = false := by
  cases current <;> simp_all [canTransition, allowedTransitions, RunStatus.terminal]

/-- A row after a transition is a row before it, moved on if it was live. -/
theorem transition_row {db : Db} {id : RunId} {target : RunStatus} {r' : Run}
    (h : r' ∈ (transition db id target).state.runs.rows) :
    r' ∈ db.runs.rows ∨ ∃ r ∈ db.runs.rows, r.live = true ∧ r' = { r with status := target } := by
  unfold transition at h
  cases hget : db.runs.get? id with
  | none =>
      rw [hget] at h
      exact Or.inl h
  | some q =>
      rw [hget] at h
      dsimp only at h
      split_ifs at h with hcan
      · rcases Db.mem_moveRun.mp h with ⟨r, hr, rfl⟩
        split_ifs with hid
        · have hrq : r = q := Table.eq_of_key_eq hr (Table.get?_eq_some_iff.mp hget).1
            (hid.trans (Table.get?_eq_some_iff.mp hget).2.symm)
          refine Or.inr ⟨r, hr, ?_, rfl⟩
          simp [Run.live, hrq, live_of_canTransition hcan]
        · exact Or.inl hr
      · exact Or.inl h

/-! ## Teardown -/

/-- A driver call's answer: a value, or an exception. -/
inductive Reply (α : Type) where
  | value (a : α)
  | raised
deriving DecidableEq, Repr

/-- What a driver says of a deployment: loading, answering, exited, not found. -/
inductive DeploymentState where
  | starting
  | ready
  | crashed
  | gone
deriving DecidableEq, Repr

/-- What a run's driver answers while it is being torn down. `attach` is whether a handle was
found. -/
structure TeardownReplies where
  attach : Reply Bool
  requestStop : Reply Unit
  isGone : Reply Bool
  releaseLeftovers : Reply Bool
deriving DecidableEq, Repr

/-- `_begin_teardown`: is the container already gone? When it is not, the caller leaves the run
with `teardown_pending`. -/
def beginTeardown (d : TeardownReplies) : Bool :=
  match d.attach with
  | .raised => false
  | .value false => d.releaseLeftovers == .value true
  | .value true =>
      d.requestStop == .value () && d.isGone == .value true && d.releaseLeftovers == .value true

/-! ## Giving machines back -/

/-- `_release_machine_if_idle`: RESERVED to AVAILABLE once nothing is left holding the box. -/
def releaseMachineIfIdle (db : Db) (id : MachineId) : Db :=
  match db.machines.get? id with
  | none => db
  | some m =>
      if m.state != .reserved then db
      else if !(db.liveRunsOn id).isEmpty then db
      else if !(db.teardownPendingOn id).isEmpty then db
      else if db.machineHasLiveSession id then db
      else db.setMachine id fun m => { m with state := .available }

/-- `_release_run_machines`: offer every machine this run occupied back to the fleet. -/
def releaseRunMachines (db : Db) (r : Run) : Db :=
  (r.nodes.filterMap RunNode.machineId).foldl releaseMachineIfIdle db

/-! ## `_finish` -/

/-- Runs whose deployment is not ours to destroy. -/
def RunKind.notOurs : RunKind → Bool
  | .baseline => true
  | .external _ => true
  | _ => false

/-- The columns `_finish` writes before the transition. -/
def Db.stampFinished (db : Db) (id : RunId) (now : Time) (error : String) (cleaned : Bool) : Db :=
  db.setRun id fun r =>
    { r with
      teardownPending := r.teardownPending || !cleaned
      error := if error = "" then r.error else error
      finishedAt := some now }

/-- `_finish` up to the launch clause: tear down, stamp, transition, give the machines back. -/
def finishRow (drivers : RunId → TeardownReplies) (now : Time) (db : Db) (id : RunId)
    (status : RunStatus) (error : String) : Ran Db IllegalTransition :=
  match db.runs.get? id with
  | none => Ran.done db
  | some r =>
      let cleaned := r.kind.notOurs || beginTeardown (drivers id)
      (transition (db.stampFinished id now error cleaned) id status).andThen fun db =>
        Ran.done (if cleaned then releaseRunMachines db r else db)

/-- The error a benchmark stopped with its launch is given. -/
def stoppedWithLaunch (launch : Run) : String :=
  let detail := if launch.error != "" then launch.error
    else if launch.failureClass != "" then launch.failureClass else "crashed"
  if launch.status = .failed then
    "the engine under test stopped mid-benchmark (launch " ++ toString launch.id ++ "): " ++
      String.ofList (detail.toList.take 300)
  else
    "the engine under test was released mid-benchmark (launch " ++ toString launch.id ++ ")"

/-- The failure class a benchmark inherits from a crashed launch. -/
def inheritedClass (launch : Run) : String :=
  if launch.failureClass != "" then launch.failureClass else "engine_crashed"

def Db.setFailureClass (db : Db) (id : RunId) (failureClass : String) : Db :=
  db.setRun id fun r => { r with failureClass := failureClass }

/-- One iteration of `_stop_benchmarks_of`. A benchmark is an EXTERNAL run, so its own `_finish`
has no launch clause to recurse into. -/
def stopBenchmark (drivers : RunId → TeardownReplies) (now : Time) (launch : Run) (bench : RunId)
    (db : Db) : Ran Db IllegalTransition :=
  if launch.status = .failed then
    finishRow drivers now (db.setFailureClass bench (inheritedClass launch)) bench .failed
      (stoppedWithLaunch launch)
  else
    finishRow drivers now db bench .killed (stoppedWithLaunch launch)

/-- The live benchmarks of a launch. -/
def liveBenchmarksOf (db : Db) (launch : RunId) : List RunId :=
  (db.runs.rows.filter fun r => r.launchRunId == some launch && r.live).map Run.id

/-- `_stop_benchmarks_of`. -/
def stopBenchmarksOf (drivers : RunId → TeardownReplies) (now : Time) (db : Db) (launch : RunId) :
    Ran Db IllegalTransition :=
  match db.runs.get? launch with
  | none => Ran.done db
  | some l => Ran.forEach (stopBenchmark drivers now l) (liveBenchmarksOf db launch) db

/-- `_finish`: a finished launch takes its benchmarks with it. -/
def finish (drivers : RunId → TeardownReplies) (now : Time) (db : Db) (id : RunId)
    (status : RunStatus) (error : String) : Ran Db IllegalTransition :=
  (finishRow drivers now db id status error).andThen fun db' =>
    match db'.runs.get? id with
    | none => Ran.done db'
    | some r =>
        if r.kind = .policyLaunch then stopBenchmarksOf drivers now db' id else Ran.done db'

/-! ## `_fail` -/

/-- `INFRASTRUCTURE_FAILURES`. -/
def infrastructureFailures : List String :=
  ["ssh_timeout", "image_missing", "image_pull", "gone", "orphaned", "killed_externally",
    "engine_replaced", "port_conflict", "gpu_busy", "mount_failed", "unschedulable",
    "sandbox_failed", "unplaceable", "cluster_setup"]

/-- `MAX_ATTEMPTS_PER_CANDIDATE`. -/
def maxAttemptsPerCandidate : Nat := 3

/-- The failure class of a run the platform withdrew itself. -/
def released : String := "released"

/-- `_requeue_if_infrastructure`: give a candidate its slot back when it was not its fault. -/
def requeueIfInfrastructure (db : Db) (id : RunId) : Db :=
  match db.runs.get? id with
  | none => db
  | some r =>
      if r.kind ≠ .experiment then db
      else if !infrastructureFailures.contains r.failureClass then db
      else
        let attempts := (db.runs.rows.filter fun o =>
          o.candidateId == r.candidateId && o.failureClass != released).length
        if maxAttemptsPerCandidate ≤ attempts then db
        else db.requeue r.candidateId

/-- `_fail`. -/
def fail (drivers : RunId → TeardownReplies) (now : Time) (db : Db) (id : RunId)
    (failureClass error : String) : Ran Db IllegalTransition :=
  (finish drivers now (db.setFailureClass id failureClass) id .failed error).andThen fun db =>
    Ran.done (requeueIfInfrastructure db id)

end AutoTune
