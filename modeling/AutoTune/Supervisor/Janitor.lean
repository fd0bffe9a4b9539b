import AutoTune.Supervisor.Finish

/-!
# The teardown janitor

`_reap_teardowns`: each tick, per run still marked `teardown_pending`, confirm that its container
vanished, or force it once the grace has elapsed, or give up and quarantine the machine.
-/

namespace AutoTune

open Lib

/-- `_confirm_teardown`. -/
def confirmTeardown (db : Db) (id : RunId) : Db :=
  match db.runs.get? id with
  | none => db
  | some r => releaseRunMachines (db.setRun id fun r => { r with teardownPending := false }) r

/-- `_quarantine_machine`. -/
def quarantineMachine (db : Db) (id : MachineId) : Db :=
  db.setMachine id fun m => { m with needsAttention := true }

/-- What a run's driver answers the janitor. `unfinished` names the machines of the nodes that are
still there. -/
structure ReapReplies where
  attach : Reply Bool
  releaseLeftovers : Reply Bool
  unfinished : Reply (List String)
  teardown : Reply Unit
deriving DecidableEq, Repr

/-- `teardown_grace_seconds` and `teardown_giveup_seconds`. -/
structure TeardownClock where
  grace : Time
  giveup : Time
deriving DecidableEq, Repr

/-- Seconds since the run finished. -/
def Run.elapsed (r : Run) (now : Time) : Time := now - r.finishedAt.getD now

/-- The machines a run that would not tear down is stuck on. -/
def stuckMachines (db : Db) (r : Run) (unfinished : Reply (List String)) : List MachineId :=
  let own := (r.machineId.bind db.machines.get?).toList.map Machine.name
  let names := match unfinished with
    | .value [] => own
    | .value names => names
    | .raised => own
  match (db.machines.rows.filter fun m => names.contains m.name).map Machine.id with
  | [] => r.machineId.toList
  | ids => ids

/-- One iteration of `_reap_teardowns`. -/
def reapTeardown (drivers : RunId → ReapReplies) (clock : TeardownClock) (now : Time) (db : Db)
    (id : RunId) : Db :=
  match db.runs.get? id with
  | none => db
  | some r =>
      match (drivers id).attach with
      | .raised => db
      | .value false =>
          if (drivers id).releaseLeftovers == .value true || decide (clock.giveup ≤ r.elapsed now)
          then confirmTeardown db id
          else db
      | .value true =>
          if clock.giveup ≤ r.elapsed now then
            ((stuckMachines db r (drivers id).unfinished).foldl quarantineMachine db).setRun id
              fun r => { r with teardownPending := false }
          else if clock.grace ≤ r.elapsed now then
            match (drivers id).teardown with
            | .raised => db
            | .value _ => db.setRun id fun r => { r with teardownAttempts := r.teardownAttempts + 1 }
          else db

/-- `_reap_teardowns`. -/
def reapTeardowns (drivers : RunId → ReapReplies) (clock : TeardownClock) (now : Time) (db : Db) :
    Db :=
  ((db.runs.rows.filter Run.teardownPending).map Run.id).foldl (reapTeardown drivers clock now) db

end AutoTune
