import AutoTune.Lib.Trace
import AutoTune.Api.Leases
import AutoTune.Supervisor.Loops
import AutoTune.Supervisor.Janitor

/-!
# Runs of the supervisor

The worker's loops and the requests that reach the store between them, as one step function. A run
of the system is a list of steps.
-/

namespace AutoTune

open Lib

/-- A table of machines with the leases of `db`: rows may be added without a lease, removed, or
edited in their other columns. -/
def Db.leasesKept (db : Db) (machines : Table Machine.id) : Bool :=
  machines.rows.all fun m =>
    m.leaseState == .none || (db.machines.get? m.id).any fun old => old.leaseState == m.leaseState

/-- What happens to the store between two looks at it: the five loops, the janitor, a run placed or
requested (live, with a fresh id), a lease request, and whatever the API and the rest of the tick
write to the other tables and to a machine's other columns. -/
inductive SupervisorStep where
  | enforceWindows (drivers : RunId → TeardownReplies) (clock : RunId → Time) (why : RunId → String)
      (order : RowOrder RunId)
  | advanceLease (drivers : RunId → TeardownReplies) (now : Time)
      (sessions : RowOrder PolicySession) (order : RowOrder RunId) (machine : MachineId)
  | processStopRequests (drivers : RunId → TeardownReplies) (now : Time)
      (order : RowOrder StopRequest)
  | advanceRuns (drivers : RunId → TeardownReplies) (clock : RunId → Time)
      (observed : RunId → Observed) (order : RowOrder RunId)
  | killSessionRuns (drivers : RunId → TeardownReplies) (now : Time) (order : RowOrder RunId)
      (session : SessionId) (reason : String)
  | reapTeardowns (drivers : RunId → ReapReplies) (clock : TeardownClock) (now : Time)
  | schedule (row : Run)
  | lease (call : LeaseCall)
  | outside (machines : Table Machine.id) (campaigns : Table Campaign.id)
      (candidates : Table Candidate.id) (sessions : Table PolicySession.id)
      (stopRequests : List StopRequest)

namespace SupervisorStep

/-- How the step ends. `_advance_leases` and the session engine catch what one machine or one
session raises; what leaves the other loops ends the tick. -/
def run (db : Db) : SupervisorStep → Ran Db IllegalTransition
  | .enforceWindows drivers clock why order => AutoTune.enforceWindows drivers clock why order db
  | .advanceLease drivers now sessions order machine =>
      AutoTune.advanceLease drivers now sessions order machine db
  | .processStopRequests drivers now order => AutoTune.processStopRequests drivers now order db
  | .advanceRuns drivers clock observed order => AutoTune.advanceRuns drivers clock observed order db
  | .killSessionRuns drivers now order session reason =>
      AutoTune.killSessionRuns drivers now order session reason db
  | .reapTeardowns drivers clock now => Ran.done (AutoTune.reapTeardowns drivers clock now db)
  | .schedule row =>
      Ran.done (if row.live then db.withRun row else db)
  | .lease call => Ran.done (call.apply db)
  | .outside machines campaigns candidates sessions stopRequests =>
      Ran.done (if db.leasesKept machines then
        { db with machines, campaigns, candidates, sessions, stopRequests } else db)

/-- Is an exception of this step caught with its writes kept? -/
def caught : SupervisorStep → Bool
  | .advanceLease .. => true
  | .killSessionRuns .. => true
  | _ => false

/-- The store after the step; a tick that raised is not committed. -/
def apply (db : Db) (s : SupervisorStep) : Db :=
  match (s.run db).raised with
  | none => (s.run db).state
  | some _ => if s.caught then (s.run db).state else db

/-- What the step's writes keep, the step keeps. -/
theorem apply_preserves {I : Db → Prop} {db : Db} (s : SupervisorStep) (hdb : I db)
    (hrun : I (s.run db).state) : I (s.apply db) := by
  unfold apply
  split
  · exact hrun
  · split_ifs
    · exact hrun
    · exact hdb

end SupervisorStep

end AutoTune
