import AutoTune.Supervisor.Advance

/-!
# The loops that end several runs

Five steps of a tick walk a list of live runs read at their start and end some of them:
`_enforce_windows`, `_advance_drain`, `_process_stop_requests`, `_advance_runs` and the session
engine's `_kill_session_runs`. None of their queries orders its rows, so the order is an input.
-/

namespace AutoTune

open Lib

/-- The order an unordered query happens to list its rows in. -/
structure RowOrder (α : Type) where
  arrange : List α → List α
  perm : ∀ l, (arrange l).Perm l

/-- The order of the primary key. -/
def RowOrder.byKey (α : Type) : RowOrder α := ⟨id, fun l => List.Perm.refl l⟩

section

variable (drivers : RunId → TeardownReplies)

/-! ## `_enforce_windows` -/

/-- Has the window of this run's campaign ended at `now`? -/
def Db.windowOver (db : Db) (now : Time) (id : RunId) : Bool :=
  ((db.runs.get? id).bind db.campaignOf).any fun c => c.windowEnd.any fun e => decide (e ≤ now)

/-- `_enforce_windows`. `clock` is the time read when the loop reaches a run, `why` the reason a
plugin shut the campaign's window for, or the cutoff. -/
def enforceWindows (clock : RunId → Time) (why : RunId → String) (order : RowOrder RunId) (db : Db) :
    Ran Db IllegalTransition :=
  Ran.forEach
    (fun id db =>
      if db.windowOver (clock id) id then finish drivers (clock id) db id .killed (why id)
      else Ran.done db)
    (order.arrange (db.liveRuns.map Run.id)) db

/-! ## `_advance_leases` -/

/-- `drain_kills_running`. -/
def drainKillsRunning (m : Machine) (now : Time) : Bool :=
  m.leaseState == .draining &&
    (m.leaseEndMode == .eager || m.leaseDeadlineAt.any fun d => decide (d ≤ now))

/-- `lease_expired`. -/
def leaseExpired (m : Machine) (now : Time) : Bool :=
  m.leaseState == .active && m.leaseDueAt.any fun d => decide (d ≤ now)

/-- `frozen_by_pause`: the only live claim on the machine is a paused campaign. -/
def Db.frozenByPause (db : Db) (m : Machine) : Bool :=
  let using_ := db.campaigns.rows.filter fun c =>
    (c.status == .active || c.status == .scheduled || c.status == .paused) &&
      (c.machineNames.isEmpty || c.machineNames.contains m.name)
  (using_.any fun c => c.status == .paused) &&
    !(using_.any fun c => c.status == .active || c.status == .scheduled)

/-- `_begin_drain`. -/
def beginDrain (db : Db) (id : MachineId) (mode : LeaseEndMode) : Db :=
  db.setMachine id fun m => { m with leaseState := .draining, leaseEndMode := mode }

/-- The live session of a draining machine is told to abort or to finalize. -/
def drainSession (db : Db) (s : PolicySession) (kills : Bool) (now : Time) : Db :=
  if kills then
    db.setSession s.id fun s => { s with abortRequestedAt := some (s.abortRequestedAt.getD now) }
  else
    db.setSession s.id fun s =>
      { s with finalizeRequestedAt := some (s.finalizeRequestedAt.getD now) }

/-- The machine goes back as it is. -/
def releaseLease (db : Db) (id : MachineId) (now : Time) : Db :=
  db.setMachine id fun m =>
    { m with leaseState := .released, leaseReleasedAt := some now, state := .away }

/-- `_advance_drain`. -/
def advanceDrain (now : Time) (sessions : RowOrder PolicySession) (order : RowOrder RunId) (db : Db)
    (m : Machine) : Ran Db IllegalTransition :=
  match sessions.arrange (db.liveSessionsOn m.id) with
  | s :: _ => Ran.done (drainSession db s (drainKillsRunning m now) now)
  | [] =>
      let live := (db.liveRunsOn m.id).map Run.id
      if !live.isEmpty then
        if !drainKillsRunning m now then Ran.done db
        else Ran.forEach (fun id db => finish drivers now db id .killed "lease ended")
          (order.arrange live) db
      else Ran.done (releaseLease db m.id now)

/-- The lease has lapsed and nobody asked: drain politely, unless a pause froze the machine. -/
def expireLease (now : Time) (id : MachineId) (db : Db) : Db :=
  match db.machines.get? id with
  | none => db
  | some m => if leaseExpired m now && !db.frozenByPause m then beginDrain db id .polite else db

/-- The body of `_advance_leases` for one machine, before its exception handler. -/
def advanceLease (now : Time) (sessions : RowOrder PolicySession) (order : RowOrder RunId)
    (id : MachineId) (db : Db) : Ran Db IllegalTransition :=
  let db := expireLease now id db
  match db.machines.get? id with
  | none => Ran.done db
  | some m =>
      if m.leaseState ≠ .draining then Ran.done db
      else advanceDrain drivers now sessions order db m

/-! ## `_process_stop_requests` -/

/-- The error of a run a user stopped. -/
def userStopError : String := "stopped by user"

/-- Stop on the campaign ends what is running, not the search: the config is queued again. -/
def Db.giveBack (db : Db) (r : Run) : Db :=
  (db.setRun r.id fun r =>
    { r with
      failureClass := released
      error := "stopped with the campaign; measured again when it starts" }).requeue r.candidateId

/-- One stop request. The run is looked at again: stopping a launch stops the benchmarks on it,
which may have stop requests of their own. -/
def processStop (now : Time) (e : StopRequest) (db : Db) : Ran Db IllegalTransition :=
  match db.runs.get? e.runId with
  | none => Ran.done db
  | some r =>
      if r.status.terminal then Ran.done db
      else
        (finish drivers now db e.runId .killed userStopError).andThen fun db =>
          if e.forceStop && r.kind != .policyLaunch && !r.kind.isExternal then
            Ran.done (db.giveBack r)
          else Ran.done db

/-- `_process_stop_requests`. -/
def processStopRequests (now : Time) (order : RowOrder StopRequest) (db : Db) :
    Ran Db IllegalTransition :=
  Ran.forEach (processStop drivers now)
    (order.arrange
      (db.stopRequests.filter fun e => (db.liveRuns.map Run.id).contains e.runId)) db

/-! ## `_advance_runs` and `_kill_session_runs` -/

/-- `_advance_runs`. -/
def advanceRuns (clock : RunId → Time) (observed : RunId → Observed) (order : RowOrder RunId)
    (db : Db) : Ran Db IllegalTransition :=
  Ran.forEach (fun id db => advanceOne drivers (clock id) (observed id) db id)
    (order.arrange (db.liveRuns.map Run.id)) db

/-- The live runs of a policy session. -/
def Db.liveRunsOfSession (db : Db) (session : SessionId) : List Run :=
  db.runs.rows.filter fun r => r.policySessionId == some session && r.live

/-- `_kill_session_runs`. -/
def killSessionRuns (now : Time) (order : RowOrder RunId) (session : SessionId) (reason : String)
    (db : Db) : Ran Db IllegalTransition :=
  Ran.forEach (fun id db => finish drivers now db id .killed reason)
    (order.arrange ((db.liveRunsOfSession session).map Run.id)) db

end

end AutoTune
