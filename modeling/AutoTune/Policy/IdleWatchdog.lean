import AutoTune.Lib.Trace
import AutoTune.Api.Benchmarks
import AutoTune.Policy.Lifecycle
import AutoTune.Policy.Visits

/-!
# The idle watchdog

The worker strikes a searching session once per idle window and ends the search at the last strike. A
delegated request marks the session's activity in memory and clears the strikes; the mark reaches the
store only if the request's handler commits, and most of the checks after it leave without a commit.
-/

namespace AutoTune

open Lib

/-! ## The watchdog -/

/-- `search_idle_timeout_s or policy_search_idle_seconds`. -/
def idleTimeout (knobs : PolicySettings) (settings : ClockDefaults) : Nat :=
  (orNumber knobs.searchIdleTimeoutS none).getD settings.policySearchIdleSeconds

/-- The newest of the clocks idleness is measured from. -/
def Beats.idleReference (b : Beats) (timeout : Nat) (lastRun : Option Time) (moment : Time) : Time :=
  [b.lastActivityAt, lastRun, b.startedAt].reduceOption.foldl max (moment - (timeout + 1))

/-- Is the session idle past the window, and its last strike a window ago? -/
def Beats.earnsStrike (b : Beats) (timeout : Nat) (lastRun : Option Time) (moment : Time) : Bool :=
  timeout ≤ moment - b.idleReference timeout lastRun moment &&
    timeout ≤ moment - b.lastIdleStrikeAt.getD (b.idleReference timeout lastRun moment)

/-- `_idle_watchdog`: the columns it leaves, and whether the search ends. -/
def idleWatchdog (knobs : PolicySettings) (settings : ClockDefaults) (inflight : Bool)
    (lastRun : Option Time) (moment : Time) (b : Beats) : Beats × Bool :=
  if inflight then (b, false)
  else if !b.earnsStrike (idleTimeout knobs settings) lastRun moment then (b, false)
  else
    ({ b with idleStrikes := b.idleStrikes + 1, lastIdleStrikeAt := some moment },
      decide (knobs.searchIdleStrikes ≤ b.idleStrikes + 1))

/-- Does the visit of a session come to `_idle_watchdog`? -/
def reachesWatchdog (id : SessionId) (f : SessionFinds) (now : Time) (db : Db) : Bool :=
  match db.sessions.get? id with
  | none => false
  | some s =>
      match db.campaigns.get? s.campaignId with
      | none => false
      | some c =>
          !(s.abortRequestedAt.isSome && s.live) &&
            !((hardDeadline c (s.machineId.bind db.machines.get?)).any (fun h => decide (h ≤ now)) &&
              s.status != .pending) &&
            s.status == .searching && !f.workload.dead && f.silent.isNone && f.said == .working &&
            !(s.finalizedAt.isSome || s.finalizeRequestedAt.isSome || f.searchOver)

/-! ## The requests -/

/-- `_mark_activity`. -/
def Beats.markActivity (b : Beats) (now : Time) : Beats :=
  { b with
    lastActivityAt := some now
    idleStrikes := 0
    lastIdleStrikeAt := none
    policyStatus := if b.policyStatus = .exhausted then .working else b.policyStatus }

/-- A transaction writes the columns it changed since it read them. -/
def Beats.flush (row read written : Beats) : Beats :=
  { row with
    lastActivityAt :=
      if written.lastActivityAt = read.lastActivityAt then row.lastActivityAt else written.lastActivityAt
    idleStrikes := if written.idleStrikes = read.idleStrikes then row.idleStrikes else written.idleStrikes
    lastIdleStrikeAt :=
      if written.lastIdleStrikeAt = read.lastIdleStrikeAt then row.lastIdleStrikeAt
      else written.lastIdleStrikeAt
    policyStatus :=
      if written.policyStatus = read.policyStatus then row.policyStatus else written.policyStatus }

/-- `POST /launches`, `POST /launches/{id}/benchmarks` and `POST /benchmarks`. -/
inductive Delegated where
  | launch (body : LaunchIn)
  | benchLaunch (body : LaunchBenchmarkIn)
  | benchExternal (body : ExternalBenchmarkIn)
deriving DecidableEq, Repr

/-- What is checked before the mark. -/
def Delegated.admitted (s : PolicySession) (now : Time) : Delegated → Bool
  | .launch body => (requireExploring s body.searchDeadline now).isOk
  | .benchLaunch body => (requireScreening s body.suite body.searchDeadline now).isOk
  | .benchExternal body => (requireScreening s body.suite body.searchDeadline now).isOk

/-- What is done after it: the store that is committed, or nothing if the handler raises without a
commit. A config that its validation refuses is the one refusal that is committed, with its audit. -/
def Delegated.answer (id : SessionId) (db : Db) : Delegated → Option Db
  | .launch body =>
      match db.sessions.get? id with
      | none => none
      | some s =>
          if (db.idempotentRun id body.idempotencyKey).isSome then some db
          else
            match body.config with
            | none => some db
            | some config =>
                match launchAllocation s (s.machineId.bind db.machines.get?) (db.liveSessionRuns id) body
                  config with
                | .error _ => none
                | .ok (cards, port) => some (addLaunch db s body config cards port)
  | .benchLaunch body =>
      match db.sessions.get? id, db.servingLaunch id body.runId with
      | some s, .ok parent =>
          if (db.idempotentRun id body.idempotencyKey).isSome then some db
          else some (addLaunchBenchmark s body.idempotencyKey parent db)
      | _, _ => none
  | .benchExternal body =>
      match db.sessions.get? id with
      | none => none
      | some s =>
          match checkSelfServed s body with
          | .error _ => none
          | .ok () =>
              if (db.idempotentRun id body.idempotencyKey).isSome then some db
              else
                match requireReachable (s.machineId.bind db.machines.get?), body.config with
                | .error _, _ => none
                | .ok (), none => some db
                | .ok (), some config => some (addExternalBenchmark s body config db)

/-- `request_launch` with nobody in between: its checks, its mark, its answer. -/
theorem requestLaunch_answer {id : SessionId} {db : Db} {s : PolicySession}
    (hget : db.sessions.get? id = some s) (body : LaunchIn) :
    requestLaunch id body db =
      if (Delegated.launch body).admitted s body.now then ((Delegated.launch body).answer id db).getD db
      else db := by
  unfold requestLaunch markActivity decideLaunch Delegated.admitted Delegated.answer
  simp only [hget]
  cases requireExploring s body.searchDeadline body.now with
  | error e => rfl
  | ok u =>
      cases (db.idempotentRun id body.idempotencyKey).isSome with
      | true => rfl
      | false =>
          cases body.config with
          | none => rfl
          | some config =>
              dsimp only
              cases launchAllocation s (s.machineId.bind db.machines.get?) (db.liveSessionRuns id) body
                config <;> rfl

/-- `bench_launch` likewise. -/
theorem benchLaunch_answer {id : SessionId} {db : Db} {s : PolicySession}
    (hget : db.sessions.get? id = some s) (body : LaunchBenchmarkIn) :
    benchLaunch id body db =
      if (Delegated.benchLaunch body).admitted s body.now then
        ((Delegated.benchLaunch body).answer id db).getD db
      else db := by
  unfold benchLaunch Delegated.admitted Delegated.answer
  simp only [hget]
  cases requireScreening s body.suite body.searchDeadline body.now with
  | error e => rfl
  | ok u =>
      cases db.servingLaunch id body.runId with
      | error e => rfl
      | ok parent => cases (db.idempotentRun id body.idempotencyKey).isSome <;> rfl

/-- `bench_external` likewise. -/
theorem benchExternal_answer {id : SessionId} {db : Db} {s : PolicySession}
    (hget : db.sessions.get? id = some s) (body : ExternalBenchmarkIn) :
    benchExternal id body db =
      if (Delegated.benchExternal body).admitted s body.now then
        ((Delegated.benchExternal body).answer id db).getD db
      else db := by
  unfold benchExternal Delegated.admitted Delegated.answer
  simp only [hget]
  cases requireScreening s body.suite body.searchDeadline body.now with
  | error e => rfl
  | ok u =>
      cases checkSelfServed s body with
      | error e => rfl
      | ok v =>
          cases (db.idempotentRun id body.idempotencyKey).isSome with
          | true => rfl
          | false =>
              cases requireReachable (s.machineId.bind db.machines.get?) with
              | error e => rfl
              | ok v => cases body.config <;> rfl

/-! ## The session's days -/

/-- A request between its mark and its end: what it read of the session, and when it marked it. -/
structure RequestUnderWay where
  request : Delegated
  read : Beats
  markedAt : Time

/-- A session with its requests. `begun` is `coalesce(started_at, created_at)`, `closed` the marks of the
requests that ended. -/
structure Vigil where
  db : Db
  beats : Beats := {}
  begun : RunId → Option Time := fun _ => none
  opened : List RequestUnderWay := []
  closed : List Time := []
  clock : Time := 0

/-- What happens to a session: the worker visits it, a run moves on or ends, a heartbeat comes, a request
marks the activity, an open request ends. -/
inductive VigilMove where
  | tick (f : SessionFinds) (drivers : RunId → TeardownReplies) (order : RowOrder RunId)
  | move (run : RunId) (target : RunStatus)
  | finish (drivers : RunId → TeardownReplies) (run : RunId) (status : RunStatus) (error : String)
  | beat (said : PolicySaid)
  | ask (request : Delegated)
  | answer (k : Nat)

structure VigilEvent where
  elapsed : Nat
  move : VigilMove

/-- A heartbeat; a later empty status does not clear a standing one. -/
def Beats.beat (b : Beats) (said : PolicySaid) (now : Time) : Beats :=
  { b with
    firstHeartbeatAt := some (b.firstHeartbeatAt.getD now)
    lastHeartbeatAt := some now
    policyStatus := if said = .working then b.policyStatus else said }

section

variable (knobs : PolicySettings) (settings : ClockDefaults) (id : SessionId)

namespace Vigil

/-- `max(coalesce(finished_at, started_at, created_at))` over the session's runs. -/
def lastRunAt (w : Vigil) : Option Time :=
  ((w.db.runs.rows.filter fun r => r.policySessionId == some id).filterMap fun r =>
    r.finishedAt.or (w.begun r.id)).max?

/-- What the worker's visit finds of the session's own columns. -/
def finds (w : Vigil) (f : SessionFinds) : SessionFinds :=
  { f with firstHeartbeat := w.beats.firstHeartbeatAt.isSome, said := w.beats.policyStatus }

/-- The watchdog's part of a visit. -/
def watched (w : Vigil) (f : SessionFinds) (now : Time) : Beats × Bool :=
  if reachesWatchdog id (w.finds f) now w.db then
    idleWatchdog knobs settings (!(w.db.liveRunsOfSession id).isEmpty) (w.lastRunAt id) now w.beats
  else (w.beats, false)

/-- Does a visit earn the session a strike? -/
def strikes (w : Vigil) (f : SessionFinds) (now : Time) : Bool :=
  reachesWatchdog id (w.finds f) now w.db && (w.db.liveRunsOfSession id).isEmpty &&
    w.beats.earnsStrike (idleTimeout knobs settings) (w.lastRunAt id) now

/-- Did the session start between two stores? -/
def starts (db db' : Db) : Bool :=
  ((db.sessions.get? id).any fun s => s.status == .pending) &&
    (db'.sessions.get? id).any fun s => s.status == .starting

/-- `_advance_one`. -/
def tick (f : SessionFinds) (drivers : RunId → TeardownReplies) (order : RowOrder RunId) (now : Time)
    (w : Vigil) : Vigil :=
  let seen := w.watched knobs settings id f now
  let db := (advanceSession drivers now order { w.finds f with idle := seen.2 } id w.db).state
  { w with db := db, beats := if starts id w.db db then { seen.1 with startedAt := some now } else seen.1 }

/-- An open request ends. -/
def close (k : Nat) (now : Time) (w : Vigil) : Vigil :=
  match w.opened[k]? with
  | none => w
  | some a =>
      let w' := { w with opened := w.opened.eraseIdx k, closed := w.closed ++ [a.markedAt] }
      match a.request.answer id w.db with
      | none => w'
      | some db =>
          { w' with
            db := db
            beats := w.beats.flush a.read (a.read.markActivity a.markedAt)
            begun := fun r => if (w.db.runs.get? r).isNone then some now else w.begun r }

/-- A request that passes its first checks marks the session's activity. -/
def mark (request : Delegated) (now : Time) (w : Vigil) : Vigil :=
  match w.db.sessions.get? id with
  | none => w
  | some s =>
      if request.admitted s now then { w with opened := w.opened ++ [⟨request, w.beats, now⟩] } else w

/-- What a move does at its time. -/
def happen (w : Vigil) (now : Time) : VigilMove → Vigil
  | .tick f drivers order => w.tick knobs settings id f drivers order now
  | .move run target =>
      if target.terminal then w else { w with db := (transition w.db run target).state }
  | .finish drivers run status error =>
      if w.db.isLive run && status.terminal then
        { w with db := (AutoTune.finish drivers now w.db run status error).state }
      else w
  | .beat said => { w with beats := w.beats.beat said now }
  | .ask request => w.mark id request now
  | .answer k => w.close id k now

def act (w : Vigil) (e : VigilEvent) : Vigil :=
  { w.happen knobs settings id (w.clock + e.elapsed) e.move with clock := w.clock + e.elapsed }

/-! ## What is asked of it -/

/-- No request was made after `t`, and every run of the session was over by then. -/
structure IdleSince (w : Vigil) (t : Time) : Prop where
  opened : ∀ a ∈ w.opened, a.markedAt ≤ t
  closed : ∀ a ∈ w.closed, a ≤ t
  runs : ∀ r ∈ w.db.runs.rows, r.policySessionId = some id →
    r.live = false ∧ ∃ f, r.finishedAt = some f ∧ f ≤ t

/-- The event takes the session into FINALIZING for idleness. -/
def entersIdle (w : Vigil) (e : VigilEvent) : Bool :=
  ((w.db.sessions.get? id).all fun s => s.status != .finalizing) &&
    ((w.act knobs settings id e).db.sessions.get? id).any fun s =>
      s.status == .finalizing && s.searchEndReason == "policy_idle"

/-- If the session is ended for idleness, it was idle for all windows but one. -/
def EndsWhenIdle (w : Vigil) (e : VigilEvent) : Prop :=
  w.entersIdle knobs settings id e = true →
    (w.act knobs settings id e).IdleSince id ((w.act knobs settings id e).clock -
      ((knobs.searchIdleStrikes - 1) * idleTimeout knobs settings : Nat))

/-- A request that ends while the session has strikes is committed, and no strike is earned while a
request is open. -/
def Heard (w : Vigil) (e : VigilEvent) : Prop :=
  match e.move with
  | .tick f _ _ => w.opened = [] ∨ w.strikes knobs settings id f (w.clock + e.elapsed) = false
  | .answer k => ∀ a, w.opened[k]? = some a →
      w.beats.idleStrikes = 0 ∨ (a.request.answer id w.db).isSome = true
  | _ => True

/-- A session that nobody has worked on yet. -/
structure Fresh (w : Vigil) : Prop where
  pending : ∀ s, w.db.sessions.get? id = some s → s.status = .pending ∧ s.searchEndReason = ""
  unused : ∀ r ∈ w.db.runs.rows, r.policySessionId ≠ some id
  strikes : w.beats.idleStrikes = 0
  opened : w.opened = []
  closed : w.closed = []

end Vigil

end

end AutoTune
