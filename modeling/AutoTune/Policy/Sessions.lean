import AutoTune.Policy.Allocation
import AutoTune.Policy.Schedule
import AutoTune.Supervisor.Loops

/-!
# The policy-session state machine

One session is one policy container's night on one machine. Each tick opens the sessions of the
windows that opened, and advances every live session by one step; what a step finds outside (the
image, the container, the policy's own words, clocks measured against settings) is an input.
-/

namespace AutoTune

open Lib

/-! ## What a step finds -/

/-- `WorkloadState`. -/
inductive WorkloadState where
  | running
  | exited
  | gone
deriving DecidableEq, Repr

def WorkloadState.value : WorkloadState → String
  | .running => "running"
  | .exited => "exited"
  | .gone => "gone"

/-- A container that will not come back. -/
def WorkloadState.dead (w : WorkloadState) : Bool := w != .running

/-- What `ensure_image` answers: a cold image pulls in the background first. -/
inductive ImageReply where
  | ready
  | deferred
  | failed (error : String)
deriving DecidableEq, Repr

/-- What the policy last said of itself. -/
inductive PolicySaid where
  | working
  | exhausted
  | error
deriving DecidableEq, Repr

/-- What one step of a session finds. `startFailure` is the driver's reason that is not a transient
placement failure; `launchError` what `launch_workload` raised; `deathLog` the last lines of a dead
container's output; `waited`, `silent`, `searchOver`, `idle`
and `graceOver` compare a clock with its limit; `validations` are the configs to launch,
`otherValidations` and `measuring` what else keeps the session from ending. -/
structure SessionFinds where
  apiUrlsSet : Bool := true
  policyExists : Bool := true
  apiUrl : Bool := true
  image : ImageReply := .ready
  launchError : Option String := none
  firstHeartbeat : Bool := false
  workload : WorkloadState := .running
  deathLog : String := ""
  startFailure : Option (String × String) := none
  startTimeoutMinutes : Nat := 30
  waited : Bool := false
  silent : Option Nat := none
  said : PolicySaid := .working
  searchOver : Bool := false
  idle : Bool := false
  graceOver : Bool := false
  validations : List LaunchConfig := []
  otherValidations : Bool := false
  measuring : Bool := false
deriving DecidableEq, Repr

/-! ## Creation -/

/-- One campaign of `_ensure_sessions`: one session per window occurrence, never resurrected. -/
def ensureSession (db : Db) (c : Campaign) : Db :=
  match c.windowStart with
  | none => db
  | some window =>
      if db.sessions.rows.any fun s => s.campaignId == c.id && s.windowStart == some window then db
      else { db with sessions := db.sessions.insert (pendingSession c.id window) }

/-- `_ensure_sessions`. -/
def ensureSessions (db : Db) : Db :=
  (db.campaigns.rows.filter fun c => c.status == .active && c.policyId.isSome).foldl ensureSession db

/-! ## Ending -/

/-- `hard_deadline`: the window's end, capped by the lease. -/
def hardDeadline (c : Campaign) (m : Option Machine) : Option Time :=
  match c.windowEnd, m.bind Machine.leaseDueAt with
  | some e, some d => some (min e d)
  | some e, none => some e
  | none, d => d

/-- The columns `_terminate` writes. -/
def PolicySession.ended (s : PolicySession) (status : SessionStatus) (error failureClass : String) :
    PolicySession :=
  { s with
    failureClass := if s.failureClass = "" then failureClass else s.failureClass
    error := if s.error = "" then String.ofList (error.toList.take 2000) else s.error
    status := status }

/-- A campaign without a next night, or whose policy is exhausted, ends with its session. -/
def Campaign.endedWith (c : Campaign) (searchEndReason : String) : Campaign :=
  if c.status = .active ∧ (c.schedule = none ∨ searchEndReason = "policy_exhausted") then
    { c with status := .done }
  else c

theorem Campaign.endedWith_id (c : Campaign) (reason : String) : (c.endedWith reason).id = c.id := by
  unfold Campaign.endedWith
  split_ifs <;> rfl

/-- `_terminate`. -/
def terminate (id : SessionId) (status : SessionStatus) (error failureClass : String) (db : Db) : Db :=
  match db.sessions.get? id with
  | none => db
  | some s =>
      let db := db.setSession id fun s => s.ended status error failureClass
      let db := s.machineId.elim db (releaseMachineIfIdle db)
      db.setCampaign s.campaignId (fun c => c.endedWith s.searchEndReason)
        fun c => c.endedWith_id s.searchEndReason

/-- `_begin_finalizing`. -/
def beginFinalizing (id : SessionId) (now : Time) (reason : String) (db : Db) : Db :=
  db.setSession id fun s =>
    { s with
      finalizeRequestedAt := some (s.finalizeRequestedAt.getD now)
      searchEndReason := if s.searchEndReason = "" then reason else s.searchEndReason
      status := .finalizing }

/-- The failure a session ends with: the first one recorded. -/
def PolicySession.blame (s : PolicySession) (failureClass error : String) : PolicySession :=
  { s with
    failureClass := if s.failureClass = "" then failureClass else s.failureClass
    error := if s.error = "" then String.ofList (error.toList.take 2000) else s.error }

section

variable (drivers : RunId → TeardownReplies) (now : Time) (order : RowOrder RunId)

/-- The last output of a dead container stands in the error. -/
def SessionFinds.withDeathLog (f : SessionFinds) (failureClass error : String) : String :=
  if failureClass = "container_died" ∧ f.deathLog ≠ "" then
    error ++ "\n--- last container output ---\n" ++ f.deathLog
  else error

/-- `_fail_toward_validation`: record the failure, then still validate what was registered. -/
def failTowardValidation (f : SessionFinds) (id : SessionId) (failureClass error : String) (db : Db) :
    Ran Db IllegalTransition :=
  (killSessionRuns drivers now order id ("policy " ++ failureClass)
    (db.setSession id fun s => s.blame failureClass (f.withDeathLog failureClass error))).andThen fun db =>
      Ran.done (db.setStatus id .validating)

/-! ## The handlers -/

/-- `_advance_pending`: the machine is the queue's to hand out; once it has, the container starts. -/
def advancePending (f : SessionFinds) (s : PolicySession) (db : Db) : Db :=
  if !f.apiUrlsSet then
    terminate s.id .failed
      "AUTOTUNE_PUBLIC_API_URL is not set — a policy container cannot call home" "config" db
  else if !f.policyExists then terminate s.id .failed "policy row deleted" "config" db
  else
    match s.machineId with
    | none => db
    | some m =>
        match db.machines.get? m with
        | none => terminate s.id .failed "reserved machine vanished before launch" "launch" db
        | some target =>
            if !f.apiUrl then
              terminate s.id .failed
                ("machine " ++ target.name ++ " is not on AutoTune's own cluster, and " ++
                  "AUTOTUNE_PUBLIC_API_URL (publicApiUrl) is not set: a policy there " ++
                  "cannot call home. Set it to an address that machine reaches.") "config" db
            else
              match f.image, f.launchError with
              | .deferred, _ => db
              | .failed e, _ => terminate s.id .failed e "launch" db
              | .ready, some e => terminate s.id .failed e "launch" db
              | .ready, none =>
                  (db.setStatus s.id .starting).reserve m

/-- `_advance_starting`. -/
def advanceStarting (f : SessionFinds) (s : PolicySession) (db : Db) : Ran Db IllegalTransition :=
  if f.firstHeartbeat then Ran.done (db.setStatus s.id .searching)
  else if f.workload.dead then
    failTowardValidation drivers now order f s.id "container_died"
      ("policy container " ++ f.workload.value ++ " before its first heartbeat") db
  else
    match f.startFailure with
    | some (failureClass, reason) =>
        failTowardValidation drivers now order f s.id failureClass
          ("policy container cannot start: " ++ reason) db
    | none =>
        if f.waited then
          failTowardValidation drivers now order f s.id "ready_timeout"
            ("no heartbeat after " ++ toString f.startTimeoutMinutes ++
              " min — is AUTOTUNE_API_URL reachable from the machine?") db
        else Ran.done db

/-- Why a search was ended by the platform. -/
def Db.endSearch (db : Db) (id : SessionId) (reason : String) : Db :=
  db.setSession id fun s => { s with searchEndReason := reason }

/-- `_advance_searching`. `silent` is the seconds of a silence past its limit. -/
def advanceSearching (f : SessionFinds) (s : PolicySession) (db : Db) : Ran Db IllegalTransition :=
  if f.workload.dead then
    failTowardValidation drivers now order f s.id "container_died"
      ("policy container " ++ f.workload.value ++ " mid-search") (db.endSearch s.id "container_died")
  else
    match f.silent, f.said with
    | some seconds, _ =>
        failTowardValidation drivers now order f s.id "policy_wedged"
          ("container alive but no heartbeat for " ++ toString seconds ++ "s")
          (db.endSearch s.id "policy_wedged")
    | none, .exhausted => Ran.done (beginFinalizing s.id now "policy_exhausted" db)
    | none, .error =>
        Ran.done (beginFinalizing s.id now "policy_error" (db.setSession s.id fun s =>
          s.blame "policy_gave_up" "policy reported an internal error"))
    | none, .working =>
        if s.finalizedAt.isSome || s.finalizeRequestedAt.isSome || f.searchOver then
          Ran.done (beginFinalizing s.id now
            (if s.finalizeRequestedAt.isSome then "explicit" else "deadline") db)
        else if f.idle then Ran.done (beginFinalizing s.id now "policy_idle" db)
        else Ran.done db

/-- `_advance_finalizing`: the cards go to validation, whatever the policy left running is over. -/
def advanceFinalizing (f : SessionFinds) (s : PolicySession) (db : Db) : Ran Db IllegalTransition :=
  if !(s.finalizedAt.isSome || f.graceOver || f.workload.dead) then Ran.done db
  else
    (killSessionRuns drivers now order s.id "session finalizing" db).andThen fun db =>
      let db := if f.workload.dead && s.finalizedAt.isNone then
          db.setSession s.id fun s =>
            s.blame "container_died" "policy container died before finalizing"
        else db
      Ran.done (db.setStatus s.id .validating)

/-- `_launch_validations`: as many as the free cards allow; is one still waiting? -/
def launchValidations (session : SessionId) : List LaunchConfig → Db → Db × Bool
  | [], db => (db, false)
  | config :: configs, db =>
      match launchValidationRun session config db with
      | none => (db, true)
      | some db => launchValidations session configs db

/-- `_advance_validating`: launch what fits; the night is over once every measurement has landed. -/
def advanceValidating (f : SessionFinds) (s : PolicySession) (db : Db) : Db :=
  let launched := launchValidations s.id f.validations db
  if launched.2 || f.otherValidations || f.measuring then launched.1
  else
    terminate s.id (if s.failureClass = "" then .done else .failed) s.error "" launched.1

/-- The handler of a status. -/
def handleSession (f : SessionFinds) (s : PolicySession) (db : Db) : Ran Db IllegalTransition :=
  match s.status with
  | .pending => Ran.done (advancePending f s db)
  | .starting => advanceStarting drivers now order f s db
  | .searching => advanceSearching drivers now order f s db
  | .finalizing => advanceFinalizing drivers now order f s db
  | .validating => Ran.done (advanceValidating f s db)
  | _ => Ran.done db

/-- End the runs of a session, then the session. -/
def endSession (s : PolicySession) (status : SessionStatus) (reason error : String) (db : Db) :
    Ran Db IllegalTransition :=
  (killSessionRuns drivers now order s.id reason db).andThen fun db =>
    Ran.done (terminate s.id status error "" db)

/-- `_advance_one`. A session that is PENDING is not asked for its deadline. -/
def advanceSession (f : SessionFinds) (id : SessionId) (db : Db) : Ran Db IllegalTransition :=
  match db.sessions.get? id with
  | none => Ran.done db
  | some s =>
      match db.campaigns.get? s.campaignId with
      | none => Ran.done (terminate id .aborted "campaign deleted" "" db)
      | some c =>
          if s.abortRequestedAt.isSome && s.live then
            endSession drivers now order s .aborted "session aborted" "aborted by operator" db
          else if (hardDeadline c (s.machineId.bind db.machines.get?)).any (fun h => decide (h ≤ now)) &&
              s.status != .pending then
            endSession drivers now order s (if s.failureClass = "" then .done else .failed)
              "window cutoff" (if s.error = "" then "window cutoff" else s.error) db
          else handleSession drivers now order f s db

end

/-- The sessions `advance_all` reads before its loop. -/
def Db.liveSessionIds (db : Db) : List SessionId :=
  (db.sessions.rows.filter PolicySession.live).map PolicySession.id

end AutoTune
