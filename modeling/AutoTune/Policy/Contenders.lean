import AutoTune.Policy.Sessions
import Mathlib.Data.List.Sort

/-!
# Contenders

A contender is a policy's claim that one config is worth the full replay. The policy declares its
list with `PUT /contenders` while it explores; validation measures what is registered, in rank order,
and writes each claim's verdict.
-/

namespace AutoTune

open Lib

abbrev ContenderId := Nat

/-- `ContenderStatus`. -/
inductive ContenderStatus where
  | registered
  | superseded
  | serving
  | validated
  | failed
  | skipped
deriving DecidableEq, Repr

/-- The part of a launch spec that validation reads: its image, and its config if it names one. -/
structure LaunchSpec where
  image : String := ""
  config : Option LaunchConfig := none
deriving DecidableEq, Repr

/-- One accepted entry of a `PUT /contenders`. -/
structure Claim where
  rank : Nat
  configHash : String
  launchSpec : LaunchSpec
  evidence : String := ""
  trialIds : List Nat := []
deriving DecidableEq, Repr

/-- `PolicyContender`. -/
structure Contender where
  id : ContenderId
  sessionId : SessionId
  claim : Claim
  status : ContenderStatus := .registered
  runId : Option RunId := none
  serveCommandedAt : Option Time := none
  skipReason : String := ""
deriving DecidableEq, Repr

/-- A request of the policy that passed its checks and has not committed. -/
inductive ContenderRequest where
  | put (session : SessionId)
  | serve (session : SessionId) (contender : ContenderId)
deriving DecidableEq, Repr

/-- The store with its contenders, and the requests between their check and their commit. -/
structure Contest where
  db : Db
  contenders : Table Contender.id := .empty
  requests : List ContenderRequest := []

/-- Skipped, for a reason. -/
def Contender.skip (reason : String) (k : Contender) : Contender :=
  { k with status := .skipped, skipReason := reason }

/-- Measured by a run. -/
def Contender.measureBy (run : RunId) (k : Contender) : Contender :=
  { k with status := .serving, runId := some run }

/-- To be served by the policy. -/
def Contender.commandAt (now : Time) (k : Contender) : Contender :=
  { k with status := .serving, serveCommandedAt := some now }

namespace Contest

/-- A session's contenders by rank. -/
def ranked (t : Contest) (session : SessionId) : List Contender :=
  (t.contenders.rows.filter fun k => k.sessionId == session).insertionSort fun a b =>
    a.claim.rank < b.claim.rank ∨ a.claim.rank = b.claim.rank ∧ a.id ≤ b.id

/-- Write one contender. -/
def setContender (t : Contest) (id : ContenderId) (f : Contender → Contender)
    (hf : ∀ k, (f k).id = k.id := by intro k; rfl) : Contest :=
  { t with contenders := t.contenders.modify id f hf }

theorem mem_setContender {t : Contest} {id : ContenderId} {f : Contender → Contender}
    {hf : ∀ k, (f k).id = k.id} {k' : Contender} :
    k' ∈ (t.setContender id f hf).contenders.rows ↔
      ∃ k ∈ t.contenders.rows, k' = if k.id = id then f k else k := by
  simp [setContender, eq_comm]

/-- Write which contender the heartbeat commands. -/
def command (t : Contest) (session : SessionId) (contender : Option ContenderId) : Contest :=
  { t with db := t.db.setSession session fun s => { s with servingContenderId := contender } }

/-- Let go of a contender that was commanded. -/
def release (t : Contest) (session : SessionId) (contender : ContenderId) : Contest :=
  match t.db.sessions.get? session with
  | some s => if s.servingContenderId = some contender then t.command session none else t
  | none => t

end Contest

/-! ## `PUT /contenders` -/

/-- Whether a contender is REGISTERED for a session. -/
def Contender.registeredFor (session : SessionId) (k : Contender) : Bool :=
  k.sessionId == session && k.status == .registered

/-- The REGISTERED contenders of a session. -/
def Contest.registered (t : Contest) (session : SessionId) : List Contender :=
  t.contenders.rows.filter (Contender.registeredFor session)

/-- What two lists of contenders are compared by. -/
def signature (claims : List Claim) : List (Nat × String) := claims.map fun k => (k.rank, k.configHash)

/-- The accepted entries, appended as REGISTERED contenders. -/
def addContenders (session : SessionId) (claims : List Claim) (t : Table Contender.id) :
    Table Contender.id :=
  claims.foldl (fun t claim => t.insert fun id => { id := id, sessionId := session, claim := claim }) t

/-- A registered row takes the evidence, the trials and the spec of the entry that declares it again. -/
def Contender.refreshed (session : SessionId) (claims : List Claim) (k : Contender) : Contender :=
  { k with
    claim :=
      match claims.find? fun c => c.rank == k.claim.rank && c.configHash == k.claim.configHash with
      | some fresh => if k.registeredFor session then { fresh with
          rank := k.claim.rank, configHash := k.claim.configHash } else k.claim
      | none => k.claim }

/-- A registered row that a later list replaces is kept, not deleted. -/
def Contender.supersededBy (session : SessionId) (k : Contender) : Contender :=
  { k with status := if k.registeredFor session then .superseded else k.status }

/-- What `put_contenders` writes under the session's row lock. The same ranks and configs, in any
order, refresh the registered rows in place; any other list supersedes them. -/
def putContenders (session : SessionId) (claims : List Claim) (t : Contest) : Contest :=
  let current := t.registered session
  if (signature (current.map Contender.claim)).isPerm (signature claims) then
    { t with contenders := t.contenders.update (Contender.refreshed session claims) }
  else
    { t with
      contenders := addContenders session claims
        (t.contenders.update (Contender.supersededBy session)) }

theorem putContenders_requests (session : SessionId) (claims : List Claim) (t : Contest) :
    (putContenders session claims t).requests = t.requests := by
  unfold putContenders
  dsimp only
  split <;> rfl

/-! ## `POST /contenders/{id}/serving` -/

/-- The candidate and the run of a contender the policy serves itself, on all of the session's cards. -/
def addServing (s : PolicySession) (config : Option LaunchConfig) (port : Nat) (db : Db) : Db :=
  let candidateId := db.candidates.nextKey
  { db with
    candidates := db.candidates.insert fun id =>
      { id := id, campaignId := s.campaignId, status := .exhausted,
        cards := (config.map LaunchConfig.cards).getD 1,
        worldSize := (config.map LaunchConfig.worldSize).getD 1, verify := true }
    runs := db.runs.insert fun id =>
      { id := id, campaignId := s.campaignId, candidateId := candidateId, machineId := s.machineId,
        kind := .external none, status := .healthCheck, gpuIndices := s.gpuIndices, servicePort := port,
        policySessionId := some s.id } }

/-- What `contender_serving` writes, unless the contender has a run already. -/
def contenderServing (session : SessionId) (contender : ContenderId) (port : Nat) (t : Contest) :
    Contest :=
  match t.db.sessions.get? session, t.contenders.get? contender with
  | some s, some k =>
      if k.sessionId = session ∧ k.runId = none then
        { t with db := addServing s k.claim.launchSpec.config port t.db }.setContender contender
          (Contender.measureBy t.db.runs.nextKey)
      else t
  | _, _ => t

theorem contenderServing_requests (session : SessionId) (contender : ContenderId) (port : Nat)
    (t : Contest) : (contenderServing session contender port t).requests = t.requests := by
  unfold contenderServing
  split
  · split <;> rfl
  · rfl

/-! ## VALIDATING -/

/-- What validation finds beside the contenders. `serveBudget` is how long the policy may take to serve
what it was commanded to, `measureTime` how long one measurement may take; `waiting` says whether a run
ended still queued for cards, `reference` is the session's run of the production config. -/
structure ValidationFinds where
  serveBudget : Int := 0
  measureTime : Int := 0
  waiting : RunId → Bool := fun _ => false
  validateProduction : Bool := false
  reference : Option RunId := none
  production : Option LaunchConfig := none
  teardownBlocking : Bool := false
  policyAlive : Bool := false

section

variable (v : ValidationFinds) (now : Time)

/-- The verdict of a run that ended. One that ended still queued for cards was never measured. -/
def landed (run : Run) (k : Contender) : Contender :=
  { k with
    status := if run.status = .succeeded then .validated
      else if v.waiting run.id then .skipped else .failed
    skipReason := if run.status ≠ .succeeded ∧ v.waiting run.id then
      "the cluster had no free cards for it before the night ended" else k.skipReason }

/-- A contender that is being measured: its run has landed, or the policy never served it. -/
def resolveContender (session : SessionId) (t : Contest) (k : Contender) : Contest :=
  match k.runId.bind t.db.runs.get? with
  | none =>
      let commanded := (t.db.sessions.get? session).any fun s => s.servingContenderId == some k.id
      let waited : Int := now - k.serveCommandedAt.getD now
      if commanded && decide (v.serveBudget < waited) then
        (t.setContender k.id (Contender.skip "policy never served it")).command session none
      else t
  | some run =>
      if !run.status.terminal then t
      else (t.setContender k.id (landed v run)).release session k.id

/-- `_platform_launchable`, as the config the platform would launch. -/
def platformLaunchable (c : Campaign) (spec : LaunchSpec) : Option LaunchConfig :=
  if spec.image ≠ "" ∧ spec.image ≠ c.image then none else spec.config

/-- The contenders of the queue in `_launch_validations`; is one still waiting to launch? -/
def launchContenders (s : PolicySession) (c : Campaign) : List Contender → Contest → Contest × Bool
  | [], t => (t, false)
  | k :: rest, t =>
      match platformLaunchable c k.claim.launchSpec with
      | some config =>
          match launchValidationRun s.id config t.db with
          | none => (t, true)
          | some db =>
              launchContenders s c rest
                ({ t with db := db }.setContender k.id (Contender.measureBy t.db.runs.nextKey))
      | none =>
          if v.policyAlive then
            -- only the policy can bring this spec up, one at a time
            if (t.db.sessions.get? s.id).any fun s => s.servingContenderId.isNone then
              ((t.setContender k.id (Contender.commandAt now)).command s.id (some k.id), true)
            else (t, true)
          else
            launchContenders s c rest (t.setContender k.id
              (Contender.skip "the platform cannot launch this spec and the policy is gone"))

/-- `_launch_validations`: production first, then the contenders by rank. -/
def launchPending (s : PolicySession) (c : Campaign) (pending : List Contender) (wantReference : Bool)
    (t : Contest) : Contest × Bool :=
  let machine := s.machineId.bind t.db.machines.get?
  let started := (pending.any fun k => k.runId.isSome) || v.reference.isSome
  let launchedAny := t.db.runs.rows.any fun r =>
    r.policySessionId == some s.id && r.kind == .experiment
  if !started && !launchedAny && machine.isSome && v.teardownBlocking then (t, true)
  else if (hardDeadline c machine).any fun h => decide (h < now + v.measureTime) then
    (pending.foldl (fun t k => t.setContender k.id
      (Contender.skip "out of clock before validation")) t, false)
  else
    match (if wantReference then v.production else none) with
    | none => launchContenders v now s c pending t
    | some config =>
        match launchValidationRun s.id config t.db with
        | none => (t, true)
        | some db => launchContenders v now s c pending { t with db := db }

/-- `_advance_validating`. -/
def advanceContenders (s : PolicySession) (c : Campaign) (t : Contest) : Contest :=
  let t := ((t.ranked s.id).filter fun k => k.status == .serving).foldl (resolveContender v now s.id) t
  let contenders := t.ranked s.id
  let wantReference := v.validateProduction && v.reference.isNone && contenders.any fun k =>
    k.status == .registered || k.status == .serving || k.status == .validated
  let pending := contenders.filter fun k => k.status == .registered
  let launched := if !pending.isEmpty || wantReference then
      launchPending v now s c pending wantReference t else (t, false)
  let measuring := (launched.1.ranked s.id).any fun k => k.status == .serving
  let referenceLive := (v.reference.bind launched.1.db.runs.get?).any fun r => !r.status.terminal
  if launched.2 || measuring || referenceLive then launched.1
  else
    { launched.1 with
      db := terminate s.id (if s.failureClass = "" then .done else .failed) s.error "" launched.1.db }

/-- Whether a session ends before its handler is asked: by its operator, or at the deadline of its
window. -/
def cutShort (db : Db) (s : PolicySession) (c : Campaign) : Bool :=
  (s.abortRequestedAt.isSome && s.live) ||
    ((hardDeadline c (s.machineId.bind db.machines.get?)).any (fun h => decide (h ≤ now)) &&
      s.status != .pending)

/-- `_advance_one`, contenders included. -/
def advanceContest (drivers : RunId → TeardownReplies) (order : RowOrder RunId) (f : SessionFinds)
    (id : SessionId) (t : Contest) : Contest :=
  let elsewhere := { t with db := (advanceSession drivers now order f id t.db).state }
  match t.db.sessions.get? id with
  | none => elsewhere
  | some s =>
      match t.db.campaigns.get? s.campaignId with
      | none => elsewhere
      | some c =>
          if s.status = .validating ∧ cutShort now t.db s c = false then advanceContenders v now s c t
          else elsewhere

end

end AutoTune
