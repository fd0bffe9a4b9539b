import AutoTune.Policy.Sessions
import AutoTune.Supervisor.TransitionSafety

/-!
# The clock and the command

A heartbeat is answered with a command that the API derives from the session's columns, and the worker
moves the session on from its own reading of the same columns. The deadlines both compare with are
computed, never stored: the end of the window or of the lease, less the time validation needs.
-/

namespace AutoTune

open Lib

/-! ## Rows -/

/-- The columns a session's policy and the idle watchdog write. -/
structure Beats where
  startedAt : Option Time := none
  firstHeartbeatAt : Option Time := none
  lastHeartbeatAt : Option Time := none
  policyStatus : PolicySaid := .working
  lastActivityAt : Option Time := none
  idleStrikes : Nat := 0
  lastIdleStrikeAt : Option Time := none
deriving DecidableEq, Repr

/-- The clock knobs of `campaigns.policy_settings`; `cards` stands on the campaign. -/
structure PolicySettings where
  maxContenders : Nat := 2
  approxMinutesEach : Option Nat := none
  modelStartupMinutes : Option Nat := none
  validationReserveMinutes : Option Nat := none
  validateProduction : Bool := true
  heartbeatTimeoutS : Option Nat := none
  searchIdleTimeoutS : Option Nat := none
  searchIdleStrikes : Nat := 3
deriving DecidableEq, Repr

/-- The platform's own defaults. -/
structure ClockDefaults where
  policyHeartbeatTimeoutSeconds : Nat := 180
  policySearchIdleSeconds : Nat := 300
deriving DecidableEq, Repr

/-- What a campaign's runs have shown (`timing.validation_minutes`), the cards of a launch of its base
config, and of the widest config of its space. -/
structure NightCosts where
  learnedBench : Option Nat := none
  learnedStartup : Option Nat := none
  productionCards : Nat := 1
  widestCards : Nat := 1
deriving DecidableEq, Repr

/-- `a or b` on an optional number. -/
def orNumber (a b : Option Nat) : Option Nat := (a.filter (· != 0)).or b

/-! ## Deadlines -/

/-- `FALLBACK_CONTENDER_MINUTES`. -/
def fallbackContenderMinutes : Nat := 60

section

variable (knobs : PolicySettings) (costs : NightCosts)

/-- `contender_parts`: the benchmark's and the startup's minutes. -/
def contenderParts : Nat × Nat :=
  let startup := knobs.modelStartupMinutes.getD (costs.learnedStartup.getD 0)
  match orNumber knobs.approxMinutesEach costs.learnedBench with
  | none => (max (fallbackContenderMinutes - startup) 5, startup)
  | some bench => (bench, startup)

/-- `contender_minutes`. -/
def contenderMinutes : Nat := (contenderParts knobs costs).1 + (contenderParts knobs costs).2

/-- `PolicySettings.validation_launches`. -/
def PolicySettings.validationLaunches : Nat :=
  knobs.maxContenders + if knobs.validateProduction then 1 else 0

/-- `PolicySettings.reserve_minutes`. -/
def PolicySettings.reserveMinutes (perContender rounds : Nat) : Nat :=
  match knobs.validationReserveMinutes with
  | some minutes => minutes
  | none => (if rounds = 0 then knobs.validationLaunches else rounds) * perContender + 15

/-- `gpu_budget`. -/
def gpuBudget (c : Campaign) (m : Option Machine) : Nat :=
  if c.policyCards ≠ 0 then c.policyCards
  else
    match m with
    | some m => if !m.isNodePool && m.gpuCount != 0 then m.gpuCount else max costs.widestCards 1
    | none => max costs.widestCards 1

/-- `validation_rounds`. -/
def validationRounds (c : Campaign) (m : Option Machine) : Nat :=
  let perLaunch := max costs.productionCards 1
  let budget := max (gpuBudget costs c m) perLaunch
  let sideBySide := max (budget / perLaunch) 1
  (knobs.validationLaunches + sideBySide - 1) / sideBySide

/-- `search_deadline`. -/
def searchDeadline (c : Campaign) (m : Option Machine) : Option Time :=
  (hardDeadline c m).map fun hard =>
    hard - 60 * ↑(knobs.reserveMinutes (contenderMinutes knobs costs) (validationRounds knobs costs c m))

/-- The search deadline has come. -/
def pastSearchDeadline (c : Campaign) (m : Option Machine) (now : Time) : Bool :=
  (searchDeadline knobs costs c m).any fun search => decide (search ≤ now)

/-- `heartbeat_timeout_seconds`. -/
def heartbeatTimeoutSeconds (settings : ClockDefaults) : Nat :=
  (orNumber knobs.heartbeatTimeoutS none).getD settings.policyHeartbeatTimeoutSeconds

/-- `heartbeat_silence`; 0 until there is a reference point. -/
def Beats.silence (b : Beats) (now : Time) : Int :=
  match b.lastHeartbeatAt.or b.startedAt with
  | none => 0
  | some reference => now - reference

/-! ## The command of a heartbeat -/

/-- What a heartbeat tells the policy to do. -/
inductive Command where
  | run
  | finalize
  | serve (contenderId : Nat) (port : Option Nat)
  | exit
  | abort
deriving DecidableEq, Repr

/-- The answer to a heartbeat. -/
structure HeartbeatOut where
  command : Command
  searchDeadline : Option Time
  hardDeadline : Option Time
deriving DecidableEq, Repr

/-- `command_for`. -/
def commandFor (s : PolicySession) (b : Beats) (c : Campaign) (m : Option Machine)
    (pendingContenders : Nat) (servingPort : Option Nat) (now : Time) : HeartbeatOut where
  searchDeadline := searchDeadline knobs costs c m
  hardDeadline := hardDeadline c m
  command :=
    if s.abortRequestedAt.isSome then .abort
    else
      match s.status with
      | .validating =>
          match s.servingContenderId with
          | some contender => .serve contender servingPort
          | none => if 0 < pendingContenders then .run else .exit
      | .finalizing => if s.finalizedAt.isSome then .exit else .finalize
      -- PENDING, STARTING, SEARCHING, and a session that ended: `finalized_at` is not among the columns
      -- the command is derived from here
      | _ =>
          if s.finalizeRequestedAt.isSome || pastSearchDeadline knobs costs c m now ||
              b.policyStatus != .working then .finalize
          else .run

/-- What the worker's next step of a searching session finds: its container is alive, and the idle
watchdog is left aside. -/
def searchFinds (settings : ClockDefaults) (b : Beats) (c : Campaign) (m : Option Machine)
    (now : Time) : SessionFinds where
  silent :=
    if 2 * (heartbeatTimeoutSeconds knobs settings : Int) < b.silence now then
      some (b.silence now).toNat
    else none
  said := b.policyStatus
  searchOver := pastSearchDeadline knobs costs c m now

end

/-! ## Where the two readings agree -/

section

variable (drivers : RunId → TeardownReplies) (now : Time) (order : RowOrder RunId)

/-- Does the worker's step take the session out of SEARCHING? -/
def leavesSearching (f : SessionFinds) (s : PolicySession) (db : Db) : Bool :=
  ((advanceSearching drivers now order f s db).state.sessions.get? s.id).all fun s' =>
    s'.status != .searching

/-- The session ends its search for a reason of its own: the policy said that it is done, or somebody
asked for the end, or the time is over. -/
def endsSearch (f : SessionFinds) (s : PolicySession) : Bool :=
  f.said != .working || s.finalizedAt.isSome || s.finalizeRequestedAt.isSome || f.searchOver

/-- The last write of `_begin_finalizing` is the status. -/
theorem beginFinalizing_leaves (id : SessionId) (reason : String) (db : Db) :
    (((beginFinalizing id now reason db).sessions.get? id).all fun s =>
      s.status != .searching) = true := by
  unfold beginFinalizing Db.setSession
  rw [Table.get?_modify_self]
  cases db.sessions.get? id <;> rfl

/-- A live container with a fresh heartbeat leaves SEARCHING for one of those reasons only. -/
theorem leavesSearching_eq {f : SessionFinds} {s : PolicySession} {db : Db}
    (hget : db.sessions.get? s.id = some s) (hstatus : s.status = .searching)
    (halive : f.workload.dead = false) (hfresh : f.silent = none) (hbusy : f.idle = false) :
    leavesSearching drivers now order f s db = endsSearch f s := by
  unfold leavesSearching endsSearch advanceSearching
  rw [halive, hfresh]
  cases hsaid : f.said with
  | exhausted =>
      -- the worker believes the policy before it looks at the clock
      exact beginFinalizing_leaves now s.id "policy_exhausted" db
  | error => exact beginFinalizing_leaves now s.id "policy_error" _
  | working =>
      by_cases hover : (s.finalizedAt.isSome || s.finalizeRequestedAt.isSome || f.searchOver) = true
      · have hleaves := beginFinalizing_leaves now s.id
          (if s.finalizeRequestedAt.isSome then "explicit" else "deadline") db
        simpa [hover] using hleaves
      · have hstays : (db.sessions.get? s.id).all (fun s' => s'.status != .searching) = false := by
          simp [hget, hstatus]
        simpa [hover, hbusy] using hstays

/-- The policy has called `/session/finalized`, and nothing else has ended its search yet: the one column
that the worker reads and the command does not. -/
def finalizedUnheard (knobs : PolicySettings) (costs : NightCosts) (s : PolicySession) (b : Beats)
    (c : Campaign) (m : Option Machine) (now : Time) : Bool :=
  s.finalizedAt.isSome && s.abortRequestedAt.isNone && s.finalizeRequestedAt.isNone &&
    b.policyStatus == .working && !pastSearchDeadline knobs costs c m now

/-- In SEARCHING the command is to wind down for any reason the worker has, `finalized_at` apart. -/
theorem commandFor_searching (knobs : PolicySettings) (costs : NightCosts) {s : PolicySession}
    (hstatus : s.status = .searching) (b : Beats) (c : Campaign) (m : Option Machine)
    (pending : Nat) (port : Option Nat) :
    ((commandFor knobs costs s b c m pending port now).command = .finalize ∨
        (commandFor knobs costs s b c m pending port now).command = .abort) ↔
      (s.abortRequestedAt.isSome || s.finalizeRequestedAt.isSome ||
        pastSearchDeadline knobs costs c m now || b.policyStatus != .working) = true := by
  unfold commandFor
  rw [hstatus]
  by_cases habort : s.abortRequestedAt.isSome = true
  · simp [habort]
  · by_cases hdone : (s.finalizeRequestedAt.isSome || pastSearchDeadline knobs costs c m now ||
        b.policyStatus != .working) = true
    · simp only [habort, hdone, if_true]
      simpa [or_assoc, habort] using hdone
    · simp only [habort, hdone]
      simpa [or_assoc, habort] using hdone

/-- Once `finalized_at` is set, a session that is winding down is not asked to again. -/
theorem commandFor_finalized (knobs : PolicySettings) (costs : NightCosts) {s : PolicySession}
    (hstatus : s.status = .finalizing ∨ s.status = .validating) (hsaid : s.finalizedAt.isSome = true)
    (b : Beats) (c : Campaign) (m : Option Machine) (pending : Nat) (port : Option Nat) :
    (commandFor knobs costs s b c m pending port now).command ≠ .finalize := by
  unfold commandFor
  rcases hstatus with hstatus | hstatus
  · rw [hstatus]
    split
    · simp
    · simp
  · rw [hstatus]
    split
    · simp
    · dsimp only
      split
      · simp
      · split <;> simp

/-- The worker ends a search no earlier than the policy is told, unless the policy said first that it
had finalized. -/
theorem told_in_time_iff (knobs : PolicySettings) (costs : NightCosts) (settings : ClockDefaults)
    (b : Beats) (c : Campaign) (m : Option Machine) (pending : Nat) (port : Option Nat) (db : Db)
    (s : PolicySession) (hget : db.sessions.get? s.id = some s) (hstatus : s.status = .searching)
    (hfresh : b.silence now ≤ 2 * (heartbeatTimeoutSeconds knobs settings : Int)) :
    ((leavesSearching drivers now order (searchFinds knobs costs settings b c m now) s db = true →
        (commandFor knobs costs s b c m pending port now).command = .finalize ∨
          (commandFor knobs costs s b c m pending port now).command = .abort) ↔
      finalizedUnheard knobs costs s b c m now = false) ∧
    ∀ t : PolicySession, t.status = .finalizing ∨ t.status = .validating →
      t.finalizedAt.isSome = true →
      (commandFor knobs costs t b c m pending port now).command ≠ .finalize := by
  refine ⟨?_, fun t ht hsaid => commandFor_finalized now knobs costs ht hsaid b c m pending port⟩
  have hsilent : (searchFinds knobs costs settings b c m now).silent = none := by
    simp [searchFinds, not_lt.mpr hfresh]
  rw [leavesSearching_eq drivers now order hget hstatus rfl hsilent rfl,
    commandFor_searching now knobs costs hstatus]
  unfold endsSearch finalizedUnheard
  simp only [searchFinds]
  cases s.finalizedAt.isSome <;> cases ha : s.abortRequestedAt <;>
    cases hf : s.finalizeRequestedAt <;> cases pastSearchDeadline knobs costs c m now <;>
    cases hw : b.policyStatus <;> simp

end

/-! ## A policy that finalized by itself -/

/-- A night of ten hours. -/
def tenHours : Campaign := { id := 1, status := .active, policyId := some 1, windowEnd := some 36000 }

/-- A session that is searching, and whether its policy has called `/session/finalized`. -/
def spokenSession (finalizedAt : Option Time) : PolicySession :=
  { id := 1, campaignId := 1, status := .searching, finalizedAt := finalizedAt }

/-- The session's last beat. -/
def beatAt (t : Time) : Beats := { startedAt := some 0, firstHeartbeatAt := some 10,
                                   lastHeartbeatAt := some t }

def spokenDb (finalizedAt : Option Time) : Db where
  campaigns := .single tenHours
  sessions := .single (spokenSession finalizedAt)

/-- One hour into the night: the next tick begins to finalize, the heartbeat is answered "run". -/
theorem finalized_policy_told_to_run :
    ¬ (leavesSearching (fun _ => cleanTeardown) 3600 (RowOrder.byKey RunId)
        (searchFinds {} {} {} (beatAt 3590) tenHours none 3600) (spokenSession (some 3500))
        (spokenDb (some 3500)) = true →
      (commandFor {} {} (spokenSession (some 3500)) (beatAt 3590) tenHours none 0 none
          3600).command = .finalize ∨
        (commandFor {} {} (spokenSession (some 3500)) (beatAt 3590) tenHours none 0 none
          3600).command = .abort) := by
  decide

/-- Past the search deadline the same policy is told. -/
theorem told_in_time_at_the_deadline :
    leavesSearching (fun _ => cleanTeardown) 30000 (RowOrder.byKey RunId)
        (searchFinds {} {} {} (beatAt 29990) tenHours none 30000) (spokenSession none)
        (spokenDb none) = true ∧
      ((commandFor {} {} (spokenSession none) (beatAt 29990) tenHours none 0 none
          30000).command = .finalize ∨
        (commandFor {} {} (spokenSession none) (beatAt 29990) tenHours none 0 none
          30000).command = .abort) := by
  have htold := told_in_time_iff (fun _ => cleanTeardown) 30000 (RowOrder.byKey RunId) {} {} {} (beatAt 29990) tenHours none 0
    none (spokenDb none) (spokenSession none) (by decide) rfl (by decide)
  have hleaves : leavesSearching (fun _ => cleanTeardown) 30000 (RowOrder.byKey RunId)
      (searchFinds {} {} {} (beatAt 29990) tenHours none 30000) (spokenSession none)
      (spokenDb none) = true := by decide
  exact ⟨hleaves, htold.1.mpr (by decide) hleaves⟩

end AutoTune
