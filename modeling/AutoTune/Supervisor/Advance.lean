import AutoTune.Supervisor.Finish

/-!
# Advancing a run by one tick

`_advance_one` and `_advance_baseline`: the run state machine driven by what the driver, the health
probe and the benchmark platform answer. The answers come in as one record per run; which of them is
read depends on the status the run is in.
-/

namespace AutoTune

open Lib

/-- What `driver.launch_nodes` did. A refusal is its RuntimeError, classified from the text. -/
inductive LaunchReply where
  | launched
  | deferred
  | refused (failureClass error : String)
deriving DecidableEq, Repr

/-- A health probe or a benchmark as polled. -/
inductive EvalReply where
  | running
  | passed
  | failed (failureClass error : String)
deriving DecidableEq, Repr

/-- What `bench.start` did: accepted, EvaluatorBusy, or EvaluatorRejected. -/
inductive BenchStart where
  | started
  | busy
  | rejected (error : String)
deriving DecidableEq, Repr

/-- Everything the outside answers during one `_advance_one` of a run. `failure` is the class and
error `_capture_failure` resolves, `timedOut` the reason of `_startup_timed_out`, `restarted` the
class and error when a serving engine came back as a new process, `unreachable` the error of an
endpoint nothing answers at, and `crash` the detail of an exception that no branch expects. -/
structure Observed where
  crash : Option String
  launch : LaunchReply
  attached : Bool
  state : DeploymentState
  timedOut : Bool
  failure : String × String
  health : EvalReply
  unreachable : Option String
  readyTimedOut : Bool
  benchStart : BenchStart
  bench : EvalReply
  restarted : Option (String × String)
deriving DecidableEq, Repr

section

variable (drivers : RunId → TeardownReplies) (now : Time) (o : Observed)

/-- The health gate passed: submit the benchmark. -/
def startBench (db : Db) (id : RunId) : Ran Db IllegalTransition :=
  match o.benchStart with
  | .busy => Ran.done db
  | .rejected error => fail drivers now db id "bench_preflight" error
  | .started => transition db id .benching

/-- The BENCHING branch, the same for every kind of run. -/
def pollBench (db : Db) (id : RunId) : Ran Db IllegalTransition :=
  match o.bench with
  | .running => Ran.done db
  | .passed => finish drivers now db id .succeeded ""
  | .failed failureClass error => fail drivers now db id failureClass error

/-- `_advance_baseline`: a run against an endpoint the platform did not launch. -/
def advanceBaseline (db : Db) (r : Run) : Ran Db IllegalTransition :=
  match r.status with
  | .healthCheck =>
      match o.health with
      | .running => Ran.done db
      | .passed => startBench drivers now o db r.id
      | .failed _ error =>
          match o.unreachable with
          | some silent =>
              -- nothing is listening yet: wait as an experiment waits for readiness
              if o.readyTimedOut then fail drivers now db r.id "endpoint_unreachable" silent
              else Ran.done db
          | none => fail drivers now db r.id "endpoint_unhealthy" error
  | .benching => pollBench drivers now o db r.id
  | _ => Ran.done db

/-- The LAUNCHING and WAITING_READY branch. -/
def awaitReady (db : Db) (r : Run) : Ran Db IllegalTransition :=
  if !o.attached then fail drivers now db r.id "gone" "container disappeared"
  else match o.state with
    | .ready => transition db r.id .healthCheck
    | .crashed => fail drivers now db r.id o.failure.1 o.failure.2
    | .starting | .gone =>
        if o.timedOut then fail drivers now db r.id o.failure.1 o.failure.2
        else if r.status = .launching then transition db r.id .waitingReady
        else Ran.done db

/-- The branches of `_advance_one` for a run the platform launched itself. -/
def advanceLaunched (db : Db) (r : Run) : Ran Db IllegalTransition :=
  match r.status with
  | .pending =>
      -- the cluster's one fixed NodePort, held by a run placed before this one
      if (r.machineId.bind db.machines.get?).any fun m => (db.portHolder m (some r.id)).isSome then
        Ran.done db
      else match o.launch with
        | .deferred => Ran.done db
        | .refused failureClass error => fail drivers now db r.id failureClass error
        | .launched => transition db r.id .launching
  | .launching | .waitingReady => awaitReady drivers now o db r
  | .healthCheck =>
      match o.health with
      | .running => Ran.done db
      | .failed failureClass error => fail drivers now db r.id failureClass error
      | .passed =>
          if r.kind = .policyLaunch then transition db r.id .serving
          else startBench drivers now o db r.id
  | .benching => pollBench drivers now o db r.id
  | .serving =>
      if r.releaseRequested then finish drivers now db r.id .succeeded ""
      else if !o.attached then
        fail drivers now db r.id "gone" "engine container disappeared while serving"
      else if o.state = .crashed then fail drivers now db r.id o.failure.1 o.failure.2
      else match o.restarted with
        | none => Ran.done db
        | some (failureClass, error) => fail drivers now db r.id failureClass error
  | _ => Ran.done db

/-- `_advance_one` inside the handler of `_advance_runs`: an unexpected exception is put on the run.
The outside is asked nothing about a finished run whose deployment is not the platform's. -/
def advanceOne (db : Db) (id : RunId) : Ran Db IllegalTransition :=
  match db.runs.get? id with
  | none => Ran.done db
  | some r =>
      if r.kind.notOurs && r.status.terminal then Ran.done db
      else match o.crash with
        | some detail => fail drivers now db id "supervisor_error" detail
        | none =>
            if r.kind.notOurs then advanceBaseline drivers now o db r
            else advanceLaunched drivers now o db r

end

/-! ## What advancing a run can come to -/

/-- The failure class a run the platform launched itself is ended with on these answers. -/
def Observed.failureOf (o : Observed) (r : Run) : Option String :=
  match o.crash with
  | some _ => some "supervisor_error"
  | none =>
      match r.status with
      | .pending =>
          match o.launch with
          | .refused failureClass _ => some failureClass
          | _ => none
      | .launching | .waitingReady =>
          if !o.attached then some "gone"
          else match o.state with
            | .ready => none
            | .crashed => some o.failure.1
            | .starting | .gone => if o.timedOut then some o.failure.1 else none
      | .healthCheck =>
          match o.health with
          | .running => none
          | .failed failureClass _ => some failureClass
          | .passed =>
              match o.benchStart with
              | .rejected _ => if r.kind = .policyLaunch then none else some "bench_preflight"
              | _ => none
      | .benching =>
          match o.bench with
          | .failed failureClass _ => some failureClass
          | _ => none
      | .serving =>
          if r.releaseRequested then none
          else if !o.attached then some "gone"
          else if o.state = .crashed then some o.failure.1
          else o.restarted.map Prod.fst
      | _ => none

/-- The four things an advance does: nothing, a legal move, a success, or a failure under the class
the answers name. Only a PENDING run of the platform's own is launched, and one the port is free for. -/
inductive Advances (drivers : RunId → TeardownReplies) (now : Time) (o : Observed) (db : Db) (r : Run) :
    Ran Db IllegalTransition → Prop where
  | stay : Advances drivers now o db r (Ran.done db)
  | move (target : RunStatus) (hcan : canTransition r.status target = true)
      (hlaunch : target = .launching → r.kind.notOurs = false ∧
        ((r.machineId.bind db.machines.get?).any fun m =>
          (db.portHolder m (some r.id)).isSome) = false) :
      Advances drivers now o db r (transition db r.id target)
  | succeed (hcan : canTransition r.status .succeeded = true) :
      Advances drivers now o db r (finish drivers now db r.id .succeeded "")
  | fail (failureClass error : String)
      (hclass : r.kind.notOurs = true ∨ o.failureOf r = some failureClass)
      (hlive : r.live = true ∨ r.kind.notOurs = false) :
      Advances drivers now o db r (AutoTune.fail drivers now db r.id failureClass error)

section

variable (drivers : RunId → TeardownReplies) (now : Time) {o : Observed} {db : Db} {r : Run}

theorem startBench_advances (hs : r.status = .healthCheck)
    (hclass : ∀ error, o.benchStart = .rejected error →
      r.kind.notOurs = true ∨ o.failureOf r = some "bench_preflight") :
    Advances drivers now o db r (startBench drivers now o db r.id) := by
  have hlive : r.live = true := by simp [Run.live, hs, RunStatus.terminal]
  unfold startBench
  cases hb : o.benchStart with
  | busy => exact .stay
  | rejected error => exact .fail _ _ (hclass error hb) (Or.inl hlive)
  | started => exact .move _ (by rw [hs]; rfl) (by simp)

theorem pollBench_advances (hcrash : o.crash = none) (hs : r.status = .benching) :
    Advances drivers now o db r (pollBench drivers now o db r.id) := by
  have hlive : r.live = true := by simp [Run.live, hs, RunStatus.terminal]
  unfold pollBench
  cases hb : o.bench with
  | running => exact .stay
  | passed => exact .succeed (by rw [hs]; rfl)
  | failed failureClass error =>
      exact .fail _ _ (Or.inr (by simp [Observed.failureOf, hcrash, hs, hb])) (Or.inl hlive)

theorem advanceBaseline_advances (hcrash : o.crash = none) (hkind : r.kind.notOurs = true) :
    Advances drivers now o db r (advanceBaseline drivers now o db r) := by
  unfold advanceBaseline
  split
  · rename_i hs
    have hlive : r.live = true := by simp [Run.live, hs, RunStatus.terminal]
    cases o.health with
    | running => exact .stay
    | passed => exact startBench_advances drivers now hs fun _ _ => Or.inl hkind
    | failed failureClass error =>
        cases o.unreachable with
        | none => exact .fail _ _ (Or.inl hkind) (Or.inl hlive)
        | some silent =>
            dsimp only
            split_ifs
            · exact .fail _ _ (Or.inl hkind) (Or.inl hlive)
            · exact .stay
  · rename_i hs
    exact pollBench_advances drivers now hcrash hs
  · exact .stay

theorem awaitReady_advances (hcrash : o.crash = none)
    (hs : r.status = .launching ∨ r.status = .waitingReady) :
    Advances drivers now o db r (awaitReady drivers now o db r) := by
  have hlive : r.live = true := by
    rcases hs with hs | hs <;> simp [Run.live, hs, RunStatus.terminal]
  have hclass : o.failureOf r = if !o.attached then some "gone"
      else match o.state with
        | .ready => none
        | .crashed => some o.failure.1
        | .starting | .gone => if o.timedOut then some o.failure.1 else none := by
    rcases hs with hs | hs <;> simp only [Observed.failureOf, hcrash, hs]
  unfold awaitReady
  by_cases hatt : (!o.attached) = true
  · rw [if_pos hatt]
    exact .fail _ _ (Or.inr (by rw [hclass, if_pos hatt])) (Or.inl hlive)
  · rw [if_neg hatt] at hclass ⊢
    cases hstate : o.state with
    | ready => exact .move _ (by rcases hs with hs | hs <;> rw [hs] <;> rfl) (by simp)
    | crashed => exact .fail _ _ (Or.inr (by rw [hclass, hstate])) (Or.inl hlive)
    | starting | gone =>
        dsimp only
        split_ifs with htime hl
        · exact .fail _ _ (Or.inr (by rw [hclass, hstate]; simp [htime])) (Or.inl hlive)
        · exact .move _ (by rw [hl]; rfl) (by simp)
        · exact .stay

theorem advanceLaunched_advances (hcrash : o.crash = none) (hours : r.kind.notOurs = false) :
    Advances drivers now o db r (advanceLaunched drivers now o db r) := by
  unfold advanceLaunched
  split
  · rename_i hs
    have hlive : r.live = true := by simp [Run.live, hs, RunStatus.terminal]
    split_ifs with hport
    · exact .stay
    · cases hl : o.launch with
      | deferred => exact .stay
      | refused failureClass error =>
          exact .fail _ _ (Or.inr (by simp [Observed.failureOf, hcrash, hs, hl])) (Or.inl hlive)
      | launched => exact .move _ (by rw [hs]; rfl) fun _ => ⟨hours, Bool.eq_false_iff.mpr hport⟩
  · rename_i hs
    exact awaitReady_advances drivers now hcrash (Or.inl hs)
  · rename_i hs
    exact awaitReady_advances drivers now hcrash (Or.inr hs)
  · rename_i hs
    have hlive : r.live = true := by simp [Run.live, hs, RunStatus.terminal]
    cases hh : o.health with
    | running => exact .stay
    | failed failureClass error =>
        exact .fail _ _ (Or.inr (by simp [Observed.failureOf, hcrash, hs, hh])) (Or.inl hlive)
    | passed =>
        dsimp only
        split_ifs with hk
        · exact .move _ (by rw [hs]; rfl) (by simp)
        · refine startBench_advances drivers now hs fun error hb => Or.inr ?_
          simp [Observed.failureOf, hcrash, hs, hh, hb, hk]
  · rename_i hs
    exact pollBench_advances drivers now hcrash hs
  · rename_i hs
    have hlive : r.live = true := by simp [Run.live, hs, RunStatus.terminal]
    split_ifs with hreleased hatt hstate
    · exact .succeed (by rw [hs]; rfl)
    · exact .fail _ _ (Or.inr (by simp [Observed.failureOf, hcrash, hs, hreleased, hatt]))
        (Or.inl hlive)
    · exact .fail _ _ (Or.inr (by simp [Observed.failureOf, hcrash, hs, hreleased, hatt, hstate]))
        (Or.inl hlive)
    · cases hre : o.restarted with
      | none => exact .stay
      | some p =>
          refine .fail _ _ (Or.inr ?_) (Or.inl hlive)
          simp [Observed.failureOf, hcrash, hs, hreleased, hatt, hstate, hre]
  · exact .stay

/-- Advancing a run does one of the four. -/
theorem advanceOne_advances {id : RunId} (hget : db.runs.get? id = some r) :
    Advances drivers now o db r (advanceOne drivers now o db id) := by
  have hid : r.id = id := (Table.get?_eq_some_iff.mp hget).2
  subst hid
  unfold advanceOne
  rw [hget]
  dsimp only
  split_ifs with hover hkind
  · exact .stay
  · cases hcrash : o.crash with
    | some detail =>
        refine .fail _ _ (Or.inl hkind) (Or.inl ?_)
        simpa [Run.live, hkind] using hover
    | none => exact advanceBaseline_advances drivers now hcrash hkind
  · cases hcrash : o.crash with
    | some detail =>
        exact .fail _ _ (Or.inr (by simp [Observed.failureOf, hcrash]))
          (Or.inr (Bool.eq_false_iff.mpr hkind))
    | none => exact advanceLaunched_advances drivers now hcrash (Bool.eq_false_iff.mpr hkind)

end

end AutoTune
