import AutoTune.Lib.Python
import AutoTune.Api.LaunchRequests

/-!
# The policy's own API: benchmarks

`POST /launches/{id}/benchmarks` measures an engine the platform launched for the session and
`POST /benchmarks` one the policy serves itself. Either adds an EXTERNAL run; what they check of the
session, of its cards and of the parent launch differs.
-/

namespace AutoTune

open Lib

/-- `SCREEN`, the one suite a session may ask for. -/
def screenSuite : String := "screen"

def RunStatus.value : RunStatus → String
  | .pending => "pending"
  | .launching => "launching"
  | .waitingReady => "waiting_ready"
  | .healthCheck => "health_check"
  | .benching => "benching"
  | .serving => "serving"
  | .succeeded => "succeeded"
  | .failed => "failed"
  | .killed => "killed"

/-- Why a benchmark request is refused. -/
inductive BenchRefusal where
  | notExploring (why : LaunchRefusal)
  | unknownSuite (suite : String)
  | noSuchRun
  | notServing (run : RunId) (status : RunStatus)
  | noMachine
  | cardsUnnamed
  | portOutside (port : Nat) (ports : List Nat)
  | unreachable (machine : String)
  | invalidConfig
deriving DecidableEq, Repr

def BenchRefusal.statusCode : BenchRefusal → Nat
  | .notExploring why => why.statusCode
  | .noSuchRun => 404
  | .notServing .. | .noMachine | .unreachable _ => 409
  | .unknownSuite _ | .cardsUnnamed | .portOutside .. | .invalidConfig => 422

def BenchRefusal.detail : BenchRefusal → String
  | .notExploring why => why.detail
  | .unknownSuite suite =>
      "unknown suite '" ++ suite ++ "' — tonight's menu offers: " ++ screenSuite
  | .noSuchRun => "No such run in this session"
  | .notServing run status =>
      "launch " ++ toString run ++ " is " ++ status.value ++ ", not serving — wait for it"
  | .noMachine => "session has no machine"
  | .cardsUnnamed => "gpu_indices is empty: name the cards the engine you serve runs on"
  | .portOutside port ports =>
      "port " ++ toString port ++ " is outside this session's allocation " ++ pyList ports
  | .unreachable machine =>
      "machine " ++ machine ++ " has no reachable host address, so a self-served benchmark has no " ++
        "endpoint to measure — this is a cluster machine, where the policy container is not " ++
        "reachable from outside its pod. Launch through POST /launches and benchmark it with " ++
        "POST /launches/\x7bid\x7d/benchmarks instead."
  | .invalidConfig => ""

/-- What both requests check before they mark the session's activity: it explores, and the suite is
the one there is. -/
def requireScreening (s : PolicySession) (suite : String) (searchDeadline : Option Time) (now : Time) :
    Except BenchRefusal Unit :=
  match requireExploring s searchDeadline now with
  | .error why => .error (.notExploring why)
  | .ok () => if suite ≠ screenSuite then .error (.unknownSuite suite) else .ok ()

/-! ## `POST /launches/{id}/benchmarks` -/

structure LaunchBenchmarkIn where
  runId : RunId
  suite : String := screenSuite
  idempotencyKey : Option String := none
  searchDeadline : Option Time := none
  now : Time := 0
deriving DecidableEq, Repr

/-- `_session_run` for a launch, which has to be serving. -/
def Db.servingLaunch (db : Db) (session : SessionId) (run : RunId) : Except BenchRefusal Run :=
  match db.runs.get? run with
  | none => .error .noSuchRun
  | some r =>
      if r.policySessionId ≠ some session ∨ r.kind ≠ .policyLaunch then .error .noSuchRun
      else if r.status ≠ .serving then .error (.notServing r.id r.status)
      else .ok r

/-- The run that measures a launch: same candidate, no cards and no port of its own. -/
def benchmarkOf (s : PolicySession) (key : Option String) (parent : Run) (id : RunId) : Run where
  id := id
  campaignId := s.campaignId
  candidateId := parent.candidateId
  machineId := s.machineId
  kind := .external (some parent.id)
  status := .healthCheck
  policySessionId := some s.id
  idempotencyKey := key

def addLaunchBenchmark (s : PolicySession) (key : Option String) (parent : Run) (db : Db) : Db :=
  { db with runs := db.runs.insert (benchmarkOf s key parent) }

/-- `bench_launch` with nobody in between. -/
def benchLaunch (session : SessionId) (body : LaunchBenchmarkIn) (db : Db) : Db :=
  match db.sessions.get? session with
  | none => db
  | some s =>
      match requireScreening s body.suite body.searchDeadline body.now,
          db.servingLaunch session body.runId with
      | .ok (), .ok parent =>
          if (db.idempotentRun session body.idempotencyKey).isSome then db
          else addLaunchBenchmark s body.idempotencyKey parent db
      | _, _ => db

/-! ## `POST /benchmarks` -/

/-- One `POST /benchmarks`; `config` is `none` when its validation refuses it. -/
structure ExternalBenchmarkIn where
  port : Nat
  gpuIndices : List Nat := []
  suite : String := screenSuite
  idempotencyKey : Option String := none
  config : Option LaunchConfig
  searchDeadline : Option Time := none
  now : Time := 0
deriving DecidableEq, Repr

/-- What is checked before the key is looked up: a machine, some cards if the session has any, and one
of its ports. Which cards is not asked. -/
def checkSelfServed (s : PolicySession) (body : ExternalBenchmarkIn) : Except BenchRefusal Unit :=
  if s.machineId.isNone then .error .noMachine
  else if !s.gpuIndices.isEmpty && body.gpuIndices.isEmpty then .error .cardsUnnamed
  else if !s.ports.contains body.port then .error (.portOutside body.port s.ports)
  else .ok ()

/-- `_require_self_serving_is_reachable`. -/
def requireReachable (m : Option Machine) : Except BenchRefusal Unit :=
  match m with
  | none => .error .noMachine
  | some m =>
      if strip m.host = "" then .error (.unreachable m.name) else .ok ()

/-- The run that measures an engine the policy serves itself, on the cards and the port it names. -/
def selfServedBenchmark (s : PolicySession) (body : ExternalBenchmarkIn) (candidate : CandidateId)
    (id : RunId) : Run where
  id := id
  campaignId := s.campaignId
  candidateId := candidate
  machineId := s.machineId
  kind := .external none
  status := .healthCheck
  gpuIndices := body.gpuIndices
  servicePort := body.port
  policySessionId := some s.id
  idempotencyKey := body.idempotencyKey

/-- The candidate, for the ledger only, and its run. -/
def addExternalBenchmark (s : PolicySession) (body : ExternalBenchmarkIn) (config : LaunchConfig)
    (db : Db) : Db :=
  { db with
    candidates := db.withExhausted s config
    runs := db.runs.insert (selfServedBenchmark s body db.candidates.nextKey) }

/-- `bench_external` with nobody in between. -/
def benchExternal (session : SessionId) (body : ExternalBenchmarkIn) (db : Db) : Db :=
  match db.sessions.get? session with
  | none => db
  | some s =>
      match requireScreening s body.suite body.searchDeadline body.now, checkSelfServed s body with
      | .ok (), .ok () =>
          if (db.idempotentRun session body.idempotencyKey).isSome then db
          else
            match requireReachable (s.machineId.bind db.machines.get?), body.config with
            | .ok (), some config => addExternalBenchmark s body config db
            | _, _ => db
      | _, _ => db

/-! ## What the requests add -/

/-- `bench_launch` adds nothing, or a run on the candidate of a launch of the same session. -/
theorem benchLaunch_cases (session : SessionId) (body : LaunchBenchmarkIn) (db : Db) :
    benchLaunch session body db = db ∨
      ∃ s parent, db.sessions.get? session = some s ∧ db.runs.get? body.runId = some parent ∧
        parent.policySessionId = some session ∧ parent.kind = .policyLaunch ∧
        parent.status = .serving ∧ db.idempotentRun session body.idempotencyKey = none ∧
        benchLaunch session body db = addLaunchBenchmark s body.idempotencyKey parent db := by
  unfold benchLaunch
  cases hs : db.sessions.get? session with
  | none => exact Or.inl rfl
  | some s =>
      dsimp only
      split
      · rename_i parent _ hparent
        unfold Db.servingLaunch at hparent
        cases hget : db.runs.get? body.runId with
        | none => simp [hget] at hparent
        | some r =>
            simp only [hget] at hparent
            split at hparent
            · cases hparent
            · rename_i hown
              split at hparent
              · cases hparent
              · rename_i hserving
                cases hparent
                rw [not_or, not_not, not_not] at hown
                rw [not_not] at hserving
                split
                · exact Or.inl rfl
                · rename_i hkey
                  exact Or.inr ⟨s, parent, rfl, rfl, hown.1, hown.2, hserving, by simpa using hkey, rfl⟩
      · exact Or.inl rfl

/-- `bench_external` adds nothing, or a run on cards nobody looked at. -/
theorem benchExternal_cases (session : SessionId) (body : ExternalBenchmarkIn) (db : Db) :
    benchExternal session body db = db ∨
      ∃ s config, db.sessions.get? session = some s ∧
        requireScreening s body.suite body.searchDeadline body.now = .ok () ∧
        checkSelfServed s body = .ok () ∧ db.idempotentRun session body.idempotencyKey = none ∧
        requireReachable (s.machineId.bind db.machines.get?) = .ok () ∧ body.config = some config ∧
        benchExternal session body db = addExternalBenchmark s body config db := by
  unfold benchExternal
  cases hs : db.sessions.get? session with
  | none => exact Or.inl rfl
  | some s =>
      dsimp only
      split
      · rename_i hscreen hself
        split
        · exact Or.inl rfl
        · rename_i hkey
          split
          · rename_i config hreach hconfig
            exact Or.inr ⟨s, config, rfl, hscreen, hself, by simpa using hkey, hreach, hconfig, rfl⟩
          · exact Or.inl rfl
      · exact Or.inl rfl

end AutoTune
