import AutoTune.Store.Occupancy
import Mathlib.Data.List.Dedup
import Mathlib.Data.List.Sort

/-!
# The policy's own API: launches

What `POST /launches` decides: whether the session may still explore, which cards and which port a
launch gets, and the rows it adds. The caller reads the session's live runs first and hands them in.
-/

namespace AutoTune

open Lib

/-! ## Refusals -/

/-- `str` of a list of integers. -/
def pyList (l : List Nat) : String := "[" ++ ", ".intercalate (l.map toString) ++ "]"

/-- `sorted(set(..))`. -/
def sortedSet (l : List Nat) : List Nat := l.dedup.insertionSort (· ≤ ·)

/-- Why a launch request is refused. -/
inductive LaunchRefusal where
  | explorationOver (status : SessionStatus)
  | pastSearchDeadline
  | invalidConfig
  | cardsMismatch (needed asked : Nat)
  | recipeTooWide (needed allowed : Nat)
  | recipeMustWait (needed free : Nat)
  | podTooWide (podCards nodeCards : Nat) (machine : String)
  | cardsOutside (cards allowed : List Nat)
  | cardsBusy (cards : List Nat)
  | portOutside (port : Nat) (ports : List Nat)
  | portIsBusy (port : Nat)
  | noFreePort
deriving DecidableEq, Repr

def SessionStatus.value : SessionStatus → String
  | .pending => "pending"
  | .starting => "starting"
  | .searching => "searching"
  | .finalizing => "finalizing"
  | .validating => "validating"
  | .done => "done"
  | .failed => "failed"
  | .aborted => "aborted"

/-- The HTTP status: 409 when the night is past it, 429 when waiting helps, 422 when it never does. -/
def LaunchRefusal.statusCode : LaunchRefusal → Nat
  | .explorationOver _ | .pastSearchDeadline => 409
  | .recipeMustWait .. | .cardsBusy _ | .portIsBusy _ | .noFreePort => 429
  | _ => 422

/-- The detail of the response; a config's own problems come from its validation. -/
def LaunchRefusal.detail : LaunchRefusal → String
  | .explorationOver status =>
      "session is " ++ status.value ++ "; exploration is over — follow the heartbeat"
  | .pastSearchDeadline => "past the search deadline — finalize and register contenders"
  | .invalidConfig => ""
  | .cardsMismatch needed asked =>
      "config uses " ++ toString needed ++ " card(s) (tp×dp×pp) but " ++ toString asked ++
        " were requested — they must match"
  | .recipeTooWide needed allowed =>
      "the recipe uses " ++ toString needed ++ " card(s) but this session holds " ++
        toString allowed
  | .recipeMustWait needed free =>
      "the recipe uses " ++ toString needed ++ " card(s) and " ++ toString free ++
        " are free of your own runs — release something or wait"
  | .podTooWide podCards nodeCards machine =>
      "a pod of this config uses " ++ toString podCards ++ " card(s), but the largest node in " ++
        machine ++ " has " ++ toString nodeCards ++ ": no node could ever hold it"
  | .cardsOutside cards allowed =>
      "cards " ++ pyList cards ++ " are outside this session's allocation " ++ pyList allowed
  | .cardsBusy cards =>
      "cards " ++ pyList cards ++ " are busy with your own runs — release something or wait"
  | .portOutside port ports =>
      "port " ++ toString port ++ " is outside this session's allocation " ++ pyList ports
  | .portIsBusy port => "port " ++ toString port ++ " is busy with your own runs"
  | .noFreePort => "no free port in this session's allocation"

/-! ## The decision -/

/-- What a validated config asks for: `config_cards`, `config_pod_cards`, its own parallelism, and
whether the campaign has a base recipe. -/
structure LaunchConfig where
  cards : Nat
  podCards : Nat
  worldSize : Nat
  fromRecipe : Bool := false
deriving DecidableEq, Repr

/-- One `POST /launches`. `config` is `none` when its validation refuses it, `searchDeadline` the
campaign's search deadline and `now` the time it is compared with. -/
structure LaunchIn where
  gpuIndices : List Nat
  port : Option Nat := none
  idempotencyKey : Option String := none
  config : Option LaunchConfig
  searchDeadline : Option Time := none
  now : Time := 0
deriving DecidableEq, Repr

/-- `_require_exploring`. -/
def requireExploring (s : PolicySession) (searchDeadline : Option Time) (now : Time) :
    Except LaunchRefusal Unit :=
  if s.status ≠ .starting ∧ s.status ≠ .searching then .error (.explorationOver s.status)
  else if searchDeadline.any fun d => decide (d ≤ now) then .error .pastSearchDeadline
  else .ok ()

/-- `_live_session_runs`. -/
def Db.liveSessionRuns (db : Db) (session : SessionId) : List Run :=
  db.runs.rows.filter fun r => r.policySessionId == some session && r.live

/-- `_idempotent_run`. -/
def Db.idempotentRun (db : Db) (session : SessionId) (key : Option String) : Option Run :=
  match key with
  | none => none
  | some "" => none
  | some k =>
      db.runs.rows.find? fun r => r.policySessionId == some session && r.idempotencyKey == some k

/-- The cards a list of runs holds. -/
def busyCards (live : List Run) : List Nat := live.flatMap Run.gpuIndices

/-- The ports a list of runs holds; 0 is no port. -/
def busyPorts (live : List Run) : List Nat :=
  (live.map Run.servicePort).filter fun p => p != 0

/-- `_free_cards`. -/
def freeSessionCards (s : PolicySession) (live : List Run) (needed : Nat) :
    Except LaunchRefusal (List Nat) :=
  if s.gpuIndices.length < needed then .error (.recipeTooWide needed s.gpuIndices.length)
  else
    let free := s.gpuIndices.filter fun i => !(busyCards live).contains i
    if free.length < needed then .error (.recipeMustWait needed free.length)
    else .ok (free.take needed)

/-- `_check_fits_a_node`; `node_gpu_max` is 0 while the node sizes are unknown. -/
def checkFitsANode (m : Option Machine) (podCards : Nat) : Except LaunchRefusal Unit :=
  match m with
  | none => .ok ()
  | some m =>
      if !m.isNodePool || m.nodeGpuMax == 0 then .ok ()
      else if m.nodeGpuMax < podCards then .error (.podTooWide podCards m.nodeGpuMax m.name)
      else .ok ()

/-- The port half of `_check_cards_and_port`. -/
def choosePort (s : PolicySession) (live : List Run) (port : Option Nat) :
    Except LaunchRefusal Nat :=
  match port with
  | some p =>
      if !s.ports.contains p then .error (.portOutside p s.ports)
      else if (busyPorts live).contains p then .error (.portIsBusy p)
      else .ok p
  | none =>
      match s.ports.find? fun p => !(busyPorts live).contains p with
      | some p => .ok p
      | none => .error .noFreePort

/-- `_check_cards_and_port`. -/
def checkCardsAndPort (s : PolicySession) (live : List Run) (gpuIndices : List Nat)
    (port : Option Nat) : Except LaunchRefusal Nat :=
  let outside := sortedSet (gpuIndices.filter fun i => !s.gpuIndices.contains i)
  let busy := sortedSet (gpuIndices.filter fun i => (busyCards live).contains i)
  if !outside.isEmpty then .error (.cardsOutside outside (sortedSet s.gpuIndices))
  else if !busy.isEmpty then .error (.cardsBusy busy)
  else choosePort s live port

/-- The cards of a launch: the ones it names, or under a recipe, whose shape decides how many it
takes, the first free ones of the session. A session without cards gives none. -/
def launchCards (s : PolicySession) (live : List Run) (body : LaunchIn) (config : LaunchConfig) :
    Except LaunchRefusal (List Nat) :=
  if !s.gpuIndices.isEmpty && config.cards != body.gpuIndices.length then
    if !config.fromRecipe then .error (.cardsMismatch config.cards body.gpuIndices.length)
    else freeSessionCards s live config.cards
  else .ok body.gpuIndices

/-- The cards and the port of a launch. -/
def launchAllocation (s : PolicySession) (m : Option Machine) (live : List Run) (body : LaunchIn)
    (config : LaunchConfig) : Except LaunchRefusal (List Nat × Nat) := do
  let gpuIndices ← launchCards s live body config
  checkFitsANode m config.podCards
  let port ← checkCardsAndPort s live gpuIndices body.port
  return (gpuIndices, port)

/-- A candidate that exists for the ledger only. -/
abbrev Db.withExhausted (db : Db) (s : PolicySession) (config : LaunchConfig) : Table Candidate.id :=
  db.candidates.insert fun id =>
    { id := id, campaignId := s.campaignId, status := .exhausted, cards := config.cards,
      worldSize := config.worldSize }

/-- The run a launch adds, under its own candidate. -/
def addLaunch (db : Db) (s : PolicySession) (body : LaunchIn) (config : LaunchConfig)
    (gpuIndices : List Nat) (port : Nat) : Db :=
  let candidateId := db.candidates.nextKey
  { db with
    candidates := db.withExhausted s config
    runs := db.runs.insert fun id =>
      { id := id, campaignId := s.campaignId, candidateId := candidateId, machineId := s.machineId,
        kind := .policyLaunch, gpuIndices := gpuIndices, servicePort := port,
        policySessionId := some s.id, idempotencyKey := body.idempotencyKey } }

/-! ## What an allocation gives -/

theorem mem_sortedSet {l : List Nat} {i : Nat} : i ∈ sortedSet l ↔ i ∈ l := by
  simp [sortedSet]

theorem sortedSet_isEmpty {l : List Nat} : (sortedSet l).isEmpty = true ↔ l = [] := by
  rw [List.isEmpty_iff, List.eq_nil_iff_forall_not_mem, List.eq_nil_iff_forall_not_mem]
  simp [mem_sortedSet]

/-- An accepted port is one of the session's and held by none of the runs it was checked against. -/
theorem choosePort_spec {s : PolicySession} {live : List Run} {asked : Option Nat} {p : Nat}
    (h : choosePort s live asked = .ok p) : p ∈ s.ports ∧ p ∉ busyPorts live := by
  unfold choosePort at h
  cases asked with
  | some q =>
      dsimp only at h
      split_ifs at h with hin hbusy
      have hpq : q = p := by simpa using h
      subst hpq
      exact ⟨by simpa using hin, by simpa using hbusy⟩
  | none =>
      dsimp only at h
      split at h
      · rename_i q hfind
        have hpq : q = p := by simpa using h
        subst hpq
        exact ⟨List.mem_of_find?_eq_some hfind, by simpa using List.find?_some hfind⟩
      · simp at h

theorem checkCardsAndPort_spec {s : PolicySession} {live : List Run} {cards : List Nat}
    {asked : Option Nat} {p : Nat} (h : checkCardsAndPort s live cards asked = .ok p) :
    (∀ i ∈ cards, i ∈ s.gpuIndices ∧ i ∉ busyCards live) ∧ p ∈ s.ports ∧ p ∉ busyPorts live := by
  unfold checkCardsAndPort at h
  dsimp only at h
  split_ifs at h with hout hbusy
  refine ⟨?_, choosePort_spec h⟩
  have hout' := sortedSet_isEmpty.mp (by simpa using hout)
  have hbusy' := sortedSet_isEmpty.mp (by simpa using hbusy)
  rw [List.filter_eq_nil_iff] at hout' hbusy'
  intro i hi
  exact ⟨by simpa using hout' i hi, by simpa using hbusy' i hi⟩

/-- An accepted launch has its cards picked, and whichever way they were picked they passed the same
check, which answered the port. -/
theorem launchAllocation_ok {s : PolicySession} {m : Option Machine} {live : List Run}
    {body : LaunchIn} {config : LaunchConfig} {cards : List Nat} {p : Nat}
    (h : launchAllocation s m live body config = .ok (cards, p)) :
    launchCards s live body config = .ok cards ∧
      checkCardsAndPort s live cards body.port = .ok p := by
  unfold launchAllocation at h
  cases hpick : launchCards s live body config with
  | error e => simp [hpick, bind, Except.bind] at h
  | ok picked =>
      cases hfit : checkFitsANode m config.podCards with
      | error e => simp [hpick, hfit, bind, Except.bind] at h
      | ok u =>
          cases hport : checkCardsAndPort s live picked body.port with
          | error e => simp [hpick, hfit, hport, bind, Except.bind] at h
          | ok q =>
              have hpair : picked = cards ∧ q = p := by
                simpa [hpick, hfit, hport, bind, Except.bind, pure, Except.pure] using h
              rcases hpair with ⟨rfl, rfl⟩
              exact ⟨rfl, hport⟩

/-- An accepted launch stays inside the session and off the runs it was checked against. -/
theorem launchAllocation_spec {s : PolicySession} {m : Option Machine} {live : List Run}
    {body : LaunchIn} {config : LaunchConfig} {cards : List Nat} {p : Nat}
    (h : launchAllocation s m live body config = .ok (cards, p)) :
    (∀ i ∈ cards, i ∈ s.gpuIndices ∧ i ∉ busyCards live) ∧ p ∈ s.ports ∧ p ∉ busyPorts live :=
  checkCardsAndPort_spec (launchAllocation_ok h).2

end AutoTune
