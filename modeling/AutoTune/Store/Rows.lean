import AutoTune.Lib.Table

/-!
# The platform's rows

The tables the orchestrator reads and writes: machines with their lease, campaigns, candidates,
runs with their nodes, and policy sessions. Columns no modelled function reads are left out; the
defaults are the columns' own.
-/

namespace AutoTune

abbrev MachineId := Nat
abbrev CampaignId := Nat
abbrev CandidateId := Nat
abbrev RunId := Nat
abbrev SessionId := Nat
/-- Seconds on the worker's clock. -/
abbrev Time := Int

/-- Who holds the machine tonight. -/
inductive MachineState where
  | away
  | available
  | reserved
deriving DecidableEq, Repr

/-- Who has the right to spend the machine's time. -/
inductive LeaseState where
  | none
  | active
  | draining
  | released
deriving DecidableEq, Repr

/-- How much of the current work survives a hand-back request; `unset` until one is made. -/
inductive LeaseEndMode where
  | unset
  | polite
  | eager
deriving DecidableEq, Repr

inductive RunStatus where
  | pending
  | launching
  | waitingReady
  | healthCheck
  | benching
  | serving
  | succeeded
  | failed
  | killed
deriving DecidableEq, Repr

/-- `launch_run_id` is written for EXTERNAL rows only (the launch whose engine they measure). -/
inductive RunKind where
  | experiment
  | baseline
  | policyLaunch
  | external (launchRunId : Option RunId)
deriving DecidableEq, Repr

inductive CampaignStatus where
  | draft
  | scheduled
  | active
  | paused
  | done
deriving DecidableEq, Repr

inductive CandidateStatus where
  | pending
  | valid
  | invalid
  | exhausted
deriving DecidableEq, Repr

inductive SessionStatus where
  | pending
  | starting
  | searching
  | finalizing
  | validating
  | done
  | failed
  | aborted
deriving DecidableEq, Repr

/-- What a campaign asks for at its first measurement; `unset` means `rebuild_at_start`. -/
inductive DatasetPolicy where
  | unset
  | rebuildAtStart
  | useCurrent
deriving DecidableEq, Repr

/-- What it got; `unset` until it is settled. -/
inductive DatasetApplied where
  | unset
  | rebuilt
  | adopted
  | current
  | unavailable
deriving DecidableEq, Repr

/-- The substrate column of a machine; `unset` falls back to ssh and docker. -/
inductive DriverName where
  | unset
  | sshDocker
  | k8s
deriving DecidableEq, Repr

/-- The fixed port a machine's runs are reached on, and the cluster it is on. -/
structure NodePortClaim where
  port : Nat
  server : String
  host : String
deriving DecidableEq, Repr

/-- A machine. `group` is its row in `machine_group_members` (a machine is in at most one group)
and `nodePort` the claim its cluster's settings give. -/
structure Machine where
  id : MachineId
  name : String
  host : String := ""
  gpuCount : Nat := 8
  driver : DriverName := .unset
  nodeSelector : List (String × String) := []
  nodePort : Option NodePortClaim := none
  group : Option (String × Nat) := none
  nodeGpuMax : Nat := 0
  state : MachineState := .away
  needsAttention : Bool := false
  leaseState : LeaseState := .none
  leaseEndMode : LeaseEndMode := .unset
  leaseDueAt : Option Time := none
  leaseDeadlineAt : Option Time := none
  leaseReleasedAt : Option Time := none
deriving DecidableEq, Repr

/-- A nightly window: two minutes of the day in a named timezone, and when to stop repeating. -/
structure Schedule where
  start : Nat
  stop : Nat
  timezone : String := "Asia/Shanghai"
  until_ : Option Time := none
deriving DecidableEq, Repr

/-- A campaign. `policyCards` is `policy_settings["cards"]`, 0 for the whole machine;
`policyPorts` the number of ports its policy asks for; `schedule` what `daily_start`, `daily_end`,
`schedule_timezone` and `schedule_until` say together. -/
structure Campaign where
  id : CampaignId
  status : CampaignStatus := .draft
  image : String := ""
  shareMachine : Bool := true
  policyId : Option Nat := none
  policyCards : Nat := 0
  policyPorts : Nat := 4
  servicePort : Nat := 28200
  machineNames : List String := []
  nodeGroup : String := ""
  windowStart : Option Time := none
  windowEnd : Option Time := none
  overrideUntil : Option Time := none
  schedule : Option Schedule := none
  datasetProfile : String := ""
  datasetPolicy : DatasetPolicy := .unset
  datasetBuildId : String := ""
  datasetPolicyApplied : DatasetApplied := .unset
  datasetBuildRow : Nat := 0
deriving DecidableEq, Repr

/-- A candidate. `cards` is `config_cards` of its config, `worldSize` the config's own
parallelism product, `verify` whether it is measured by the verification benchmark. -/
structure Candidate where
  id : CandidateId
  campaignId : CampaignId
  status : CandidateStatus := .pending
  inPlaceBaseline : Bool := false
  cards : Nat
  worldSize : Nat
  verify : Bool := false
deriving DecidableEq, Repr

/-- One machine's part of a run. -/
structure RunNode where
  machineId : Option MachineId
  gpuIndices : List Nat
deriving DecidableEq, Repr

/-- A run. The rank-0 node mirrors the run's own columns, so only `workers` (ranks 1 and up) are
stored beside them. -/
structure Run where
  id : RunId
  campaignId : CampaignId
  candidateId : CandidateId
  machineId : Option MachineId
  kind : RunKind := .experiment
  status : RunStatus := .pending
  gpuIndices : List Nat := []
  servicePort : Nat := 0
  distPort : Nat := 0
  workers : List RunNode := []
  policySessionId : Option SessionId := none
  idempotencyKey : Option String := none
  releaseRequested : Bool := false
  teardownPending : Bool := false
  teardownAttempts : Nat := 0
  finishedAt : Option Time := none
  failureClass : String := ""
  error : String := ""
deriving DecidableEq, Repr

/-- A policy container's night on one machine. -/
structure PolicySession where
  id : SessionId
  campaignId : CampaignId
  machineId : Option MachineId := none
  windowStart : Option Time := none
  status : SessionStatus := .pending
  gpuIndices : List Nat := []
  ports : List Nat := []
  finalizeRequestedAt : Option Time := none
  finalizedAt : Option Time := none
  abortRequestedAt : Option Time := none
  servingContenderId : Option Nat := none
  searchEndReason : String := ""
  failureClass : String := ""
  error : String := ""
deriving DecidableEq, Repr

/-- A `stop_requested` event: the run it names and whether its reason is "force stop". -/
structure StopRequest where
  runId : RunId
  forceStop : Bool
deriving DecidableEq, Repr

/-- A `run_transition` event. -/
structure TransitionEvent where
  runId : RunId
  source : RunStatus
  target : RunStatus
deriving DecidableEq, Repr

/-- The database. `transitions` and `stopRequests` are the two kinds of event that are read back. -/
structure Db where
  machines : Lib.Table Machine.id := .empty
  campaigns : Lib.Table Campaign.id := .empty
  candidates : Lib.Table Candidate.id := .empty
  runs : Lib.Table Run.id := .empty
  sessions : Lib.Table PolicySession.id := .empty
  stopRequests : List StopRequest := []
  transitions : List TransitionEvent := []

/-! ## States -/

/-- `TERMINAL_RUN_STATES`. -/
def RunStatus.terminal : RunStatus → Bool
  | .succeeded | .failed | .killed => true
  | _ => false

/-- `TERMINAL_SESSION_STATES`. -/
def SessionStatus.terminal : SessionStatus → Bool
  | .done | .failed | .aborted => true
  | _ => false

def Run.live (r : Run) : Bool := !r.status.terminal

def PolicySession.live (s : PolicySession) : Bool := !s.status.terminal

def RunKind.isExternal : RunKind → Bool
  | .external _ => true
  | _ => false

/-- The launch an EXTERNAL run measures. -/
def Run.launchRunId (r : Run) : Option RunId :=
  match r.kind with
  | .external l => l
  | _ => Option.none

/-- `_master_node_values`: the rank-0 node a run's own columns describe. -/
def Run.masterNode (r : Run) : RunNode where
  machineId := r.machineId
  gpuIndices := r.gpuIndices

/-- A run's nodes, master first. -/
def Run.nodes (r : Run) : List RunNode := r.masterNode :: r.workers

/-- Does the run occupy this machine, as master or as worker? -/
def Run.onMachine (r : Run) (m : MachineId) : Bool :=
  r.nodes.any fun n => n.machineId == some m

/-- A k8s machine whose selector does not pin one node by hostname. -/
def Machine.isNodePool (m : Machine) : Bool :=
  m.driver == .k8s && !m.nodeSelector.any fun p => p.1 == "kubernetes.io/hostname"

end AutoTune
