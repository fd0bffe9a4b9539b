import AutoTune.Lib.Python
import AutoTune.Supervisor.Finish
import Mathlib.Data.List.Dedup
import Mathlib.Data.List.Sort
import Mathlib.Data.String.Basic

/-!
# What a run's pods say

The Kubernetes drivers read a run's pods, their events and the cluster's nodes: `state` says whether the run
is up, coming up or dead, `failureReason` why it is not up, and `startupStatus` how far along it is. The
supervisor's startup clocks go by the last two.
-/

namespace AutoTune

open Lib

namespace K8s

/-! ## Readings -/

structure Waiting where
  reason : String
  message : String := ""
deriving DecidableEq, Repr

structure Terminated where
  exitCode : Option Int
  reason : String := ""
deriving DecidableEq, Repr

/-- A container's state; a time that is not there is the empty text. -/
structure ContainerStatus where
  waiting : Option Waiting := none
  startedAt : String := ""
  terminated : Option Terminated := none
  restartCount : Int := 0
  lastTerminated : Option Terminated := none
deriving DecidableEq, Repr

structure Condition where
  type : String
  status : String
  reason : String := ""
  message : String := ""
deriving DecidableEq, Repr

structure MatchExpression where
  key : String
  operator : String
  values : List String
deriving DecidableEq, Repr

/-- A pod: of its spec, the containers' limits and what binds it to nodes. -/
structure Pod where
  name : String
  conditions : List Condition := []
  containerStatuses : List ContainerStatus := []
  limits : List (List (String × String)) := []
  nodeSelector : List (String × String) := []
  nodeSelectorTerms : List (List MatchExpression) := []
deriving DecidableEq, Repr

structure Event where
  type : String
  involvedKind : String
  involvedName : String
  reason : String
  lastTimestamp : String := ""
  eventTime : String := ""
  message : String := ""
deriving DecidableEq, Repr

structure Node where
  name : String
  allocatable : List (String × String)
deriving DecidableEq, Repr

/-- What the transport answers: `none` for a call that raises. Nodes are listed by label selector. -/
structure Reading where
  pods : Option (List Pod)
  events : Option (List Event)
  nodes : String → Option (List Node)

/-- The settings of a cluster, and the machine's own node selector. -/
structure Settings where
  machineNodeSelector : String := ""
  nodeSelector : String := ""
  gpuResource : String := "nvidia.com/gpu"
deriving DecidableEq, Repr

/-- A failure class and a message. -/
structure Failure where
  failureClass : String
  message : String
deriving DecidableEq, Repr

/-- `TRANSIENT_PLACEMENT_FAILURES`. -/
def transientPlacementFailures : List String := ["unschedulable"]

/-- `is_transient_placement`. -/
def isTransientPlacement (failureClass : String) : Bool := failureClass ∈ transientPlacementFailures

/-- `_POD_FAILED_REASONS`. -/
def podFailedReasons : List String :=
  ["CrashLoopBackOff", "ImagePullBackOff", "ErrImagePull", "InvalidImageName", "CreateContainerError",
    "CreateContainerConfigError", "RunContainerError"]

/-- `_POD_FAILED_EVENT_REASONS`. -/
def podFailedEventReasons : List String := ["FailedMount", "FailedAttachVolume", "FailedCreatePodSandBox"]

/-- `_failure_class_for`. -/
def failureClassFor (reason : String) : String :=
  (dictGet
    [("ImagePullBackOff", "image_pull"), ("ErrImagePull", "image_pull"), ("InvalidImageName", "image_pull"),
      ("CreateContainerConfigError", "config_error"), ("CreateContainerError", "config_error"),
      ("RunContainerError", "config_error"), ("CrashLoopBackOff", "crash_loop"), ("FailedMount", "mount_failed"),
      ("FailedAttachVolume", "mount_failed"), ("FailedCreatePodSandBox", "sandbox_failed")]
    reason).getD (lowerAscii reason)

/-- `a or b` of texts. -/
def orText (a b : String) : String := if a = "" then b else a

/-! ## Containers -/

/-- `_pod_ready`. -/
def podReady (pod : Pod) : Bool := pod.conditions.any fun c => c.type = "Ready" && c.status = "True"

/-- `_restarted_before_ready`. -/
def restartedBeforeReady (c : ContainerStatus) : Bool := 0 < c.restartCount && c.lastTerminated.isSome

/-- Is a container waiting for what will never come? -/
def waitsInVain (c : ContainerStatus) : Bool := c.waiting.any fun w => w.reason ∈ podFailedReasons

/-- Did a container exit with an error? -/
def exitedBadly (c : ContainerStatus) : Bool :=
  c.terminated.any fun t => t.exitCode ≠ some 0 && t.exitCode ≠ none

def exitText : Option Int → String
  | some code => toString code
  | none => "None"

/-- What `failure_reason` says of one container. -/
def containerFailure (ready : Bool) (c : ContainerStatus) : Option Failure :=
  match c.waiting.filter fun w => w.reason ∈ podFailedReasons with
  | some w => some ⟨failureClassFor w.reason, orText w.message w.reason⟩
  | none =>
      if !ready && restartedBeforeReady c then
        let code := exitText (c.lastTerminated.bind Terminated.exitCode)
        let reason := (c.lastTerminated.map Terminated.reason).getD ""
        some ⟨"crash_loop", "the engine exited before it was ready (exit code " ++ code ++
          (if reason = "" then "" else ", " ++ reason) ++ ") and the cluster " ++
          "restarted it " ++ toString c.restartCount ++ " time(s)"⟩
      else
        match c.terminated.filter fun t => t.exitCode ≠ some 0 && t.exitCode ≠ none with
        | some t =>
            if t.reason = "OOMKilled" then some ⟨"oom", "engine container was OOMKilled"⟩
            else some ⟨"engine_exited", "container exited with code " ++ exitText t.exitCode ++ " (" ++
              orText t.reason "Error" ++ ")"⟩
        | none => none

/-! ## Placement -/

/-- `HOSTNAME_LABEL`. -/
def hostnameLabel : String := "kubernetes.io/hostname"

/-- `_pod_allowed_nodes`, without repetitions. -/
def podAllowedNodes (pod : Pod) : List String :=
  let pinned := (dictGet pod.nodeSelector hostnameLabel).getD ""
  if pinned ≠ "" then [pinned]
  else
    let exprs := pod.nodeSelectorTerms.flatten.filter fun e => e.key = hostnameLabel && e.operator = "In"
    (exprs.flatMap MatchExpression.values).dedup

/-- `int(amounts.get(resource, 0) or 0)`, 0 for what is no number. -/
def amountOf (amounts : List (String × String)) (resource : String) : Int :=
  (intOfText ((dictGet amounts resource).getD "")).getD 0

/-- `_pod_gpu_request`. -/
def podGpuRequest (pod : Pod) (resource : String) : Int := (pod.limits.map fun l => amountOf l resource).sum

/-- `_node_gpu_count`. -/
def nodeGpuCount (node : Node) (resource : String) : Int := amountOf node.allocatable resource

def selectorOf (s : Settings) : String := strip (orText s.machineNodeSelector s.nodeSelector)

/-- The nodes a pod may use. -/
def usableNodes (pod : Pod) (nodes : List Node) : List Node :=
  let allowed := podAllowedNodes pod
  if allowed = [] then nodes else nodes.filter fun n => n.name ∈ allowed

/-- `_placement_verdict`. -/
def placementVerdict (s : Settings) (nodesOf : String → Option (List Node)) (pod : Pod) (message : String) :
    Failure :=
  let selector := selectorOf s
  match nodesOf selector with
  | none => ⟨"unschedulable", message⟩
  | some nodes =>
      let allowed := podAllowedNodes pod
      let usable := usableNodes pod nodes
      let want := podGpuRequest pod s.gpuResource
      let biggest := ((usable.map fun n => nodeGpuCount n s.gpuResource).max?).getD 0
      if selector ≠ "" ∧ nodes = [] then
        ⟨"unplaceable", "no cluster node matches this machine's node selector (" ++ selector ++ "); " ++
          "the pod can never be scheduled — fix the selector on the Resources page"⟩
      else if allowed ≠ [] ∧ usable = [] then
        ⟨"unplaceable", "none of the nodes this run may use (" ++
          ", ".intercalate (allowed.insertionSort (· ≤ ·)) ++ ") " ++
          "is a node of this machine (" ++ orText selector "any node" ++ "); the pod can " ++ "never be scheduled"⟩
      else if 0 < want ∧ usable ≠ [] ∧ biggest < want then
        ⟨"unplaceable", "pod asks for " ++ toString want ++ " x " ++ s.gpuResource ++ " but the " ++
          "largest node matching " ++ orText selector "this cluster" ++ " has " ++ toString biggest ++ " " ++
          "allocatable; no amount of waiting fits it"⟩
      else ⟨"unschedulable", message⟩

/-- Is this what the scheduler says of a pod it cannot place? -/
def isUnschedulable (c : Condition) : Bool :=
  c.type = "PodScheduled" && c.status = "False" && c.reason = "Unschedulable"

/-! ## Events -/

/-- Is this a terminal warning about the pod? -/
def isPodFailure (name : String) (e : Event) : Bool :=
  e.type = "Warning" && e.involvedKind = "Pod" && e.involvedName = name && e.reason ∈ podFailedEventReasons

def eventTimestamp (e : Event) : String := orText e.lastTimestamp e.eventTime

/-- The newest of the events, the later one of two with one time. -/
def newestEvent (events : List Event) : Option Event :=
  events.foldl (fun best e =>
    if best.all fun b => eventTimestamp b ≤ eventTimestamp e then some e else best) none

/-- `_event_failure`. -/
def eventFailure (events : Option (List Event)) (pod : Pod) : Option Failure :=
  if pod.name = "" then none
  else (newestEvent ((events.getD []).filter (isPodFailure pod.name))).map fun e =>
    ⟨failureClassFor e.reason, orText e.message e.reason⟩

/-! ## Why a run is not up -/

/-- What `failure_reason` says of one pod. -/
def podFailure (s : Settings) (reading : Reading) (pod : Pod) : Option Failure :=
  match pod.containerStatuses.findSome? (containerFailure (podReady pod)) with
  | some f => some f
  | none =>
      match pod.conditions.find? isUnschedulable with
      | some c => some (placementVerdict s reading.nodes pod (orText c.message "no node fits the pod"))
      | none => eventFailure reading.events pod

/-- `K8sDriver.failure_reason`. -/
def podsFailure (s : Settings) (reading : Reading) : Option Failure :=
  (reading.pods.getD []).findSome? (podFailure s reading)

/-- `K8sDriver._pod_state`. -/
def podState (reading : Reading) : DeploymentState :=
  let pods := reading.pods.getD []
  if pods.any podReady then .ready
  else if pods.any fun pod => pod.containerStatuses.any fun c =>
      waitsInVain c || exitedBadly c || restartedBeforeReady c then .crashed
  else .starting

/-! ## The run's own object -/

/-- The status of a custom resource. -/
structure CustomStatus where
  phase : String := ""
  state : String := ""
  conditionTypes : List String := []
deriving DecidableEq, Repr

/-- `_phase`. -/
def phaseOf (status : CustomStatus) : String :=
  lowerAscii (orText status.phase (orText status.state (status.conditionTypes.getLast?.getD "")))

/-- `_FAILED_PHASES`. -/
def failedPhases : List String :=
  ["failed", "expired", "error", "crashloopbackoff", "unschedulable", "imagepullbackoff", "errimagepull", "evicted"]

/-- The status of an LLMService. -/
structure ServiceStatus where
  phase : String := ""
  message : String := ""
  conditions : List Condition := []
deriving DecidableEq, Repr

/-- `p in s`. -/
def isPartOf (p s : String) : Bool := s.toList.tails.any fun t => p.toList.isPrefixOf t

/-- `_operator_failure`. -/
def operatorFailure (status : ServiceStatus) : Option Failure :=
  if status.phase ≠ "Failed" then none
  else
    let applied := status.conditions.filter fun c => c.type = "Applied" && c.status = "False"
    let reason := (applied.getLast?.map Condition.reason).getD ""
    let message := orText status.message (orText reason "the operator could not apply the chart")
    let refused := isPartOf "execution error" message || isPartOf "meet the specifications of the schema" message
    if refused || reason = "Failed" then
      some ⟨"bad_config", takeText 2000 ("the chart refuses this config: " ++ message)⟩
    else if reason ∈ ["ChartRepoNotAllowed", "ChartResolveFailed", "Drift", "PendingRelease"] then
      some ⟨"cluster_setup", takeText 2000 ("cluster setup: " ++ reason ++ ": " ++ message)⟩
    else none

/-- The endpoints of a Service: the addresses of each subset. `none` when they cannot be read, `some none` when
there are none. -/
abbrev Endpoints := Option (Option (List (List String)))

/-- `_front_door_ready`. -/
def frontDoorReady (endpoints : Endpoints) : Option Bool :=
  endpoints.map fun found => (found.getD []).any fun addresses => !addresses.isEmpty

/-- The object a run lives under, by the cluster's workload kind. -/
inductive Workload where
  | deployment
  | custom (status : CustomStatus)
  | llmservice (status : ServiceStatus) (endpoints : Endpoints)
deriving DecidableEq, Repr

/-- `failure_reason` of the driver. -/
def failureReason (s : Settings) (workload : Option Workload) (reading : Reading) : Option Failure :=
  match workload with
  | some (.llmservice status _) => (operatorFailure status).or (podsFailure s reading)
  | _ => podsFailure s reading

/-- Is this a reason that ends a run? -/
def endsRun (reason : Option Failure) : Bool := reason.any fun f => !isTransientPlacement f.failureClass

/-- `state` of the driver; `none` when the run's object is not there. -/
def state (s : Settings) (workload : Option Workload) (reading : Reading) : DeploymentState :=
  match workload with
  | none => .gone
  | some .deployment => podState reading
  | some (.custom status) =>
      if phaseOf status ∈ failedPhases then .crashed
      else if phaseOf status = "ready" then .ready
      else if endsRun (failureReason s workload reading) then .crashed
      else .starting
  | some (.llmservice status endpoints) =>
      if (operatorFailure status).isSome then .crashed
      else if podState reading = .crashed then .crashed
      else if endsRun (failureReason s workload reading) then .crashed
      else
        match frontDoorReady endpoints with
        | none => podState reading
        | some true => .ready
        | some false => .starting

/-! ## The startup clocks -/

inductive StartupPhase where
  | unknown
  | pulling
  | running
deriving DecidableEq, Repr

structure StartupStatus where
  phase : StartupPhase
  runningSince : Option String
deriving DecidableEq, Repr

/-- The start times of the running containers. -/
def startTimes (pods : List Pod) : List String :=
  (pods.flatMap fun pod => pod.containerStatuses.map ContainerStatus.startedAt).filter fun t => t ≠ ""

/-- `startup_status`. -/
def startupStatus (reading : Reading) : StartupStatus :=
  match reading.pods with
  | none => ⟨.unknown, none⟩
  | some pods =>
      match (startTimes pods).min? with
      | some since => ⟨.running, some since⟩
      | none => ⟨.pulling, none⟩

/-- What the supervisor's clocks go by, in microseconds, and how a timestamp is parsed. -/
structure Clocks where
  now : Int
  startedAt : Option Int
  readyMinutes : Int
  imagePullTimeoutMinutes : Int
  parseRfc3339 : String → Option Int

/-- `PLACEMENT_CHECK_AFTER_SECONDS`. -/
def placementCheckAfterSeconds : Int := 30

def seconds (n : Int) : Int := n * 1000000

/-- Overrun, why, and what a queued run waits for. -/
structure StartupVerdict where
  timedOut : Bool
  why : String
  waiting : String
deriving DecidableEq, Repr

/-- Nothing to say of the run yet. -/
def StartupVerdict.onTime : StartupVerdict := ⟨false, "", ""⟩

/-- The pull clock of `_startup_timed_out`. -/
def pullTimedOut (clocks : Clocks) (started : Int) (reason : Option Failure) : StartupVerdict :=
  let overdue :=
    if seconds (60 * clocks.imagePullTimeoutMinutes) < clocks.now - started then
      match reason with
      | some f =>
          if isTransientPlacement f.failureClass then ⟨false, "", f.message⟩ else ⟨true, f.message, ""⟩
      | none =>
          ⟨true, "pod still not running " ++ toString clocks.imagePullTimeoutMinutes ++ " " ++
            "min after launch (scheduling / image pull)", ""⟩
    else StartupVerdict.onTime
  if seconds placementCheckAfterSeconds < clocks.now - started then
    match reason with
    | some f =>
        if isTransientPlacement f.failureClass then ⟨false, "", f.message⟩
        else if f.failureClass = "unplaceable" then ⟨true, f.message, ""⟩
        else overdue
    | none => overdue
  else overdue

/-- `_startup_timed_out`, of a driver that answers `status` and `reason`. -/
def startupTimedOut (clocks : Clocks) (status : StartupStatus) (reason : Option Failure) : StartupVerdict :=
  match clocks.startedAt with
  | none => .onTime
  | some started =>
      let readyLimit := seconds (60 * clocks.readyMinutes)
      match status.phase, status.runningSince.bind clocks.parseRfc3339 with
      | .running, some since =>
          if readyLimit < clocks.now - since then
            ⟨true, "engine not ready " ++ toString clocks.readyMinutes ++ " " ++ "min after its container started", ""⟩
          else .onTime
      | .pulling, _ => pullTimedOut clocks started reason
      | _, _ =>
          -- the phases cannot be told apart
          if readyLimit < clocks.now - started then
            ⟨true, "not ready after " ++ toString clocks.readyMinutes ++ " min", ""⟩
          else .onTime

end K8s

end AutoTune
