import AutoTune.Lib.Trace
import Mathlib.Data.List.Sort

/-!
# The TuningRun operator

One `Reconcile` reads the run, makes sure of its Deployment and Service, looks at its newest pod and stores
what it saw. The cluster changes on its own clock, so a Reconcile is given the answer that each of its API
calls gets: what there is to see at that moment, or the error of the call.
-/

namespace AutoTune

namespace TuningRun

/-! ## What the API server knows -/

/-- `TuningRunPhase`; `unset` is the empty string of a fresh run. -/
inductive Phase where
  | unset
  | pending
  | starting
  | ready
  | failed
  | expired
deriving DecidableEq, Repr

def Phase.text : Phase → String
  | .unset => ""
  | .pending => "Pending"
  | .starting => "Starting"
  | .ready => "Ready"
  | .failed => "Failed"
  | .expired => "Expired"

/-- The standard Ready condition. -/
structure Condition where
  status : Bool
  reason : String
  message : String
  observedGeneration : Int
deriving DecidableEq, Repr

/-- `TuningRunStatus`. -/
structure Status where
  phase : Phase := .unset
  endpoint : String := ""
  nodePort : Int := 0
  podName : String := ""
  nodeName : String := ""
  reason : String := ""
  message : String := ""
  startTime : Option Int := none
  readyTime : Option Int := none
  observedGeneration : Int := 0
  condition : Option Condition := none
deriving DecidableEq, Repr

/-- A TuningRun but for its status: what `Reconcile` reads of its metadata and spec. Times are nanoseconds. -/
structure RunObject where
  name : String
  nspace : String
  generation : Int := 1
  creationTimestamp : Int := 0
  deletionTimestamp : Option Int := none
  port : Int := 8000
  serviceType : String := ""
  ttlSeconds : Int := 0
deriving DecidableEq, Repr

/-- The Service of a run: its name and the node ports of its ports. -/
structure Service where
  name : String
  nspace : String
  nodePorts : List Int
deriving DecidableEq, Repr

inductive PodPhase where
  | pending
  | running
  | succeeded
  | failed
  | unknown
deriving DecidableEq, Repr

inductive ConditionStatus where
  | true_
  | false_
  | unknown
deriving DecidableEq, Repr

structure PodCondition where
  type : String
  status : ConditionStatus
  reason : String := ""
  message : String := ""
deriving DecidableEq, Repr

structure Waiting where
  reason : String
  message : String
deriving DecidableEq, Repr

structure Terminated where
  reason : String
  message : String
  exitCode : Int
deriving DecidableEq, Repr

structure ContainerStatus where
  waiting : Option Waiting := none
  terminated : Option Terminated := none
  lastTerminated : Option Terminated := none
deriving DecidableEq, Repr

structure Pod where
  name : String
  nodeName : String
  creationTimestamp : Int
  phase : PodPhase
  message : String := ""
  conditions : List PodCondition := []
  containerStatuses : List ContainerStatus := []
deriving DecidableEq, Repr

structure NodeAddress where
  type : String
  address : String
deriving DecidableEq, Repr

/-- A node, by its addresses. -/
structure Node where
  addresses : List NodeAddress
deriving DecidableEq, Repr

inductive ApiError where
  | notFound
  | alreadyExists
  | other (message : String)
deriving DecidableEq, Repr

/-- What becomes of a status write: one that fails may still have been stored. -/
inductive UpdateAnswer where
  | stored
  | failed (e : ApiError)
  | lost (e : ApiError)
deriving DecidableEq, Repr

/-- The answers to the calls of one `Reconcile`. -/
structure Answers where
  now : Int
  getRun : Except ApiError RunObject
  getDeployment : Except ApiError Unit
  createDeployment : Except ApiError Unit
  getService : Except ApiError Service
  createService : Except ApiError Service
  getServiceAgain : Except ApiError Service
  deleteDeployment : Except ApiError Unit
  deleteService : Except ApiError Unit
  listPods : Except ApiError (List Pod)
  getNode : String → Except ApiError Node
  updateStatus : UpdateAnswer

/-! ## What a pod says -/

/-- `terminalWaitingReasons`. -/
def terminalWaitingReasons : List String :=
  ["ImagePullBackOff", "ErrImagePull", "InvalidImageName", "CreateContainerConfigError", "CreateContainerError",
    "RunContainerError", "CrashLoopBackOff"]

/-- Why one container failed for good. -/
def containerFailure (cs : ContainerStatus) : Option (String × String) :=
  let waiting := (cs.waiting.filter fun w => w.reason ∈ terminalWaitingReasons).map fun w => (w.reason, w.message)
  let terminated := cs.terminated.bind fun t =>
    if t.reason = "OOMKilled" then some ("OOMKilled", t.message)
    else if t.exitCode ≠ 0 then
      some ("Error", "container exited with code " ++ toString t.exitCode ++ " (" ++ t.reason ++ ")")
    else none
  let last := (cs.lastTerminated.filter fun t => t.reason = "OOMKilled").map fun t => ("OOMKilled", t.message)
  waiting.or (terminated.or last)

/-- `containerFailureReason`. -/
def containerFailureReason (pod : Pod) : Option (String × String) := pod.containerStatuses.findSome? containerFailure

/-- `isPodReady`. -/
def isPodReady (pod : Pod) : Bool :=
  pod.phase = .running && (pod.conditions.find? fun c => c.type = "Ready").any fun c => c.status = .true_

/-- `unschedulableMessage`. -/
def unschedulableMessage (pod : Pod) : String :=
  ((pod.conditions.find? fun c =>
    c.type = "PodScheduled" ∧ c.status = .false_ ∧ c.reason = "Unschedulable").map PodCondition.message).getD ""

/-- `phaseFromPod`: the phase, the reason and the message. -/
def phaseFromPod (pod : Pod) : Phase × String × String :=
  match containerFailureReason pod with
  | some (reason, message) => (.failed, reason, message)
  | none =>
      if pod.phase = .failed then (.failed, "PodFailed", pod.message)
      else if isPodReady pod then (.ready, "", "")
      else if unschedulableMessage pod ≠ "" then (.starting, "Unschedulable", unschedulableMessage pod)
      else (.starting, "", "waiting for the engine to become ready")

/-! ## Services and nodes -/

/-- `serviceType`. -/
def serviceType (run : RunObject) : String := if run.serviceType ≠ "" then run.serviceType else "NodePort"

/-- `serviceNodePort`. -/
def serviceNodePort (svc : Service) : Int := svc.nodePorts.head?.getD 0

/-- The loop of `nodeInternalIP` over a node's addresses. -/
def internalIP (node : Node) : String :=
  ((node.addresses.find? fun a => a.type = "InternalIP").map NodeAddress.address).getD ""

/-- `nodeInternalIP`. -/
def nodeInternalIP (a : Answers) (nodeName : String) : Except ApiError String :=
  if nodeName = "" then .ok ""
  else
    match a.getNode nodeName with
    | .ok node => .ok (internalIP node)
    | .error .notFound => .ok ""
    | .error e => .error e

/-- `resolveEndpoint`: the endpoint and the node port. -/
def resolveEndpoint (a : Answers) (run : RunObject) (svc : Service) (pod : Pod) : Except ApiError (String × Int) :=
  if serviceType run = "NodePort" then
    match nodeInternalIP a pod.nodeName with
    | .error e => .error e
    | .ok nodeIP =>
        if nodeIP = "" ∨ serviceNodePort svc = 0 then .ok ("", serviceNodePort svc)
        else .ok ("http://" ++ nodeIP ++ ":" ++ toString (serviceNodePort svc), serviceNodePort svc)
  else .ok ("http://" ++ svc.name ++ "." ++ svc.nspace ++ ".svc:" ++ toString run.port, 0)

/-- `sort.Slice` by creation, the newest first. It is not stable: pods of one second may come in any order. -/
structure SortSlice where
  sort : List Pod → List Pod
  perm : ∀ pods, (sort pods).Perm pods
  newestFirst : ∀ pods, (sort pods).Pairwise fun p q => q.creationTimestamp ≤ p.creationTimestamp

/-- `currentPod`. -/
def currentPod (sorter : SortSlice) (a : Answers) : Except ApiError (Option Pod) :=
  a.listPods.map fun pods => (sorter.sort pods).head?

/-! ## The status -/

/-- `setReadyCondition`. -/
def setReadyCondition (st : Status) (generation : Int) : Status :=
  let condition : Condition :=
    match st.phase with
    | .ready => ⟨true, "EngineReady", "engine is serving", generation⟩
    | .failed | .expired => ⟨false, if st.reason ≠ "" then st.reason else st.phase.text, st.message, generation⟩
    | _ => ⟨false, "Progressing", st.message, generation⟩
  { st with condition := some condition }

/-- `statusEqual`. -/
def statusEqual (a b : Status) : Bool :=
  a.phase = b.phase && a.endpoint = b.endpoint && a.nodePort = b.nodePort && a.podName = b.podName &&
    a.nodeName = b.nodeName && a.reason = b.reason && a.message = b.message &&
    a.observedGeneration = b.observedGeneration

/-- `observe`: what is seen is written over a copy of the stored status. -/
def observe (sorter : SortSlice) (a : Answers) (run : RunObject) (stored : Status) (svc : Service) :
    Except ApiError Status :=
  let desired := { stored with observedGeneration := run.generation, startTime := stored.startTime.or (some a.now) }
  match currentPod sorter a with
  | .error e => .error e
  | .ok none =>
      .ok (setReadyCondition
        { desired with
          phase := .pending, reason := "", message := "workload created, waiting for a pod", podName := "",
          nodeName := "" }
        run.generation)
  | .ok (some pod) =>
      let (phase, reason, message) := phaseFromPod pod
      let desired :=
        { desired with
          podName := pod.name, nodeName := pod.nodeName, phase := phase, reason := reason, message := message }
      if phase = .ready then
        match resolveEndpoint a run svc pod with
        | .error e => .error e
        | .ok (endpoint, nodePort) =>
            .ok (setReadyCondition
              { desired with
                readyTime := desired.readyTime.or (some a.now), endpoint := endpoint, nodePort := nodePort }
              run.generation)
      else .ok (setReadyCondition desired run.generation)

/-- The status of a run that was torn down. -/
def expiredStatus (run : RunObject) (stored : Status) : Status :=
  setReadyCondition
    { stored with
      phase := .expired, reason := "TTLExceeded", message := "torn down after " ++ toString run.ttlSeconds ++ "s" }
    run.generation

/-- Has the run existed for longer than its TTL? -/
def ttlExceeded (run : RunObject) (now : Int) : Bool :=
  run.ttlSeconds > 0 && now - run.creationTimestamp > run.ttlSeconds * 1000000000

/-! ## Reconcile -/

/-- A call that writes. -/
inductive Write where
  | createDeployment
  | createService
  | deleteDeployment
  | deleteService
  | updateStatus (desired : Status)
deriving DecidableEq, Repr

/-- The stored status, and whether there may be a Deployment or a Service that the operator created. -/
structure System where
  status : Status := {}
  deployment : Bool := false
  service : Bool := false
deriving DecidableEq, Repr

/-- What a part of `Reconcile` did: the calls that write, the system then, and its error. -/
structure Done where
  writes : List Write
  system : System
  error : Option ApiError
deriving DecidableEq, Repr

/-- `err != nil && !is(err)`: an error but for one that means there is nothing to do. -/
def ignoring (harmless : ApiError) : Except ApiError Unit → Option ApiError
  | .ok _ => none
  | .error e => if e = harmless then none else some e

/-- `ensureDeployment`. A creation that fails may still have been made. -/
def ensureDeployment (a : Answers) (s : System) : Done :=
  match a.getDeployment with
  | .ok _ => ⟨[], s, none⟩
  | .error .notFound =>
      ⟨[.createDeployment], { s with deployment := true }, ignoring .alreadyExists a.createDeployment⟩
  | .error e => ⟨[], s, some e⟩

/-- `ensureService`: also the live Service. -/
def ensureService (a : Answers) (s : System) : Done × Except ApiError Service :=
  match a.getService with
  | .ok svc => (⟨[], s, none⟩, .ok svc)
  | .error .notFound =>
      let created : System := { s with service := true }
      match a.createService with
      | .ok svc => (⟨[.createService], created, none⟩, .ok svc)
      | .error .alreadyExists =>
          match a.getServiceAgain with
          | .ok svc => (⟨[.createService], created, none⟩, .ok svc)
          | .error e => (⟨[.createService], created, some e⟩, .error e)
      | .error e => (⟨[.createService], created, some e⟩, .error e)
  | .error e => (⟨[], s, some e⟩, .error e)

/-- `teardown`. -/
def teardown (a : Answers) (s : System) : Done :=
  match ignoring .notFound a.deleteDeployment with
  | some e => ⟨[.deleteDeployment], s, some e⟩
  | none =>
      let gone : System := { s with deployment := false }
      match ignoring .notFound a.deleteService with
      | some e => ⟨[.deleteDeployment, .deleteService], gone, some e⟩
      | none => ⟨[.deleteDeployment, .deleteService], { gone with service := false }, none⟩

/-- `applyStatus`. -/
def applyStatus (a : Answers) (s : System) (desired : Status) : Done :=
  if statusEqual s.status desired then ⟨[], s, none⟩
  else
    match a.updateStatus with
    | .stored => ⟨[.updateStatus desired], { s with status := desired }, none⟩
    | .failed e => ⟨[.updateStatus desired], s, some e⟩
    | .lost e => ⟨[.updateStatus desired], { s with status := desired }, some e⟩

/-- One part after another, unless the first failed. -/
def Done.andThen (d : Done) (next : System → Done) : Done :=
  match d.error with
  | some e => ⟨d.writes, d.system, some e⟩
  | none =>
      let rest := next d.system
      ⟨d.writes ++ rest.writes, rest.system, rest.error⟩

/-- Observe and report, with the live Service. -/
def report (sorter : SortSlice) (a : Answers) (run : RunObject) (live : Except ApiError Service) (s : System) : Done :=
  match live with
  | .error e => ⟨[], s, some e⟩
  | .ok svc =>
      match observe sorter a run s.status svc with
      | .error e => ⟨[], s, some e⟩
      | .ok desired => applyStatus a s desired

/-- `Reconcile`, once the run is read. -/
def reconcileRun (sorter : SortSlice) (a : Answers) (run : RunObject) (s : System) : Done :=
  if run.deletionTimestamp.isSome ∨ s.status.phase = .expired then ⟨[], s, none⟩
  else if ttlExceeded run a.now then
    (teardown a s).andThen fun s => applyStatus a s (expiredStatus run s.status)
  else
    (ensureDeployment a s).andThen fun s =>
      (ensureService a s).1.andThen (report sorter a run (ensureService a s).2)

/-- `Reconcile`. -/
def reconcile (sorter : SortSlice) (s : System) (a : Answers) : Done :=
  match a.getRun with
  | .error .notFound => ⟨[], s, none⟩
  | .error e => ⟨[], s, some e⟩
  | .ok run => reconcileRun sorter a run s

/-- The system after a Reconcile. -/
def step (sorter : SortSlice) (s : System) (a : Answers) : System := (reconcile sorter s a).system

end TuningRun

end AutoTune
