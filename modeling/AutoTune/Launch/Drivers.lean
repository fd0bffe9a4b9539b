import AutoTune.Supervisor.Janitor

/-!
# What the drivers say about a run's deployment

`attach`, `request_stop`, `is_gone` and `release_leftovers` of the ssh_docker driver and of the
LLMService driver. The outside changes on its own clock: it is given as a function of the number of
calls made so far, and each call says what became of it.
-/

namespace AutoTune

/-- A driver method's answer, and the number of calls made by then. -/
structure Called (α : Type) where
  reply : Reply α
  calls : Nat

/-! ## ssh and docker -/

inductive ContainerStatus where
  | running
  | exited
deriving DecidableEq, Repr

/-- What becomes of an ssh command: it runs, it cannot connect (a non-zero exit), or it times out (a
RuntimeError). -/
inductive Link where
  | connected
  | refused
  | timedOut
deriving DecidableEq, Repr

/-- The machines of a run, call by call: the container of each rank, the fate of the command, and
whether the master's endpoint answers. A removed container does not come back: nothing launches a
run that has ended. -/
structure SshWorld where
  container : Nat → Nat → Option ContainerStatus
  link : Nat → Link
  endpoint : Nat → Bool
  gone_stays : ∀ t rank, container t rank = none → container (t + 1) rank = none

namespace SshDocker

variable (w : SshWorld)

/-- `_container_state`: any non-zero exit of `docker inspect` reads as absent. -/
def containerState (t rank : Nat) : Reply DeploymentState :=
  match w.link t with
  | .timedOut => .raised
  | .refused => .value .gone
  | .connected =>
      match w.container t rank with
      | none => .value .gone
      | some .running => .value .starting
      | some .exited => .value .crashed

/-- `_node_state`: only rank 0's endpoint is probed. -/
def nodeState (t rank : Nat) : Reply DeploymentState :=
  match containerState w t rank with
  | .value .starting => if rank = 0 ∧ w.endpoint t = true then .value .ready else .value .starting
  | reply => reply

/-- `attach`: of a gang, too, the master alone decides whether there is a handle. -/
def attach (t : Nat) : Called Bool where
  reply := match nodeState w t 0 with
    | .raised => .raised
    | .value s => .value (s != .gone)
  calls := t + 1

/-- `request_stop`: a SIGTERM to every node of the list. -/
def requestStop : List Nat → Nat → Called Unit
  | [], t => ⟨.value (), t⟩
  | _ :: ranks, t => if w.link t = .timedOut then ⟨.raised, t + 1⟩ else requestStop ranks (t + 1)

/-- `is_gone`: every node, up to the first that is there. -/
def isGone : List Nat → Nat → Called Bool
  | [], t => ⟨.value true, t⟩
  | rank :: ranks, t =>
      match nodeState w t rank with
      | .raised => ⟨.raised, t + 1⟩
      | .value .gone => isGone ranks (t + 1)
      | .value _ => ⟨.value false, t + 1⟩

end SshDocker

/-! ## LLMService objects -/

/-- The cluster, call by call: the run's LLMService object, its pods, the fixed port's Service, and
whether a call is answered (a failed one raises). The object of a run that has ended is not applied
again, and without it no pods are made. -/
structure K8sWorld where
  object : Nat → Bool
  pods : Nat → Bool
  service : Nat → Bool
  answers : Nat → Bool
  object_stays : ∀ t, object t = false → object (t + 1) = false
  pods_stay : ∀ t, object t = false → pods t = false → pods (t + 1) = false

/-- `k8s_endpoint` is "nodeport", and `k8s_service_nodeport` is set. -/
structure K8sSettings where
  nodeportEndpoint : Bool
  serviceNodeport : Bool
deriving DecidableEq, Repr

/-- `_fixed_port_mode`. -/
def K8sSettings.fixedPortMode (s : K8sSettings) : Bool := s.nodeportEndpoint && s.serviceNodeport

namespace LLMService

variable (w : K8sWorld) (settings : K8sSettings)

/-- `attach`: there is a handle while the object is; its endpoint is resolved by a further call. -/
def attach (t : Nat) : Called Bool :=
  if !w.answers t then ⟨.raised, t + 1⟩
  else if !w.object t then ⟨.value false, t + 1⟩
  else if !settings.nodeportEndpoint then ⟨.value true, t + 1⟩
  else if !w.answers (t + 1) then ⟨.raised, t + 2⟩
  else ⟨.value true, t + 2⟩

/-- `request_stop` is `teardown`: the object is deleted, and the fixed port's Service as well as can
be. -/
def requestStop (t : Nat) : Called Unit :=
  if !w.answers t then ⟨.raised, t + 1⟩
  else ⟨.value (), if settings.serviceNodeport then t + 2 else t + 1⟩

/-- `_port_released`. -/
def portReleased (t : Nat) : Called Bool :=
  if !settings.serviceNodeport then ⟨.value true, t⟩
  else ⟨.value (w.answers t && !w.service t), t + 1⟩

/-- `is_gone`: neither the object nor a pod; unproven is not gone. -/
def isGone (t : Nat) : Called Bool :=
  if !w.answers t then ⟨.raised, t + 1⟩
  else if w.object t then ⟨.value false, t + 1⟩
  else if !w.answers (t + 1) || w.pods (t + 1) then ⟨.value false, t + 2⟩
  else portReleased w settings (t + 2)

/-- `release_leftovers`: the fixed port's Service. -/
def releaseLeftovers (t : Nat) : Called Bool :=
  if !settings.fixedPortMode then ⟨.value true, t⟩
  else if !w.answers t then ⟨.raised, t + 1⟩
  else portReleased w settings (t + 1)

end LLMService

/-! ## The calls of a teardown -/

/-- A driver as the supervisor uses it on one run: its methods, each from a number of calls on. -/
structure RunDriver where
  attach : Nat → Called Bool
  requestStop : Nat → Called Unit
  isGone : Nat → Called Bool
  releaseLeftovers : Nat → Called Bool

/-- The ssh_docker driver on a run of `nodes` nodes; nothing outlives a container. -/
def sshDriver (w : SshWorld) (nodes : Nat) : RunDriver where
  attach := SshDocker.attach w
  requestStop := SshDocker.requestStop w (List.range nodes).reverse
  isGone := SshDocker.isGone w (List.range nodes)
  releaseLeftovers := fun t => ⟨.value true, t⟩

/-- The LLMService driver. -/
def llmServiceDriver (w : K8sWorld) (settings : K8sSettings) : RunDriver where
  attach := LLMService.attach w settings
  requestStop := LLMService.requestStop w settings
  isGone := LLMService.isGone w settings
  releaseLeftovers := LLMService.releaseLeftovers w settings

namespace RunDriver

variable (d : RunDriver) (t : Nat)

/-- The replies `_begin_teardown` gets, in the order it asks for them, and the calls made when it
returns. Without a handle the leftovers are asked for next, with one after stop and look. -/
def beginReplies : TeardownReplies × Nat :=
  let a := d.attach t
  let s := d.requestStop a.calls
  let g := d.isGone s.calls
  let asked := match a.reply with
    | .value true => g.calls
    | _ => a.calls
  let l := d.releaseLeftovers asked
  (⟨a.reply, s.reply, g.reply, l.reply⟩,
    match a.reply, s.reply, g.reply with
    | .raised, _, _ => a.calls
    | .value true, .raised, _ => s.calls
    | .value true, .value _, .raised => g.calls
    | .value true, .value _, .value false => g.calls
    | _, _, _ => l.calls)

/-- The replies an iteration of `_reap_teardowns` gets before the budget is spent, and the calls made
by then. What it asks a handle it did find does not matter here. -/
def reapReplies (unfinished : Reply (List String)) (teardown : Reply Unit) : ReapReplies × Nat :=
  let a := d.attach t
  let l := d.releaseLeftovers a.calls
  (⟨a.reply, l.reply, unfinished, teardown⟩,
    match a.reply with
    | .value false => l.calls
    | _ => a.calls)

end RunDriver

end AutoTune
