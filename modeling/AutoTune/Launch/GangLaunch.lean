import AutoTune.Launch.DockerCommand
import AutoTune.Launch.Drivers
import AutoTune.Lib.Saga
import AutoTune.Lib.Shlex

/-!
# Launching a gang over ssh

The ssh driver starts every rank of a deployment as a container of its own, the master first, and waits for its
rendezvous before the workers. A rank that fails to start takes the ones before it down again. What the machines
answer is given call by call; the containers are what docker keeps.
-/

namespace AutoTune.SshDocker

open Lib

/-! ## What is launched -/

structure MachineInfo where
  name : String
  host : String
  gpuCount : Int := 8
deriving DecidableEq

structure NodeAssignment where
  machine : MachineInfo
  gpuIndices : List Int := []
  rank : Nat := 0
  containerName : String := ""
deriving DecidableEq

/-- A launch with its plan: what a container is made of, the machine, and the node of every rank. -/
structure GangSpec (F : Type) where
  spec : LaunchSpec F
  machine : MachineInfo
  nodes : List NodeAssignment := []
  distPort : Nat := 0

/-- The container a rank has where none is named. -/
def rankContainer (runId rank : Nat) : String :=
  "autotune-run-" ++ toString runId ++ (if rank = 0 then "" else "-r" ++ toString rank)

structure DeploymentHandle where
  driver : String
  containerName : String
  machine : MachineInfo
  endpointUrl : String
  rank : Nat := 0
deriving DecidableEq

/-- A handle with the handles of its workers. -/
structure Deployment where
  master : DeploymentHandle
  nodeHandles : List DeploymentHandle
deriving DecidableEq

/-- `all_handles`. -/
def Deployment.allHandles (d : Deployment) : List DeploymentHandle := d.master :: d.nodeHandles

namespace GangSpec

variable {F : Type} (g : GangSpec F)

/-- `endpoint_url`. -/
def endpointUrl : String := "http://" ++ g.machine.host ++ ":" ++ toString g.spec.port

/-- `for_node`. -/
def forNode (node : NodeAssignment) : GangSpec F where
  spec :=
    { g.spec with
      gpuCount := node.machine.gpuCount
      gpuIndices := node.gpuIndices
      rank := node.rank
      nodeContainer :=
        if node.containerName ≠ "" then node.containerName else rankContainer g.spec.runId node.rank }
  machine := node.machine
  nodes := []
  distPort := g.distPort

/-- `_single_node`. -/
def singleNode : NodeAssignment where
  machine := g.machine
  gpuIndices := g.spec.gpuIndices
  rank := 0
  containerName := g.spec.containerName

/-- `sorted(nodes, key=lambda node: node.rank)`. -/
def byRank (nodes : List NodeAssignment) : List NodeAssignment := nodes.mergeSort fun a b => a.rank ≤ b.rank

/-- The nodes a launch starts, in its order. -/
def ordered : List NodeAssignment := byRank (if g.nodes.isEmpty then [g.singleNode] else g.nodes)

/-- The handle of a node of the plan. -/
def handle (rank : Nat) : DeploymentHandle where
  driver := "ssh_docker"
  containerName := g.spec.containerName
  machine := g.machine
  endpointUrl := g.endpointUrl
  rank := rank

/-- The machine and the name of the container. -/
def place : String × String := (g.machine.host, g.spec.containerName)

end GangSpec

/-! ## What the machines answer -/

/-- A command that is sent to a machine. -/
inductive Command where
  | listeners
  | kubeProxy
  | inspect
  | gpuMemory
  | dumpLogs
  | remove
  | image
  | killPull
  | run
  | listening
deriving DecidableEq

/-- What `ensure_image`'s script prints. -/
inductive ImageAnswer where
  | present
  | started
  | pulling (seconds : Nat)
  | failed (output : String)
  | other

/-- The answers, by the number of the call. -/
structure Fates where
  link : Nat → String → Command → Link
  /-- Was a command that timed out, or a `docker run` that failed, carried out all the same? -/
  late : Nat → Bool
  /-- What `ss -lntp` says about the port. -/
  listener : Nat → String
  kubeProxy : Nat → Bool
  /-- The cards, and the memory that is used on each. -/
  gpuMemory : Nat → List (Int × Int)
  image : Nat → ImageAnswer
  /-- Does `docker rm -f` fail on a container that is there? -/
  keeps : Nat → Bool
  /-- Does `docker run` come up? -/
  runs : Nat → Bool
  stderr : Nat → String
  listening : Nat → Bool
  /-- The looks that fit into the timeout of a rendezvous. -/
  looks : Nat → Nat

structure Settings where
  dockerGpuMode : String
  imagePullTimeoutMinutes : Nat

/-- The containers of the machines, each with the command it was run by, and the calls made so far. -/
structure Fleet where
  containers : String × String → Option (List String)
  calls : Nat := 0

namespace Fleet

/-- One more call. -/
def called (s : Fleet) : Fleet := { s with calls := s.calls + 1 }

/-- What becomes of one container. -/
def put (s : Fleet) (place : String × String) (container : Option (List String)) : Fleet :=
  { s with containers := fun p => if p = place then container else s.containers p }

/-- Docker takes a name once. -/
def create (s : Fleet) (place : String × String) (argv : List String) : Fleet :=
  if (s.containers place).isSome then s else s.put place (some argv)

end Fleet

inductive LaunchError where
  | unknownEngine (message : String)
  | sshTimedOut (host : String) (seconds : Nat)
  | portInUse (port : Int) (host listener : String)
  | nodePortRange (port : Int) (host : String)
  | gpuBusy (host : String) (cards : List Int)
  | pullStarted (image host : String)
  | pulling (image host : String) (minutes : Nat)
  | pullTimeout (image host : String) (minutes : Nat)
  | pullFailed (image host output : String)
  | dockerRun (host stderr : String)
  | rendezvous (host : String) (port : Nat) (container : String)
  | noHandle
deriving DecidableEq

namespace LaunchError

/-- A `LaunchDeferred`. -/
def deferred : LaunchError → Bool
  | .pullStarted _ _ | .pulling _ _ _ => true
  | _ => false

/-- A list of whole numbers as Python prints it. -/
def cardsText (cards : List Int) : String := "[" ++ ", ".intercalate (cards.map toString) ++ "]"

/-- `str(exc)`. Of a command that timed out, but for the command. -/
def text : LaunchError → String
  | .unknownEngine message => message
  | .sshTimedOut host seconds => "ssh to " ++ host ++ " timed out after " ++ toString seconds ++ "s"
  | .portInUse port host listener =>
      "port " ++ toString port ++ " already in use on " ++ host ++ ": " ++ String.ofList (listener.toList.take 300)
  | .nodePortRange port host =>
      "port " ++ toString port ++ " is inside the k8s NodePort range (30000-32767) and " ++ host ++
        " runs kube-proxy, which hijacks that range on the node IP — choose a port outside it (e.g. 28200)"
  | .gpuBusy host cards =>
      "gpu busy on " ++ host ++ ": cards " ++ cardsText cards ++
        " still hold memory (a previous container has not finished releasing them)"
  | .pullStarted image host => "pulling " ++ image ++ " onto " ++ host
  | .pulling image host minutes =>
      "pulling " ++ image ++ " onto " ++ host ++ " (" ++ toString minutes ++ " min so far)"
  | .pullTimeout image host minutes =>
      "image_pull: " ++ image ++ " did not finish pulling onto " ++ host ++ " in " ++ toString minutes ++ " min"
  | .pullFailed image host output =>
      "image_pull: pulling " ++ image ++ " onto " ++ host ++ " failed: " ++ output
  | .dockerRun host stderr => "docker run failed on " ++ host ++ ": " ++ String.ofList (stderr.toList.take 2000)
  | .rendezvous host port container =>
      "dist_init_timeout: master " ++ host ++ " never opened its rendezvous port " ++ toString port ++
        " within 180s (" ++ container ++ ")"
  | .noHandle => "list index out of range"

end LaunchError

/-! ## The commands -/

section Driver

variable (f : Fates)

/-- `_ssh`: the number of the call that was answered, none where the machine could not be reached. -/
def send (host : String) (command : Command) (seconds : Nat) (effect : Nat → Fleet → Fleet) :
    Proc Fleet LaunchError (Option Nat) := fun s =>
  match f.link s.calls host command with
  | .connected => (.ok (some s.calls), effect s.calls s.called)
  | .refused => (.ok none, s.called)
  | .timedOut =>
      (.error (.sshTimedOut host seconds), if f.late s.calls then effect s.calls s.called else s.called)

/-- A command that reads. -/
def ask (host : String) (command : Command) (seconds : Nat) : Proc Fleet LaunchError (Option Nat) :=
  send f host command seconds fun _ s => s

/-- `_check_port_free`. -/
def checkPortFree (host : String) (port : Int) : Proc Fleet LaunchError Unit := do
  let reply ← ask f host .listeners 60
  let listener := (reply.map f.listener).getD ""
  if listener ≠ "" then Proc.raise (.portInUse port host listener)
  else if 30000 ≤ port ∧ port ≤ 32767 then
    let reply ← ask f host .kubeProxy 60
    if reply.any f.kubeProxy then Proc.raise (.nodePortRange port host) else pure ()
  else pure ()

/-- `attach` of one node: is its container there, as far as one look tells? -/
def containerThere (place : String × String) : Proc Fleet LaunchError Bool := do
  let reply ← ask f place.1 .inspect 60
  let s ← Proc.current
  return reply.isSome && (s.containers place).isSome

/-- `gpus_in_use`. -/
def gpusInUse (host : String) (indices : List Int) : Proc Fleet LaunchError (List Int) := do
  if indices.isEmpty then return []
  else
    let reply ← ask f host .gpuMemory 30
    let busy := ((reply.map f.gpuMemory).getD []).filter fun card => card.1 ∈ indices ∧ 1024 ≤ card.2
    return (busy.map Prod.fst).mergeSort fun a b => a ≤ b

/-- `_dump_remote_logs`: a timeout is a `RuntimeError` by then, so it is not caught. -/
def dumpRemoteLogs (host : String) : Proc Fleet LaunchError Unit := do
  let _ ← ask f host .dumpLogs 120

/-- `docker rm -f`, whatever it answers. -/
def removeContainer (place : String × String) (seconds : Nat) : Proc Fleet LaunchError Unit := do
  let _ ← send f place.1 .remove seconds fun t s => if f.keeps t then s else s.put place none

/-- `ensure_image`. -/
def ensureImage (settings : Settings) (host image : String) : Proc Fleet LaunchError Unit := do
  if image = "" then return ()
  else
    let reply ← ask f host .image 60
    match (reply.map f.image).getD .other with
    | .started => Proc.raise (.pullStarted image host)
    | .pulling seconds =>
        if settings.imagePullTimeoutMinutes * 60 < seconds then
          let _ ← ask f host .killPull 60
          Proc.raise (.pullTimeout image host settings.imagePullTimeoutMinutes)
        else Proc.raise (.pulling image host (seconds / 60))
    | .failed output => Proc.raise (.pullFailed image host output)
    | .present | .other => return ()

/-- `docker run -d`, and what its exit says. -/
def runContainer (place : String × String) (argv : List String) : Proc Fleet LaunchError Unit := fun s =>
  let t := s.calls
  match f.link t place.1 .run with
  | .connected =>
      if (s.containers place).isNone ∧ f.runs t then (.ok (), s.called.create place argv)
      else (.error (.dockerRun place.1 (f.stderr t)), if f.late t then s.called.create place argv else s.called)
  | .refused => (.error (.dockerRun place.1 (f.stderr t)), s.called)
  | .timedOut => (.error (.sshTimedOut place.1 180), if f.late t then s.called.create place argv else s.called)

variable {F : Type}

/-- The look at the cards in `launch`. Its own container may hold them: that is a relaunch. -/
def checkCards (g : GangSpec F) : Proc Fleet LaunchError Unit := do
  let there ← containerThere f g.place
  if there then return ()
  else
    let busy ← gpusInUse f g.machine.host g.spec.gpuIndices
    if busy ≠ [] then Proc.raise (.gpuBusy g.machine.host busy) else return ()

/-- A command as it is sent. -/
def commandText (argv : List String) : String := String.ofList (Shlex.join (argv.map String.toList))

/-- The looks of `wait_rendezvous`. -/
def pollRendezvous (g : GangSpec F) : Nat → Proc Fleet LaunchError Unit
  | 0 => Proc.raise (.rendezvous g.machine.host g.distPort g.spec.containerName)
  | looks + 1 => do
      let reply ← ask f g.machine.host .listening 30
      if reply.any f.listening then return () else pollRendezvous g looks

/-- `wait_rendezvous`. -/
def waitRendezvous (g : GangSpec F) : Proc Fleet LaunchError Unit := do
  if g.spec.rank ≠ 0 ∨ ¬ 1 < g.spec.nnodes ∨ g.distPort = 0 then return ()
  else
    let s ← Proc.current
    pollRendezvous f g (f.looks s.calls)

/-- `_teardown_one`. -/
def teardownOne (handle : DeploymentHandle) : Proc Fleet LaunchError Unit := do
  dumpRemoteLogs f handle.machine.host
  removeContainer f (handle.machine.host, handle.containerName) 120

/-- `attach`: the master alone tells whether a gang is still there. -/
def attachNodes (g : GangSpec F) : Proc Fleet LaunchError (Option Deployment) :=
  if 1 < g.nodes.length then
    match (GangSpec.byRank g.nodes).map fun node => (g.forNode node).handle node.rank with
    | [] => Proc.raise .noHandle
    | master :: workers => do
        let there ← containerThere f (master.machine.host, master.containerName)
        return if there then some ⟨master, workers⟩ else none
  else do
    let there ← containerThere f g.place
    return if there then some ⟨g.handle 0, []⟩ else none

variable [PyRuntime F]

/-- The end of `launch`: the handle, and the command. -/
def startContainer (settings : Settings) (g : GangSpec F) : Proc Fleet LaunchError (DeploymentHandle × String) :=
  match renderDockerCommand settings.dockerGpuMode g.spec with
  | .error message => Proc.raise (.unknownEngine message)
  | .ok argv => do
      runContainer f g.place argv
      return (g.handle 0, commandText argv)

/-- `launch`. -/
def launch (settings : Settings) (g : GangSpec F) : Proc Fleet LaunchError (DeploymentHandle × String) := do
  checkPortFree f g.machine.host g.spec.port
  checkCards f g
  dumpRemoteLogs f g.machine.host
  removeContainer f g.place 60
  ensureImage f settings g.machine.host g.spec.image
  startContainer f settings g

/-! ## The gang -/

/-- The loop of `launch_nodes`, and what it does when a node fails. -/
def gangSaga (settings : Settings) (g : GangSpec F) :
    Saga Fleet LaunchError NodeAssignment (DeploymentHandle × String) where
  act node := do
    let (handle, command) ← launch f settings (g.forNode node)
    return ({ handle with rank := node.rank }, command)
  confirm node _ := if node.rank = 0 ∧ 1 < g.ordered.length then waitRendezvous f (g.forNode node) else pure ()
  undo made := teardownOne f made.1

/-- `launch_nodes`: the gang, and each node's command. -/
def launchNodes (settings : Settings) (g : GangSpec F) : Proc Fleet LaunchError (Deployment × List String) := do
  let made ← (gangSaga f settings g).run g.ordered
  match made with
  | [] => Proc.raise .noHandle
  | master :: workers => return (⟨master.1, workers.map Prod.fst⟩, made.map Prod.snd)

/-! ## A run that waits -/

/-- What a tick makes of a pending run. -/
inductive RunState where
  | pending
  | launching (deployment : Deployment) (commands : List String)
  | failed (error : LaunchError)

/-- A run of a gang, and the machines. -/
structure GangRun where
  run : RunState := .pending
  fleet : Fleet

/-- `_advance_one` of a pending run: a launch that is deferred is tried again by the next tick. -/
def advancePending (settings : Settings) (g : GangSpec F) (w : GangRun) : GangRun :=
  match w.run with
  | .pending =>
      match launchNodes f settings g w.fleet with
      | (.ok (deployment, commands), s) => ⟨.launching deployment commands, s⟩
      | (.error e, s) => ⟨if e.deferred then .pending else .failed e, s⟩
  | _ => w

/-- The ticks until then. -/
def ticks (settings : Settings) (g : GangSpec F) (s : Fleet) : Nat → GangRun
  | 0 => ⟨.pending, s⟩
  | n + 1 => advancePending f settings g (ticks settings g s n)

end Driver

end AutoTune.SshDocker
