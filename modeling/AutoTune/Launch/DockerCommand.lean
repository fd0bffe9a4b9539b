import AutoTune.Launch.Volumes
import AutoTune.Recipe.CommandLine

/-!
# The container of a launch

The ssh driver runs an engine as a container: the adapter of the engine says what is served, the driver puts the
docker options before it. A policy's container has the same head and a command of its own.
-/

namespace AutoTune.SshDocker

open Lib

/-- What a container is made of. -/
structure LaunchSpec (F : Type) where
  runId : Nat
  /-- `machine.gpu_count or 0`. -/
  gpuCount : Int
  engine : String
  image : String
  modelPath : String
  servedModelName : String
  engineArgs : Dict (Json F) := .empty
  /-- Empty for all of them. -/
  gpuIndices : List Int := []
  port : Int := 28200
  env : Dict String := .empty
  volumes : Dict String := .empty
  rank : Int := 0
  nnodes : Int := 1
  distInitAddr : String := ""
  nodeContainer : String := ""

/-- `container_name`. -/
def LaunchSpec.containerName {F : Type} (spec : LaunchSpec F) : String :=
  if spec.nodeContainer = "" then "autotune-run-" ++ toString spec.runId else spec.nodeContainer

/-- A policy's container. Without GPU indices it gets no card. -/
structure WorkloadSpec where
  name : String
  image : String
  gpuCount : Int
  command : List String := []
  env : Dict String := .empty
  volumes : Dict String := .empty
  gpuIndices : Option (List Int) := none

/-! ## What is served -/

section Adapters

variable {F : Type} [PyRuntime F]

/-- `SGLangAdapter.build_command`. -/
def sglangCommand (spec : LaunchSpec F) : List String :=
  ["python3", "-m", "sglang.launch_server", "--model-path", modelMount,
    "--served-model-name", spec.servedModelName, "--host", "0.0.0.0", "--port", toString spec.port] ++
  renderArgs spec.engineArgs.entries "sglang" ++
  -- the plan of the machines comes last, so that it wins over a config with the same flags
  if 1 < spec.nnodes then
    ["--nnodes", toString spec.nnodes, "--node-rank", toString spec.rank, "--dist-init-addr", spec.distInitAddr]
  else []

/-- `VLLMAdapter.build_command`. -/
def vllmCommand (spec : LaunchSpec F) : List String :=
  ["vllm", "serve", modelMount, "--served-model-name", spec.servedModelName, "--host", "0.0.0.0",
    "--port", toString spec.port] ++
  renderArgs spec.engineArgs.entries "vllm"

/-- `render_engine_command`: the command of the engine's adapter. -/
def renderEngineCommand (spec : LaunchSpec F) : Except String (List String) :=
  if spec.engine = "sglang" then .ok (sglangCommand spec)
  else if spec.engine = "vllm" then .ok (vllmCommand spec)
  else .error ("unknown engine '" ++ spec.engine ++ "' (available: ['sglang', 'vllm'])")

end Adapters

/-! ## The docker options -/

/-- `REMOTE_BASE`. -/
def remoteBase : String := "/root/deploy/autotune"

/-- `DEFAULT_ENV`. -/
def defaultEnv : Dict String :=
  .ofEntries [("NVIDIA_DISABLE_REQUIRE", "1"), ("PYTORCH_ALLOC_CONF", "expandable_segments:True")]

/-- The argument of `--gpus`. -/
def gpuArgument (indices : List Int) : String :=
  if indices = [] then "all" else "\"device=" ++ ",".intercalate (indices.map toString) ++ "\""

/-- The options that hand cards to a container: none without cards, or where none are asked for. -/
def gpuOptions (gpuMode : String) (gpuCount : Int) (gpuIndices : Option (List Int)) : List String :=
  match gpuIndices with
  | some indices =>
      if gpuMode ≠ "none" ∧ 0 < gpuCount then ["--gpus", gpuArgument indices, "--runtime=nvidia"] else []
  | none => []

/-- `_docker_base`. -/
def dockerBase (gpuMode name : String) (gpuCount : Int) (gpuIndices : Option (List Int))
    (env volumes : Dict String) : List String :=
  ["docker", "run", "-d", "--name", name, "--network", "host"] ++ gpuOptions gpuMode gpuCount gpuIndices ++
  ["--ipc=host", "--cap-add=SYS_PTRACE", "--cap-add=SYS_NICE", "--ulimit", "memlock=-1",
    "--ulimit", "stack=67108864", "--security-opt", "label=disable", "--restart", "no"] ++
  ((sortEntries (defaultEnv.merge env).entries).flatMap fun e => ["-e", e.1 ++ "=" ++ e.2]) ++
  (sortEntries volumes.entries).flatMap fun v => ["-v", v.1 ++ ":" ++ v.2]

/-- The run's own cache directory. -/
def LaunchSpec.cacheDir {F : Type} (spec : LaunchSpec F) : String :=
  remoteBase ++ "/run-" ++ toString spec.runId ++ "/cache"

/-- The volumes of a launch: the weights and the run's cache, then what the launch declares. -/
def LaunchSpec.mounts {F : Type} (spec : LaunchSpec F) : Dict String :=
  mergeVolumes (.ofEntries [(spec.modelPath, modelMount), (spec.cacheDir, "/root/.cache")]) spec.volumes

/-- `--entrypoint` for the first word of a command, the image, and the other words. -/
def containerCommand (image : String) : List String → List String
  | [] => [image]
  | entrypoint :: words => "--entrypoint" :: entrypoint :: image :: words

/-- `render_docker_command`. -/
def renderDockerCommand {F : Type} [PyRuntime F] (gpuMode : String) (spec : LaunchSpec F) :
    Except String (List String) :=
  (renderEngineCommand spec).map fun engineCmd =>
    dockerBase gpuMode spec.containerName spec.gpuCount (some spec.gpuIndices) spec.env spec.mounts ++
      containerCommand spec.image engineCmd

/-- `render_workload_command`. -/
def renderWorkloadCommand (gpuMode : String) (spec : WorkloadSpec) : List String :=
  dockerBase gpuMode spec.name spec.gpuCount spec.gpuIndices spec.env spec.volumes ++
    containerCommand spec.image spec.command

end AutoTune.SshDocker
