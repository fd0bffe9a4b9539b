import AutoTune.Catalog.ExtraArgs
import AutoTune.Lib.PosixPath

/-!
# A pasted launch command

A pasted `docker run` line carries docker flags, the image and the engine's own command. `parseLaunchCommand`
walks the docker flags into the fields every substrate has and reports the others, reads the engine's
arguments, and resolves the model path through the mount that holds it.
-/

namespace AutoTune

open Lib

/-- `_DOCKER_VALUE_OPTS`. -/
def dockerValueOpts : List String :=
  ["-e", "--env", "-v", "--volume", "--mount", "--name", "--network", "--net", "--gpus", "--ulimit",
    "--entrypoint", "-p", "--publish", "--expose", "--restart", "--runtime", "--shm-size", "--security-opt",
    "--cap-add", "--cap-drop", "--device", "--label", "-l", "-w", "--workdir", "-u", "--user", "--ipc", "--pid",
    "--uts", "--cpus", "--cpuset-cpus", "-m", "--memory", "--memory-swap", "--hostname", "-h", "--add-host",
    "--dns", "--env-file", "--log-driver", "--log-opt", "--stop-signal", "--stop-timeout", "--health-cmd",
    "--health-interval", "--health-retries", "--health-timeout"]

/-- `_DOCKER_BOOL_OPTS`. -/
def dockerBoolOpts : List String :=
  ["-d", "--detach", "--rm", "-i", "-t", "-it", "-ti", "--interactive", "--tty", "--privileged", "--init",
    "--no-healthcheck", "--read-only", "-P", "--publish-all"]

/-- `_PLATFORM_MANAGED_OPTS`. -/
def platformManagedOpts : List String :=
  ["--gpus", "--network", "--net", "--ipc", "--ulimit", "--name", "-d", "--detach", "--restart", "--runtime",
    "--security-opt", "--cap-add", "--rm", "-p", "--publish", "--entrypoint"]

/-! ## The docker flags -/

/-- What the walk over the docker flags fills. -/
structure DockerPart where
  image : String := ""
  extraEnv : List (String × String) := []
  extraVolumes : List (String × String) := []
  platformManaged : List String := []
  warnings : List String := []
deriving DecidableEq, Repr

/-- The entry of a flag the platform sets itself. -/
def managedEntry (opt value : String) : String := strip (opt ++ " " ++ value)

/-- The warning of a flag nothing carries over. -/
def flagWarning (opt value : String) : String :=
  strip ("docker flag " ++ opt ++ " " ++ value ++ " is not carried over")

/-- The warning of a switch neither list knows. -/
def unknownWarning (opt : String) : String :=
  "unrecognized docker flag " ++ opt ++ " was read as a switch — check " ++
    "the compiled fields if the command looks misparsed"

/-- The warning of an environment name without a value. -/
def envWarning (key : String) : String :=
  "env " ++ key ++ " has no value in the paste (docker would inherit " ++ "it from the host); set it explicitly"

section Walk

variable (F : Type) [PyRuntime F]

/-- The warning of a volume without a colon. -/
def volumeWarning (value : String) : String :=
  "volume " ++ PyRuntime.quote F value ++ " has no container path; dropped"

/-- The warning of a mount. -/
def mountWarning (value : String) : String :=
  "--mount " ++ PyRuntime.quote F value ++ " is not carried over; rewrite it as -v host:container"

/-- One docker option with its value. -/
def DockerPart.takeOption (out : DockerPart) (opt value : String) : DockerPart :=
  if opt ∈ ["-e", "--env"] then
    { out with
      warnings := out.warnings ++ (if hasChar value '=' then [] else [envWarning (partitionAt '=' value).1])
      extraEnv := dictSet out.extraEnv (partitionAt '=' value).1 (partitionAt '=' value).2 }
  else if opt ∈ ["-v", "--volume"] then
    if hasChar value ':' then
      { out with
        extraVolumes := dictSet out.extraVolumes (partitionAt ':' value).1 (partitionAt ':' value).2 }
    else { out with warnings := out.warnings ++ [volumeWarning F value] }
  else if opt = "--mount" then { out with warnings := out.warnings ++ [mountWarning F value] }
  else if opt ∈ platformManagedOpts then
    { out with platformManaged := out.platformManaged ++ [managedEntry opt value] }
  else if opt ∉ dockerBoolOpts then { out with warnings := out.warnings ++ [flagWarning opt value] }
  else out

/-- The loop of `_split_docker_run`: what it fills, and the command behind the image. -/
def walkOptions : List String → DockerPart → DockerPart × List String
  | [], out => ({ out with warnings := out.warnings ++ ["no image found after the docker flags"] }, [])
  | token :: rest, out =>
      if !startsWith token "-" then ({ out with image := token }, rest)
      else if hasChar token '=' then
        walkOptions rest (out.takeOption F (partitionAt '=' token).1 (partitionAt '=' token).2)
      else if token ∈ dockerValueOpts then
        match rest with
        | [] => walkOptions [] (out.takeOption F token "")
        | value :: rest => walkOptions rest (out.takeOption F token value)
      else
        let warned : DockerPart :=
          if token ∈ dockerBoolOpts then out
          else { out with warnings := out.warnings ++ [unknownWarning token] }
        walkOptions rest (warned.takeOption F token "")

/-- `_split_docker_run`. -/
def splitDockerRun (tokens : List String) : DockerPart × List String :=
  walkOptions F ((tokens.dropWhile fun t => t ≠ "run").drop 1) {}

/-- The docker part of a command and the engine's tokens: all of them where no container is run. -/
def dockerPart (tokens : List String) : DockerPart × List String :=
  if "docker" ∈ tokens.take 2 ∧ "run" ∈ tokens.take 3 then splitDockerRun F tokens else ({}, tokens)

end Walk

/-! ## The engine's command -/

/-- `engine_of_command` of an argv list. -/
def engineOfCommand (command : List String) : String :=
  let text := lowerAscii ("[" ++ ", ".intercalate (command.map fun t => String.ofList (quoted t)) ++ "]")
  let names := fun engine : String => text.toList.tails.any fun t => engine.toList.isPrefixOf t
  if names "sglang" then "sglang"
  else if names "vllm" then "vllm"
  else ""

/-- `short_flags`. -/
def shortFlags (engine : String) : List (String × String) :=
  if engine = "vllm" then
    [("-tp", "tp"), ("-dp", "dp"), ("-pp", "pp"), ("-q", "quantization"), ("-cc", "compilation_config"),
      ("-sc", "speculative_config")]
  else []

/-- The single-dash forms spelled out. -/
def spellOut (engine : String) (tokens : List String) : List String :=
  tokens.map fun t => ((dictGet (shortFlags engine) t).map fun key => "--" ++ replaceChar '_' '-' key).getD t

/-- The model vllm's newer command line takes as a positional. -/
def positionalModel : List String → String
  | launcher :: command :: model :: _ =>
      if lastSegment launcher = "vllm" ∧ command = "serve" ∧ startsWith model "-" = false then model else ""
  | _ => ""

/-- `target.split(":", 1)[0].rstrip("/")`. -/
def containerPath (target : String) : String := rstripChar '/' (partitionAt ':' target).1

/-- The host directory that is mounted where the engine looks for the model. -/
def mountedAt (volumes : List (String × String)) (path : String) : Option String :=
  (volumes.find? fun v => containerPath v.2 = rstripChar '/' path && path ≠ "").map Prod.fst

section Engine

variable {F : Type} [PyRuntime F]

/-- `args.get(key) or other`, as text. -/
def argOr (args : JsonDict F) (key other : String) : String :=
  match dictGet args key with
  | some value => if value.truthy then value.text else other
  | none => other

/-- `int(args.get("port") or 0)`, 0 for what is no number. -/
def servicePort (args : JsonDict F) : Int :=
  match dictGet args "port" with
  | some (.str s) => (intOfText s).getD 0
  | some (.bool true) => 1
  | _ => 0

/-- The model path as the engine sees it. -/
def engineModelPath (args : JsonDict F) (tokens : List String) : String :=
  argOr args "model_path" (argOr args "model" (positionalModel tokens))

/-- The warning of a port in the NodePort range. -/
def portWarnings (port : Int) : List String :=
  if 30000 ≤ port ∧ port ≤ 32767 then
    ["port " ++ toString port ++ " sits in the kube-proxy NodePort range " ++
      "(30000-32767) and is unreachable on k8s nodes; the platform default " ++ "28200 is safer"]
  else []

/-- What `parse_launch_command` answers. -/
structure LaunchCommand (F : Type) extends DockerPart where
  engine : String
  servedModelName : String
  modelPath : String
  servicePort : Int
  engineArgs : JsonDict F
  normalized : List String

variable (F) in
/-- The warning of a model path no volume mounts. -/
def pathWarning (path : String) : String :=
  "model path " ++ PyRuntime.quote F path ++ " is the path inside the container and no -v in " ++
    "the paste mounts it — set the weights path on the host machine yourself"

/-- The fields that come of the docker part and the engine's arguments. -/
def compileLaunch (engine : String) (docker : DockerPart) (tokens : List String) : LaunchCommand F :=
  let args := parseEngineArgs (F := F) (spellOut engine tokens)
  let path := engineModelPath args tokens
  let port := AutoTune.servicePort args
  let mount := mountedAt docker.extraVolumes path
  -- the platform mounts the weights itself, so the volume that holds them is no extra one
  let unmounted := path ≠ "" ∧ mount = none ∧ (docker.image ≠ "" ∨ docker.platformManaged ≠ [])
  let known := normalizeArgs engine (args.filter fun e => e.1 ∉ placementFlags)
  { image := docker.image
    extraEnv := docker.extraEnv
    extraVolumes := (mount.map (dictPop docker.extraVolumes)).getD docker.extraVolumes
    platformManaged := docker.platformManaged
    warnings := docker.warnings ++ portWarnings port ++ (if unmounted then [pathWarning F path] else [])
    engine := engine
    servedModelName := argOr args "served_model_name" ""
    modelPath := mount.getD path
    servicePort := port
    engineArgs := known.1
    normalized := known.2 }

variable (F) in
/-- `parse_launch_command` of an argv list. -/
def parseLaunchCommand (command : List String) : LaunchCommand F :=
  let tokens := (command.map strip).filter fun t => t ≠ ""
  let parts := dockerPart F tokens
  compileLaunch (engineOfCommand command) parts.1 parts.2

end Engine

end AutoTune
