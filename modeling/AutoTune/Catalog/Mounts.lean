import AutoTune.Catalog.Entry
import AutoTune.Lib.Numerals
import AutoTune.Lib.PosixPath

/-!
# The mounts of a published entry

Each host mount of a measured config becomes a volume of the entry, or is left out. A mount is named by the end
of its path, and gets another name while that one is taken; a draft model's volume always has one and the same
name. The plan is a pod spec unless that name is given twice.
-/

namespace AutoTune

open Lib

/-- `MODEL_FLAGS`. -/
def modelFlags : List String := ["speculative_draft_model_path", "draft_model", "speculative_model"]

/-- `MODELS_ROOT`. -/
def modelsRoot : String := "/data/models"

/-! ## Paths -/

/-- `_under`. -/
def underRoot (value root : String) : Bool :=
  let root := rstripChar '/' root
  root ≠ "" && (value = root || startsWith value (root ++ "/"))

/-- A character of a path: a letter or digit, or one of `.`, `_`, `~`, `-` and the slash. -/
def isPathChar (c : Char) : Bool := c.isAlphanum || c == '.' || c == '_' || c == '~' || c == '/' || c == '-'

/-- A match that has been read, in reverse: it is one with a character behind the slash. -/
def closeMatch (read : List Char) : List String :=
  if read.length < 2 then [] else [String.ofList read.reverse]

/-- What `findall` finds in `_paths`, left to right: a slash with no `[\w.]` before it and the path characters
behind it. `isWord` says what `\w` matches, `blocked` that a `[\w.]` was just read, and `read` is the match that
is being read. -/
def matchesFrom (isWord : Char → Bool) : Bool → Option (List Char) → List Char → List String
  | _, none, [] => []
  | _, some read, [] => closeMatch read
  | blocked, none, c :: cs =>
      if c = '/' && !blocked then matchesFrom isWord false (some [c]) cs
      else matchesFrom isWord (isWord c || c == '.') none cs
  | _, some read, c :: cs =>
      if isPathChar c then matchesFrom isWord false (some (c :: read)) cs
      -- what ends a match is no slash, so none begins with it
      else closeMatch read ++ matchesFrom isWord (isWord c || c == '.') none cs

/-- `_paths` of one value's text. -/
def pathsOf (isWord : Char → Bool) (text : String) : List String := matchesFrom isWord false none text.toList

/-- `_name`. -/
def mountName (container : String) : String :=
  let base := idSlug (pathName container)
  takeText 50 (if base = "" then "vol" else base)

/-- A letter whatever its case, as `re.I` compares the letters of `_SCRATCH`. -/
def foldLetter (c : Char) : Char :=
  if 'A' ≤ c ∧ c ≤ 'Z' then Char.ofNat (c.toNat + 32)
  else if c.toNat = 0x130 ∨ c.toNat = 0x131 then 'i'
  else c

/-- `\.?cache|\.triton|\.nv|tmp|compile[-_]cache[^/]*`. -/
def isScratchPiece (piece : String) : Bool :=
  let text := String.ofList (piece.toList.map foldLetter)
  text = "cache" || text = ".cache" || text = ".triton" || text = ".nv" || text = "tmp" ||
    startsWith text "compile-cache" || startsWith text "compile_cache"

/-- `_SCRATCH.search`: a piece of the path; the `$` behind the last one also stands before a newline. -/
def isScratch (container : String) : Bool :=
  (slashPieces container).any isScratchPiece ||
    (slashPieces (String.ofList (withoutNewline container.toList))).getLast?.any isScratchPiece

/-- The container's path in a mount's `container:mode`. -/
def containerOf (spec : String) : String :=
  let container := (partitionAt ':' spec).1
  let stripped := rstripChar '/' container
  if stripped = "" then container else stripped

def modeOf (spec : String) : String := (partitionAt ':' spec).2

/-! ## The plan -/

inductive VolumeSource where
  | hostPath (path type : String)
  | emptyDir (sizeLimit : String)
deriving DecidableEq, Repr

structure PodVolume where
  name : String
  source : VolumeSource
deriving DecidableEq, Repr

structure VolumeMount where
  name : String
  mountPath : String
  readOnly : Bool
deriving DecidableEq, Repr

/-- `Input`. -/
structure ExportInput where
  kind : String
  name : String
  value : String
  category : String
  action : String
  reason : String
deriving DecidableEq, Repr

/-- `MountPlan`. -/
structure MountPlan where
  volumes : List PodVolume := []
  mounts : List VolumeMount := []
  inputs : List ExportInput := []
  provided : List String := []
deriving DecidableEq, Repr

/-- The arguments of `plan_mounts` besides the mounts, and what `\w` matches. -/
structure MountContext (F : Type) where
  isWord : Char → Bool
  engineArgs : Dict (Json F)
  env : Dict String
  weightsMount : String
  keepAll : Bool

/-- The branch of the loop a mount takes. -/
inductive MountUse where
  | included
  | leftOut
  | draft
  | config
  | scratch
  | unused
deriving DecidableEq, Repr

section Plan

variable {F : Type} [PyRuntime F] (ctx : MountContext F)

/-- `readers`. -/
def MountContext.readers (container : String) : List String :=
  (ctx.engineArgs.entries.filter fun e =>
    (pathsOf ctx.isWord e.2.text).any fun p => underRoot p container).map Prod.fst

/-- `read_by_env`. -/
def MountContext.readByEnv (container : String) : Bool :=
  (ctx.env.entries.flatMap fun e => pathsOf ctx.isWord e.2).any fun p => underRoot p container

def MountContext.use (container : String) : MountUse :=
  let readers := ctx.readers container
  if ctx.keepAll then .included
  else if container = "/dev/shm" || container = "/root/.cache" || underRoot container ctx.weightsMount then .leftOut
  else if (readers.any fun k => modelFlags.contains k) || readers.contains "speculative_config" then .draft
  else if !readers.isEmpty || ctx.readByEnv container then .config
  else if isScratch container then .scratch
  else .unused

/-- The plan so far, and the names that are taken. -/
structure PlanState where
  plan : MountPlan := {}
  taken : List String := ["dot-cache", "dshm"]

/-- `add`. -/
def PlanState.add (s : PlanState) (kind : String) (source : VolumeSource) (readOnly : Bool) (container : String) :
    PlanState where
  plan := { s.plan with
    volumes := s.plan.volumes ++ [⟨kind, source⟩]
    mounts := s.plan.mounts ++ [⟨kind, container, readOnly⟩]
    provided := s.plan.provided ++ [container] }
  taken := s.taken ++ [kind]

/-- `plan.inputs.append`. -/
def PlanState.note (s : PlanState) (input : ExportInput) : PlanState :=
  { s with plan := { s.plan with inputs := s.plan.inputs ++ [input] } }

/-- `while name in taken`. -/
def freeName (taken : List String) (name : String) : String :=
  seekFree (fun name => name ++ "-x") id taken taken.length name

/-- One turn of the loop. -/
def planMount (s : PlanState) (mount : String × String) : PlanState :=
  let host := mount.1
  let container := containerOf mount.2
  let name := freeName s.taken (mountName container)
  let readOnly := modeOf mount.2 = "ro"
  let input := ExportInput.mk "mount" container host
  match ctx.use container with
  | .included =>
      (s.add name (.hostPath host "Directory") readOnly container).note
        (input "site" "kept" "host mounts included")
  | .leftOut =>
      s.note (if underRoot container ctx.weightsMount then input "weights" "left out" "the model weights"
        else input "scratch" "left out" "the chart provides it")
  | .draft =>
      let path := modelsRoot ++ "/" ++ pathName host
      (s.add "draft-model" (.hostPath path "Directory") true container).note
        (input "model" "moved" ("draft model, at " ++ path))
  | .config =>
      let readers := ctx.readers container
      let who := if readers.isEmpty then "an env var"
        else ", ".intercalate (readers.map fun r => "--" ++ replaceChar '_' '-' r)
      (s.add name (.hostPath host "Directory") readOnly container).note
        (input "config" "kept" ("read by " ++ who))
  | .scratch =>
      (s.add name (.emptyDir "10Gi") false container).note (input "scratch" "emptyDir" "cache")
  | .unused => s.note (input "site" "left out" "unused")

/-- `plan_mounts`. -/
def planMounts (volumes : Dict String) : MountPlan := (volumes.entries.foldl (planMount ctx) {}).plan

end Plan

end AutoTune
