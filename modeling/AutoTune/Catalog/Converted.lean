import AutoTune.Catalog.EnvCategories
import AutoTune.Catalog.ExtraArgs
import AutoTune.Evaluation.Leaderboard
import AutoTune.Launch.Volumes
import AutoTune.Search.Validation

/-!
# Converting a measured config to a variant

A source without a recipe becomes a variant in the shape of the catalog's own entries: its flags, the part of its
environment and of its mounts that is no fact of the site, and what the chart needs besides. What an export takes
from `re`, from the catalog's schema and from the YAML writer are parameters here, and so are the texts that print
measured gains: a variant's description and `metadata.yaml`. Neither is made of the environment.
-/

namespace AutoTune

open Lib

/-! ## Sources -/

/-- `VariantSource` without a recipe, its environment aside. -/
structure MeasuredSource where
  engine : String := "sglang"
  image : String := ""
  modelPath : String := ""
  servedModelName : String := ""
  engineArgs : Config := Dict.empty
  extraVolumes : Dict String := Dict.empty
  gpuType : String := ""
  role : String := ""
  label : String := ""
  nodes : Int := 1
  evidence : Config := Dict.empty
  id : String := ""
  description : String := ""
  gpuProduct : List String := []
  loadSeconds : Option ℚ := none
  imageDigest : String := ""
  imageTag : String := ""

/-- A source that is converted, and the environment its config adds. -/
structure ConvertedSource where
  measured : MeasuredSource
  extraEnv : Dict String := Dict.empty

/-- `CatalogOptions`, as far as converted variants ask for them. -/
structure ConvertOptions where
  name : String
  servedName : String := ""
  chartVersion : String := ""
  includeEnv : Bool := true
  includeVolumes : Bool := false
  startupMinutes : Int := 0
  gpuProduct : List String := []
  envCategories : Dict String := Dict.empty
  existing : Option CatalogModel := none

/-- What an export takes from elsewhere: what `\w` matches, the schema's errors about a variant, the YAML of a
document, the description of the source at a place in the list, for its cards per node, and the text and the errors
of `metadata.yaml`. -/
structure ExportTools where
  isWord : Char → Bool
  schemaErrors : JsonDict ℚ → List String
  dump : JsonDict ℚ → String
  describe : List MeasuredSource → Nat → Int → String
  metadata : ConvertOptions → List MeasuredSource → List ExportedVariant → String × List String

/-! ## Small derivations -/

/-- `split_image`: repository, tag and digest; the tag stands behind the last colon after the last slash. -/
def splitImage (image : String) : String × String × String :=
  let (ref, digest) := partitionAt '@' image
  let tail := (ref.toList.reverse.takeWhile fun c => c ≠ ':').reverse
  if hasChar ref ':' && !tail.contains '/' then
    (takeText (ref.length - tail.length - 1) ref, String.ofList tail, digest)
  else (ref, "", digest)

/-- `re.fullmatch(r"sha256:[a-f0-9]{64}", digest)`. -/
def isManifestDigest (digest : String) : Bool :=
  let hex := digest.toList.drop 7
  startsWith digest "sha256:" && hex.length = 64 &&
    hex.all fun c => ('a' ≤ c && c ≤ 'f') || ('0' ≤ c && c ≤ '9')

/-- `CHART_MINIMUMS`. -/
def chartMinimums : List (String × String) := [("sglang", "0.8.0"), ("vllm", "0.5.0")]

/-- `chart_range`. -/
def chartRange (engine : String) : String := ">=" ++ (dictGet chartMinimums engine).getD "0.0.0"

/-- `VENDORS`. -/
def vendors : List String := ["nvidia", "ascend", "cambricon", "hygon", "amd"]

/-- `_HARDWARE_TAGS`. -/
def hardwareTagsOf : List (String × List String) :=
  [("A100", ["nvidia", "ampere"]), ("A800", ["nvidia", "ampere"]), ("H100", ["nvidia", "hopper"]),
    ("H800", ["nvidia", "hopper"]), ("H200", ["nvidia", "hopper"]), ("H20", ["nvidia", "hopper"]),
    ("B200", ["nvidia", "blackwell"]), ("B300", ["nvidia", "blackwell"]), ("ASCEND-910B4-1", ["npu", "ascend"])]

/-- `hardware_tags`. -/
def hardwareTags (gpuType : String) : List String := (dictGet hardwareTagsOf (normalizeGpuType gpuType)).getD []

/-- `card_vendor`. -/
def cardVendor (gpuType : String) : String := (vendors.find? fun v => (hardwareTags gpuType).contains v).getD ""

/-- `GPU_PRODUCTS`. -/
def gpuProducts : List (String × List String) :=
  [("A100", ["NVIDIA-A100-SXM4-80GB"]), ("H100", ["NVIDIA-H100-80GB-HBM3"]), ("H800", ["NVIDIA-H800"]),
    ("B300", ["NVIDIA-B300-SXM6-AC"]), ("ASCEND-910B4-1", ["Ascend-910B4"])]

/-- `SERVING_CONTRACT`. -/
def servingContract (engine : String) : List String :=
  if engine = "sglang" then ["enable_cache_report", "stream_response_default_include_usage"] else []

/-- `runtime_env`. -/
def runtimeEnv (vendor : String) : Dict String :=
  if vendor = "" || vendor = "nvidia" then
    Dict.ofEntries [("NVIDIA_DISABLE_REQUIRE", "1"), ("PYTORCH_ALLOC_CONF", "expandable_segments:True")]
  else Dict.empty

/-- The first list that has something. -/
def firstFilled (choices : List (List String)) : List String := (choices.find? fun l => !l.isEmpty).getD []

/-- The first text that is not empty. -/
def firstText (choices : List String) : String := (choices.find? fun s => s ≠ "").getD ""

/-- `startup_minutes`. -/
def MeasuredSource.startupMinutes (src : MeasuredSource) (opts : ConvertOptions) : Int :=
  if opts.startupMinutes ≠ 0 then opts.startupMinutes
  else
    let minutes := match src.loadSeconds.filter fun load => load ≠ 0 with
      | some load => max 90 (load * 3 / 60).ceil
      | none => 90
    min 240 (5 * ((minutes : ℚ) / 5).ceil)

/-- The engine's arguments in the canonical vocabulary, however a pasted command spells them. -/
def MeasuredSource.args (src : MeasuredSource) : JsonDict ℚ :=
  (normalizeArgs src.engine
    (src.engineArgs.entries.foldl (fun d e => dictSet d (flagToKey e.1) e.2) [])).1

/-- The cards of one node; a total that does not split evenly is left as it is. -/
def cardsPerNode (total nodes : Int) : Int := if total % nodes = 0 then total / nodes else total

/-- The nodes one instance spans. -/
def MeasuredSource.spans (src : MeasuredSource) : Int := max 1 src.nodes

/-! ## Environment and mounts -/

section Portable

variable (tools : ExportTools) (opts : ConvertOptions)

/-- The environment the run had: the launch driver's defaults under the config's own. -/
def ConvertedSource.env (src : ConvertedSource) : Dict String :=
  (runtimeEnv (cardVendor src.measured.gpuType)).merge src.extraEnv

/-- `readers`: the variables that could be kept, as far as their names say. -/
def ConvertedSource.readers (src : ConvertedSource) : Dict String :=
  src.env.filter fun e => (classifyEnv tools.isWord opts.envCategories e.1 "" []).1.kept

/-- What becomes of the mounts. -/
def ConvertedSource.plan (src : ConvertedSource) : MountPlan :=
  planMounts
    { isWord := tools.isWord
      engineArgs := Dict.ofEntries src.measured.args
      env := src.readers tools opts
      weightsMount := modelMount
      keepAll := opts.includeVolumes }
    src.measured.extraVolumes

/-- `kept_env`. -/
def ConvertedSource.keptEnv (src : ConvertedSource) : List (String × String) :=
  let provided := [modelMount, "/dev/shm", "/root/.cache"] ++ (src.plan tools opts).provided
  if opts.includeEnv then
    src.env.entries.filter fun e => (classifyEnv tools.isWord opts.envCategories e.1 e.2 provided).1.kept
  else []

end Portable

/-- A variable as the chart's `env` has it. -/
def envItem (e : String × String) : Value := .dict [("name", .str e.1), ("value", .str e.2)]

/-- A volume as the chart's `volumes` has it. -/
def PodVolume.value (v : PodVolume) : Value :=
  .dict (("name", .str v.name) :: match v.source with
    | .hostPath path type => [("hostPath", .dict [("path", .str path), ("type", .str type)])]
    | .emptyDir sizeLimit => [("emptyDir", .dict [("sizeLimit", .str sizeLimit)])])

/-- A mount as the chart's `volumeMounts` has it. -/
def VolumeMount.value (m : VolumeMount) : Value :=
  .dict ([("name", .str m.name), ("mountPath", .str m.mountPath)] ++
    if m.readOnly then [("readOnly", .bool true)] else [])

/-! ## The variant -/

/-- The parts of the values that are made of environment and mounts. -/
structure PortableParts where
  env : List (String × String)
  volumes : List PodVolume
  mounts : List VolumeMount

def ConvertedSource.portable (tools : ExportTools) (opts : ConvertOptions) (src : ConvertedSource) : PortableParts where
  env := src.keptEnv tools opts
  volumes := (src.plan tools opts).volumes
  mounts := (src.plan tools opts).mounts

section Variant

variable (opts : ConvertOptions) (src : MeasuredSource)

/-- `requires`. -/
def MeasuredSource.requires (gpus : Int) : JsonDict ℚ :=
  let vendor := cardVendor src.gpuType
  let products := firstFilled [src.gpuProduct, opts.gpuProduct, (dictGet gpuProducts src.gpuType).getD []]
  [("gpus", .int gpus)] ++
    (if 1 < src.spans then [("nodes", .int src.spans), ("topology", .str "lws"), ("rdma", .bool true)]
      else [("topology", .str "single-node")]) ++
    (if vendor = "" || vendor = "nvidia" then [] else [("vendor", .str vendor)]) ++
    if products.isEmpty then [] else [("gpuProduct", .list (products.eraseDups.map Json.str))]

/-- The image and the error where it cannot be named. -/
def MeasuredSource.imagePart (vid : String) : JsonDict ℚ × List String :=
  let (repository, ownTag, ownDigest) := splitImage src.image
  let tag := firstText [ownTag, strip src.imageTag]
  let digest := firstText [ownDigest, src.imageDigest]
  if repository ≠ "" ∧ tag ≠ "" then
    ([("image", .dict ([("repository", .str repository), ("tag", .str tag)] ++
      if isManifestDigest digest then [("digest", .str digest)] else []))], [])
  else
    ([], [vid ++ ": image " ++ PyRuntime.quote ℚ src.image ++ " has no tag, and the catalog names an image by" ++
      " repository and tag: give the tag this build is published under"])

/-- The engine's arguments with the switches every catalog entry serves with. -/
def MeasuredSource.servedArgs : JsonDict ℚ :=
  ((servingContract src.engine).filter fun key => !dictHas src.args key).foldl
    (fun d key => dictSet d key (.bool true)) src.args

/-- `values`. -/
def MeasuredSource.values (gpus : Int) (parts : PortableParts) : JsonDict ℚ :=
  let nodes := src.spans
  let extra := extraArgs src.engine src.servedArgs
  let readsWeights := src.servedArgs.any fun e => startsWith e.2.text (modelMount ++ "/")
  let shm := if 4 ≤ gpus then "32Gi" else "16Gi"
  let storage := if 1 < nodes then "28Gi" else "16Gi"
  let minutes := src.startupMinutes opts
  [("model", .dict ((if readsWeights then [("mountPath", .str modelMount)] else []) ++
      [("hostPathType", .str "Directory"), ("contextLength", .str extra.context)])),
    ("modelCheck", .dict [("enabled", .bool true),
      ("requiredGlobs", .list [.str "config.json", .str "*.safetensors"])])] ++
    (if 1 < nodes then [("lws", .dict [("enabled", .bool true), ("size", .int nodes)])] else []) ++
    [("extraArgs", .list (extra.items.map Json.str))] ++
    (if parts.env.isEmpty then [] else [("env", .list (parts.env.map envItem))]) ++
    [("volumes", .list (parts.volumes.map PodVolume.value ++
        [.dict [("name", .str "dot-cache"), ("emptyDir", .dict [("sizeLimit", .str "10Gi")])],
          .dict [("name", .str "dshm"), ("emptyDir", .dict [("medium", .str "Memory"), ("sizeLimit", .str shm)])]])),
      ("volumeMounts", .list (parts.mounts.map VolumeMount.value ++
        [.dict [("name", .str "dot-cache"), ("mountPath", .str "/root/.cache")],
          .dict [("name", .str "dshm"), ("mountPath", .str "/dev/shm")]])),
      ("resources", .dict [("requests", .dict [("ephemeral-storage", .str storage)]),
        ("limits", .dict ([("ephemeral-storage", .str storage)] ++
          if 1 < nodes then [("rdma/hca_shared", .str "1")] else []))]),
      ("progressDeadlineSeconds", .int (minutes * 60 + 1800)),
      ("startupProbe", .dict [("httpGet", .dict [("path", .str "/health"), ("port", .str "http")]),
        ("periodSeconds", .int 30), ("timeoutSeconds", .int 10),
        ("failureThreshold", .int ((minutes * 60 : ℚ) / 30).ceil)]),
      ("terminationGracePeriodSeconds", .int 3600),
      ("lifecycle", .dict ([("preStop", .dict [("drainSeconds", .int 600), ("pollIntervalSeconds", .int 5)])] ++
        (if src.engine = "sglang" then [("forceShutdown", .bool true)] else []) ++ [("preStopKill", .bool true)])),
      ("hangWatcher", .dict [("enabled", .bool true)])]

/-- What the id of a variant is made with. -/
def MeasuredSource.toSource (gpus : Int) (body : Config) : VariantSource where
  id := src.id
  role := src.role
  engine := src.engine
  engineArgs := src.engineArgs.entries
  gpuType := src.gpuType
  nodes := src.nodes
  cards := gpus
  modelPath := src.modelPath
  servedModelName := src.servedModelName
  body := body

/-- `_variant` of a source without a recipe, its id aside, and the errors it adds. -/
def MeasuredSource.variant (describe : Int → String) (parts : PortableParts) :
    Except PyError (VariantSource × List String) :=
  (cardsUsed src.args).map fun total =>
    let gpus := cardsPerNode (max 1 total) src.spans
    let vid := variantId (src.toSource gpus Dict.empty)
    let (image, errors) := src.imagePart vid
    let body := Dict.ofEntries ([("description", .str (describe gpus)), ("engine", .str src.engine),
      ("chart", .dict [("name", .str src.engine),
        ("version", .str (firstText [opts.chartVersion, chartRange src.engine]))])] ++ image ++
      [("requires", .dict (src.requires opts gpus)), ("values", .dict (src.values opts gpus parts))])
    (src.toSource gpus body, errors)

end Variant

/-! ## Errors -/

/-- `_FOREIGN_VALUE_KEYS`, in order. -/
def foreignValueKeys : List String :=
  ["affinity", "cache", "cart", "modelRoute", "namespace", "nodeSelector", "replicaCount", "scaler",
    "sloRequirement", "tolerations"]

/-- `CHART_MODEL_MOUNT`. -/
def chartModelMount : String := "/models"

/-- The value under a key, as a text prints it. -/
def shown (d : JsonDict ℚ) (k : String) : String := ((dictGet d k).getD .null).text

/-- The mount path of an entry of `volumeMounts`. -/
def mountPathOf : Value → Except PyError String
  | .dict mount => .ok (textOr (dictGet mount "mountPath"))
  | _ => .error .attributeError

/-- `unmounted_paths`. -/
def unmountedPaths (doc : JsonDict ℚ) : Except PyError (List String) := do
  let values ← subDict doc "values"
  let model ← subDict values "model"
  let items ← Json.items (dictGet values "volumeMounts")
  let mounts ← items.mapM mountPathOf
  let args ← Json.items (dictGet values "extraArgs")
  let roots := (((firstText [textOr (dictGet model "mountPath"), chartModelMount]) :: mounts).filter fun m =>
    m ≠ "").map (rstripChar '/')
  return (args.map Json.text).filter fun arg =>
    let value := (partitionAt '=' arg).2
    hasChar arg '=' && startsWith value "/" && !roots.any fun r => value = r || startsWith value (r ++ "/")

/-- `a != b` of two values that may be missing. -/
def differs (a b : Option Value) : Bool := !Value.eq (a.getD .null) (b.getD .null)

/-- `variant_problems`. -/
def variantProblems (doc : JsonDict ℚ) : Except PyError (List String) := do
  let values ← subDict doc "values"
  let requires ← subDict doc "requires"
  let lws ← subDict values "lws"
  let size := if dictTrue lws "enabled" && differs (dictGet lws "size") (dictGet requires "nodes") then
    ["values.lws.size " ++ shown lws "size" ++ " is not requires.nodes " ++ shown requires "nodes"] else []
  let chart ← subDict doc "chart"
  let named := if dictTrue chart "name" && differs (dictGet chart "name") (dictGet doc "engine") then
    ["chart.name " ++ shown chart "name" ++ " is not its engine, " ++ shown doc "engine"] else []
  let topology ← match (["lws", "pd"].find? fun t => (dictGet requires "topology").any fun v => Value.eq v (.str t)) with
    | some topology => do
        let part ← subDict values topology
        pure (match dictGet part "enabled" with
          | some (.bool true) => []
          | _ => ["requires.topology " ++ topology ++ " needs values." ++ topology ++ ".enabled: true"])
    | none => pure []
  let foreign := foreignValueKeys.filter fun k => dictHas values k
  let foreign := if foreign.isEmpty then []
    else ["values writes site/deploy-owned keys: " ++ ", ".intercalate foreign]
  let model ← subDict values "model"
  let owned := (["localPath", "gpus"].filter fun k => dictHas model k).map fun k =>
    "values.model." ++ k ++ " is not the catalog's to set"
  let unmounted ← unmountedPaths doc
  let weights := firstText [textOr (dictGet model "mountPath"), chartModelMount]
  return size ++ named ++ topology ++ foreign ++ owned ++ unmounted.map fun arg =>
    arg ++ " reads a path no mount provides (weights at " ++ weights ++ "); the engine would not find it"

/-- The errors about one variant, under its id. -/
def variantErrors (tools : ExportTools) (v : ExportedVariant) : Except PyError (List String) :=
  (variantProblems v.document).map fun problems =>
    (tools.schemaErrors v.document ++ problems).map fun e => v.id ++ ": " ++ e

/-! ## The export -/

/-- `ENGINES`. -/
def catalogEngines : List String := ["sglang", "vllm"]

/-- `CatalogFile`: its path and its text. -/
structure CatalogFile where
  path : String
  text : String
deriving DecidableEq, Repr

/-- What is written and reported of an export. -/
structure CatalogExport where
  files : List CatalogFile
  errors : List String
  versions : List (String × String)
deriving DecidableEq, Repr

/-- `HEADER`. -/
def fileHeader : String := "# Serving configs measured, and where marked tuned, by LLM AutoTune.\n"

/-- The errors about engines. -/
def engineErrors (sources : List MeasuredSource) : List String :=
  (sources.filter fun s => !catalogEngines.contains s.engine).map fun s =>
    "engine " ++ PyRuntime.quote ℚ s.engine ++ " is not one the catalog serves"

/-- The served name of an export. -/
def servedNameOf (opts : ConvertOptions) (sources : List MeasuredSource) : String :=
  firstText (opts.servedName :: sources.map MeasuredSource.servedModelName)

/-- The body of the source at a place in the list. -/
def exportBody (tools : ExportTools) (opts : ConvertOptions) (measured : List MeasuredSource)
    (src : ConvertedSource × Nat) : Except PyError (VariantSource × List String) :=
  src.1.measured.variant opts (tools.describe measured src.2) (src.1.portable tools opts)

/-- `build_catalog_entry` of converted sources, under the name as it was settled: its files, its errors and the
version of each variant. -/
def exportConverted (tools : ExportTools) (opts : ConvertOptions) (sources : List ConvertedSource) :
    Except PyError CatalogExport :=
  let measured := sources.map ConvertedSource.measured
  let catalog : CatalogOptions :=
    { name := opts.name, servedName := servedNameOf opts measured, existing := opts.existing }
  (sources.zipIdx.mapM (exportBody tools opts measured)).bind fun bodies =>
    (buildCatalogEntry (bodies.map Prod.fst) catalog).bind fun variants =>
      (variants.mapM (variantErrors tools)).map fun problems =>
        let metadata := tools.metadata opts measured variants
        { files := ((variants.filter ExportedVariant.writes).map fun v =>
              CatalogFile.mk v.path (fileHeader ++ tools.dump v.document)) ++
            [⟨"models/" ++ opts.name ++ "/metadata.yaml", metadata.1⟩]
          errors := engineErrors measured ++ bodies.flatMap Prod.snd ++ problems.flatten ++ metadata.2
          versions := variants.map fun v => (v.id, v.version) }

end AutoTune
