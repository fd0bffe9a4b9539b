import AutoTune.Lib.JsonPaths
import AutoTune.Lib.PosixPath
import AutoTune.Recipe.Variant

/-!
# A recipe, a site and a run, composed

Three layers of chart values: the recipe's own, what makes it run on a cluster, and what makes it a tuning
run. They are merged in this order with the operator's rule: maps merge, anything else replaces, null deletes.
-/

namespace AutoTune

open Lib

section Merge

variable {F : Type}

mutual

/-- What a key holds once the value of a layer is merged into what it held. -/
def mergedValue (old : Option (Json F)) : Json F → Option (Json F)
  | .null => none
  | .dict layer =>
      match old with
      | some (.dict base) => some (.dict (merge base layer))
      -- a map over a missing key or over no map is copied as it is
      | _ => some (.dict layer)
  | value => some value

/-- `merge`. -/
def merge (base : JsonDict F) : List (String × Json F) → JsonDict F
  | [] => base
  | (key, value) :: layer =>
      merge (dictPut base key (mergedValue (dictGet base key) value)) layer

end

/-- `effective_values`. -/
def effectiveValues (layers : List (String × JsonDict F)) : JsonDict F :=
  layers.foldl (fun out layer => merge out layer.2) []

end Merge

/-! ## The layers -/

/-- `Site`, as far as the layers read it. -/
structure Site (F : Type) where
  modelLocalPath : String := ""
  modelHostPathType : String := ""
  imageMirror : String := ""
  nodeSelector : List (String × String) := []
  tolerations : List (Json F) := []
  schedulerName : String := ""
  priorityClass : String := ""
  extraValues : JsonDict F := []
  endpoint : String := "dns"

/-- `RunPlan`, as far as the layers read it. -/
structure RunPlan where
  runId : Int
  release : String
  allowedNodes : List String := []
  startupMinutes : Int := 0
  labels : List (String × String) := []

/-- What building the layers raises. -/
inductive LayerError where
  | raised (error : PyError)
  | zeroDivision
deriving DecidableEq, Repr

/-- `RUN_LABEL`. -/
def runLabel : String := "autotune.modelsphere.dev/run"

/-- `MANAGED_LABEL`. -/
def managedLabel : String := "autotune.modelsphere.dev/managed"

/-- `_FEATURES_OFF`. -/
def featuresOff : List String :=
  ["modelRoute", "cart", "scaler", "sloRequirement", "serviceMonitor", "podDisruptionBudget"]

/-- `RUN_GRACE_SECONDS`. -/
def runGraceSeconds : Int := 60

/-- `RUN_DRAIN_SECONDS`. -/
def runDrainSeconds : Int := 5

/-- `mirror_image`. -/
def mirrorImage (repository mirror : String) : String :=
  if mirror = "" ∨ startsWith repository (rstripChar '/' mirror ++ "/") = true then repository
  else rstripChar '/' mirror ++ "/" ++ lastPiece '/' repository

section Layers

variable {F : Type} [PyRuntime F]

/-- The image a site pulls, where its mirror makes another one of it. -/
def mirroredImage (r : Recipe F) (site : Site F) : Except PyError (Option String) :=
  (subDict r.values "image").bind fun image =>
    match (dictGet image "repository").filter Json.truthy with
    | none => .ok none
    | some (.str repository) =>
        let mirrored := mirrorImage repository site.imageMirror
        .ok (if mirrored = repository then none else some mirrored)
    -- something else than text has no `startswith`
    | some _ => if site.imageMirror = "" then .ok none else .error .attributeError

/-- `site_layer`. -/
def siteLayer (r : Recipe F) (site : Site F) : Except PyError (JsonDict F) :=
  (mirroredImage r site).map fun image =>
    let text := fun (key value : String) => if value = "" then [] else [(key, Json.str value)]
    let model : JsonDict F := if site.modelLocalPath = "" then []
      else [("model", .dict ([("localPath", .str site.modelLocalPath)] ++
        text "hostPathType" site.modelHostPathType))]
    let image : JsonDict F := (image.map fun repository =>
      [("image", Json.dict [("repository", .str repository)])]).getD []
    let placement : JsonDict F :=
      (if site.nodeSelector = [] then []
        else [("nodeSelector", .dict (site.nodeSelector.map fun e => (e.1, .str e.2)))]) ++
      (if site.tolerations.isEmpty then [] else [("tolerations", .list site.tolerations)]) ++
      text "schedulerName" site.schedulerName ++ text "priorityClassName" site.priorityClass
    merge (model ++ image ++ placement) site.extraValues

/-- `podLabels`. -/
def podLabels (run : RunPlan) : JsonDict F :=
  run.labels.foldl (fun d e => dictSet d e.1 (.str e.2))
    [(runLabel, .str (toString run.runId)), (managedLabel, .str "true")]

/-- The settings of a group of pods: a crashed pod stays where it is. -/
def groupSettings (topology : Topology) : JsonDict F :=
  match topology with
  | .lws => [("lws", .dict [("replicas", .int 1), ("workerTerminationGracePeriodSeconds", .int 30),
      ("restartPolicy", .str "Default")])]
  | .pd => [("lws", .dict [("restartPolicy", .str "Default")])]
  | .singleNode => []

/-- The nodes a run may land on. -/
def nodeAffinity (nodes : List String) : JsonDict F :=
  if nodes = [] then []
  else [("affinity", .dict [("nodeAffinity", .dict [("requiredDuringSchedulingIgnoredDuringExecution",
    .dict [("nodeSelectorTerms", .list [.dict [("matchExpressions", .list [.dict
      [("key", .str "kubernetes.io/hostname"), ("operator", .str "In"),
        ("values", .list (nodes.map .str))]])]])])])])]

/-- The startup probe of a run with a startup budget. -/
def startupProbe (values : JsonDict F) (minutes : Int) : Except LayerError (JsonDict F) :=
  if minutes = 0 then .ok []
  else
    ((subDict values "startupProbe").mapError .raised).bind fun probe =>
      let period := ((dictGet probe "periodSeconds").filter Json.truthy).getD (.int 30)
      ((intOfValue period).mapError .raised).bind fun period =>
        if period = 0 then .error .zeroDivision
        else .ok [("startupProbe", .dict [("periodSeconds", .int period),
          ("failureThreshold", .int (max 1 (-((-minutes * 60).fdiv period))))])]

/-- `run_layer`. -/
def runLayer (r : Recipe F) (site : Site F) (run : RunPlan) : Except LayerError (JsonDict F) :=
  (r.topology.mapError .raised).bind fun topology =>
    (startupProbe r.values run.startupMinutes).map fun probe =>
      [("fullnameOverride", .str run.release), ("replicaCount", .int 1), ("podLabels", .dict (podLabels run)),
        ("service", .dict [("type", .str (if site.endpoint = "nodeport" then "NodePort" else "ClusterIP"))]),
        ("terminationGracePeriodSeconds", .int runGraceSeconds),
        ("lifecycle", .dict [("preStop", .dict [("drainSeconds", .int runDrainSeconds),
          ("endpointSyncSeconds", .int 0)])])] ++
        featuresOff.map (fun feature => (feature, Json.dict [("enabled", .bool false)])) ++
        groupSettings topology ++ nodeAffinity run.allowedNodes ++ probe

/-- `layers`. -/
def layers (r : Recipe F) (site : Site F) (run : RunPlan) :
    Except LayerError (List (String × JsonDict F)) :=
  ((siteLayer r site).mapError .raised).bind fun ofSite =>
    (runLayer r site run).map fun ofRun => [("catalog", r.values), ("site", ofSite), ("autotune", ofRun)]

end Layers

end AutoTune
