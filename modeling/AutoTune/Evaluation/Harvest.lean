import AutoTune.Measures.Scenarios
import Mathlib.Data.List.Sort

/-!
# Harvesting a submission

A submission holds the runs of a benchmark's modules. Every run is given a key, its numbers are filed under
that key in one flat dict, and its thresholds and params are kept in a report of its own.
-/

namespace AutoTune

open Lib

/-- A threshold of a module run, an entry of `metric_configs_json`. -/
structure MetricConfig where
  key : Option String
  role : String
  minVal : Value := .null
  maxVal : Value := .null

/-- One run of a module, as LLMBench reports it. -/
structure ModuleRun where
  id : Option Int
  moduleName : Option String
  paramsJson : Value := .null
  metricsJson : JsonDict ℚ := []
  metricConfigsJson : List MetricConfig := []
  status : String := ""
  passed : Value := .null
  score : Value := .null
  error : String := ""

/-- A submission. -/
structure LlmbenchSubmission where
  scoreTotal : Value := .null
  runs : List ModuleRun

/-- `run.get("module_name", "module")`. -/
def ModuleRun.name (run : ModuleRun) : String := run.moduleName.getD "module"

/-! ## Keys -/

/-- Runs in the order of their ids. -/
def idOrder (runs : List ModuleRun) : List ModuleRun :=
  if runs.all fun run => run.id.isSome then runs.insertionSort fun a b => a.id.getD 0 ≤ b.id.getD 0 else runs

/-- `_keyed_runs`. -/
def keyedRuns (submission : LlmbenchSubmission) : List (String × ModuleRun) :=
  let runs := idOrder submission.runs
  (instanceKeys (runs.map ModuleRun.name)).zip runs

/-! ## Reports -/

/-- `value is None`. -/
def isNone : Value → Bool
  | .null => true
  | _ => false

/-- `_as_number`. -/
def asNumber : Value → Option ℚ
  | .int n => some n
  | .float x => some x
  | _ => none

/-- A threshold as a number; `True` counts one. -/
def bound : Value → Option ℚ
  | .bool b => some (if b then 1 else 0)
  | v => asNumber v

/-- `low is None or actual >= low`. -/
def atLeast (actual : ℚ) (low : Value) : Bool := isNone low || (bound low).any fun x => x ≤ actual

/-- `high is None or actual <= high`. -/
def atMost (actual : ℚ) (high : Value) : Bool := isNone high || (bound high).any fun x => actual ≤ x

/-- A number in a report, or null. -/
def numberOut (n : Option ℚ) : Value := n.elim .null .float

/-- A threshold with the number it is held against. -/
def boundReport (metrics : JsonDict ℚ) (cfg : MetricConfig) : Option Value :=
  if (cfg.role ≠ "redline" ∧ cfg.role ≠ "display") ∨ (isNone cfg.minVal = true ∧ isNone cfg.maxVal = true) then none
  else
    let actual := (cfg.key.bind (dictGet metrics)).bind asNumber
    some (.dict
      [("metric", cfg.key.elim .null .str), ("role", .str cfg.role), ("min", cfg.minVal), ("max", cfg.maxVal),
        ("actual", numberOut actual),
        ("ok", actual.elim .null fun x => .bool (atLeast x cfg.minVal && atMost x cfg.maxVal))])

/-- A line ends here. -/
def isLineBreak (c : Char) : Bool :=
  let n := c.toNat
  (10 ≤ n && n ≤ 13) || (28 ≤ n && n ≤ 30) || n == 0x85 || n == 0x2028 || n == 0x2029

/-- `_first_line`. -/
def firstLine (text : String) (limit : Nat) : String :=
  takeText limit (String.ofList ((strip text).toList.takeWhile fun c => !isLineBreak c))

/-- A setting that is worth freezing. -/
def isSetting : Value → Bool
  | .null | .list _ | .dict _ => false
  | _ => true

/-- `_frozen_params`. -/
def frozenParams : Value → RawMetrics
  | .dict params => params.filter fun e => isSetting e.2
  | _ => []

/-- The report of one run. -/
def moduleReport (key : String) (run : ModuleRun) : JsonDict ℚ :=
  [("module", .str key), ("module_name", .str run.name), ("params", .dict (frozenParams run.paramsJson)),
    ("status", .str run.status), ("passed", run.passed), ("score", numberOut (asNumber run.score)),
    ("error", .str (firstLine run.error 200)),
    ("bounds", .list (run.metricConfigsJson.filterMap (boundReport run.metricsJson)))]

/-- `module_reports`. -/
def moduleReports (submission : LlmbenchSubmission) : List (JsonDict ℚ) :=
  (keyedRuns submission).map fun e => moduleReport e.1 e.2

/-! ## Metrics -/

/-- `_MAX_METRIC_DEPTH`. -/
def maxMetricDepth : Nat := 2

/-- `_flatten_into`, with the number of levels it may still descend. -/
def flattenInto : Nat → RawMetrics → String → Value → RawMetrics
  | depth + 1, target, pre, .dict entries =>
      entries.foldl (fun target e => flattenInto depth target (pre ++ "." ++ e.1) e.2) target
  | 0, target, _, .dict _ => target
  | _, target, _, .list _ => target
  | _, target, pre, value => dictSet target pre value

/-- `_card_norm_scale`. -/
def cardNormScale (raw : RawMetrics) : Option ℚ :=
  ((raw.map Prod.fst).insertionSort fun a b => a ≤ b).findSome? fun key =>
    (((dictGet raw key).bind asNumber).filter fun base => base ≠ 0).bind fun base =>
      ((dictGet raw (key ++ "_card_norm")).bind asNumber).map fun norm => norm / base

/-- `_module_score`. -/
def moduleScore (run : ModuleRun) : RawMetrics :=
  match asNumber run.score with
  | none => []
  | some score =>
      ("score", run.score) ::
        (cardNormScale run.metricsJson).elim [] fun scale => [("score_card_norm", .float (score * scale))]

/-- One run's share of `_flatten_metrics`. -/
def flattenRun (metrics : RawMetrics) (module : String) (run : ModuleRun) : RawMetrics :=
  let metrics := (moduleScore run).foldl (fun metrics e => dictSet metrics (module ++ "." ++ e.1) e.2) metrics
  run.metricsJson.foldl (fun metrics e => flattenInto maxMetricDepth metrics (module ++ "." ++ e.1) e.2) metrics

/-- `_flatten_metrics`. -/
def flattenMetrics (submission : LlmbenchSubmission) : RawMetrics :=
  (keyedRuns submission).foldl (fun metrics e => flattenRun metrics e.1 e.2)
    (if isNone submission.scoreTotal then [] else [("score_total", submission.scoreTotal)])

end AutoTune
