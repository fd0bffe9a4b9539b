import AutoTune.Lib.Best
import AutoTune.Measures.Catalog
import AutoTune.Search.Space
import Mathlib.Data.Prod.Lex

/-!
# A module's raw keys as measures

One adapter per module family: a concurrency sweep with a set of numbers for each level, one level,
recorded traffic, and what was answered. Each adapter says which measures it can report (`supports`) and
which point its measures describe unless another is asked for. Floats are exact.
-/

namespace AutoTune

open Lib

/-- A module run's raw metrics, keys without the module. -/
abbrev RawMetrics := JsonDict ℚ

/-- The measures of one point. -/
abbrev Point := List (String × ℚ)

/-- `number`: a measured number, or nothing; a flag is none. -/
def number (value : Value) : Option ℚ := asFloat value

/-- `number(raw.get(key))`. -/
def numberAt (raw : RawMetrics) (key : String) : Option ℚ := (dictGet raw key).bind number

/-- `flag`. -/
def flag : Value → Option ℚ
  | .bool b => some (if b then 1 else 0)
  | value => (number value).map fun n => if n ≠ 0 then 1 else 0

/-- A number that is true: there and not zero. -/
def nonzero (n : Option ℚ) : Option ℚ := n.filter fun x => x ≠ 0

/-- `_put`. -/
def put (out : Point) (key : String) (value : Option ℚ) : Point :=
  match value with
  | some n => dictSet out key n
  | none => out

/-- `_put`, key after key. -/
def putAll (out : Point) (entries : List (String × Option ℚ)) : Point :=
  entries.foldl (fun out e => put out e.1 e.2) out

/-- `_ratio`. -/
def ratio (a b : Option ℚ) : Option ℚ := a.bind fun a => (nonzero b).map fun b => a / b

/-- `_per_gpu`. -/
def perGpu (out : Point) (cards : Option ℚ) : Point :=
  match nonzero cards with
  | none => out
  | some cards =>
      ["output_tpm", "input_tpm", "uncached_input_tpm", "cached_input_tpm", "total_tpm"].foldl
        (fun out rate => put out (rate ++ "_per_gpu") ((dictGet out rate).map fun x => x / cards)) out

/-- `_health_from_uptime`. -/
def healthFromUptime (out : Point) (uptime measured : Option ℚ) : Point :=
  match uptime with
  | none => out
  | some uptime =>
      let out := putAll out [("success_rate", some uptime), ("error_rate", some (1 - uptime))]
      match measured with
      | none => out
      | some measured =>
          let completed : ℚ := roundHalfEven (measured * uptime)
          putAll out [("requests_total", some measured), ("requests_completed", some completed),
            ("requests_failed", some (measured - completed))]

/-! ## Scenarios -/

/-- The shape of what a module measures. -/
inductive ScenarioKind where
  | sweep
  | single
  | replay
  | quality
deriving DecidableEq, Repr

/-- `Scenario`. -/
structure Scenario where
  key : String
  module : String
  family : String
  kind : ScenarioKind
  points : List (String × Point) := []
  operatingLevel : String := ""
  operatingRule : String := ""
  supports : List String := []

/-- `Scenario.operating`. -/
def Scenario.operating (sc : Scenario) : Point := (dictGet sc.points "operating").getD []

/-- `Scenario.is_throughput`. -/
def Scenario.isThroughput (sc : Scenario) : Bool := sc.kind ≠ .quality

/-! ## One level -/

/-- Names of a measure at some statistics. -/
def atStats (measure : String) (stats : List String) : List String := stats.map fun s => measure ++ "@" ++ s

/-- `GUIDELLM_LEVEL_SUPPORTS`. -/
def guidellmLevelSupports : List String :=
  ["output_tpm", "input_tpm", "total_tpm", "output_tpm_per_gpu", "input_tpm_per_gpu", "total_tpm_per_gpu",
    "request_rate", "request_output_tps@mean"] ++
    (["ttft_ms", "itl_ms", "tpot_ms"].flatMap fun m => atStats m ["mean", "p50", "p90", "p99"]) ++
    ["success_rate", "error_rate", "requests_total", "requests_completed", "requests_failed", "concurrency",
      "window_s", "prompt_tokens_mean", "completion_tokens_mean"]

/-- The rates of a level: input is total less output, or what is reported where no total is. -/
def levelRates (outputTps totalTps inputTps : Option ℚ) : Point :=
  let out := put [] "output_tpm" (outputTps.map fun x => x * 60)
  match totalTps with
  | some total =>
      let out := put out "total_tpm" (some (total * 60))
      put out "input_tpm" (outputTps.map fun output => max (total - output) 0 * 60)
  | none =>
      match inputTps, outputTps with
      | some input, some output =>
          putAll out [("input_tpm", some (input * 60)), ("total_tpm", some ((input + output) * 60))]
      | _, _ => out

/-- The latencies of a level. -/
def levelLatencies (raw : RawMetrics) : List (String × Option ℚ) :=
  ["ttft", "itl", "tpot"].flatMap fun measure =>
    (["p50", "p90", "p99"].map fun stat =>
      (measure ++ "_ms@" ++ stat, numberAt raw (measure ++ "_" ++ stat ++ "_ms"))) ++
      [(measure ++ "_ms@mean", numberAt raw (measure ++ "_mean_ms"))]

/-- `_guidellm_level`. -/
def guidellmLevel (raw : RawMetrics) (concurrency cards : Option ℚ) (params : RawMetrics)
    (aggregateOut aggregateIn : String) : Point :=
  let outputTps := numberAt raw aggregateOut
  let out := perGpu (levelRates outputTps (numberAt raw "total_tps_mean") (numberAt raw aggregateIn)) cards
  let requestTps := (numberAt raw "request_output_tps").or
    (outputTps.bind fun output => (nonzero concurrency).map fun c => output / c)
  let out := putAll (put out "request_output_tps@mean" requestTps) (levelLatencies raw)
  let measured := (nonzero (numberAt raw "measured_requests")).or (numberAt raw "request_count")
  let out := healthFromUptime out (numberAt raw "uptime") measured
  let window := numberAt raw "duration_seconds"
  let out := put out "window_s" window
  let out := put out "request_rate" ((dictGet out "requests_completed").bind fun completed =>
    (nonzero window).map fun w => completed / w)
  putAll out [("concurrency", concurrency), ("prompt_tokens_mean", numberAt params "input_tokens"),
    ("completion_tokens_mean", numberAt params "output_tokens")]

/-! ## A sweep -/

/-- `_LEVEL`: the level a head of a key names. -/
def levelOf (head : String) : Option Nat :=
  match withoutNewline head.toList with
  | 'c' :: digits => readNumber digits
  | _ => none

/-- `levels.setdefault(level, {})[leaf] = value`, for a key of a level. -/
def addLevel (levels : List (Nat × RawMetrics)) (entry : String × Value) : List (Nat × RawMetrics) :=
  let (head, leaf) := partitionAt '.' entry.1
  match levelOf head with
  | some c => if leaf = "" then levels else dictSet levels c (dictSet ((dictGet levels c).getD []) leaf entry.2)
  | none => levels

/-- The levels of a sweep, as their keys come. -/
def levelsOf (raw : RawMetrics) : List (Nat × RawMetrics) := raw.foldl addLevel []

/-- A level's name: `c8`. -/
def levelName (c : Nat) : String := "c" ++ toString c

/-- Whether a level met the SLO, where it says. -/
def levelFlag (level : RawMetrics) : Option ℚ := (dictGet level "meets_slo").bind flag

/-- `total`: what levels are compared by. -/
def levelTotal (level : RawMetrics) : ℚ := (nonzero (numberAt level "total_tps_mean")).getD (-1)

/-- The level with the highest total. -/
def peakLevel (levels : List (Nat × RawMetrics)) : Option (Nat × RawMetrics) :=
  firstMax (fun level => levelTotal level.2) levels

/-- `(total(c), c)`. -/
def levelRank (level : Nat × RawMetrics) : ℚ ×ₗ Nat := toLex (levelTotal level.2, level.1)

/-- The levels that met the SLO. -/
def passingLevels (levels : List (Nat × RawMetrics)) : List (Nat × RawMetrics) :=
  levels.filter fun level => (nonzero (levelFlag level.2)).isSome

/-- `int(x)`. -/
def truncate (x : ℚ) : Int := if x < 0 then -(-x).floor else x.floor

/-- The level the sweep reported, if it is one of the levels. -/
def reportedLevel (raw : RawMetrics) (levels : List (Nat × RawMetrics)) : Option Nat :=
  (numberAt raw "reported_concurrency").bind fun reported =>
    (levels.map Prod.fst).find? fun c => (c : Int) = truncate reported

/-- The level the operating point is, and how it was chosen. -/
def chooseLevel (raw : RawMetrics) (levels : List (Nat × RawMetrics)) : Option (Nat × String) :=
  let flagged := levels.any fun level => (levelFlag level.2).isSome
  match (if dictHas raw "search_probes" then reportedLevel raw levels else none) with
  | some c => some (c, "the level the auto search confirmed at full length")
  | none =>
      if flagged then
        match firstMax levelRank (passingLevels levels) with
        | some level => some (level.1, "the level with the highest total throughput that met the SLO")
        | none =>
            (levels.map Prod.fst).min?.map fun c =>
              (c, "no level met the SLO; the lowest level, as LLMBench reports it")
      else
        (reportedLevel raw levels).map fun c =>
          (c, "the level LLMBench reported (this result flags no level against the SLO)")

/-- The point of one level. -/
def levelPoint (params : RawMetrics) (cards : Option ℚ) (level : Nat × RawMetrics) : Point :=
  put (guidellmLevel level.2 (some (level.1 : ℚ)) cards params "output_tps_mean" "input_tps_mean") "meets_slo"
    (levelFlag level.2)

/-- Levels in the order of their concurrency. -/
def sortLevels (levels : List (Nat × RawMetrics)) : List (Nat × RawMetrics) :=
  levels.insertionSort fun a b => a.1 ≤ b.1

/-- `_sweep`. -/
def sweep (sc : Scenario) (raw params : RawMetrics) (cards : Option ℚ) : Scenario :=
  let levels := levelsOf raw
  let points := (sortLevels levels).foldl
    (fun points level => dictSet points (levelName level.1) (levelPoint params cards level)) sc.points
  let points := match peakLevel levels with
    | some level => dictSet points "peak" ((dictGet points (levelName level.1)).getD [])
    | none => points
  let sc := { sc with points := points, supports := guidellmLevelSupports ++ ["meets_slo"] }
  match chooseLevel raw levels with
  | none => sc
  | some (c, rule) =>
      let point := (dictGet points (levelName c)).getD []
      -- a flag of the whole sweep is taken for a level that has none of its own, if it is a number
      let whole := (numberAt raw "reported_level_meets_slo").bind fun _ =>
        (dictGet raw "reported_level_meets_slo").bind flag
      let point := if dictHas point "meets_slo" then point else put point "meets_slo" whole
      { sc with
        points := dictSet points "operating" point
        operatingLevel := levelName c
        operatingRule := rule }

/-! ## One level, whole -/

/-- `_single`. -/
def single (sc : Scenario) (raw params : RawMetrics) (cards : Option ℚ) : Scenario :=
  let concurrency := (nonzero (numberAt raw "reported_concurrency")).or (numberAt params "concurrency")
  { sc with
    points := dictSet sc.points "operating"
      (guidellmLevel raw concurrency cards params
        (if dictHas raw "output_tps_mean" then "output_tps_mean" else "output_tps")
        (if dictHas raw "input_tps_mean" then "input_tps_mean" else "input_tps"))
    operatingRule := "the one level the module ran"
    supports := guidellmLevelSupports }

/-! ## Replays -/

/-- A measure in each prompt bucket. -/
def inBuckets (measure : String) : List String := promptBuckets.map fun b => measure ++ "[" ++ b ++ "]"

/-- `REPLAY_SUPPORTS`. -/
def replaySupports : List String :=
  ["output_tpm", "input_tpm", "uncached_input_tpm", "cached_input_tpm", "total_tpm", "output_tpm_per_gpu",
    "input_tpm_per_gpu", "uncached_input_tpm_per_gpu", "cached_input_tpm_per_gpu", "total_tpm_per_gpu",
    "request_rate"] ++
    atStats "request_output_tps" ["mean", "p10", "p50", "p90"] ++
    atStats "request_prefill_tps" ["mean", "p10", "p50", "p90"] ++ atStats "ttft_ms" ["mean", "p50", "p90", "p99"] ++
    ((atStats "ttft_ms" ["mean", "p50", "p90"]).flatMap inBuckets) ++ inBuckets "prompt_bucket_requests" ++
    ["e2e_latency_ms@p50", "e2e_latency_ms@p99", "success_rate", "error_rate", "unfinished_rate", "truncated_rate",
      "not_started_rate", "requests_total", "requests_completed", "requests_failed", "requests_not_started",
      "requests_unfinished", "requests_truncated", "requests_runaway", "concurrency", "window_s",
      "prompt_tokens_mean", "completion_tokens_mean", "cache_hit_rate", "answer_quality_rate",
      "hallucination_rate", "poor_answer_rate", "score", "score_per_gpu"]

/-- The time to the first token, bucket by bucket. -/
def replayBuckets (raw : RawMetrics) : List (String × Option ℚ) :=
  promptBuckets.flatMap fun b =>
    [("ttft_ms@p50[" ++ b ++ "]", numberAt raw ("ttft_" ++ b ++ "_p50_ms")),
      ("ttft_ms@p90[" ++ b ++ "]", numberAt raw ("ttft_" ++ b ++ "_p90_ms")),
      ("ttft_ms@mean[" ++ b ++ "]", numberAt raw ("ttft_" ++ b ++ "_avg_ms")),
      ("prompt_bucket_requests[" ++ b ++ "]", numberAt raw ("ttft_" ++ b ++ "_count"))]

/-- Requests the client had to stop, of either kind. -/
def runaway (capped repetitive : Option ℚ) : Option ℚ :=
  match capped, repetitive with
  | none, none => none
  | capped, repetitive => some (capped.getD 0 + repetitive.getD 0)

/-- `_replay`. -/
def replay (sc : Scenario) (raw params : RawMetrics) (cards : Option ℚ) : Scenario :=
  let at_ := numberAt raw
  let out := putAll [] [("output_tpm", at_ "output_tpm"), ("input_tpm", at_ "input_tpm"),
    ("cached_input_tpm", at_ "cached_tpm"), ("uncached_input_tpm", at_ "uncached_input_tpm")]
  let out := put out "total_tpm" ((dictGet out "input_tpm").bind fun input =>
    (dictGet out "output_tpm").map fun output => input + output)
  let out := perGpu out cards
  let out := put out "request_output_tps@mean"
    (((dictGet raw "output_tps_mean").or (dictGet raw "output_tps_avg")).bind number)
  let out := putAll out (["p10", "p50", "p90"].map fun s => ("request_output_tps@" ++ s, at_ ("output_tps_" ++ s)))
  let out := putAll out
    (["mean", "p10", "p50", "p90"].map fun s => ("request_prefill_tps@" ++ s, at_ ("input_tps_" ++ s)))
  let out := putAll out (["p50", "p90", "p99"].map fun s => ("ttft_ms@" ++ s, at_ ("ttft_" ++ s ++ "_ms")))
  let out := putAll (put out "ttft_ms@mean" (at_ "ttft_mean_ms")) (replayBuckets raw)
  let out := putAll out
    [("e2e_latency_ms@p50", at_ "total_time_p50_ms"), ("e2e_latency_ms@p99", at_ "total_time_p99_ms")]
  let total := at_ "total_requests"
  let completed := at_ "successful_requests"
  let notStarted := at_ "not_started_requests"
  let truncated := at_ "finish_reason_length_count"
  let window := at_ "wall_time_s"
  let out := putAll out
    [("success_rate", at_ "uptime"), ("error_rate", at_ "error_rate"), ("unfinished_rate", at_ "unfinished_rate"),
      ("truncated_rate", ratio truncated completed), ("not_started_rate", ratio notStarted total),
      ("requests_total", total), ("requests_completed", completed), ("requests_failed", at_ "error_requests"),
      ("requests_not_started", notStarted), ("requests_unfinished", at_ "unfinished_requests"),
      ("requests_truncated", truncated),
      ("requests_runaway", runaway (at_ "generation_capped_count") (at_ "repetitive_token_count")),
      ("window_s", window), ("request_rate", ratio completed window),
      ("concurrency", numberAt params "concurrency"), ("prompt_tokens_mean", at_ "avg_prompt_tokens"),
      ("completion_tokens_mean", at_ "avg_completion_tokens"), ("cache_hit_rate", at_ "cache_hit_rate"),
      ("answer_quality_rate", at_ "judge_good_acc_rate"), ("hallucination_rate", at_ "judge_halluc_clear_rate"),
      ("poor_answer_rate", at_ "judge_poor_rate")]
  { sc with
    points := dictSet sc.points "operating" out
    operatingRule := "the replay itself, at the concurrency it was run at"
    supports := replaySupports }

/-! ## What was answered -/

/-- An adapter that copies raw keys: what it writes under each measure. -/
def copied (raw : RawMetrics) (keys : List (String × String)) : Point × List String :=
  (putAll [] (keys.map fun e => (e.1, numberAt raw e.2)), keys.map Prod.fst)

/-- `_agentic`. -/
def agentic (raw : RawMetrics) : Point × List String :=
  let latencies := ["ttft", "itl"].flatMap fun m => ["mean", "p50", "p99"].map fun s =>
    (m ++ "_ms@" ++ s, numberAt raw (m ++ "_" ++ s ++ "_ms"))
  let total := numberAt raw "total_queries"
  let failed := numberAt raw "errored_queries"
  let written := latencies ++
    [("success_rate", numberAt raw "uptime"), ("error_rate", ratio failed total), ("requests_total", total),
      ("requests_failed", failed), ("requests_unfinished", numberAt raw "incomplete_queries")]
  (putAll [] written, written.map Prod.fst)

/-- `OPENCOMPASS_TASKS`. -/
def opencompassTasks : List String :=
  ["aime2025", "gpqa_diamond", "ifeval", "mmlu_pro", "hle", "livecodebench_v6", "simpleqa", "longbench_v2"]

/-- `_OPENCOMPASS_PERF`. -/
def opencompassPerf : List String := ["ttft_mean_ms", "tpot_mean_ms", "output_tps", "service_tps", "gen_tokens"]

/-- The accuracy of a task: above 1 can only be a percentage. -/
def accuracyName (task : String) : String := "accuracy[" ++ task ++ "]"

/-- Is the raw key a task's score? -/
def isTask (entry : String × Value) : Bool :=
  entry.1 ∈ opencompassTasks ||
    (entry.1 ∉ opencompassPerf && (number entry.2).isSome && !hasChar entry.1 '.')

/-- The tasks a result scores, with their shares. -/
def taskScores (raw : RawMetrics) : List (String × ℚ) :=
  raw.filterMap fun entry =>
    if isTask entry then (number entry.2).map fun n => (accuracyName entry.1, if 1 < n then n / 100 else n)
    else none

/-- `_opencompass`: its `output_tps` is per request, `service_tps` the aggregate. -/
def opencompass (raw : RawMetrics) : Point × List String :=
  let scores := taskScores raw
  let out := scores.foldl (fun out e => dictSet out e.1 e.2) []
  (putAll out [("ttft_ms@mean", numberAt raw "ttft_mean_ms"), ("tpot_ms@mean", numberAt raw "tpot_mean_ms"),
      ("request_output_tps@mean", numberAt raw "output_tps"),
      ("output_tpm", (numberAt raw "service_tps").map fun x => x * 60)],
    ["ttft_ms@mean", "tpot_ms@mean", "request_output_tps@mean", "output_tpm"] ++ scores.map Prod.fst ++
      opencompassTasks.map accuracyName)

/-- `_functional`. -/
def functionalAcceptance (raw : RawMetrics) : Point × List String := copied raw [("pass_rate", "pass_rate")]

/-- `_tool_call`. -/
def toolCall (raw : RawMetrics) : Point × List String :=
  copied raw [("tool_call_success_rate", "tool_call_success_rate"), ("error_rate", "error_rate"),
    ("requests_total", "total_requests"), ("requests_completed", "completed_requests"),
    ("requests_failed", "error_requests"), ("requests_truncated", "truncated_requests")]

/-- `_hallucination`. -/
def hallucination (raw : RawMetrics) : Point × List String :=
  copied raw [("hallucination_rate", "hallucination_rate"), ("requests_total", "total_requests"),
    ("requests_completed", "completed_requests"), ("requests_failed", "error_requests")]

/-- `_case_truncation`. -/
def caseTruncation (raw : RawMetrics) : Point × List String :=
  copied raw [("long_output_completion_rate", "completion_ratio"), ("truncated_rate", "truncation_rate"),
    ("error_rate", "error_rate"), ("requests_total", "total_requests")]

/-- `_QUALITY`. -/
def qualityAdapters : List (String × (RawMetrics → Point × List String)) :=
  [("agentic", agentic), ("opencompass", opencompass), ("functional_acceptance", functionalAcceptance),
    ("tool_call_success", toolCall), ("hallucination", hallucination), ("case_truncation", caseTruncation)]

/-! ## Recognizing a module -/

/-- `FAMILIES`. -/
def families : List String := ["perf_guidellm_sweep", "perf_guidellm", "replay"] ++ qualityAdapters.map Prod.fst

/-- How a deployment's modules are recognized: names of replays, and names mapped onto families. -/
structure ModuleFamilies where
  replayNames : List String
  aliases : List (String × String)

/-- `family_of`. -/
def familyOf (m : ModuleFamilies) (module : String) : String :=
  if module = "replay" ∨ module ∈ m.replayNames then "replay"
  else
    let mapped := (dictGet m.aliases module).getD module
    if mapped ∈ families then mapped else "unknown"

/-- `_KIND.get(family, "quality")`. -/
def kindOf (family : String) : ScenarioKind :=
  if family = "perf_guidellm_sweep" then .sweep
  else if family = "perf_guidellm" then .single
  else if family = "replay" then .replay
  else .quality

/-- `CARD_NORM_BASELINE`. -/
def cardNormBaseline : ℚ := 8

/-- A rate, the seconds it is scaled by, and its form for a fixed number of cards. -/
def cardNormPairs : List (String × ℚ × String) :=
  [("output_tpm", 1, "output_tpm_card_norm"), ("output_tps", 60, "output_tpm_card_norm"),
    ("input_tpm", 1, "input_tpm_card_norm"), ("total_tps_mean", 60, "total_tpm_card_norm")]

/-- `cards_from_card_norm`. -/
def cardsFromCardNorm (raw : RawMetrics) : Option ℚ :=
  cardNormPairs.findSome? fun (baseKey, scale, normKey) =>
    (nonzero (numberAt raw baseKey)).bind fun base =>
      (nonzero (numberAt raw normKey)).map fun norm =>
        let cards := cardNormBaseline * base * scale / norm
        if |cards - roundHalfEven cards| < 5 / 100 then (roundHalfEven cards : ℚ) else cards

/-- The module of an instance key. -/
def moduleOf (key : String) : String := (partitionAt '#' key).1

/-- What the adapter of a family makes of a scenario. -/
def adaptFamily (family : String) (sc : Scenario) (raw params : RawMetrics) (cards : Option ℚ) : Scenario :=
  if family = "perf_guidellm_sweep" then sweep sc raw params cards
  else if family = "perf_guidellm" then single sc raw params cards
  else if family = "replay" then replay sc raw params cards
  else
    let (out, supports) := match dictGet qualityAdapters family with
      | some adapter => adapter raw
      | none => ([], [])
    { sc with
      points := dictSet sc.points "operating" out
      operatingRule := "the module's whole run"
      supports := supports }

/-- The module's own score, written into the operating point. -/
def addScore (family : String) (score cards : Option ℚ) (sc : Scenario) : Scenario :=
  match score with
  | none => sc
  | some score =>
      let point := dictSet sc.operating "score" score
      let point := if family = "replay" then put point "score_per_gpu" ((nonzero cards).map fun c => score / c)
        else point
      { sc with points := dictSet sc.points "operating" point }

/-- `adapt`. -/
def adapt (m : ModuleFamilies) (key : String) (raw params : RawMetrics) (cards : Option ℚ) : Scenario :=
  let family := familyOf m (moduleOf key)
  let cards := (nonzero cards).or (cardsFromCardNorm raw)
  let sc := adaptFamily family { key := key, module := moduleOf key, family := family, kind := kindOf family }
    raw params cards
  let sc := addScore family (numberAt raw "score") cards sc
  { sc with supports := sc.supports ++ ["score"] ++ if family = "replay" then ["score_per_gpu"] else [] }

end AutoTune
