import AutoTune.Lib.Python

/-!
# The measures

One vocabulary for what a benchmark found: each measure with the statistics it can be asked for and what
a qualifier of it selects. Labels, units and directions are for readers and are left out.
-/

namespace AutoTune

open Lib

/-- `PROMPT_BUCKETS`. -/
def promptBuckets : List String :=
  ["lt_6k", "6k_16k", "16k_32k", "32k_64k", "64k_128k", "128k_256k", "ge_256k"]

/-- `Measure`, as far as a reference is judged by it. -/
structure Measure where
  name : String
  /-- Empty: a single value, no statistic. -/
  stats : List String := []
  /-- The statistic a bare reference means, if there is an obvious one. -/
  defaultStat : Option String := none
  /-- What a qualifier selects; empty when it takes none. -/
  qualifier : String := ""
  qualifierValues : List String := []
deriving DecidableEq, Repr

/-- `_LAT_STATS`. -/
def latencyStats : List String := ["mean", "p50", "p90", "p99"]

/-- The statistics of a per-request speed. -/
def speedStats : List String := ["mean", "p10", "p50", "p90"]

/-- `MEASURES`. -/
def measures : List Measure :=
  [{ name := "output_tpm_per_gpu" },
    { name := "input_tpm_per_gpu" },
    { name := "uncached_input_tpm_per_gpu" },
    { name := "cached_input_tpm_per_gpu" },
    { name := "total_tpm_per_gpu" },
    { name := "output_tpm" },
    { name := "input_tpm" },
    { name := "uncached_input_tpm" },
    { name := "cached_input_tpm" },
    { name := "total_tpm" },
    { name := "request_rate" },
    { name := "request_output_tps", stats := speedStats, defaultStat := some "mean" },
    { name := "request_prefill_tps", stats := speedStats, defaultStat := some "mean" },
    { name := "ttft_ms", stats := latencyStats, qualifier := "prompt bucket", qualifierValues := promptBuckets },
    { name := "itl_ms", stats := latencyStats },
    { name := "tpot_ms", stats := latencyStats },
    { name := "e2e_latency_ms", stats := latencyStats },
    { name := "success_rate" },
    { name := "error_rate" },
    { name := "unfinished_rate" },
    { name := "truncated_rate" },
    { name := "not_started_rate" },
    { name := "meets_slo" },
    { name := "requests_total" },
    { name := "requests_completed" },
    { name := "requests_failed" },
    { name := "requests_not_started" },
    { name := "requests_unfinished" },
    { name := "requests_truncated" },
    { name := "requests_runaway" },
    { name := "concurrency" },
    { name := "prompt_tokens_mean" },
    { name := "completion_tokens_mean" },
    { name := "cache_hit_rate" },
    { name := "window_s" },
    { name := "prompt_bucket_requests", qualifier := "prompt bucket", qualifierValues := promptBuckets },
    { name := "pass_rate" },
    { name := "tool_call_success_rate" },
    { name := "hallucination_rate" },
    { name := "answer_quality_rate" },
    { name := "poor_answer_rate" },
    { name := "long_output_completion_rate" },
    { name := "accuracy", qualifier := "task" },
    { name := "score" },
    { name := "score_per_gpu" }]

/-- `BY_NAME.get(name)`. -/
def byName (name : String) : Option Measure := measures.find? fun m => m.name = name

/-- `ALIASES`. -/
def measureAliases : List (String × String) := [("uptime", "success_rate")]

/-- `ALIASES.get(name, name)`. -/
def measureNamed (name : String) : String := (dictGet measureAliases name).getD name

/-- `lookup`. -/
def lookup (name : String) : Option Measure := byName (measureNamed name)

/-- A name of the catalogue is no alias. -/
theorem measureNamed_of_byName {name : String} {spec : Measure} (h : byName name = some spec) :
    measureNamed name = name := by
  by_cases halias : name = "uptime"
  · have hnone : byName "uptime" = none := by decide
    rw [halias, hnone] at h
    cases h
  · simp [measureNamed, measureAliases, dictGet, Ne.symm halias]

end AutoTune
