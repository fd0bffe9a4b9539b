import AutoTune.Lib.Python

/-!
# The engines' flag vocabulary

One canonical key per flag, its other spellings, and how each engine writes it. A flag the catalogue
does not list rides along under its own name.
-/

namespace AutoTune

open Lib

/-- Whether a flag takes a value. -/
inductive FlagKind where
  | value
  | switch
deriving DecidableEq, Repr

/-- `FlagSpec`. -/
structure FlagSpec where
  key : String
  kind : FlagKind := .value
  aliases : List String := []
  flag : String := ""
  negatable : Bool := false
deriving DecidableEq, Repr

/-- `SPECS["sglang"]`. -/
def sglangSpecs : List FlagSpec :=
  [{ key := "tp", aliases := ["tp_size", "tensor_parallel_size"], flag := "--tp-size" },
    { key := "dp", aliases := ["dp_size", "data_parallel_size"], flag := "--dp-size" },
    { key := "pp", aliases := ["pp_size", "pipeline_parallel_size"], flag := "--pp-size" },
    { key := "ep", aliases := ["ep_size", "expert_parallel_size"], flag := "--ep-size" },
    { key := "dcp_size", aliases := ["decode_context_parallel_size"] },
    { key := "attn_cp_size", aliases := ["attention_context_parallel_size"] },
    { key := "moe_dp_size", aliases := ["moe_data_parallel_size"] },
    { key := "enable_dp_attention", kind := .switch, aliases := ["enable_dp_attn"] },
    { key := "mem_fraction_static" },
    { key := "max_total_tokens" },
    { key := "kv_cache_dtype" },
    { key := "page_size" },
    { key := "disable_radix_cache", kind := .switch },
    { key := "radix_eviction_policy" },
    { key := "chunked_prefill_size" },
    { key := "max_prefill_tokens" },
    { key := "max_running_requests" },
    { key := "schedule_policy" },
    { key := "schedule_conservativeness" },
    { key := "enable_mixed_chunk", kind := .switch },
    { key := "num_continuous_decode_steps" },
    { key := "attention_backend" },
    { key := "sampling_backend" },
    { key := "grammar_backend" },
    { key := "enable_torch_compile", kind := .switch },
    { key := "torch_compile_max_bs" },
    { key := "cuda_graph_max_bs" },
    { key := "cuda_graph_bs" },
    { key := "disable_cuda_graph", kind := .switch },
    { key := "disable_cuda_graph_padding", kind := .switch },
    { key := "dtype" },
    { key := "quantization" },
    { key := "context_length" },
    { key := "trust_remote_code", kind := .switch },
    { key := "revision" },
    { key := "tokenizer_path" },
    { key := "tokenizer_mode" },
    { key := "enable_multimodal", kind := .switch, negatable := true },
    { key := "mamba_ssm_dtype" },
    { key := "mamba_full_memory_ratio" },
    { key := "mamba_scheduler_strategy", aliases := ["mamba_radix_cache_strategy"] },
    { key := "max_mamba_cache_size" },
    { key := "speculative_algorithm" },
    { key := "speculative_draft_model_path", aliases := ["speculative_draft_model"] },
    { key := "speculative_num_draft_tokens" },
    { key := "speculative_num_steps" },
    { key := "speculative_eagle_topk" },
    { key := "reasoning_parser" },
    { key := "tool_call_parser" },
    { key := "chat_template" },
    { key := "stream_response_default_include_usage", kind := .switch },
    { key := "enable_cache_report", kind := .switch },
    { key := "enable_metrics", kind := .switch },
    { key := "show_time_cost", kind := .switch },
    { key := "log_level" },
    { key := "log_requests", kind := .switch },
    { key := "random_seed" },
    { key := "watchdog_timeout" },
    { key := "enable_p2p_check", kind := .switch },
    { key := "allow_auto_truncate", kind := .switch }]

/-- `SPECS["vllm"]`. -/
def vllmSpecs : List FlagSpec :=
  [{ key := "tp", aliases := ["tensor_parallel_size", "tp_size"], flag := "--tensor-parallel-size" },
    { key := "dp", aliases := ["data_parallel_size", "dp_size"], flag := "--data-parallel-size" },
    { key := "pp", aliases := ["pipeline_parallel_size", "pp_size"], flag := "--pipeline-parallel-size" },
    { key := "enable_expert_parallel", kind := .switch },
    { key := "distributed_executor_backend" },
    { key := "gpu_memory_utilization" },
    { key := "swap_space" },
    { key := "cpu_offload_gb" },
    { key := "block_size" },
    { key := "kv_cache_dtype" },
    { key := "enable_prefix_caching", kind := .switch },
    { key := "max_num_seqs" },
    { key := "max_num_batched_tokens" },
    { key := "enable_chunked_prefill", kind := .switch },
    { key := "scheduler_delay_factor" },
    { key := "max_seq_len_to_capture" },
    { key := "dtype" },
    { key := "quantization" },
    { key := "max_model_len" },
    { key := "trust_remote_code", kind := .switch },
    { key := "revision" },
    { key := "tokenizer" },
    { key := "tokenizer_mode" },
    { key := "load_format" },
    { key := "seed" },
    { key := "enforce_eager", kind := .switch },
    { key := "disable_custom_all_reduce", kind := .switch },
    { key := "compilation_config" },
    { key := "speculative_config" },
    { key := "speculative_model" },
    { key := "num_speculative_tokens" },
    { key := "speculative_draft_tensor_parallel_size" },
    { key := "enable_lora", kind := .switch },
    { key := "max_loras" },
    { key := "max_lora_rank" },
    { key := "disable_log_requests", kind := .switch },
    { key := "disable_log_stats", kind := .switch },
    { key := "uvicorn_log_level" }]

/-- `SPECS.get(engine, ())`. -/
def specsOf (engine : String) : List FlagSpec :=
  if engine = "sglang" then sglangSpecs else if engine = "vllm" then vllmSpecs else []

/-- `_kebab`. -/
def kebab (key : String) : String := "--" ++ replaceChar '_' '-' key

/-- `_alias_map`. -/
def aliasMap (engine : String) : List (String × String) :=
  (specsOf engine).foldl
    (fun out spec => spec.aliases.foldl (fun out other => dictSet out other spec.key)
      (dictSet out spec.key spec.key)) []

/-- `_spec_map`. -/
def specMap (engine : String) : List (String × FlagSpec) :=
  (specsOf engine).foldl (fun out spec => dictSet out spec.key spec) []

/-- `spec_of`. -/
def specOf (engine key : String) : Option FlagSpec :=
  (dictGet (aliasMap engine) key).bind (dictGet (specMap engine))

/-- `render_flag`. -/
def renderFlag (engine key : String) : String :=
  match specOf engine key with
  | some spec => if spec.flag = "" then kebab spec.key else spec.flag
  | none => kebab key

/-- `negated_flag`: on vllm every flag has a `--no-` form, on sglang the negatable ones. -/
def negatedFlag (engine key : String) : Option String :=
  let spec := specOf engine key
  if engine = "vllm" ∨ spec.any FlagSpec.negatable then
    some ("--no-" ++ lstripChar '-' (renderFlag engine key))
  else none

def trueWords : List String := ["", "true", "1", "yes", "on"]

def falseWords : List String := ["false", "0", "no", "off"]

section Normalize

variable {F : Type}

/-- One entry of `normalize_args`: its canonical key, its value, and the notes on it. -/
def normalizeEntry (engine key : String) (value : Json F) : String × Json F × List String :=
  let aliases := aliasMap engine
  let specs := specMap engine
  let canonical := (dictGet aliases key).getD key
  let notes := if canonical = key then [] else [key ++ " → " ++ canonical]
  -- a `--no-x` that was parsed as the switch `no_x`
  let negated : Option String :=
    match value with
    | .bool true =>
        if startsWith canonical "no_" then
          let bare := dropText 3 canonical
          let target := (dictGet aliases bare).getD bare
          if (dictGet specs target).any fun s => s.kind = .switch then some target else none
        else none
    | _ => none
  match negated with
  | some target =>
      (target, .bool false, notes ++ ["--" ++ replaceChar '_' '-' canonical ++ " → " ++ target ++ ": false"])
  | none =>
      match value with
      | .str s =>
          if (dictGet specs canonical).any fun spec => spec.kind = .switch then
            let word := lowerAscii (strip s)
            if word ∈ trueWords then (canonical, .bool true, notes)
            else if word ∈ falseWords then (canonical, .bool false, notes)
            else (canonical, value, notes)
          else (canonical, value, notes)
      | _ => (canonical, value, notes)

/-- `normalize_args`: the arguments under their canonical keys, and what moved. -/
def normalizeArgs (engine : String) (args : JsonDict F) : JsonDict F × List String :=
  args.foldl
    (fun out entry =>
      let (canonical, value, notes) := normalizeEntry engine entry.1 entry.2
      let twice := if dictHas out.1 canonical then
        [canonical ++ " given twice — the later value wins"] else []
      (dictSet out.1 canonical value, out.2 ++ notes ++ twice))
    ([], [])

end Normalize

end AutoTune
