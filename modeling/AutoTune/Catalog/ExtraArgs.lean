import AutoTune.Recipe.RoundTrip
import AutoTune.Recipe.TwoReaders

/-!
# Publishing engine arguments

A converted config's arguments become the items of a chart's `extraArgs`, each one flag with its value behind
an equals sign. The context length goes to a chart value of its own, and what the chart sets itself is left
out.
-/

namespace AutoTune

open Lib

/-- `PLACEMENT_FLAGS`. -/
def placementFlags : List String :=
  ["model_path", "model", "served_model_name", "host", "port", "nccl_port", "dist_init_addr", "nccl_init_addr",
    "node_rank", "nnodes"]

/-- `CHART_OWNED`. -/
def chartOwned : List String := placementFlags ++ ["enable_metrics"]

/-- `_CONTEXT_KEYS`. -/
def contextKeys : List String := ["context_length", "max_model_len"]

section ExtraArgs

variable {F : Type} [PyRuntime F]

/-- `fmt_value`. -/
def fmtValue (value : Json F) : String := fmt value

/-- The item of one argument, if it is written. -/
def argItem (engine key : String) (value : Json F) : Option String :=
  let flag := renderFlag engine key
  match value with
  | .bool true => some flag
  | .bool false => negatedFlag engine key
  | .null => none
  | .str "" => none
  | value => some (flag ++ "=" ++ fmtValue value)

/-- The items, the context length and the dropped keys of `extra_args`. -/
structure ExtraArgs where
  items : List String := []
  context : String := ""
  dropped : List String := []

/-- One turn of `extra_args`. -/
def ExtraArgs.add (engine : String) (out : ExtraArgs) (entry : String × Json F) : ExtraArgs :=
  if entry.1 ∈ contextKeys then { out with context := fmtValue entry.2 }
  else if entry.1 ∈ chartOwned then { out with dropped := out.dropped ++ [entry.1] }
  else { out with items := out.items ++ (argItem engine entry.1 entry.2).toList }

/-- `extra_args`. -/
def extraArgs (engine : String) (args : JsonDict F) : ExtraArgs :=
  (sortEntries args).foldl (ExtraArgs.add engine) {}

end ExtraArgs

end AutoTune
