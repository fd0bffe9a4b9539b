import AutoTune.Lib.Python

/-!
# Static validation of a config

The checks a candidate's config passes before it may run, in their order. A value `int` or `float`
cannot take raises, as it does in the code; everything else is an error text or none.
-/

namespace AutoTune

open Lib

/-- `ValidationContext`. -/
structure ValidationContext where
  gpuCount : Int
  engine : String
  nodes : Nat := 1
deriving DecidableEq, Repr

def tpKeys : List String := ["tp", "tp_size", "tensor_parallel_size"]

def dpKeys : List String := ["dp", "dp_size", "data_parallel_size"]

def ppKeys : List String := ["pp", "pp_size", "pipeline_parallel_size"]

def epKeys : List String := ["ep", "ep_size", "expert_parallel_size"]

def dpAttentionKeys : List String := ["enable_dp_attention", "enable_dp_attn"]

/-- The name of a key `env.<NAME>`. -/
def envName (key : String) : Option String :=
  if startsWith key "env." then some (dropText 4 key) else none

/-- `PLACEMENT_ENV`. -/
def placementEnv : List String :=
  ["CUDA_VISIBLE_DEVICES", "NVIDIA_VISIBLE_DEVICES", "HIP_VISIBLE_DEVICES", "ROCR_VISIBLE_DEVICES",
    "ASCEND_RT_VISIBLE_DEVICES", "MASTER_ADDR", "MASTER_PORT", "RANK", "LOCAL_RANK", "WORLD_SIZE",
    "NODE_RANK", "NCCL_SOCKET_IFNAME", "GLOO_SOCKET_IFNAME", "NCCL_IB_HCA", "*_HOST_IP", "*_PORT",
    "PATH", "LD_LIBRARY_PATH", "PYTHONPATH", "HOME", "*_TOKEN", "*SECRET*", "*PASSWORD*", "*_API_KEY",
    "*ACCESS_KEY*"]

/-- `fnmatchcase`, for patterns with no other wildcard than `*`. -/
def fnmatch : List Char → List Char → Bool
  | [], s => s.isEmpty
  | '*' :: p, s => s.tails.any fun rest => fnmatch p rest
  | c :: p, d :: s => c = d && fnmatch p s
  | _ :: _, [] => false

/-- `^[A-Z_][A-Z0-9_]*$`, where `$` also stands before a last newline. -/
def isEnvName (name : String) : Bool :=
  let upper := fun c : Char => ('A' ≤ c && c ≤ 'Z') || c = '_'
  let body := match name.toList.reverse with
    | '\n' :: rest => rest.reverse
    | _ => name.toList
  match body with
  | [] => false
  | c :: cs => upper c && cs.all fun d => upper d || ('0' ≤ d && d ≤ '9')

section Validation

variable {F : Type} [PyRuntime F]

/-- `_int_or_none`. -/
def intOrNone : Json F → Except PyError (Option Int)
  | .int n => .ok (some n)
  | .str s => .ok (intOfText s)
  | .float x =>
      match PyRuntime.trunc x with
      | .ok n => .ok (some n)
      | .error .overflowError => .error .overflowError
      | .error _ => .ok none
  | _ => .ok none

/-- `_first_int`: the first of these keys that is there, 1 where it is no whole number. -/
def firstInt (args : JsonDict F) (keys : List String) : Except PyError Int :=
  match keys.findSome? (dictGet args) with
  | some value => (intOrNone value).map fun n => n.getD 1
  | none => .ok 1

/-- `_flag_on`: a switch is on unless it is spelled off. -/
def flagOn (args : JsonDict F) (keys : List String) : Bool :=
  match keys.findSome? (dictGet args) with
  | some (.str s) => !(["", "false", "0", "no", "off"].contains (lowerAscii (strip s)))
  | some value => value.truthy
  | none => false

/-- `cards_used`. -/
def cardsUsed (args : JsonDict F) : Except PyError Int := do
  let tp ← firstInt args tpKeys
  let dp ← firstInt args dpKeys
  let pp ← firstInt args ppKeys
  if flagOn args dpAttentionKeys then return max 1 tp * max 1 pp
  return max 1 tp * max 1 dp * max 1 pp

/-- `_shape`: how the card count was arrived at. -/
def shapeText (args : JsonDict F) : Except PyError String := do
  let tp ← firstInt args tpKeys
  let dp ← firstInt args dpKeys
  let pp ← firstInt args ppKeys
  let folded := if flagOn args dpAttentionKeys then
      ["dp=" ++ toString (max 1 dp) ++ " folded in by dp attention"]
    else if 1 < dp then ["dp=" ++ toString dp] else []
  let piped := if 1 < pp then ["pp=" ++ toString pp] else []
  return ", ".intercalate (("tp=" ++ toString (max 1 tp)) :: folded ++ piped)

/-! ## The checks -/

/-- A check: the config and its context to an error text, or none. -/
abbrev Check (F : Type) := JsonDict F → ValidationContext → Except PyError (Option String)

/-- What `env_problems` says of one entry. -/
def envProblem (entry : String × Json F) : Option String :=
  (envName entry.1).bind fun name =>
    if !isEnvName name then
      some (PyRuntime.quote F name ++ " is not an environment variable name (A-Z, 0-9, _)")
    else
      match placementEnv.find? fun p => fnmatch p.toList name.toList with
      | some pattern => some (name ++ " is placement or a credential (matches " ++
          PyRuntime.quote F pattern ++ "), which the platform and the install set: remove it")
      | none =>
          match entry.2 with
          | .null | .list _ | .dict _ => some (entry.1 ++ " must be one string, number or boolean")
          | .str s => if strip s = "" then some (entry.1 ++ " is an empty string") else none
          | _ => none

/-- `_check_env_keys`. -/
def checkEnvKeys : Check F := fun args _ => .ok (args.findSome? envProblem)

/-- One key of `_check_positive_ints`. -/
def positiveInt (args : JsonDict F) (key : String) : Except PyError (Option String) :=
  match dictGet args key with
  | none => .ok none
  | some value =>
      (intOrNone value).map fun parsed =>
        match parsed with
        | none => some (key ++ "=" ++ value.repr ++ " is not a whole number")
        | some n => if n < 1 then some (key ++ " must be >= 1") else none

/-- The first error of a list of checks. -/
def firstError {α : Type} (check : α → Except PyError (Option String)) :
    List α → Except PyError (Option String)
  | [] => .ok none
  | a :: rest =>
      match check a with
      | .ok none => firstError check rest
      | found => found

/-- `_check_positive_ints`. -/
def checkPositiveInts : Check F := fun args _ =>
  firstError (positiveInt args) (tpKeys ++ dpKeys ++ ppKeys ++ epKeys ++ ["max_running_requests"])

/-- `_check_dp_attention_divides_tp`. -/
def checkDpAttentionDividesTp : Check F := fun args _ => do
  if !flagOn args dpAttentionKeys then return none
  let tp ← firstInt args tpKeys
  let dp ← firstInt args dpKeys
  if max 1 tp % max 1 dp ≠ 0 then
    return some ("dp attention needs dp=" ++ toString (max 1 dp) ++ " to divide tp=" ++
      toString (max 1 tp))
  return none

/-- `_check_parallelism_fits`. -/
def checkParallelismFits : Check F := fun args ctx => do
  if ctx.gpuCount ≤ 0 then return none
  let needed ← cardsUsed args
  if ctx.gpuCount < needed then
    let how ← shapeText args
    return some ("needs " ++ toString needed ++ " GPUs (" ++ how ++ "), machine has " ++
      toString ctx.gpuCount)
  return none

/-- `_check_multi_node_shape`. -/
def checkMultiNodeShape : Check F := fun args ctx => do
  if ctx.nodes ≤ 1 then return none
  if ctx.engine ≠ "sglang" then
    return some (ctx.engine ++ " multi-node deployment is not supported yet; use sglang for a node group")
  let world ← cardsUsed args
  if world % ctx.nodes ≠ 0 then
    let how ← shapeText args
    return some (toString world ++ " GPUs (" ++ how ++ ") do not divide across " ++ toString ctx.nodes ++
      " nodes; every node must get the same number of cards")
  return none

/-- `_check_expert_parallel_fits`. -/
def checkExpertParallelFits : Check F := fun args _ => do
  if !epKeys.any (dictHas args) then return none
  let ep ← firstInt args epKeys
  let world ← cardsUsed args
  if world < ep then
    let how ← shapeText args
    return some ("ep=" ++ toString ep ++ " exceeds the " ++ toString world ++
      " GPU(s) this config runs on (" ++ how ++ ")")
  return none

/-- `float(value)`: `none` where it is no number. -/
def floatOf : Json F → Except PyError (Option F)
  | .float x => .ok (some x)
  | .str s => .ok (PyRuntime.ofText s)
  | .int n =>
      match PyRuntime.ofInt n with
      | some x => .ok (some x)
      | none => .error .overflowError
  | .bool b => .ok (PyRuntime.ofInt (if b then 1 else 0))
  | _ => .ok none

/-- `_check_mem_fraction`. -/
def checkMemFraction : Check F := fun args _ =>
  match (dictGet args "mem_fraction_static").or (dictGet args "gpu_memory_utilization") with
  | none | some .null => .ok none
  | some raw =>
      (floatOf raw).map fun parsed =>
        match parsed with
        | none => some ("memory fraction " ++ raw.repr ++ " is not a number")
        | some frac =>
            if ((PyRuntime.ofText "0.1").any fun low => PyRuntime.le low frac) &&
                ((PyRuntime.ofText "0.99").any fun high => PyRuntime.le frac high) then none
            else some ("memory fraction " ++ PyRuntime.text frac ++ " outside sane range [0.1, 0.99]")

/-- `CHECKS`. -/
def checks : List (Check F) :=
  [checkEnvKeys, checkPositiveInts, checkDpAttentionDividesTp, checkParallelismFits,
    checkMultiNodeShape, checkExpertParallelFits, checkMemFraction]

/-- `validate_config`: the error of the first failed check. -/
def validateConfig (args : JsonDict F) (ctx : ValidationContext) : Except PyError (Option String) :=
  firstError (fun check : Check F => check args ctx) checks

/-! ## What a valid config is -/

theorem firstError_eq_none {α : Type} {check : α → Except PyError (Option String)} {l : List α}
    (h : firstError check l = .ok none) : ∀ a ∈ l, check a = .ok none := by
  induction l with
  | nil => simp
  | cons a rest ih =>
      simp only [firstError] at h
      split at h
      · rename_i hcheck
        intro b hb
        rcases List.mem_cons.mp hb with rfl | hb
        · exact hcheck
        · exact ih h b hb
      · rename_i hcheck
        exact absurd h hcheck

theorem firstInt_ok {args : JsonDict F} {keys : List String}
    (h : ∀ key ∈ keys, positiveInt args key = .ok none) : ∃ n, firstInt args keys = .ok n := by
  unfold firstInt
  cases hfirst : keys.findSome? (dictGet args) with
  | none => exact ⟨1, rfl⟩
  | some value =>
      rcases List.exists_of_findSome?_eq_some hfirst with ⟨key, hkey, hget⟩
      have hpos := h key hkey
      simp only [positiveInt, hget] at hpos
      cases hint : intOrNone value with
      | error e => simp [hint, Except.map] at hpos
      | ok parsed => exact ⟨parsed.getD 1, by simp [hint, Except.map]⟩

/-- The cards of a valid config can be counted. -/
theorem cardsUsed_ok {args : JsonDict F} {ctx : ValidationContext}
    (h : validateConfig args ctx = .ok none) : ∃ n, cardsUsed args = .ok n := by
  have hpos : checkPositiveInts args ctx = .ok none :=
    firstError_eq_none h checkPositiveInts (by simp [checks])
  have hkeys := firstError_eq_none hpos
  have htp : ∃ n, firstInt args tpKeys = .ok n := firstInt_ok fun key hkey => hkeys key (by simp [hkey])
  rcases htp with ⟨tp, htp⟩
  have hdp : ∃ n, firstInt args dpKeys = .ok n := firstInt_ok fun key hkey => hkeys key (by simp [hkey])
  rcases hdp with ⟨dp, hdp⟩
  have hpp : ∃ n, firstInt args ppKeys = .ok n := firstInt_ok fun key hkey => hkeys key (by simp [hkey])
  rcases hpp with ⟨pp, hpp⟩
  unfold cardsUsed
  rw [htp, hdp, hpp]
  simp only [bind, Except.bind, pure, Except.pure]
  split <;> exact ⟨_, rfl⟩

/-- A config uses at least one card. -/
theorem cardsUsed_pos {args : JsonDict F} {n : Int} (h : cardsUsed args = .ok n) : 0 < n := by
  have hmul : ∀ a b : Int, 0 < max 1 a * max 1 b := fun a b =>
    Int.mul_pos (by omega) (by omega)
  unfold cardsUsed at h
  simp only [bind, Except.bind] at h
  split at h
  · cases h
  rename_i tp _
  split at h
  · cases h
  rename_i dp _
  split at h
  · cases h
  rename_i pp _
  split at h
  · cases h
    exact hmul tp pp
  · cases h
    exact Int.mul_pos (hmul tp dp) (by omega)

/-- A config that passes on a machine with cards uses no more of them than there are. -/
theorem validateConfig_fits {args : JsonDict F} {ctx : ValidationContext}
    (h : validateConfig args ctx = .ok none) (hgpu : 0 < ctx.gpuCount) :
    ∃ n, cardsUsed args = .ok n ∧ n ≤ ctx.gpuCount := by
  rcases cardsUsed_ok h with ⟨n, hn⟩
  have hfits : checkParallelismFits args ctx = .ok none :=
    firstError_eq_none h checkParallelismFits (by simp [checks])
  unfold checkParallelismFits at hfits
  rw [if_neg (by omega), hn] at hfits
  simp only [bind, Except.bind] at hfits
  refine ⟨n, hn, ?_⟩
  by_cases hwide : ctx.gpuCount < n
  · rw [if_pos hwide] at hfits
    split at hfits <;> cases hfits
  · omega

/-- The cards of a config that passes for several nodes divide across them. -/
theorem validateConfig_divides {args : JsonDict F} {ctx : ValidationContext} {n : Int}
    (h : validateConfig args ctx = .ok none) (hnodes : 1 < ctx.nodes) (hn : cardsUsed args = .ok n) :
    n % ctx.nodes = 0 := by
  have hshape : checkMultiNodeShape args ctx = .ok none :=
    firstError_eq_none h checkMultiNodeShape (by simp [checks])
  unfold checkMultiNodeShape at hshape
  rw [if_neg (by omega), hn] at hshape
  simp only [bind, Except.bind] at hshape
  by_contra hdiv
  split at hshape
  · cases hshape
  · split at hshape <;> cases hshape

end Validation

end AutoTune
