import AutoTune.Catalog.Mounts

/-!
# The categories of environment variables

An export keeps the variables that tune the engine and leaves out those that name the platform's own settings,
credentials or the site. Some are told by their name alone, others by what their value looks like.
-/

namespace AutoTune

open Lib

/-- `ENV_CATEGORIES`. -/
inductive EnvCategory where
  | recipe
  | site
  | secret
  | platform
  | unknown
deriving DecidableEq, Repr

/-- The category a caller names, where it is one. -/
def EnvCategory.ofName : String → Option EnvCategory
  | "recipe" => some .recipe
  | "site" => some .site
  | "secret" => some .secret
  | "platform" => some .platform
  | "unknown" => some .unknown
  | _ => none

/-- `ENV_ACTIONS`: is a variable of the category kept? -/
def EnvCategory.kept : EnvCategory → Bool
  | .recipe | .unknown => true
  | .site | .secret | .platform => false

/-! ## Names -/

/-- A letter whatever its case, as `re.I` compares the letters of these patterns. -/
def foldCase (c : Char) : Char :=
  if c.toNat = 0x17f then 's' else if c.toNat = 0x212a then 'k' else foldLetter c

def folded (text : String) : List Char := text.toList.map foldCase

/-- `PLATFORM_ENV`. -/
def platformEnv : List String := ["CUDA_VISIBLE_DEVICES", "NVIDIA_VISIBLE_DEVICES", "HIP_VISIBLE_DEVICES"]

/-- The words of `SECRET_ENV`. -/
def secretWords : List String := ["token", "secret", "password", "passwd", "api_key", "access_key", "credential"]

/-- `SECRET_ENV.search`. -/
def isSecretName (name : String) : Bool :=
  secretWords.any fun word => (folded name).tails.any fun rest => word.toList.isPrefixOf rest

/-- `SITE_ENV`. -/
def siteEnv : List String :=
  ["NCCL_SOCKET_IFNAME", "GLOO_SOCKET_IFNAME", "TP_SOCKET_IFNAME", "NCCL_SOCKET_FAMILY", "NCCL_IB_HCA",
    "NCCL_IB_GID_INDEX", "NCCL_IB_DISABLE", "NCCL_IB_TC", "NCCL_IB_SL", "NCCL_NET_GDR_LEVEL", "NCCL_NET",
    "NCCL_TOPO_FILE", "LD_LIBRARY_PATH", "PATH", "HF_ENDPOINT", "HF_HOME", "HF_HUB_CACHE", "HF_HUB_OFFLINE",
    "TRANSFORMERS_OFFLINE", "HF_DATASETS_OFFLINE", "MODELSCOPE_CACHE"]

/-- `SITE_ENV_PATTERN.search`; the `$` behind `PROXY` also stands before a newline. -/
def isSiteName (name : String) : Bool :=
  let text := folded name
  let isProxy := fun text : List Char => text = "proxy".toList || "_proxy".toList.isSuffixOf text
  (["mooncake_", "mc_", "kubernetes_"].any fun start => start.toList.isPrefixOf text) ||
    isProxy text || isProxy (withoutNewline text)

/-- The beginnings of `RECIPE_ENV_PATTERN`. -/
def recipeStarts : List String :=
  ["SGLANG_", "VLLM_", "TORCHINDUCTOR_", "TORCH_", "PYTORCH_", "CUDA_", "NCCL_", "FLASHINFER_", "TRITON_", "DG_",
    "DEEPEP_", "NVSHMEM_", "SAFETENSORS_"]

/-- Its whole names. -/
def recipeNames : List String :=
  ["OMP_NUM_THREADS", "PYTHONHASHSEED", "TOKENIZERS_PARALLELISM", "NVIDIA_DISABLE_REQUIRE"]

/-- `RECIPE_ENV_PATTERN.search`. -/
def isRecipeName (name : String) : Bool :=
  (recipeStarts.any fun start => startsWith name start) ||
    recipeNames.contains (String.ofList (withoutNewline name.toList))

/-! ## Values -/

section Values

variable (isWord : Char → Bool)

/-- One to three digits, and what is behind them: no pattern below has a digit there. -/
def readOctet (text : List Char) : Option (List Char) :=
  let digits := text.takeWhile fun c => (digitValue c).isSome
  if 1 ≤ digits.length ∧ digits.length ≤ 3 then some (text.drop digits.length) else none

/-- The same behind a dot. -/
def readDotOctet : List Char → Option (List Char)
  | '.' :: text => readOctet text
  | _ => none

/-- Four of them with dots between, and no word character behind. -/
def startsAddress (text : List Char) : Bool :=
  ((((readOctet text).bind readDotOctet).bind readDotOctet).bind readDotOctet).any fun rest => !rest.head?.any isWord

/-- A letter, as `re.I` compares `[a-z]`. -/
def isFoldedLetter (c : Char) : Bool := 'a' ≤ foldCase c && foldCase c ≤ 'z'

/-- A letter, more of `[a-z0-9+.-]`, and `://`. -/
def startsScheme : List Char → Bool
  | c :: text =>
      isFoldedLetter c && "://".toList.isPrefixOf
        (text.dropWhile fun c => isFoldedLetter c || ('0' ≤ c && c ≤ '9') || c == '+' || c == '.' || c == '-')
  | [] => false

/-- `_ADDRESS.search` from a place in the text; `before` says whether a word character stands before it. -/
def addressFrom : Bool → List Char → Bool
  | _, [] => false
  | before, c :: text =>
      (!before && startsAddress isWord (c :: text)) || startsScheme (c :: text) || addressFrom (isWord c) text

/-- `_ADDRESS.search`. -/
def hasAddress (value : String) : Bool := addressFrom isWord false value.toList

/-- `classify_env`. -/
def classifyEnv (overrides : Dict String) (name value : String) (provided : List String) : EnvCategory × String :=
  match (overrides.get? name).bind EnvCategory.ofName with
  | some given => (given, "set by you")
  | none =>
      if platformEnv.contains name then (.platform, "set per run")
      else if isSecretName name then (.secret, "a credential")
      else if siteEnv.contains name || isSiteName name then (.site, "specific to this cluster")
      else if hasAddress isWord value then (.site, "an address")
      else if (pathsOf isWord value).any fun p => !provided.any fun root => underRoot p root then
        (.site, "a path on this machine")
      else if isRecipeName name then (.recipe, "engine setting")
      else (.unknown, "not recognized")

/-- The name alone puts a variable into a category that is left out, and no caller has settled it. -/
def hiddenByName (overrides : Dict String) (name : String) : Bool :=
  ((overrides.get? name).bind EnvCategory.ofName).isNone &&
    (platformEnv.contains name || isSecretName name || siteEnv.contains name || isSiteName name)

/-- Such a variable is left out whatever its value. -/
theorem classifyEnv_hidden {overrides : Dict String} {name : String} (h : hiddenByName overrides name = true)
    (value : String) (provided : List String) : (classifyEnv isWord overrides name value provided).1.kept = false := by
  unfold hiddenByName at h
  rw [Bool.and_eq_true, Option.isNone_iff_eq_none] at h
  rcases h with ⟨hnone, hname⟩
  unfold classifyEnv
  rw [hnone]
  dsimp only
  split
  · rfl
  rename_i hplatform
  split
  · rfl
  rename_i hsecret
  have hsite : (siteEnv.contains name || isSiteName name) = true := by
    rw [Bool.not_eq_true] at hplatform hsecret
    rw [hplatform, hsecret, Bool.false_or, Bool.false_or] at hname
    exact hname
  rw [if_pos hsite]
  rfl

end Values

end AutoTune
