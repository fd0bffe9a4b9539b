import AutoTune.Evaluation.Objective
import AutoTune.Supervisor.Finishing
import Mathlib.Data.List.MinMax
import Mathlib.Data.Prod.Lex
import Mathlib.Order.Fin.Basic

/-!
# Who is winning

The board ranks the measured runs of a campaign against production. The reference of a stage is the mean
of production's measurements on the card most of them ran on; a run on another card has no ratio to it.
Scores are exact.
-/

namespace AutoTune

open Lib

/-! ## Cards -/

/-- `GPU_TYPES`. -/
def gpuTypes : List String :=
  ["A100", "A800", "H100", "H800", "H200", "H20", "B200", "B300", "ASCEND-910B4-1"]

/-- `s.upper()` on ASCII letters. -/
def upperAscii (cs : List Char) : List Char :=
  cs.map fun c => if 'a'.toNat ≤ c.toNat ∧ c.toNat ≤ 'z'.toNat then Char.ofNat (c.toNat - 32) else c

/-- `s.replace(old, new)` from left to right; `skip` characters belong to the last match. -/
def replaceText (old new : List Char) : Nat → List Char → List Char
  | _, [] => []
  | skip + 1, _ :: cs => replaceText old new skip cs
  | 0, c :: cs =>
      if old.isPrefixOf (c :: cs) then new ++ replaceText old new (old.length - 1) cs
      else c :: replaceText old new 0 cs

/-- `[A-Z0-9]`. -/
def isCardChar (c : Char) : Bool := ('A' ≤ c && c ≤ 'Z') || ('0' ≤ c && c ≤ '9')

/-- Does a word stand in the text, with no letter or digit next to it? -/
def standsIn (word : List Char) : Option Char → List Char → Bool
  | _, [] => false
  | before, c :: cs =>
      (word.isPrefixOf (c :: cs) && !before.any isCardChar &&
        !((c :: cs).drop word.length).head?.any isCardChar) || standsIn word (some c) cs

/-- `normalize_gpu_type`. -/
@[irreducible] def normalizeGpuType (raw : String) : String :=
  let s := replaceText ['_'] ['-'] 0 (replaceText "NVIDIA ".toList [] 0
    (replaceText "NVIDIA-".toList [] 0 (upperAscii raw.toList)))
  if ["910B4-1", "ASCEND910B4-1", "ASCEND 910B4-1", "HUAWEI-ASCEND910B4-1"].contains (String.ofList s) then
    "ASCEND-910B4-1"
  else (gpuTypes.find? fun gpu => standsIn gpu.toList none s).getD ""

/-! ## Rows -/

/-- A run, with what `env_snapshot` says of its card and of its machine's. -/
structure BoardRun where
  id : RunId
  cardType : String := ""
  machineGpuType : String := ""
deriving DecidableEq, Repr

/-- `card_type_of`. -/
def BoardRun.card (r : BoardRun) : String :=
  normalizeGpuType (if r.cardType ≠ "" then r.cardType else r.machineGpuType)

/-- A result; `value` and `breaches` are what `summary_of` makes of it. -/
structure BoardResult where
  value : Option ℚ := none
  breaches : List String := []
  score : Option ℚ := none
  metrics : JsonDict ℚ := []

/-- `_score`. -/
def BoardResult.boardScore (r : BoardResult) : Option ℚ := r.value.or r.score

structure BoardRow where
  run : BoardRun
  candidate : PipelineCandidate
  result : BoardResult

/-- What the campaign says about its measurements. `minimize` and `verifyMinimize` are the directions of
the objectives its two stages are judged by, `targetMetric` and `verifyTargetMetric` their targets. -/
structure BoardCampaign where
  recipe : Bool := false
  policyId : Option Nat := none
  space : SearchSpace := {}
  minimize : Bool := false
  verifyMinimize : Bool := false
  targetMetric : String := ""
  verifyTargetMetric : String := ""
  datasetProfile : String := ""
  datasetBuildId : String := ""
  datasetSha256 : String := ""

/-- `SCREEN` and `VERIFY`. -/
inductive Stage where
  | screen
  | verify
deriving DecidableEq, Repr

/-- `stage_of`. -/
def BoardRow.stage (row : BoardRow) : Stage := if row.candidate.verifies then .verify else .screen

def BoardRow.card (row : BoardRow) : String := row.run.card

def BoardRow.score (row : BoardRow) : Option ℚ := row.result.boardScore

def BoardCampaign.minimizes (c : BoardCampaign) : Stage → Bool
  | .screen => c.minimize
  | .verify => c.verifyMinimize

/-! ## Datasets -/

/-- `same_dataset`: hashes are compared on the shorter of the two. -/
def sameDataset (pinned reported : String) : Bool :=
  if pinned = "" ∨ reported = "" then false
  else
    let n := min pinned.length reported.length
    takeText n pinned = takeText n reported

/-- `dataset_of`. -/
def datasetOf (metrics : JsonDict ℚ) : Option (String × String) :=
  let text := fun key => match (dictGet metrics key).filter Json.truthy with
    | some v => v.text
    | none => ""
  let buildId := text "replay.dataset_id"
  let sha := text "replay.dataset_sha256"
  if buildId = "" ∧ sha = "" then none else some (buildId, sha)

/-- `comparable`. -/
def BoardCampaign.comparable (c : BoardCampaign) (metrics : JsonDict ℚ) : Bool :=
  if c.datasetProfile = "" ∨ c.datasetBuildId = "" then true
  else
    match datasetOf metrics with
    | none => true
    | some (buildId, sha) =>
        sameDataset c.datasetSha256 sha || (sha = "" && buildId = c.datasetBuildId)

/-! ## Production -/

/-- `a == b` of two configs. -/
def Config.same (a b : Config) : Bool := Value.eq (.dict a.entries) (.dict b.entries)

section

variable (c : BoardCampaign)

/-- `_production_configs`. -/
def productionConfigs (rows : List BoardRow) : List Config :=
  let configs := (rows.filter fun row => row.candidate.anyBaseline &&
      (!row.candidate.config.entries.isEmpty || c.recipe) &&
      !row.candidate.config.has baselineConfigKey).map fun row => row.candidate.config
  if configs.isEmpty && c.policyId.isSome && (!c.space.base.entries.isEmpty || c.recipe) then
    [pruneInactive c.space.base c.space]
  else configs

/-- `_is_baseline`: a search measures production too, under production's own config. -/
def isBaseline (production : List Config) (row : BoardRow) : Bool :=
  row.candidate.anyBaseline ||
    (row.stage ≠ .verify && production.any fun p => Config.same row.candidate.config p)

/-- What a row measures of production in a stage: a value and the card it was taken on. -/
def measuredValue (production : List Config) (stage : Stage) (row : BoardRow) : Option (ℚ × String) :=
  if isBaseline production row && row.stage = stage then
    (row.score.filter fun value => value ≠ 0).map fun value => (value, row.card)
  else none

/-- `measured` of one stage. -/
def measured (rows : List BoardRow) (stage : Stage) : List (ℚ × String) :=
  rows.filterMap (measuredValue (productionConfigs c rows) stage)

/-- `max(dict.fromkeys(cards), key=cards.count)`: the first of the cards that most were taken on. -/
def referenceCard (values : List (ℚ × String)) : Option String :=
  let cards := values.map Prod.snd
  cards.argmax fun card => cards.count card

/-- The mean of the values on one card. -/
def meanOn (values : List (ℚ × String)) (card : String) : ℚ :=
  let same := (values.filter fun v => v.2 = card).map Prod.fst
  same.sum / same.length

/-- `baseline_card_by_stage` and `baseline_by_stage` of one stage. -/
def reference (rows : List BoardRow) (stage : Stage) : Option (String × ℚ) :=
  (referenceCard (measured c rows stage)).map fun card => (card, meanOn (measured c rows stage) card)

/-! ## The board -/

/-- `LeaderboardEntry`. -/
structure LeaderboardEntry where
  runId : RunId
  config : Config
  score : Option ℚ
  metrics : JsonDict ℚ
  holdsRedlines : Bool
  breaches : List String
  stage : Stage
  targetMetric : String
  comparable : Bool
  datasetBuildId : String
  vsBaseline : Option ℚ
  isBaseline : Bool
  cardType : String

/-- Are these two known cards, and different ones? -/
def otherCard (ref card : String) : Bool := card ≠ "" && ref ≠ "" && card ≠ ref

/-- Was a run taken on another card than the reference of its stage? -/
def offCard (reference : Option (String × ℚ)) (card : String) : Bool :=
  reference.any fun r => otherCard r.1 card

/-- The entry of a row, given what is production and what the references are. -/
def entryOf (production : List Config) (references : Stage → Option (String × ℚ)) (row : BoardRow) :
    LeaderboardEntry where
  runId := row.run.id
  config := row.candidate.config
  score := row.score
  metrics := row.result.metrics
  holdsRedlines := row.result.breaches.isEmpty
  breaches := row.result.breaches
  stage := row.stage
  targetMetric := match row.stage with
    | .screen => c.targetMetric
    | .verify => c.verifyTargetMetric
  comparable := c.comparable row.result.metrics
  datasetBuildId := ((datasetOf row.result.metrics).map Prod.fst).getD ""
  vsBaseline :=
    match (references row.stage).filter fun r => !offCard (some r) row.card, row.score with
    | some (_, mean), some score => if mean = 0 then none else some (score / mean)
    | _, _ => none
  isBaseline := isBaseline production row
  cardType := row.card

/-- `sort_key`: a missing value sinks, a smaller key is better. -/
def scoreKey (minimize : Bool) (value : Option ℚ) : Bool ×ₗ ℚ :=
  match value with
  | none => toLex (true, 0)
  | some x => toLex (false, if minimize then x else -x)

/-- What the board sorts by, the outermost first. -/
abbrev BoardKey := Bool ×ₗ Bool ×ₗ Bool ×ₗ Bool ×ₗ Bool ×ₗ ℚ

def boardKey (references : Stage → Option (String × ℚ)) (e : LeaderboardEntry) : BoardKey :=
  toLex (decide (e.stage ≠ .verify), toLex (!e.comparable,
    toLex (offCard (references e.stage) e.cardType, toLex (!e.holdsRedlines,
      scoreKey (c.minimizes e.stage) (e.vsBaseline.or e.score)))))

/-- The entries with their sort keys, in the order of the board. -/
def keyedBoard (rows : List BoardRow) : List (BoardKey × LeaderboardEntry) :=
  ((rows.map (entryOf c (productionConfigs c rows) (reference c rows))).map fun e =>
    (boardKey c (reference c rows) e, e)).insertionSort fun a b => a.1 ≤ b.1

/-- `leaderboard_entries`. -/
def leaderboardEntries (rows : List BoardRow) : List LeaderboardEntry :=
  (keyedBoard c rows).map Prod.snd

end

/-- `winner`: the top of the board, production's own rows skipped. -/
def winner (entries : List LeaderboardEntry) : Option LeaderboardEntry :=
  entries.find? fun e => !e.isBaseline

end AutoTune
