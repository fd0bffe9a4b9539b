import AutoTune.Evaluation.Objective
import AutoTune.Lib.PosixPath
import AutoTune.Measures.Refs

/-!
# The gate of a report

A report judges a scenario's levels by a gate: one bound on a percentile of the time to first token and a floor
under the rate of a request, read from the objective's redlines. A level is a point of a sweep with its own
numbers.
-/

namespace AutoTune

open Lib

/-! ## Objectives -/

/-- A redline of a stored objective. An operator or a limit may be missing, `relativeTo` is empty where the
limit is absolute. -/
structure Redline where
  metric : String
  op : Option String := some "<="
  value : Option ℚ
  relativeTo : String := ""
deriving DecidableEq, Repr

/-- The entries of a redline as they are stored. -/
def Redline.entries (r : Redline) : JsonDict ℚ :=
  [("metric", .str r.metric)] ++ (r.op.map fun op => ("op", Json.str op)).toList ++
    (r.value.map fun v => ("value", Json.float v)).toList ++
    (if r.relativeTo = "" then [] else [("relative_to", .str r.relativeTo)])

/-- The redlines of an objective, under the key of today and the one before the rename. -/
structure RedlineLists where
  redlines : List Redline := []
  constraints : List Redline := []
deriving DecidableEq, Repr

def RedlineLists.entries (o : RedlineLists) : JsonDict ℚ :=
  [("redlines", .list (o.redlines.map fun r => .dict r.entries)),
    ("constraints", .list (o.constraints.map fun r => .dict r.entries))]

/-- What `redlines` finds. -/
def RedlineLists.declared (o : RedlineLists) : List Redline :=
  if o.redlines = [] then o.constraints else o.redlines

/-- A reader that takes maps as they are reads the redlines' entries back. -/
theorem mapM_redlineEntries {read : Json ℚ → Except PyError (JsonDict ℚ)} (h : ∀ d, read (.dict d) = .ok d)
    (l : List Redline) : (l.map fun r => Json.dict r.entries).mapM read = .ok (l.map Redline.entries) := by
  induction l with
  | nil => rfl
  | cons r l ih =>
      rw [List.map_cons, List.mapM_cons, ih, h]
      rfl

theorem redlines_entries (o : RedlineLists) :
    redlines o.entries = .ok (o.declared.map Redline.entries) := by
  have hitems : Json.items (((dictGet o.entries "redlines").filter Json.truthy).or
      (dictGet o.entries "constraints")) = .ok (o.declared.map fun r => Json.dict r.entries) := by
    unfold RedlineLists.declared RedlineLists.entries
    cases o.redlines with
    | nil => rfl
    | cons r l => rfl
  unfold redlines
  rw [hitems]
  exact mapM_redlineEntries (fun _ => rfl) o.declared

/-! ## What a redline is about -/

/-- The percentiles a TTFT is reported at. -/
inductive Percentile where
  | p50
  | p90
  | p99
deriving DecidableEq, Repr

def Percentile.rank : Percentile → Nat
  | p50 => 50
  | p90 => 90
  | p99 => 99

/-- `TTFT_SUFFIXES` and `REQUEST_TPS_SUFFIX`. -/
inductive Leaf where
  | ttft (p : Percentile)
  | requestOutputTps
deriving DecidableEq, Repr

/-- The leaf of a raw key. -/
def leafOfKey (leaf : String) : Option Leaf :=
  if leaf = "ttft_p50_ms" then some (.ttft .p50)
  else if leaf = "ttft_p90_ms" then some (.ttft .p90)
  else if leaf = "ttft_p99_ms" then some (.ttft .p99)
  else if leaf = "request_output_tps" then some .requestOutputTps
  else none

/-- The leaf a reference stands for. -/
def leafOfRef (ref : MeasureRef) : Option Leaf :=
  if ref.point.getD "" ≠ "" ∨ ref.qualifier.getD "" ≠ "" then none
  else if ref.measure = "ttft_ms" then
    if ref.stat = some "p50" then some (.ttft .p50)
    else if ref.stat = some "p90" then some (.ttft .p90)
    else if ref.stat = some "p99" then some (.ttft .p99)
    else none
  else if ref.measure = "request_output_tps" ∧ ref.stat = some "mean" then some .requestOutputTps
  else none

/-- `_measure_leaf`. -/
def measureLeaf (metric : String) : Option Leaf :=
  if isMeasureRef metric then (parse metric).toOption.bind leafOfRef else none

/-- The leaf of a redline's metric, as a gate reads it. -/
def leafOf (metric : String) : Option Leaf := (measureLeaf metric).or (leafOfKey (lastPiece '.' metric))

/-! ## Gates -/

/-- `Gate`. -/
structure Gate where
  ttftMs : ℚ := 0
  ttftPercentile : Percentile := .p50
  minRequestOutputTps : ℚ := 0
deriving DecidableEq, Repr

/-- One turn of `from_objective`. A limit that is missing is no number. -/
def Gate.read (g : Gate) (r : Redline) : Gate :=
  match leafOf r.metric, r.value with
  | some (.ttft p), some number =>
      if (r.op = some "<=" ∨ r.op = some "<") ∧ (g.ttftMs = 0 ∨ number < g.ttftMs) then
        { g with ttftMs := number, ttftPercentile := p }
      else g
  | some .requestOutputTps, some number =>
      if r.op = some ">=" ∨ r.op = some ">" then
        { g with minRequestOutputTps := max g.minRequestOutputTps number }
      else g
  | _, _ => g

/-- `Gate.from_objective`. -/
def Gate.fromObjective (o : RedlineLists) : Option Gate :=
  let g := o.redlines.foldl Gate.read {}
  if g.ttftMs = 0 ∧ g.minRequestOutputTps = 0 then none else some g

/-! ## Levels -/

/-- What a level of a scenario measured: a higher percentile is no lower. -/
structure Level where
  ttft : Percentile → ℚ
  rate : ℚ
  monotone : ttft .p50 ≤ ttft .p90 ∧ ttft .p90 ≤ ttft .p99

/-- `_meets`, of a level that carries no verdict of its own. -/
def Gate.passes (g : Gate) (level : Level) : Bool :=
  if g.ttftMs ≠ 0 ∧ g.ttftMs < level.ttft g.ttftPercentile then false
  else !(g.minRequestOutputTps ≠ 0 && level.rate < g.minRequestOutputTps)

def Level.at (level : Level) : Leaf → ℚ
  | .ttft p => level.ttft p
  | .requestOutputTps => level.rate

end AutoTune
