import AutoTune.Lib.Extended
import AutoTune.Search.Space

/-!
# Objectives and their redlines

A target metric and limits a config must respect to count at all. A redline is judged by comparing the
metric with its limit as they stand; what cannot be compared crosses it.
-/

namespace AutoTune

open Lib

/-- `OPERATORS`. -/
inductive Operator where
  | le
  | lt
  | ge
  | gt
  | eq
  | ne
deriving DecidableEq, Repr

def Operator.ofText (s : String) : Option Operator :=
  if s = "<=" then some .le
  else if s = "<" then some .lt
  else if s = ">=" then some .ge
  else if s = ">" then some .gt
  else if s = "==" then some .eq
  else if s = "!=" then some .ne
  else none

mutual

/-- `a < b`, or `a <= b`; `none` for a TypeError. -/
def Value.before (orEqual : Bool) : Value → Value → Option Bool
  | .str s, .str t => some (if orEqual then s ≤ t else s < t)
  | .list items, .list others => Value.beforeItems orEqual items others
  | .null, _ => none
  | .dict _, _ => none
  | v, w =>
      match Value.number v, Value.number w with
      | some x, some y => some (if orEqual then x ≤ y else x < y)
      | _, _ => none

def Value.beforeItems (orEqual : Bool) : List Value → List Value → Option Bool
  | [], [] => some orEqual
  | [], _ :: _ => some true
  | _ :: _, [] => some false
  | v :: items, w :: others =>
      if Value.eq v w then Value.beforeItems orEqual items others else Value.before orEqual v w

end

/-- `compare(actual, limit)`. -/
def Operator.compare : Operator → Value → Value → Option Bool
  | .le, a, b => Value.before true a b
  | .lt, a, b => Value.before false a b
  | .ge, a, b => Value.before true b a
  | .gt, a, b => Value.before false b a
  | .eq, a, b => some (Value.eq a b)
  | .ne, a, b => some (!Value.eq a b)

/-! ## Results -/

/-- `RedlineResult`. -/
structure RedlineResult where
  metric : String
  op : String
  limit : Value
  actual : Value
  ok : Bool
  note : String := ""
  basis : String := ""

/-- A number, booleans included. -/
def Value.isNumber (v : Value) : Bool := (Value.number v).isSome

/-- `format(value, "g")`. -/
def Value.formatted (v : Value) : Except PyError String :=
  match v with
  | .str _ => .error (.valueError "Unknown format code 'g' for object of type 'str'")
  | v =>
      match Value.number v with
      | some x => .ok (formatG x)
      | none => .error .typeError

/-- `RedlineResult.describe`. -/
def RedlineResult.describe (r : RedlineResult) : Except PyError String :=
  if r.note ≠ "" then .ok (r.metric ++ ": " ++ r.note)
  else if r.basis ≠ "" ∧ r.actual.isNumber = true then do
    let actual ← r.actual.formatted
    let limit ← r.limit.formatted
    return r.metric ++ "=" ++ actual ++ " " ++ r.op ++ " " ++ limit ++ " (" ++ r.basis ++ ")"
  else
    match r.actual with
    | .null => .ok (r.metric ++ " missing (needed " ++ r.op ++ " " ++ r.limit.text ++ ")")
    | v =>
        if v.isNumber then do
          let actual ← v.formatted
          let limit ← r.limit.formatted
          return r.metric ++ "=" ++ actual ++ " " ++ r.op ++ " " ++ limit
        else .ok (r.metric ++ "=" ++ v.text ++ " " ++ r.op ++ " " ++ r.limit.text)

/-! ## Objectives -/

/-- `DEFAULT_TARGET`. -/
def defaultTarget : String := "perf_guidellm_sweep.output_tpm_card_norm"

/-- `metrics.get(name)`, where a list or a dictionary cannot be a key. -/
def metricAt (metrics : JsonDict ℚ) (name : Value) : Except PyError Value :=
  match name with
  | .str s => .ok ((dictGet metrics s).getD .null)
  | .list _ | .dict _ => .error .typeError
  | _ => .ok .null

/-- `target_metric`. -/
def targetMetric (objective : JsonDict ℚ) : Value :=
  match dictGet objective "target_metric" with
  | some v => if v.truthy then v else .str defaultTarget
  | none => .str defaultTarget

/-- `redlines`: the key before the rename is still read. -/
def redlines (objective : JsonDict ℚ) : Except PyError (List (JsonDict ℚ)) := do
  let declared ← Json.items (((dictGet objective "redlines").filter Json.truthy).or
    (dictGet objective "constraints"))
  declared.mapM fun item =>
    match item with
    | .dict d => .ok d
    | _ => .error .attributeError

/-- `metrics.get(metric) if metric else None`. -/
def actualOf (metrics : JsonDict ℚ) (metric : Value) : Except PyError Value :=
  if metric.truthy then metricAt metrics metric else .ok .null

/-- `OPERATORS.get(op)`. -/
def comparison : Value → Except PyError (Option Operator)
  | .str s => .ok (Operator.ofText s)
  | .list _ | .dict _ => .error .typeError
  | _ => .ok none

/-- A redline that is not relative, with what was measured. -/
def judgeRedline (redline : JsonDict ℚ) (metric op limit actual : Value) : Option Operator → RedlineResult
  | none => { metric := metric.text, op := op.text, limit := limit, actual := actual, ok := false }
  | some compare =>
      match metric, limit with
      | .null, _ | _, .null =>
          { metric := metric.text, op := op.text, limit := limit, actual := actual, ok := false }
      | metric, limit =>
          { metric := metric.text, op := op.text, limit := limit, actual := actual
            ok := match actual with
              | .null => false
              | actual => (compare.compare actual limit).getD false
            basis := match (dictGet redline "basis").filter Json.truthy with
              | some basis => basis.text
              | none => "" }

/-- One redline of `evaluate_redlines`. -/
def evaluateRedline (metrics redline : JsonDict ℚ) : Except PyError RedlineResult :=
  let metric := (dictGet redline "metric").getD .null
  let op := (dictGet redline "op").getD (.str "<=")
  let limit := (dictGet redline "value").getD .null
  match (dictGet redline "relative_to").filter Json.truthy with
  | some basis =>
      (if metrics.isEmpty then .ok .null else actualOf metrics metric).map fun actual =>
        { metric := metric.text, op := op.text, limit := .null, actual := actual, ok := false
          note := "no " ++ basis.text ++ " score to compare with yet" }
  | none =>
      (actualOf metrics metric).bind fun actual =>
        (comparison op).map (judgeRedline redline metric op limit actual)

/-- `evaluate_redlines`. -/
def evaluateRedlines (objective metrics : JsonDict ℚ) : Except PyError (List RedlineResult) := do
  (← redlines objective).mapM (evaluateRedline metrics)

end AutoTune
