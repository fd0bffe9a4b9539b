import AutoTune.Evaluation.Objective

/-!
# Results reduced to a number and a verdict

`summarize` turns a run's metrics into the value it is ranked by, a slack for each redline and whether it
counts. A slack is the signed distance from the limit, at most 0 inside; what has no distance is
infinitely far outside.
-/

namespace AutoTune

open Lib

/-- `_SLACK_SIGN`: whether the sign is negative. -/
def slackSign (op : String) : Option Bool :=
  if op = "<=" ∨ op = "<" then some false
  else if op = ">=" ∨ op = ">" then some true
  else none

/-- `_numeric`. -/
def numericOf : Value → Option Extended
  | .bool _ => none
  | .null => none
  | .int n => some (.finite n)
  | .float x => some (.finite x)
  | v => extendedOfText (strip v.text)

/-- `_slack`. -/
def slackOf (op : String) (actual limit : Value) : Extended :=
  match slackSign op, numericOf actual, numericOf limit with
  | some negative, some a, some b => if negative then (a.sub b).neg else a.sub b
  | _, _, _ => Extended.inf

def RedlineResult.slack (r : RedlineResult) : Extended := slackOf r.op r.actual r.limit

/-- `ResultSummary`. -/
structure ResultSummary where
  objectiveValue : Option Extended
  feasible : Bool
  constraints : List Extended := []
  breaches : List String := []

/-- What `ResultSummary.as_dict` stores; `none` is the null of a slack that is not finite. -/
structure StoredSummary where
  objectiveValue : Option Extended
  feasible : Bool
  constraints : List (Option ℚ)
  breaches : List String

/-- `ResultSummary.as_dict`. -/
def ResultSummary.asDict (s : ResultSummary) : StoredSummary where
  objectiveValue := s.objectiveValue
  feasible := s.feasible
  constraints := s.constraints.map Extended.finite?
  breaches := s.breaches

/-- `constraints_from_stored`. -/
def constraintsFromStored (stored : List (Option ℚ)) : List Extended :=
  stored.map fun c =>
    match c with
    | some x => .finite x
    | none => Extended.inf

/-- `summarize`. -/
def summarize (objective metrics : JsonDict ℚ) : Except PyError ResultSummary := do
  let value := numericOf (← metricAt metrics (targetMetric objective))
  let results ← evaluateRedlines objective metrics
  let crossed ← (results.filter fun r => !r.ok).mapM RedlineResult.describe
  return { objectiveValue := value, feasible := crossed.isEmpty && value.isSome
           constraints := results.map RedlineResult.slack, breaches := crossed }

end AutoTune
