import AutoTune.Measures.Adapters
import AutoTune.Measures.Refs

/-!
# Reading a run by name

A run's flat metrics are grouped by module, each module becomes a scenario, and a reference is read from
the scenario it names or from the main one. An objective is judged against the scenarios that the modules
of its benchmark would have.
-/

namespace AutoTune

open Lib

/-- The settings that name modules. -/
structure LlmbenchSettings where
  replayModule : String := "replay"
  moduleFamilies : List (String × String) := []

/-- How the modules of a run are recognized. -/
def LlmbenchSettings.measured (settings : LlmbenchSettings) : ModuleFamilies where
  replayNames := if settings.replayModule = "" then [] else [settings.replayModule]
  aliases := settings.moduleFamilies

/-- How the modules of a benchmark are recognized. -/
def LlmbenchSettings.declared (settings : LlmbenchSettings) : ModuleFamilies where
  replayNames := [settings.replayModule]
  aliases := settings.moduleFamilies

/-! ## Scenarios of a run -/

/-- `_SUBMISSION_KEYS`. -/
def submissionKeys : List String := ["score_total"]

/-- One key of a run's metrics, filed under its module. -/
def splitEntry (out : List (String × RawMetrics)) (entry : String × Value) : List (String × RawMetrics) :=
  if entry.1 ∈ submissionKeys ∨ hasChar entry.1 '.' = false then out
  else
    let (module, rest) := partitionAt '.' entry.1
    dictSet out module (dictSet ((dictGet out module).getD []) rest entry.2)

/-- `_split`. -/
def splitMetrics (metrics : RawMetrics) : List (String × RawMetrics) := metrics.foldl splitEntry []

/-- The module a report is of: its instance key. -/
def reportKey (report : JsonDict ℚ) : String :=
  (((dictGet report "module").filter Json.truthy).or
    ((dictGet report "module_name").filter Json.truthy)).elim "" Json.text

/-- The params of a report. -/
def reportParams (report : JsonDict ℚ) : RawMetrics :=
  match dictGet report "params" with
  | some (.dict params) => params
  | _ => []

/-- `params_by_key`. -/
def paramsByKey (reports : List (JsonDict ℚ)) : List (String × RawMetrics) :=
  reports.foldl (fun out report => dictSet out (reportKey report) (reportParams report)) []

/-- `measures_of`. -/
def measuresOf (m : ModuleFamilies) (metrics : RawMetrics) (reports : List (JsonDict ℚ)) (cards : Option ℚ) :
    List Scenario :=
  (splitMetrics metrics).map fun e => adapt m e.1 e.2 ((dictGet (paramsByKey reports) e.1).getD []) cards

/-- `main_scenario`. -/
def mainScenario (scenarios : List Scenario) (wanted : Option String) : Option Scenario :=
  match wanted.filter fun w => w ≠ "" with
  | some wanted => scenarios.find? fun s => s.key = wanted
  | none => (scenarios.find? Scenario.isThroughput).or scenarios.head?

/-- What a point of a scenario holds under a reference. -/
def Scenario.read (sc : Scenario) (ref : MeasureRef) : Option ℚ :=
  dictGet ((dictGet sc.points ((ref.point.filter fun p => p ≠ "").getD "operating")).getD []) ref.key

/-- `resolve`. -/
def resolve (ref : MeasureRef) (scenarios : List Scenario) : Option ℚ :=
  (mainScenario scenarios ref.scenario).bind fun sc => sc.read ref

/-- `value`, of the scenarios and the stored metrics. -/
def value (name : String) (scenarios : List Scenario) (metrics : RawMetrics) : Except RefError (Option Value) :=
  if isMeasureRef name then
    (parse name).map fun ref => (resolve ref scenarios).map Json.float
  else .ok (dictGet metrics name)

/-- `Reader`: one run's numbers by name. -/
structure Reader where
  metrics : RawMetrics
  reports : List (JsonDict ℚ) := []
  cards : Option ℚ := none

/-- `Reader.scenarios`. -/
def Reader.scenarios (settings : LlmbenchSettings) (r : Reader) : List Scenario :=
  measuresOf settings.measured r.metrics r.reports r.cards

/-- `Reader.get`. -/
def Reader.get (settings : LlmbenchSettings) (r : Reader) (name : String) (default : Value) : Value :=
  if isMeasureRef name then
    match parse name with
    | .error _ => default
    | .ok ref =>
        match resolve ref (r.scenarios settings) with
        | some found => .float found
        | none => default
  else (dictGet r.metrics name).getD default

/-! ## What a benchmark can report -/

/-- The loop of `instance_keys`; `seen` counts the runs of each module. -/
def instanceKeysFrom : List (String × Nat) → List String → List String
  | _, [] => []
  | seen, name :: names =>
      let nth := (dictGet seen name).getD 0 + 1
      (if nth = 1 then name else name ++ "#" ++ toString nth) :: instanceKeysFrom (dictSet seen name nth) names

/-- `instance_keys`: one key for each module run. -/
def instanceKeys (names : List String) : List String := instanceKeysFrom [] names

/-- The scenarios a benchmark would have, judged by a run that reports nothing. -/
def declaredScenarios (settings : LlmbenchSettings) (modules : List String) : List Scenario :=
  (instanceKeys modules).map fun key => adapt settings.declared key [] [] none

/-- `problem_with`: why a benchmark can never report a name. -/
def problemWith (settings : LlmbenchSettings) (name : String) (modules : List String) : Option String :=
  if isMeasureRef name then
    match parse name with
    | .error e => some e.message
    | .ok ref =>
        match mainScenario (declaredScenarios settings modules) ref.scenario with
        | none =>
            match ref.scenario.filter fun s => s ≠ "" with
            | some wanted => some ("no module " ++ wanted ++ " in this benchmark")
            | none => some "this benchmark runs no modules"
        | some sc =>
            match ref.point.filter fun p => p ≠ "" with
            | some point =>
                if sc.kind ≠ .sweep then some (sc.key ++ " is not a sweep, so it has no point " ++ point)
                else if ref.key ∉ sc.supports then some (sc.key ++ " never reports " ++ ref.key)
                else none
            | none => if ref.key ∉ sc.supports then some (sc.key ++ " never reports " ++ ref.key) else none
  else none

end AutoTune
