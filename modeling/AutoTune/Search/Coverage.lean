import AutoTune.Search.Counting

/-!
# What a session has covered

Coverage compares two sets of hashes: the ones the space expands to, and the ones the session's trials
were recorded under.
-/

namespace AutoTune

open Lib

/-- `MAX_REMAINING`. -/
def maxRemaining : Nat := 200

/-- A trial, as coverage reads it: its `config_hash` and its config. -/
abbrev TrialPoint := String × Config

/-- `AxisValueCoverage`. -/
structure AxisValueCoverage where
  value : Value
  covered : Bool
  trials : Nat

/-- `AxisCoverage`. -/
structure AxisCoverage where
  param : String
  values : List AxisValueCoverage
  covered : Nat
  total : Nat

/-- `SpaceCoverage`, without what the policy itself declares. -/
structure SpaceCoverage where
  enumerable : Bool
  cellsTotal : Option Nat
  cellsCovered : Nat
  offSpace : Nat
  remaining : List Config
  axes : List AxisCoverage

/-- The values not listed before, by `==`. -/
def appendNew (listed values : List Value) : List Value :=
  values.foldl (fun listed v => if listed.any fun w => Value.eq v w then listed else listed ++ [v]) listed

/-- `_project`. -/
def project (config : Config) (keys : List String) : Config :=
  .ofEntries (keys.filterMap fun k => (config.get? k).map fun v => (k, v))

namespace SearchSpace

variable (space : SearchSpace)

/-- `_declared_values`. -/
def coverageValues : Dict (List Value) :=
  let columns := space.gridValues.entries ++ space.tiedGroups.flatMap (fun group => group.entries) ++
    space.rangeSpecs.map fun r => (r.name, r.values)
  columns.foldl (fun out column => out.set column.1 (appendNew ((out.get? column.1).getD []) column.2))
    Dict.empty

/-- One axis of the coverage. -/
def axisCoverage (trials : List TrialPoint) (param : String) : AxisCoverage :=
  let values := (space.coverageValues.get? param).getD []
  let reached := values.map fun value =>
    let hits := trials.countP fun trial => (trial.2.get? param).any fun v => sameValue v value
    ({ value := value, covered := hits != 0, trials := hits } : AxisValueCoverage)
  { param := param
    values := reached
    covered := reached.countP AxisValueCoverage.covered
    total := values.length }

section

variable (digest : String → String)

/-- The points of the space under their hashes. -/
def expected : Dict Config := .ofEntries (space.expand.map fun config => (configHash digest config, config))

/-- The hashes of the trials. -/
def trialHashes (trials : List TrialPoint) : List String := (trials.map Prod.fst).dedup

/-- The hashes of the space that have a trial. -/
def coveredHashes (trials : List TrialPoint) : List String :=
  (space.expected digest).keys.filter fun h => (trialHashes trials).contains h

/-- The hashes of the trials that the space does not have. -/
def offSpaceHashes (trials : List TrialPoint) : List String :=
  (trialHashes trials).filter fun h => !(space.expected digest).has h

/-- `space_coverage`. -/
def coverage (trials : List TrialPoint) : SpaceCoverage :=
  let axes := space.sweptKeys.map (space.axisCoverage trials)
  if space.tooLarge then
    { enumerable := false, cellsTotal := none, cellsCovered := 0, offSpace := 0, remaining := []
      axes := axes }
  else
    { enumerable := true
      cellsTotal := some (space.expected digest).entries.length
      cellsCovered := (space.coveredHashes digest trials).length
      offSpace := (space.offSpaceHashes digest trials).length
      remaining := (((space.expected digest).entries.filter fun e =>
        !(trialHashes trials).contains e.1).take maxRemaining).map fun e => project e.2 space.sweptKeys
      axes := axes }

end

/-- The hash of a point of the space is expected. -/
theorem expected_has (digest : String → String) {config : Config} (h : config ∈ space.expand) :
    (space.expected digest).has (configHash digest config) = true := by
  refine (Dict.has_setAll _ _ _).mpr (Or.inl ?_)
  rw [List.map_map]
  exact List.mem_map_of_mem h

/-- A trial under the hash of a point of the space is counted as covered, not as off the space. -/
theorem coverage_counts (digest : String → String) {config : Config} (h : config ∈ space.expand)
    {trials : List TrialPoint} {trial : TrialPoint} (htrial : trial ∈ trials)
    (hhash : trial.1 = configHash digest config) :
    trial.1 ∈ space.coveredHashes digest trials ∧ trial.1 ∉ space.offSpaceHashes digest trials := by
  have hexpected := space.expected_has digest h
  rw [← hhash] at hexpected
  have hlisted : trial.1 ∈ trialHashes trials :=
    List.mem_dedup.mpr (List.mem_map_of_mem htrial)
  constructor
  · exact List.mem_filter.mpr ⟨Dict.mem_keys.mpr hexpected, List.contains_iff_mem.mpr hlisted⟩
  · intro hoff
    have hunknown := (List.mem_filter.mp hoff).2
    rw [hexpected] at hunknown
    cases hunknown

end SearchSpace

end AutoTune
