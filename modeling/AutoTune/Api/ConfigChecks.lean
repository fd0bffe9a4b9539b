import AutoTune.Search.Deviations

/-!
# The policy's own API: configs

A config a policy submits is merged with the campaign's base and pruned before anything else is asked
of it. Launches, benchmarks and contenders refuse a config with problems and record its deviations; the
dry run answers both.
-/

namespace AutoTune

open Lib

/-- `ConfigProblem`. -/
structure ConfigProblem where
  kind : String
  param : String := ""
  message : String
deriving DecidableEq, Repr

/-- `_canonical`. -/
def canonicalConfig (config : Config) (space : SearchSpace) : Config :=
  pruneInactive (space.base.merge config) space

section

-- what `_config_problems` finds wrong with a config; the rest of its answer is the canonical config
variable (problems : Config → List ConfigProblem) (space : SearchSpace)

/-- `_validated`: the canonical config and its deviations, or everything that is wrong with it. -/
def validated (config : Config) : Except String (Config × List Deviation) :=
  if (problems config).isEmpty then
    .ok (canonicalConfig config space, deviations (canonicalConfig config space) space)
  else .error ("; ".intercalate ((problems config).map ConfigProblem.message))

/-- `ConfigCheckOut`, as far as it says what is wrong with a config. -/
structure ConfigCheckOut where
  ok : Bool
  config : Config
  problems : List ConfigProblem
  deviations : List Deviation

/-- `check_config`. -/
def checkConfig (config : Config) : ConfigCheckOut where
  ok := (problems config).isEmpty
  config := canonicalConfig config space
  problems := problems config
  deviations := deviations (canonicalConfig config space) space

/-- Where a policy submits a config. -/
inductive Submission where
  | launches
  | benchmarks
  | contenders
  | configsCheck
deriving DecidableEq, Repr

/-- The deviations that are recorded or answered, if the config is not refused. -/
def Submission.deviations (config : Config) : Submission → Option (List Deviation)
  | .configsCheck => some (checkConfig problems space config).deviations
  | _ =>
      match validated problems space config with
      | .ok (_, found) => some found
      | .error _ => none

/-- Every place records what is found of the canonical config. -/
theorem Submission.deviations_eq (site : Submission) {config : Config} (hpass : problems config = []) :
    site.deviations problems space config =
      some ((AutoTune.deviations (space.base.merge config) space).filter fun d => !d.isViolation) := by
  rw [← deviations_pruneInactive]
  cases site <;> simp [Submission.deviations, validated, checkConfig, hpass, canonicalConfig]

/-- The recorded deviations are those of what the policy sent, merged with the base, exactly if every
condition on a parameter that is there is met. -/
theorem recorded_deviations_iff (site : Submission) (config : Config) (hpass : problems config = []) :
    site.deviations problems space config =
        some (AutoTune.deviations (space.base.merge config) space) ↔
      Stable space.gates (space.base.merge config) := by
  rw [← deviations_pruned_eq_iff, site.deviations_eq problems space hpass, deviations_pruneInactive,
    Option.some_inj]

end

/-! ## A gated parameter the policy sends alone -/

/-- Speculative steps mean something under a speculative algorithm only. -/
def speculativeSpace : SearchSpace where
  grid := .ofEntries [("speculative_algorithm", [.str "NONE", .str "EAGLE"]),
    ("speculative_num_steps", [.int 3, .int 5])]
  conditions := .ofEntries [("speculative_num_steps",
    .ofEntries [("speculative_algorithm", .list [.str "EAGLE"])])]

/-- Three steps under the algorithm `name`. -/
def threeSteps (name : String) : Config :=
  .ofEntries [("speculative_algorithm", .str name), ("speculative_num_steps", .int 3)]

/-- Without the algorithm the steps are pruned, and nothing is recorded of them. -/
theorem dropped_steps_unrecorded :
    ¬ (Submission.launches.deviations (fun _ => []) speculativeSpace (threeSteps "NONE") =
      some (deviations (speculativeSpace.base.merge (threeSteps "NONE")) speculativeSpace)) := by
  intro h
  rw [Submission.deviations_eq _ _ _ rfl, ← deviations_pruneInactive, Option.some_inj] at h
  have hstable := (deviations_pruned_eq_iff _ _).mp h
  exact absurd (hstable _ List.mem_cons_self (by decide)) (by decide)

/-- Under the algorithm everything is recorded. -/
theorem recorded_deviations_eagle :
    Submission.launches.deviations (fun _ => []) speculativeSpace (threeSteps "EAGLE") =
      some (deviations (speculativeSpace.base.merge (threeSteps "EAGLE")) speculativeSpace) := by
  refine (recorded_deviations_iff (fun _ => []) speculativeSpace .launches (threeSteps "EAGLE") rfl).mpr ?_
  intro gate hgate _
  have hgates : speculativeSpace.gates =
      [("speculative_num_steps", [("speculative_algorithm", [.str "EAGLE"])])] := rfl
  rw [hgates, List.mem_singleton] at hgate
  rw [hgate]
  decide

end AutoTune
