import AutoTune.Search.Pruning

/-!
# Findings of one config and of what pruning leaves of it

`deviations` looks at every parameter of a config once. A parameter that pruning drops is a conditional
violation, whatever its value; what is said of the others does not depend on the ones that are dropped.
-/

namespace AutoTune

open Lib

variable {space : SearchSpace}

/-! ## One parameter -/

theorem dictHas_iff {α : Type} {d : List (String × α)} {k : String} :
    dictHas d k = true ↔ ∃ e ∈ d, e.1 = k := by
  simp [dictHas]

/-- A parameter without a condition is never dropped. -/
theorem pruneInactive_ungated {config : Config} {k : String} (hk : config.has k = true)
    (hno : dictHas space.gates k = false) : (pruneInactive config space).has k = true := by
  have hkept := (pruneInactive_stable config space).supports.transfer config fun k hk =>
    ((pruneInactive_restricts config space).get? hk).symm
  refine pruneInactive_has.mpr ⟨fun j => j = k ∨ (pruneInactive config space).has j = true, ?_, Or.inl rfl⟩
  refine ⟨?_, ?_⟩
  · rintro j (rfl | hj)
    · exact hk
    · exact hkept.present j hj
  · rintro gate hgate (rfl | hj) c hc
    · exact absurd (dictHas_iff.mpr ⟨gate, hgate, rfl⟩) (by simp [hno])
    · rcases hkept.met gate hgate hj c hc with ⟨hin, hmet⟩
      exact ⟨Or.inr hin, hmet⟩

/-- Only a parameter that is dropped is a conditional violation. -/
theorem valueDeviation_ne (param : String) (value : Value) :
    space.valueDeviation param value ≠ some .conditionalViolation := by
  unfold SearchSpace.valueDeviation
  split
  · split <;> simp
  · split
    · simp
    · split <;> simp
  · split <;> simp
  · split <;> simp

/-- A dropped parameter is a conditional violation. -/
theorem deviationOf_dropped {config : Config} {entry : String × Value}
    (hmem : entry ∈ config.entries) (hdropped : (pruneInactive config space).has entry.1 = false) :
    space.deviationOf (pruneInactive config space) entry =
      some ⟨entry.1, .conditionalViolation, entry.2⟩ := by
  have hgated : dictHas space.gates entry.1 = true := by
    by_contra hno
    have hpresent : config.has entry.1 = true := Dict.has_iff.mpr ⟨_, Dict.mem_entries.mp hmem⟩
    rw [pruneInactive_ungated hpresent (by simpa using hno)] at hdropped
    cases hdropped
  simp [SearchSpace.deviationOf, hgated, hdropped]

/-- Of a parameter that is left only its value is judged. -/
theorem deviationOf_left {pruned : Config} {entry : String × Value} (hleft : pruned.has entry.1 = true) :
    space.deviationOf pruned entry =
      (space.valueDeviation entry.1 entry.2).map fun kind => ⟨entry.1, kind, entry.2⟩ := by
  simp [SearchSpace.deviationOf, hleft]

/-! ## All of them -/

/-- What pruning leaves is the config without the parameters it drops. -/
theorem pruneInactive_filter (config : Config) (space : SearchSpace) :
    (pruneInactive config space).Same
      (config.filter fun e => (pruneInactive config space).has e.1) := by
  intro k
  rw [Dict.get?_filter]
  rcases pruneInactive_restricts config space k with hnone | hsame
  · have hdropped : (pruneInactive config space).has k = false := by simp [Dict.has, hnone]
    rw [hnone]
    cases config.get? k <;> simp [hdropped]
  · rw [← hsame]
    cases hget : (pruneInactive config space).get? k with
    | none => rfl
    | some v => simp [Dict.has, hget, Option.filter]

/-- Is a finding about a parameter that was dropped? -/
def Deviation.isViolation (d : Deviation) : Bool := d.kind = .conditionalViolation

/-- Pruning a config first loses the conditional violations and nothing else. -/
theorem deviations_pruneInactive (config : Config) (space : SearchSpace) :
    deviations (pruneInactive config space) space =
      (deviations config space).filter fun d => !d.isViolation := by
  unfold deviations
  rw [pruneInactive_idempotent, (pruneInactive_filter config space).sortEntries]
  change (sortEntries (config.entries.filter fun e => (pruneInactive config space).has e.1)).filterMap
    (space.deviationOf (pruneInactive config space)) = _
  rw [← sortEntries_filter config.nodup, List.filterMap_filter, List.filter_filterMap]
  refine List.filterMap_congr fun entry hentry => ?_
  have hmem : entry ∈ config.entries := mem_sortEntries.mp hentry
  by_cases hleft : (pruneInactive config space).has entry.1 = true
  · rw [if_pos hleft, deviationOf_left hleft]
    have hne : space.valueDeviation entry.1 entry.2 ≠ some .conditionalViolation :=
      valueDeviation_ne entry.1 entry.2
    cases hkind : space.valueDeviation entry.1 entry.2 with
    | none => rfl
    | some kind =>
        have hkind' : kind ≠ .conditionalViolation := by
          rintro rfl
          exact hne hkind
        simp [Deviation.isViolation, hkind', Option.filter]
  · rw [if_neg hleft, deviationOf_dropped hmem (by simpa using hleft)]
    simp [Deviation.isViolation, Option.filter]

/-- There is a conditional violation for every parameter that pruning drops. -/
theorem mem_deviations_dropped {config : Config} {k : String} {v : Value} (hget : config.get? k = some v)
    (hdropped : (pruneInactive config space).has k = false) :
    (⟨k, .conditionalViolation, v⟩ : Deviation) ∈ deviations config space := by
  have hmem : (k, v) ∈ config.entries := Dict.mem_entries.mpr hget
  refine List.mem_filterMap.mpr ⟨(k, v), mem_sortEntries.mpr hmem, ?_⟩
  exact deviationOf_dropped hmem hdropped

/-- The findings of what pruning leaves are all of the findings exactly if it leaves everything. -/
theorem deviations_pruned_eq_iff (config : Config) (space : SearchSpace) :
    deviations (pruneInactive config space) space = deviations config space ↔
      Stable space.gates config := by
  constructor
  · intro heq
    refine pruneInactive_same_iff.mp (pruneInactive_same_of_has fun k hk => ?_)
    by_contra hdropped
    rcases Dict.has_iff.mp hk with ⟨v, hv⟩
    have hin := mem_deviations_dropped hv (by simpa using hdropped)
    rw [← heq, deviations_pruneInactive, List.mem_filter] at hin
    exact absurd hin.2 (by simp [Deviation.isViolation])
  · intro h
    rw [pruneInactive_of_stable h]

end AutoTune
