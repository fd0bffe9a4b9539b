import AutoTune.Lib.Rounding
import AutoTune.Search.Space

/-!
# The values of a range

A range is enumerated step by step from its minimum, each value rounded to the decimals of the step, until a
step is more than a billionth of a step beyond the maximum. The values are the grid of the range exactly if
those decimals write out the minimum and the step, and no step falls into that billionth.
-/

namespace AutoTune

open Lib

namespace RangeSpec

variable (r : RangeSpec)

/-! ## The loop -/

/-- The number at a step, before it is rounded. -/
def point (i : Nat) : ℚ := r.minimum + i * r.step

/-- The loop takes a step. -/
def Reaches (i : Nat) : Prop := r.point i ≤ r.maximum + r.step / 10 ^ 9

theorem point_mono (hstep : 0 < r.step) {i j : Nat} (h : i ≤ j) : r.point i ≤ r.point j := by
  have hcast : (i : ℚ) ≤ j := by exact_mod_cast h
  unfold point
  nlinarith

theorem point_lt (hstep : 0 < r.step) {i j : Nat} (h : i < j) : r.point i < r.point j := by
  have hcast : (i : ℚ) + 1 ≤ j := by exact_mod_cast h
  unfold point
  nlinarith

/-- The loop lists the steps it takes, and ends at the first it does not take unless it runs out of rounds. -/
theorem valuesFrom_eq (fuel index : Nat) : ∃ n ≤ fuel,
    r.valuesFrom fuel index = (List.range' index n).map r.valueAt ∧
      (∀ j, index ≤ j → j < index + n → r.Reaches j) ∧ (n < fuel → ¬ r.Reaches (index + n)) := by
  induction fuel generalizing index with
  | zero => exact ⟨0, le_rfl, rfl, fun j h h' => absurd h' (by omega), fun h => absurd h (by omega)⟩
  | succ fuel ih =>
      by_cases hends : r.maximum + r.step / 10 ^ 9 < r.minimum + index * r.step
      · refine ⟨0, by omega, by simp [valuesFrom, hends], fun j h h' => absurd h' (by omega), fun _ => ?_⟩
        exact not_le.mpr hends
      · rcases ih (index + 1) with ⟨n, hle, hlist, hreach, hstop⟩
        refine ⟨n + 1, by omega, ?_, ?_, ?_⟩
        · simp [valuesFrom, hends, hlist, List.range'_succ]
        · intro j hj hj'
          rcases Nat.eq_or_lt_of_le hj with rfl | hlater
          · exact not_lt.mp hends
          · exact hreach j hlater (by omega)
        · intro hn
          have hnext : index + (n + 1) = index + 1 + n := by omega
          rw [hnext]
          exact hstop (by omega)

/-- A range with no value too many lists exactly the steps the loop takes. -/
theorem values_eq (hstep : 0 < r.step) (hfew : r.values.length ≤ maxRangeValues) :
    r.values = (List.range r.values.length).map r.valueAt ∧ ∀ i, r.Reaches i ↔ i < r.values.length := by
  rcases r.valuesFrom_eq (maxRangeValues + 1) 0 with ⟨n, -, hlist, hreach, hstop⟩
  have hvalues : r.values = (List.range n).map r.valueAt := by
    rw [List.range_eq_range']
    exact hlist
  have hlength : r.values.length = n := by simp [hvalues]
  rw [hlength] at hfew ⊢
  refine ⟨hvalues, fun i => ⟨fun h => ?_, fun h => hreach i (Nat.zero_le i) (by omega)⟩⟩
  by_contra hbeyond
  have hends := hstop (by omega)
  rw [Nat.zero_add] at hends
  exact hends (le_trans (r.point_mono hstep (by omega)) h)

/-! ## One value -/

theorem whole_of_den {x : ℚ} (h : x.den = 1) : ∃ k : Int, x = k := ⟨x.num, (Rat.coe_int_num_of_den_eq_one h).symm⟩

/-- On a range of whole numbers every step is whole. -/
theorem point_whole (h : r.isInteger = true) (i : Nat) : ∃ k : Int, r.point i = k := by
  unfold isInteger at h
  simp only [Bool.and_eq_true, decide_eq_true_eq] at h
  rcases whole_of_den h.1.1 with ⟨low, hlow⟩
  rcases whole_of_den h.2 with ⟨step, hstep⟩
  refine ⟨low + i * step, ?_⟩
  unfold point
  rw [hlow, hstep]
  push_cast
  rfl

theorem writesOut_whole (d : Nat) (k : Int) : WritesOut d (k : ℚ) := by
  refine ⟨k * 10 ^ d, ?_⟩
  push_cast
  field_simp

/-- The value at a step is the step itself exactly if the decimals of the range write it out. -/
theorem valueAt_number_iff (i : Nat) :
    (r.valueAt i).number = some (r.point i) ↔ WritesOut (rangeDecimals r.step) (r.point i) := by
  unfold valueAt
  dsimp only
  split
  · rename_i hint
    rcases r.point_whole hint i with ⟨k, hk⟩
    have hpoint : r.minimum + i * r.step = k := hk
    have hround : roundHalfEven (k : ℚ) = k := by
      refine roundHalfEven_eq_iff.mpr ⟨by simp, fun h => ?_⟩
      rw [sub_self, abs_zero] at h
      norm_num at h
    rw [hk, hpoint]
    simp [Value.number, hround, writesOut_whole]
  · have hnumber : (Value.number (.float (roundTo (rangeDecimals r.step) (r.minimum + i * r.step))) =
        some (r.point i)) ↔ roundTo (rangeDecimals r.step) (r.point i) = r.point i := by
      simp [Value.number, point]
    rw [hnumber, roundTo_self_iff]

/-! ## The grid -/

/-- The values are the grid of the range: strictly increasing, each in the interval and the step of its index,
the last one the largest step that is not above the maximum. -/
structure Enumerates : Prop where
  increasing : (r.values.filterMap Value.number).Pairwise (· < ·)
  onStep : ∀ i (h : i < r.values.length), r.values[i].number = some (r.minimum + i * r.step)
  within : ∀ v ∈ r.values, ∃ x, v.number = some x ∧ r.minimum ≤ x ∧ x ≤ r.maximum
  last : ∃ v x, r.values.getLast? = some v ∧ v.number = some x ∧ x ≤ r.maximum ∧
    ∀ i : Nat, r.minimum + i * r.step ≤ r.maximum → r.minimum + i * r.step ≤ x

/-- The decimals of the step write out the minimum and, where there is a second value, the step; and no step is
beyond the maximum by a billionth of a step or less. -/
structure OnGrid : Prop where
  minimum : WritesOut (rangeDecimals r.step) r.minimum
  step : r.maximum < r.minimum + r.step ∨ WritesOut (rangeDecimals r.step) r.step
  clear : ∀ i : Nat, r.minimum + i * r.step ≤ r.maximum ∨ r.maximum + r.step / 10 ^ 9 < r.minimum + i * r.step

theorem writesOut_add {d : Nat} {x y : ℚ} (hx : WritesOut d x) (hy : WritesOut d y) : WritesOut d (x + y) := by
  rcases hx with ⟨a, rfl⟩
  rcases hy with ⟨b, rfl⟩
  refine ⟨a + b, ?_⟩
  push_cast
  ring

theorem writesOut_mul {d : Nat} {x : ℚ} (hx : WritesOut d x) (n : Nat) : WritesOut d (n * x) := by
  rcases hx with ⟨a, rfl⟩
  refine ⟨n * a, ?_⟩
  push_cast
  ring

theorem writesOut_sub {d : Nat} {x y : ℚ} (hx : WritesOut d x) (hy : WritesOut d y) : WritesOut d (x - y) := by
  rcases hx with ⟨a, rfl⟩
  rcases hy with ⟨b, rfl⟩
  refine ⟨a - b, ?_⟩
  push_cast
  ring

/-- A range lists its grid exactly if it is on the grid of its decimals and clear of its tolerance. -/
theorem enumerates_iff_onGrid (hstep : 0 < r.step) (horder : r.minimum ≤ r.maximum)
    (hfew : r.values.length ≤ maxRangeValues) : r.Enumerates ↔ r.OnGrid := by
  rcases r.values_eq hstep hfew with ⟨hvalues, hreach⟩
  have hget : ∀ i (h : i < r.values.length), r.values[i] = r.valueAt i := by
    intro i h
    have hsome : r.values[i]? = some (r.valueAt i) := by
      rw [hvalues]
      simp [h]
    simpa [h] using hsome
  have htol : 0 ≤ r.step / 10 ^ 9 := by positivity
  have hzero : r.point 0 = r.minimum := by simp [point]
  have hone : r.point 1 = r.minimum + r.step := by simp [point]
  constructor
  · intro h
    have hexact : ∀ i, i < r.values.length → WritesOut (rangeDecimals r.step) (r.point i) := by
      intro i hi
      rw [← r.valueAt_number_iff, ← hget i hi]
      exact h.onStep i hi
    have hfirst : 0 < r.values.length := (hreach 0).mp (by unfold Reaches; rw [hzero]; linarith)
    refine ⟨hzero ▸ hexact 0 hfirst, ?_, ?_⟩
    · rcases lt_or_ge r.maximum (r.minimum + r.step) with hlone | hsecond
      · exact Or.inl hlone
      · have hin : 1 < r.values.length := (hreach 1).mp (by unfold Reaches; rw [hone]; linarith)
        have hdiff := writesOut_sub (hexact 1 hin) (hexact 0 hfirst)
        have hself : r.point 1 - r.point 0 = r.step := by
          rw [hone, hzero]
          ring
        exact Or.inr (hself ▸ hdiff)
    · intro i
      by_cases hi : i < r.values.length
      · rcases h.within r.values[i] (List.getElem_mem hi) with ⟨x, hx, -, hmax⟩
        rw [h.onStep i hi] at hx
        exact Or.inl (Option.some.inj hx ▸ hmax)
      · exact Or.inr (not_le.mp fun hle => hi ((hreach i).mp hle))
  · intro h
    -- every step that is taken is written out, and is not above the maximum
    have hinside : ∀ i, i < r.values.length → r.point i ≤ r.maximum := by
      intro i hi
      rcases h.clear i with hle | hbeyond
      · exact hle
      · exact absurd ((hreach i).mpr hi) (not_le.mpr hbeyond)
    have hnumber : ∀ i, i < r.values.length → (r.valueAt i).number = some (r.point i) := by
      intro i hi
      rw [r.valueAt_number_iff]
      cases i with
      | zero => exact hzero ▸ h.minimum
      | succ i =>
          rcases h.step with hlone | hstepOut
          · have hsecond := hinside 1 (by omega)
            rw [hone] at hsecond
            linarith
          · exact writesOut_add h.minimum (writesOut_mul hstepOut (i + 1))
    have hnumbers : r.values.filterMap Value.number = (List.range r.values.length).map r.point := by
      rw [hvalues, List.filterMap_map, List.length_map, List.length_range, ← List.filterMap_eq_map]
      exact List.filterMap_congr fun i hi => hnumber i (List.mem_range.mp hi)
    refine ⟨?_, ?_, ?_, ?_⟩
    · rw [hnumbers, List.pairwise_map]
      exact List.pairwise_lt_range.imp fun hlt => r.point_lt hstep hlt
    · intro i hi
      rw [hget i hi]
      exact hnumber i hi
    · intro v hv
      rcases List.getElem_of_mem hv with ⟨i, hi, rfl⟩
      refine ⟨r.point i, by rw [hget i hi]; exact hnumber i hi, ?_, hinside i hi⟩
      exact hzero ▸ r.point_mono hstep (Nat.zero_le i)
    · have hfirst : 0 < r.values.length := (hreach 0).mp (by unfold Reaches; rw [hzero]; linarith)
      have hlt : r.values.length - 1 < r.values.length := by omega
      refine ⟨r.values[r.values.length - 1], r.point (r.values.length - 1), ?_, ?_, hinside _ hlt, ?_⟩
      · rw [List.getLast?_eq_getElem?]
        exact List.getElem?_eq_getElem hlt
      · rw [hget _ hlt]
        exact hnumber _ hlt
      · intro i hi
        have hin : i < r.values.length := (hreach i).mp (le_trans hi (by linarith))
        exact r.point_mono hstep (by omega)

end RangeSpec

/-! ## Declared ranges -/

/-- A declared range that is one has a positive step and its bounds in order. -/
theorem rangeSpecOf_eq_some {entry : String × Config} {r : RangeSpec}
    (h : SearchSpace.rangeSpecOf entry = some r) : rangeBound entry.2 "min" = some r.minimum ∧
      rangeBound entry.2 "max" = some r.maximum ∧ rangeBound entry.2 "step" = some r.step ∧
      r.name = entry.1 ∧ 0 < r.step ∧ r.minimum ≤ r.maximum := by
  unfold SearchSpace.rangeSpecOf at h
  split at h
  · rename_i low high step hlow hhigh hstep
    split at h
    · cases h
    · rename_i hgood
      cases h
      rw [not_or, not_le, not_lt] at hgood
      exact ⟨hlow, hhigh, hstep, rfl, hgood.1, hgood.2⟩
  · cases h

/-- A range the check finds nothing wrong with has no value too many. -/
theorem length_of_checkRange {entry : String × Config} {r : RangeSpec} {check : SpaceCheck}
    (hspec : SearchSpace.rangeSpecOf entry = some r) (h : (checkRange check entry).errors = []) :
    r.values.length ≤ maxRangeValues := by
  rcases rangeSpecOf_eq_some hspec with ⟨hlow, hhigh, hstep, hname, hpositive, horder⟩
  have hr : RangeSpec.mk entry.1 r.minimum r.maximum r.step = r := by rw [← hname]
  by_contra hmany
  rw [not_le] at hmany
  unfold checkRange at h
  simp only [hlow, hhigh, hstep, not_le.mpr hpositive, not_lt.mpr horder, if_false, hr, if_pos hmany] at h
  unfold SpaceCheck.sweep at h
  split at h <;> simp at h

/-- A range that the check accepts lists its grid exactly if the decimals of its step write out the minimum
and the steps, and no step falls between the maximum and the tolerance. -/
theorem range_lists_grid_iff {entry : String × Config} {r : RangeSpec}
    (hspec : SearchSpace.rangeSpecOf entry = some r)
    (haccepted : (checkRange ⟨[], Dict.empty⟩ entry).errors = []) : r.Enumerates ↔ r.OnGrid := by
  rcases rangeSpecOf_eq_some hspec with ⟨-, -, -, -, hpositive, horder⟩
  exact r.enumerates_iff_onGrid hpositive horder (length_of_checkRange hspec haccepted)

/-- A range from `low` to `high`. -/
def shareRange (low high step : ℚ) : String × Config :=
  ("gpu_memory_utilization", .ofEntries [("min", .float low), ("max", .float high), ("step", .float step)])

/-- From 0.8 to 0.9 by a twentieth. -/
theorem range_lists_grid_twentieths :
    (RangeSpec.mk "gpu_memory_utilization" (4 / 5) (9 / 10) (1 / 20)).Enumerates := by
  have hspec : SearchSpace.rangeSpecOf (shareRange (4 / 5) (9 / 10) (1 / 20)) =
      some ⟨"gpu_memory_utilization", 4 / 5, 9 / 10, 1 / 20⟩ := by
    with_unfolding_all rfl
  have hdecimals : rangeDecimals (1 / 20) = 2 := by decide +kernel
  refine (range_lists_grid_iff hspec (by decide +kernel)).mpr ⟨?_, Or.inr ?_, ?_⟩
  · rw [hdecimals]
    exact ⟨80, by norm_num⟩
  · rw [hdecimals]
    exact ⟨5, by norm_num⟩
  · intro i
    rcases Nat.lt_or_ge i 3 with hfew | hmany
    · have hle : (i : ℚ) ≤ 2 := by exact_mod_cast Nat.le_of_lt_succ hfew
      exact Or.inl (by norm_num; linarith)
    · have hge : (3 : ℚ) ≤ i := by exact_mod_cast hmany
      exact Or.inr (by norm_num; linarith)

/-- From 0.123 by a twentieth the first value is 0.12, below the minimum. -/
theorem range_below_its_minimum :
    (checkRange ⟨[], Dict.empty⟩ (shareRange (123 / 1000) (1 / 5) (1 / 20))).errors = [] ∧
      ¬ (RangeSpec.mk "gpu_memory_utilization" (123 / 1000) (1 / 5) (1 / 20)).Enumerates := by
  refine ⟨by decide +kernel, fun h => ?_⟩
  have hfirst : (RangeSpec.mk "gpu_memory_utilization" (123 / 1000) (1 / 5) (1 / 20)).values.head? =
      some (.float (3 / 25)) := by
    with_unfolding_all rfl
  rcases h.within _ (List.mem_of_mem_head? hfirst) with ⟨x, hx, hlow, -⟩
  have hvalue : x = 3 / 25 := (Option.some.inj hx).symm
  rw [hvalue] at hlow
  norm_num at hlow

end AutoTune
