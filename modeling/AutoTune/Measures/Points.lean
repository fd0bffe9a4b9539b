import AutoTune.Lib.Dict
import AutoTune.Measures.Adapters

/-!
# What is written into a point

The adapters fill a point key by key. Each step is described by the keys it may write: a key it does not
write keeps its number. For a level, these keys are the measures it supports.
-/

namespace AutoTune

open Lib

/-- Nothing but these keys is written. -/
def WritesKeys (keys : List String) (out out' : Point) : Prop := ∀ k, k ∉ keys → dictGet out' k = dictGet out k

variable {keys : List String} {out out' out'' : Point}

theorem WritesKeys.refl (keys : List String) (out : Point) : WritesKeys keys out out := fun _ _ => rfl

theorem WritesKeys.trans (h : WritesKeys keys out out') (h' : WritesKeys keys out' out'') : WritesKeys keys out out'' :=
  fun k hk => (h' k hk).trans (h k hk)

theorem WritesKeys.mono {more : List String} (h : WritesKeys keys out out') (hsub : keys ⊆ more) : WritesKeys more out out' :=
  fun k hk => h k fun hmem => hk (hsub hmem)

/-- What a new point holds is under the keys that were written. -/
theorem WritesKeys.mem (h : WritesKeys keys [] out) {k : String} (hk : (dictGet out k).isSome = true) : k ∈ keys := by
  by_contra hnot
  rw [h k hnot] at hk
  cases hk

/-! ## Steps -/

theorem dictGet_put (out : Point) (key k : String) (value : Option ℚ) :
    dictGet (put out key value) k = if k = key then value.or (dictGet out k) else dictGet out k := by
  cases value with
  | none => simp [put]
  | some n => simp [put, dictGet_set]

theorem writes_set {key : String} (hkey : key ∈ keys) (out : Point) (n : ℚ) :
    WritesKeys keys out (dictSet out key n) := by
  intro k hk
  have hne : k ≠ key := fun heq => hk (heq ▸ hkey)
  rw [dictGet_set, if_neg hne]

theorem writes_put {key : String} (hkey : key ∈ keys) (out : Point) (value : Option ℚ) :
    WritesKeys keys out (put out key value) := by
  cases value with
  | none => exact WritesKeys.refl keys out
  | some n => exact writes_set hkey out n

theorem writes_putAll {entries : List (String × Option ℚ)} (h : ∀ e ∈ entries, e.1 ∈ keys) (out : Point) :
    WritesKeys keys out (putAll out entries) := by
  induction entries generalizing out with
  | nil => exact WritesKeys.refl keys out
  | cons e entries ih =>
      have hstep : WritesKeys keys out (put out e.1 e.2) := writes_put (h e List.mem_cons_self) out e.2
      exact hstep.trans (ih (fun e' he' => h e' (List.mem_cons_of_mem e he')) _)

/-- Per-GPU forms are written for the rates that are there, and writing one makes no other rate. -/
theorem writes_forms {suffix : String} {rates : List String} {form : ℚ → ℚ}
    (hfresh : ∀ r ∈ rates, ∀ r' ∈ rates, r ≠ r' ++ suffix)
    (h : ∀ r ∈ rates, (dictGet out r).isSome = true → r ++ suffix ∈ keys) :
    WritesKeys keys out
      (rates.foldl (fun out rate => put out (rate ++ suffix) ((dictGet out rate).map form)) out) := by
  suffices hpart : ∀ part ⊆ rates, ∀ out' : Point, (∀ r ∈ rates, dictGet out' r = dictGet out r) →
      WritesKeys keys out'
        (part.foldl (fun out rate => put out (rate ++ suffix) ((dictGet out rate).map form)) out') from
    hpart rates (fun _ hr => hr) out fun _ _ => rfl
  intro part
  induction part with
  | nil => exact fun _ out' _ => WritesKeys.refl keys out'
  | cons r part ih =>
      intro hpart out' hrates
      have hr : r ∈ rates := hpart List.mem_cons_self
      have hstep : WritesKeys keys out' (put out' (r ++ suffix) ((dictGet out' r).map form)) := by
        cases hget : dictGet out' r with
        | none => exact WritesKeys.refl keys out'
        | some n => exact writes_put (h r hr (by rw [← hrates r hr, hget]; rfl)) out' _
      refine hstep.trans (ih (fun r' hr' => hpart (List.mem_cons_of_mem r hr')) _ fun r' hr' => ?_)
      rw [dictGet_put, if_neg (hfresh r' hr' r hr), hrates r' hr']

theorem writes_perGpu {cards : Option ℚ}
    (h : ∀ rate ∈ ["output_tpm", "input_tpm", "uncached_input_tpm", "cached_input_tpm", "total_tpm"],
      (dictGet out rate).isSome = true → rate ++ "_per_gpu" ∈ keys) :
    WritesKeys keys out (perGpu out cards) := by
  unfold perGpu
  cases nonzero cards with
  | none => exact WritesKeys.refl keys out
  | some n => exact writes_forms (by decide) h

/-- What the uptime of a run tells. -/
def healthKeys : List String :=
  ["success_rate", "error_rate", "requests_total", "requests_completed", "requests_failed"]

theorem writes_health (out : Point) (uptime measured : Option ℚ) :
    WritesKeys healthKeys out (healthFromUptime out uptime measured) := by
  unfold healthFromUptime
  cases uptime with
  | none => exact WritesKeys.refl _ out
  | some uptime =>
      have hrates : WritesKeys healthKeys out
          (putAll out [("success_rate", some uptime), ("error_rate", some (1 - uptime))]) :=
        writes_putAll (by simp [healthKeys]) out
      cases measured with
      | none => exact hrates
      | some measured => exact hrates.trans (writes_putAll (by simp [healthKeys]) _)

/-! ## One level -/

/-- The total rate of a level, as a measure: reported, or of the two rates it is made of. -/
def totalTpm (outputTps totalTps inputTps : Option ℚ) : Option ℚ :=
  match totalTps with
  | some total => some (total * 60)
  | none => inputTps.bind fun input => outputTps.map fun output => (input + output) * 60

theorem levelRates_total (outputTps totalTps inputTps : Option ℚ) :
    dictGet (levelRates outputTps totalTps inputTps) "total_tpm" = totalTpm outputTps totalTps inputTps := by
  unfold levelRates totalTpm
  cases totalTps with
  | some total => simp [dictGet_put]
  | none => cases inputTps <;> cases outputTps <;> simp [putAll, dictGet_put]

theorem levelRates_writes (outputTps totalTps inputTps : Option ℚ) :
    WritesKeys ["output_tpm", "input_tpm", "total_tpm"] [] (levelRates outputTps totalTps inputTps) := by
  have houtput : WritesKeys ["output_tpm", "input_tpm", "total_tpm"] []
      (put [] "output_tpm" (outputTps.map fun x => x * 60)) := writes_put (by simp) _ _
  unfold levelRates
  cases totalTps with
  | some total => exact (houtput.trans (writes_put (by simp) _ _)).trans (writes_put (by simp) _ _)
  | none =>
      cases inputTps with
      | none => exact houtput
      | some input =>
          cases outputTps with
          | none => exact houtput
          | some output => exact houtput.trans (writes_putAll (by simp) _)

/-- What is written behind the rates of a level. -/
def afterRates : List String := guidellmLevelSupports.filter fun k => k ∉ ["output_tpm", "input_tpm", "total_tpm"]

theorem guidellmLevel_writes (raw : RawMetrics) (concurrency cards : Option ℚ) (params : RawMetrics)
    (aggregateOut aggregateIn : String) :
    WritesKeys afterRates
      (levelRates (numberAt raw aggregateOut) (numberAt raw "total_tps_mean") (numberAt raw aggregateIn))
      (guidellmLevel raw concurrency cards params aggregateOut aggregateIn) := by
  have hmem : ∀ k ∈ ["output_tpm_per_gpu", "input_tpm_per_gpu", "total_tpm_per_gpu", "request_rate",
      "request_output_tps@mean", "window_s", "concurrency", "prompt_tokens_mean", "completion_tokens_mean"] ++
      healthKeys ++ (levelLatencies raw).map Prod.fst, k ∈ afterRates := by
    simp [afterRates, guidellmLevelSupports, atStats, healthKeys, levelLatencies]
  have hforms : ∀ outputTps totalTps inputTps, WritesKeys afterRates (levelRates outputTps totalTps inputTps)
      (perGpu (levelRates outputTps totalTps inputTps) cards) := by
    intro outputTps totalTps inputTps
    refine writes_perGpu fun rate _ hthere => ?_
    -- only three rates are there
    have hrate := (levelRates_writes _ _ _).mem hthere
    simp only [List.mem_cons, List.not_mem_nil, or_false] at hrate
    rcases hrate with rfl | rfl | rfl <;> exact hmem _ (by simp)
  have hlatencies : ∀ e ∈ levelLatencies raw, e.1 ∈ afterRates := fun e he =>
    hmem e.1 (List.mem_append_right _ (List.mem_map_of_mem he))
  have hhealth : healthKeys ⊆ afterRates := fun k hk =>
    hmem k (List.mem_append_left _ (List.mem_append_right _ hk))
  have hmeans : ∀ e ∈ [("concurrency", concurrency), ("prompt_tokens_mean", numberAt params "input_tokens"),
      ("completion_tokens_mean", numberAt params "output_tokens")], e.1 ∈ afterRates := by
    intro e he
    simp only [List.mem_cons, List.not_mem_nil, or_false] at he
    rcases he with rfl | rfl | rfl <;> exact hmem _ (by simp)
  -- from the last step back to the rates
  refine WritesKeys.trans ?_ (writes_putAll hmeans _)
  refine WritesKeys.trans ?_ (writes_put (hmem "request_rate" (by simp)) _ _)
  refine WritesKeys.trans ?_ (writes_put (hmem "window_s" (by simp)) _ _)
  refine WritesKeys.trans ?_ ((writes_health _ _ _).mono hhealth)
  refine WritesKeys.trans ?_ (writes_putAll hlatencies _)
  refine WritesKeys.trans ?_ (writes_put (hmem "request_output_tps@mean" (by simp)) _ _)
  exact hforms _ _ _

/-- A level reports measures it supports. -/
theorem guidellmLevel_supports (raw : RawMetrics) (concurrency cards : Option ℚ) (params : RawMetrics)
    (aggregateOut aggregateIn : String) :
    WritesKeys guidellmLevelSupports [] (guidellmLevel raw concurrency cards params aggregateOut aggregateIn) :=
  ((levelRates_writes _ _ _).mono (by simp [guidellmLevelSupports])).trans
    ((guidellmLevel_writes raw concurrency cards params aggregateOut aggregateIn).mono (List.filter_subset_self _))

theorem guidellmLevel_total (raw : RawMetrics) (concurrency cards : Option ℚ) (params : RawMetrics)
    (aggregateOut aggregateIn : String) :
    dictGet (guidellmLevel raw concurrency cards params aggregateOut aggregateIn) "total_tpm" =
      totalTpm (numberAt raw aggregateOut) (numberAt raw "total_tps_mean") (numberAt raw aggregateIn) := by
  rw [guidellmLevel_writes raw concurrency cards params aggregateOut aggregateIn "total_tpm" (by simp [afterRates]),
    levelRates_total]

end AutoTune
