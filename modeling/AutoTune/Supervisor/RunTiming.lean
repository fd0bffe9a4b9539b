import AutoTune.Lib.Dict
import AutoTune.Lib.Percentile
import AutoTune.Lib.Rounding
import AutoTune.Lib.TextLines
import AutoTune.Store.Rows
import Mathlib.Algebra.Order.Floor.Ring
import Mathlib.Data.Rat.Floor
import Mathlib.Tactic.NormNum

/-!
# How long a campaign's runs take

The recent samples of a campaign, and the window one more run of it needs. A run its window cut off is kept as a
sample of what it got through. The estimate is a high percentile of the samples, so one long run moves it only while
there are few.
-/

namespace AutoTune

open Lib

/-- `KEEP`. -/
def keepSamples : Nat := 20

/-- `MARGIN`. -/
def margin : ℚ := 6 / 5

/-- `STARTUP`. -/
def startupKey : String := "startup"

/-- `DEFAULT_READY_TIMEOUT_MINUTES`. -/
def defaultReadyTimeoutMinutes : Int := 120

/-- `_bench_key`. -/
def benchKey (stage : String) : String := "bench_" ++ stage

/-- `campaigns.run_timing`: the samples under their keys, and the estimates under `prior`. -/
structure RunTiming where
  samples : List (String × List ℚ) := []
  prior : List (String × ℚ) := []

/-- What the window math reads of a campaign. -/
structure TimedCampaign where
  runTiming : RunTiming := {}
  readyTimeoutMinutes : Option Int := none

/-- What an audit event of a run says here. -/
inductive RunEvent where
  | transition (target : Option RunStatus) (ts : Option Time)
  | placed (ts : Option Time)

/-- What is read of a run, with its events in the order of their ids. -/
structure TimedRun where
  kind : RunKind := .experiment
  startedAt : Option Time := none
  waitingSince : Option Time := none
  events : List RunEvent := []

/-- `timing.get(key, [])`. -/
def samplesAt (timing : RunTiming) (key : String) : List ℚ := (dictGet timing.samples key).getD []

/-- The sample that is kept of a duration. -/
def sampleOf (minutes : ℚ) : ℚ := roundTo 2 (max minutes 0)

/-- `_push`. -/
def push (campaign : TimedCampaign) (key : String) (minutes : ℚ) : TimedCampaign :=
  let timing := campaign.runTiming
  let samples := lastOf keepSamples (samplesAt timing key ++ [sampleOf minutes])
  { campaign with runTiming := { timing with samples := dictSet timing.samples key samples } }

/-- `_transitions`, asked for one state: when the run first entered it. -/
def firstEntered (run : TimedRun) (status : RunStatus) : Option Time :=
  run.events.findSome? fun
    | .transition target ts => if target = some status then ts else none
    | .placed _ => none

/-- `_minutes`. -/
def minutesBetween (a b : Time) : ℚ := ((b - a : Int) : ℚ) / 60

/-- `_LAUNCHED`. -/
def RunKind.launched : RunKind → Bool
  | .experiment | .policyLaunch => true
  | _ => false

/-- The newest `run_placed` event. -/
def lastPlaced (run : TimedRun) : Option Time :=
  (run.events.reverse.findSome? fun
    | .placed ts => some ts
    | .transition _ _ => none).join

/-- `_launched_at`. -/
def launchedAt (run : TimedRun) : Option Time :=
  match (firstEntered run .launching).or run.startedAt, lastPlaced run with
  | some launched, some placed => if minutesBetween launched placed > 0 then some placed else some launched
  | none, placed => placed
  | launched, none => launched

/-- When the measurement of a cut run began. -/
def benchBegan (run : TimedRun) : Option Time :=
  (firstEntered run .benching).or (if run.kind.isExternal then run.startedAt else none)

/-- `record_ready`. -/
def recordReady (campaign : TimedCampaign) (run : TimedRun) (moment : Time) : TimedCampaign :=
  if run.kind.launched then
    match launchedAt run with
    | some launched => push campaign startupKey (minutesBetween launched moment)
    | none => campaign
  else campaign

/-- `record_cut`. -/
def recordCut (campaign : TimedCampaign) (run : TimedRun) (stage : String) (moment : Time) : TimedCampaign :=
  match benchBegan run with
  | some began => push campaign (benchKey stage) (minutesBetween began moment)
  | none =>
      -- cut while it was still queued for cards, a run never started
      if run.kind.launched && run.waitingSince.isNone then
        match launchedAt run with
        | some launched => push campaign startupKey (minutesBetween launched moment)
        | none => campaign
      else campaign

/-- `record_finished`. -/
def recordFinished (campaign : TimedCampaign) (run : TimedRun) (stage : String) (moment : Time) : TimedCampaign :=
  match run.kind with
  | .policyLaunch => campaign
  | kind =>
      match if kind.isExternal then run.startedAt else firstEntered run .benching with
      | some began => push campaign (benchKey stage) (minutesBetween began moment)
      | none => campaign

/-- `max(0, ceil(0.9 * n) - 1)`. -/
def typicalIndex (n : Nat) : Nat := (⌈(9 / 10 : ℚ) * n⌉ - 1).toNat

/-- `_typical`. -/
def typical (samples : List ℚ) : Option ℚ :=
  if samples.isEmpty then none else (samples.insertionSort (· ≤ ·))[typicalIndex samples.length]?

/-- `ready_timeout_minutes`. -/
def readyTimeoutMinutes (campaign : TimedCampaign) : Int :=
  match campaign.readyTimeoutMinutes with
  | some minutes => if minutes = 0 then defaultReadyTimeoutMinutes else minutes
  | none => defaultReadyTimeoutMinutes

/-- `startup_minutes`. -/
def startupMinutes (campaign : TimedCampaign) : Option ℚ := typical (samplesAt campaign.runTiming startupKey)

/-- `bench_minutes`. -/
def benchMinutes (campaign : TimedCampaign) (stage : String) : Option ℚ :=
  typical (samplesAt campaign.runTiming (benchKey stage))

/-- `set_priors`. -/
def setPriors (campaign : TimedCampaign) (priors : List (String × Option ℚ)) : TimedCampaign :=
  { campaign with
    runTiming := { campaign.runTiming with
      prior := priors.foldl (fun out p => match p.2 with
        | some m => if m = 0 then out else dictSet out (benchKey p.1) (roundTo 2 m)
        | none => out) [] } }

/-- `_startup_or_bound`. -/
def startupOrBound (campaign : TimedCampaign) : ℚ :=
  (startupMinutes campaign).getD (readyTimeoutMinutes campaign)

/-- `run_minutes`. -/
def runMinutes (campaign : TimedCampaign) (stage : String) : Option Int :=
  match benchMinutes campaign stage with
  | some bench => some ⌈(bench + (startupMinutes campaign).getD 0) * margin⌉
  | none => (dictGet campaign.runTiming.prior (benchKey stage)).map fun prior =>
      ⌈(prior + startupOrBound campaign) * margin⌉

/-- `window_minutes`. -/
def windowMinutes (campaign : TimedCampaign) (stage : String) (configured fallback : Int) : Int :=
  let estimate := (runMinutes campaign stage).getD fallback
  if configured = 0 then estimate else min estimate configured

/-! ## The estimate by counting -/

theorem typicalIndex_eq (n : Nat) : typicalIndex n = (9 * n + 9) / 10 - 1 := by
  have hceil : ⌈(9 / 10 : ℚ) * n⌉ = ((9 * n + 9) / 10 : Nat) := by
    have hlow : 9 * n ≤ 10 * ((9 * n + 9) / 10) := by omega
    have hhigh : 10 * ((9 * n + 9) / 10) < 9 * n + 10 := by omega
    have hlow' : (9 * n : ℚ) ≤ 10 * (((9 * n + 9) / 10 : Nat) : ℚ) := by exact_mod_cast hlow
    have hhigh' : 10 * (((9 * n + 9) / 10 : Nat) : ℚ) < 9 * n + 10 := by exact_mod_cast hhigh
    refine Int.ceil_eq_iff.mpr ⟨?_, ?_⟩
    · rw [Int.cast_natCast]
      linarith
    · rw [Int.cast_natCast]
      linarith
  unfold typicalIndex
  rw [hceil]
  omega

/-- The estimate is above a bound when one sample in ten is, and one more. -/
theorem lt_typical_iff {samples : List ℚ} {t : ℚ} (h : typical samples = some t) (bound : ℚ) :
    bound < t ↔ samples.length / 10 + 1 ≤ samples.countP (fun x => bound < x) := by
  unfold typical at h
  split_ifs at h with hempty
  rcases List.getElem?_eq_some_iff.mp h with ⟨hk, rfl⟩
  have hpos : 0 < samples.length := List.length_pos_iff.mpr fun hnil => hempty (by rw [hnil]; rfl)
  have hrank : samples.length - typicalIndex samples.length = samples.length / 10 + 1 := by
    rw [typicalIndex_eq]
    omega
  rw [lt_sorted_iff hk bound, hrank]

theorem typical_isSome {samples : List ℚ} (h : samples ≠ []) : ∃ t, typical samples = some t := by
  have hpos : 0 < samples.length := List.length_pos_iff.mpr h
  have hk : typicalIndex samples.length < (samples.insertionSort (· ≤ ·)).length := by
    rw [List.length_insertionSort, typicalIndex_eq]
    omega
  refine ⟨_, (if_neg ?_).trans (List.getElem?_eq_getElem hk)⟩
  rw [List.isEmpty_iff]
  exact h

/-! ## A cut run and the next window -/

theorem startupKey_ne (stage : String) : startupKey ≠ benchKey stage := by
  intro h
  have hchars := congrArg String.toList h
  rw [benchKey, String.toList_append] at hchars
  exact absurd (congrArg List.head? hchars) (by simp [startupKey])

theorem samplesAt_push (campaign : TimedCampaign) (key other : String) (minutes : ℚ) :
    samplesAt (push campaign key minutes).runTiming other =
      if other = key then lastOf keepSamples (samplesAt campaign.runTiming key ++ [sampleOf minutes])
      else samplesAt campaign.runTiming other := by
  unfold push samplesAt
  rw [dictGet_set]
  split_ifs with hkey
  · subst hkey
    rfl
  · rfl

/-- The samples a stage has once a run of `minutes` is kept. -/
def samplesWith (campaign : TimedCampaign) (stage : String) (minutes : ℚ) : List ℚ :=
  lastOf keepSamples (samplesAt campaign.runTiming (benchKey stage) ++ [sampleOf minutes])

/-- Is a sample, behind the startup, long enough to reserve `minutes`? -/
def longEnough (startup minutes sample : ℚ) : Bool := ((⌈minutes⌉ : ℚ) - 1) < (sample + startup) * margin

/-- One of the kept samples in ten is long enough, and one more. -/
def EnoughLongSamples (campaign : TimedCampaign) (stage : String) (minutes : ℚ) : Prop :=
  (samplesWith campaign stage minutes).length / 10 + 1 ≤
    (samplesWith campaign stage minutes).countP (longEnough ((startupMinutes campaign).getD 0) minutes)

/-- After a run was cut, the next window is as long as that run was measured for, and never above the cap. -/
def CutCorrects (campaign : TimedCampaign) (run : TimedRun) (stage : String) (moment : Time) (minutes : ℚ)
    (configured fallback : Int) : Prop :=
  (configured = 0 ∨ minutes < configured →
    minutes ≤ windowMinutes (recordCut campaign run stage moment) stage configured fallback) ∧
  (0 < configured → windowMinutes (recordCut campaign run stage moment) stage configured fallback ≤ configured)

theorem windowMinutes_le_cap (campaign : TimedCampaign) (stage : String) {configured : Int} (fallback : Int)
    (h : 0 < configured) : windowMinutes campaign stage configured fallback ≤ configured := by
  unfold windowMinutes
  rw [if_neg (ne_of_gt h)]
  exact min_le_right _ _

theorem le_windowMinutes_iff {campaign : TimedCampaign} {stage : String} {configured fallback : Int} {minutes : ℚ}
    (h : configured = 0 ∨ minutes < configured) : minutes ≤ windowMinutes campaign stage configured fallback ↔
      minutes ≤ ((runMinutes campaign stage).getD fallback : Int) := by
  unfold windowMinutes
  rcases Classical.em (configured = 0) with hzero | hcap
  · rw [if_pos hzero]
  · rw [if_neg hcap]
    have hbelow : minutes < configured := h.resolve_left hcap
    push_cast
    exact ⟨fun hmin => le_trans hmin (min_le_left _ _), fun hest => le_min hest hbelow.le⟩

theorem samplesWith_ne_nil (campaign : TimedCampaign) (stage : String) (minutes : ℚ) :
    samplesWith campaign stage minutes ≠ [] := by
  intro h
  have hlen := congrArg List.length h
  simp only [samplesWith, lastOf, keepSamples, List.length_drop, List.length_append, List.length_singleton,
    List.length_nil] at hlen
  omega

/-- What a run of a stage is reckoned at once a sample of `minutes` is kept. -/
theorem le_runMinutes_push_iff (campaign : TimedCampaign) (stage : String) (minutes : ℚ) (fallback : Int) :
    minutes ≤ ((runMinutes (push campaign (benchKey stage) minutes) stage).getD fallback : Int) ↔
      EnoughLongSamples campaign stage minutes := by
  have hbench : benchMinutes (push campaign (benchKey stage) minutes) stage =
      typical (samplesWith campaign stage minutes) := by
    rw [benchMinutes, samplesAt_push, if_pos rfl, samplesWith]
  have hstartup : startupMinutes (push campaign (benchKey stage) minutes) = startupMinutes campaign := by
    rw [startupMinutes, samplesAt_push, if_neg (startupKey_ne stage), ← startupMinutes]
  rcases typical_isSome (samplesWith_ne_nil campaign stage minutes) with ⟨t, ht⟩
  have hlong : longEnough ((startupMinutes campaign).getD 0) minutes =
      fun x => decide (((⌈minutes⌉ : ℚ) - 1) / margin - (startupMinutes campaign).getD 0 < x) := by
    funext x
    refine decide_eq_decide.mpr ?_
    rw [← div_lt_iff₀ (by norm_num [margin]), sub_lt_iff_lt_add]
  unfold runMinutes EnoughLongSamples
  rw [hbench, hstartup, ht, hlong, ← lt_typical_iff ht]
  calc
    minutes ≤ ((some ⌈(t + (startupMinutes campaign).getD 0) * margin⌉).getD fallback : Int)
        ↔ ⌈minutes⌉ - 1 < ⌈(t + (startupMinutes campaign).getD 0) * margin⌉ := by
          rw [Option.getD_some, ← Int.ceil_le, Int.sub_one_lt_iff]
    _ ↔ (⌈minutes⌉ : ℚ) - 1 < (t + (startupMinutes campaign).getD 0) * margin := by
          rw [Int.lt_ceil]
          push_cast
          rfl
    _ ↔ ((⌈minutes⌉ : ℚ) - 1) / margin - (startupMinutes campaign).getD 0 < t := by
          rw [← div_lt_iff₀ (by norm_num [margin]), sub_lt_iff_lt_add]

theorem cut_corrects_iff {run : TimedRun} {began : Time} (h : benchBegan run = some began) (campaign : TimedCampaign)
    (stage : String) (moment : Time) (configured fallback : Int) :
    CutCorrects campaign run stage moment (minutesBetween began moment) configured fallback ↔
      (configured = 0 ∨ minutesBetween began moment < configured →
        EnoughLongSamples campaign stage (minutesBetween began moment)) := by
  have hcut : recordCut campaign run stage moment = push campaign (benchKey stage) (minutesBetween began moment) := by
    rw [recordCut, h]
  unfold CutCorrects
  rw [hcut, and_iff_left (windowMinutes_le_cap _ stage fallback)]
  refine forall_congr' fun hroom => ?_
  rw [le_windowMinutes_iff hroom, le_runMinutes_push_iff]

/-! ## While there are few samples -/

/-- A run of more than 0.3 seconds is kept as a sample that reserves it. -/
theorem sampleOf_longEnough {startup minutes : ℚ} (hstartup : 0 ≤ startup) (h : 1 / 200 < minutes) :
    longEnough startup minutes (sampleOf minutes) = true := by
  have hsample : sampleOf minutes = (roundHalfEven (minutes * 100) : ℚ) / 100 := by
    rw [sampleOf, max_eq_left (by linarith), roundTo]
    norm_num
  have hnear : minutes * 100 - 1 / 2 ≤ roundHalfEven (minutes * 100) := by
    have habs := abs_le.mp (roundHalfEven_nearest (minutes * 100))
    linarith [habs.2]
  have hlong : (⌈minutes⌉ : ℚ) - 1 < sampleOf minutes * margin := by
    rw [hsample, margin]
    rcases le_or_gt ⌈minutes⌉ 1 with hone | htwo
    · -- rounded to hundredths it is not nothing
      have hone' : (⌈minutes⌉ : ℚ) ≤ 1 := by exact_mod_cast hone
      have hpos : (0 : ℚ) < roundHalfEven (minutes * 100) := by linarith
      linarith
    · have htwo' : (2 : ℚ) ≤ ⌈minutes⌉ := by exact_mod_cast htwo
      have hbelow : (⌈minutes⌉ : ℚ) - 1 < minutes := by
        have := Int.ceil_lt_add_one minutes
        linarith
      linarith
  refine decide_eq_true (lt_of_lt_of_le hlong ?_)
  exact mul_le_mul_of_nonneg_right (le_add_of_nonneg_right hstartup) (by norm_num [margin])

/-- With at most eight samples before it, every such run corrects the estimate. -/
theorem enough_of_few {campaign : TimedCampaign} {stage : String} {minutes : ℚ}
    (hstartup : 0 ≤ (startupMinutes campaign).getD 0) (h : 1 / 200 < minutes)
    (hfew : (samplesAt campaign.runTiming (benchKey stage)).length ≤ 8) : EnoughLongSamples campaign stage minutes := by
  have hall : samplesWith campaign stage minutes =
      samplesAt campaign.runTiming (benchKey stage) ++ [sampleOf minutes] := by
    have hnone : (samplesAt campaign.runTiming (benchKey stage) ++ [sampleOf minutes]).length - keepSamples = 0 := by
      rw [List.length_append, List.length_singleton, keepSamples]
      omega
    rw [samplesWith, lastOf, hnone, List.drop_zero]
  have hown : 1 ≤ (samplesWith campaign stage minutes).countP (longEnough ((startupMinutes campaign).getD 0) minutes) := by
    rw [hall, List.countP_append, List.countP_singleton, if_pos (sampleOf_longEnough hstartup h)]
    omega
  have hlen : (samplesWith campaign stage minutes).length ≤ 9 := by
    rw [hall, List.length_append, List.length_singleton]
    omega
  unfold EnoughLongSamples
  omega

/-- A run cut 40 minutes into its benchmark, the first one of its campaign. -/
def firstCut : TimedRun where
  events := [.transition (some .launching) (some 0), .transition (some .benching) (some 600)]

theorem firstCut_corrects : benchBegan firstCut = some 600 ∧
    CutCorrects {} firstCut "screen" 3000 (minutesBetween 600 3000) 720 150 := by
  have henough : EnoughLongSamples {} "screen" (minutesBetween 600 3000) := by
    unfold EnoughLongSamples
    decide +kernel
  exact ⟨rfl, (cut_corrects_iff rfl {} "screen" 3000 720 150).mpr fun _ => henough⟩

/-- Ten measurements of ten minutes each. -/
def tenShortRuns : TimedCampaign where
  runTiming := { samples := [("bench_screen", List.replicate 10 10)] }

/-- After a run that was cut two hours in, twelve minutes are reserved. -/
theorem tenShortRuns_reserveTooLittle : benchBegan firstCut = some 600 ∧
    ¬ CutCorrects tenShortRuns firstCut "screen" 7800 (minutesBetween 600 7800) 720 150 := by
  have hshort : ¬ minutesBetween 600 7800 ≤
      windowMinutes (recordCut tenShortRuns firstCut "screen" 7800) "screen" 720 150 := by decide +kernel
  have hroom : minutesBetween 600 7800 < ((720 : Int) : ℚ) := by decide +kernel
  exact ⟨rfl, fun h => hshort (h.1 (Or.inr hroom))⟩

end AutoTune
