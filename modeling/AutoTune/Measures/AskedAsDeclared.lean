import AutoTune.Measures.Acceptance

/-!
# Asked as declared

A reference is judged against a benchmark that has reported nothing, and read from a run of it. What is
read is accepted, and what is accepted is supported where it is read, exactly when the run's main module
is read as the benchmark's would be and no accuracy suite reports a task that is not declared.
-/

namespace AutoTune

open Lib

/-! ## A run and its benchmark -/

theorem splitMetrics_nodup (metrics : RawMetrics) : ((splitMetrics metrics).map Prod.fst).Nodup := by
  refine nodup_foldl (fun hout entry => ?_) metrics List.nodup_nil
  unfold splitEntry
  split
  · exact hout
  · exact nodup_dictSet hout _ _

/-- The params a run's reports have for a module. -/
def Reader.paramsOf (run : Reader) (e : String × RawMetrics) : RawMetrics :=
  (dictGet (paramsByKey run.reports) e.1).getD []

/-- The scenario of a module of a run. -/
def Reader.scenarioOf (settings : LlmbenchSettings) (run : Reader) (e : String × RawMetrics) : Scenario :=
  adapt settings.measured e.1 e.2 (run.paramsOf e) run.cards

theorem Reader.scenarios_eq (settings : LlmbenchSettings) (run : Reader) :
    run.scenarios settings = (splitMetrics run.metrics).map (run.scenarioOf settings) := rfl

/-- The modules of a benchmark, with nothing reported. -/
def benchmarkEntries (modules : List String) : List (String × RawMetrics) :=
  (instanceKeys modules).map fun key => (key, [])

theorem declaredScenarios_eq (settings : LlmbenchSettings) (modules : List String) :
    declaredScenarios settings modules =
      (benchmarkEntries modules).map fun e => adapt settings.declared e.1 e.2 [] none := by
  simp [declaredScenarios, benchmarkEntries]

/-- A run is asked for as its benchmark says. What is read from the run is not refused, what an adapter writes
is supported and reads back, and what is accepted is supported where it is read. -/
structure AskedAsDeclared (settings : LlmbenchSettings) (modules : List String) (run : Reader) : Prop where
  accepted : ∀ name found, isMeasureRef name = true →
    value name (run.scenarios settings) run.metrics = .ok (some found) → problemWith settings name modules = none
  acceptedGet : ∀ name default, isMeasureRef name = true → run.get settings name default ≠ default →
    problemWith settings name modules = none
  written : ∀ sc ∈ run.scenarios settings, ∀ point k, (dictGet (sc.at point) k).isSome = true →
    k ∈ sc.supports ∧ ReadsBack k
  supported : ∀ name ref sc, isMeasureRef name = true → parse name = .ok ref →
    problemWith settings name modules = none →
    mainScenario (run.scenarios settings) ref.scenario = some sc → ref.key ∈ sc.supports

/-- The run's main module is of the family of the benchmark's, or it reports nothing that tells them apart. -/
def SameReading (declared reported : String) (raw : RawMetrics) : Prop :=
  reported = declared ∨
    (declared = "perf_guidellm" ∧ reported = "perf_guidellm_sweep" ∧ levelsOf raw = []) ∨
    (declared = "unknown" ∧ kindOf reported = .quality ∧
      ∀ adapter ∈ dictGet qualityAdapters reported, (adapter raw).1 = [])

/-- The main module of a run is read as the benchmark's main module would be. -/
def MainAgrees (settings : LlmbenchSettings) (modules : List String) (run : Reader) : Prop :=
  ∀ reported ∈ mainEntry settings.measured (splitMetrics run.metrics),
    ∀ declared ∈ mainEntry settings.declared (benchmarkEntries modules),
      SameReading (familyOf settings.declared (moduleOf declared.1)) (familyOf settings.measured (moduleOf reported.1))
        reported.2

/-- An accuracy suite's tasks have names that a reference can hold, and are declared where a reference can
name the suite or means it without a name. -/
def TasksDeclared (settings : LlmbenchSettings) (run : Reader) : Prop :=
  ∀ e ∈ splitMetrics run.metrics, familyOf settings.measured (moduleOf e.1) = "opencompass" →
    ∀ task ∈ scoredTasks e.2, IsTaskName task ∧
      (IsScenario e.1.toList ∨ mainEntry settings.measured (splitMetrics run.metrics) = some e →
        task ∈ opencompassTasks)

section Reading

variable {settings : LlmbenchSettings} {modules : List String} {run : Reader} {ref : MeasureRef} {name : String}

/-! ### Values -/

theorem resolve_of_value {found : Value} (hname : isMeasureRef name = true)
    (h : value name (run.scenarios settings) run.metrics = .ok (some found)) :
    ∃ ref x, parse name = .ok ref ∧ resolve ref (run.scenarios settings) = some x := by
  unfold value at h
  rw [if_pos hname] at h
  cases hparse : parse name with
  | error e =>
      rw [hparse] at h
      cases h
  | ok ref =>
      cases hread : resolve ref (run.scenarios settings) with
      | none => simp [hparse, hread, Except.map] at h
      | some x => exact ⟨ref, x, rfl, hread⟩

theorem resolve_of_get {default : Value} (hname : isMeasureRef name = true)
    (h : run.get settings name default ≠ default) :
    ∃ ref x, parse name = .ok ref ∧ resolve ref (run.scenarios settings) = some x := by
  unfold Reader.get at h
  rw [if_pos hname] at h
  cases hparse : parse name with
  | error e => simp [hparse] at h
  | ok ref =>
      cases hread : resolve ref (run.scenarios settings) with
      | none => simp [hparse, hread] at h
      | some x => exact ⟨ref, x, rfl, hread⟩

theorem value_of_resolve {x : ℚ} (hname : isMeasureRef name = true) (hparse : parse name = .ok ref)
    (h : resolve ref (run.scenarios settings) = some x) :
    value name (run.scenarios settings) run.metrics = .ok (some (.float x)) := by
  unfold value
  rw [if_pos hname, hparse]
  simp [Except.map, h]

/-- Where a reference is read. -/
def MeasureRef.pointName (ref : MeasureRef) : String := (ref.point.filter fun p => p ≠ "").getD "operating"

theorem read_eq (sc : Scenario) (ref : MeasureRef) : sc.read ref = dictGet (sc.at ref.pointName) ref.key := rfl

theorem pointName_operating (hparse : parse name = .ok ref) (h : ref.pointName = "operating") :
    (ref.point.filter fun p => p ≠ "").isSome = false := by
  unfold MeasureRef.pointName at h
  cases hpoint : ref.point.filter fun p => p ≠ "" with
  | none => rfl
  | some p =>
      rw [hpoint] at h
      have hp := (parsed_fields hparse).2 p (Option.filter_eq_some_iff.mp hpoint).1
      exact absurd h hp

/-! ### Supports -/

theorem score_supported (family : String) (raw : RawMetrics) : "score" ∈ supportsOf family raw := by
  simp [supportsOf]

theorem accuracy_supported {task : String} : accuracyName task ∈ supportsOf "opencompass" [] ↔
    task ∈ opencompassTasks := by
  have hrest : ∀ k ∈ ["ttft_ms@mean", "tpot_ms@mean", "request_output_tps@mean", "output_tpm", "score"],
      k.toList.take 9 ≠ "accuracy[".toList := by decide
  have hsupports : supportsOf "opencompass" [] = ["ttft_ms@mean", "tpot_ms@mean", "request_output_tps@mean",
      "output_tpm"] ++ opencompassTasks.map accuracyName ++ ["score"] ++ [] := rfl
  rw [hsupports]
  constructor
  · intro h
    simp only [List.append_nil, List.mem_append, List.mem_map] at h
    rcases h with (h | ⟨task', htask, heq⟩) | h
    · exact absurd (by simp [accuracyName]) (hrest _ (List.mem_append_left ["score"] h))
    · exact accuracyName_injective heq ▸ htask
    · exact absurd (by simp [accuracyName])
        (hrest _ (List.mem_append_right ["ttft_ms@mean", "tpot_ms@mean", "request_output_tps@mean", "output_tpm"] h))
  · intro h
    simp only [List.append_nil, List.mem_append, List.mem_map]
    exact Or.inl (Or.inr ⟨task, h, rfl⟩)

theorem level_supported {k : String} (h : k ∈ supportsOf "perf_guidellm" []) :
    k ∈ supportsOf "perf_guidellm_sweep" [] := by
  have hone : supportsOf "perf_guidellm" [] = guidellmLevelSupports ++ ["score"] ++ [] := rfl
  have hsweep : supportsOf "perf_guidellm_sweep" [] = guidellmLevelSupports ++ ["meets_slo"] ++ ["score"] ++ [] := rfl
  rw [hone] at h
  rw [hsweep]
  simp only [List.append_nil, List.mem_append] at h ⊢
  tauto

/-! ### What is read is taken -/

/-- Where the families are the same and every task is declared, what a run's module holds its benchmark's takes. -/
theorem takes_of_read {m m' : ModuleFamilies} {key key' : String} {raw params : RawMetrics} {cards : Option ℚ} {x : ℚ}
    (hparse : parse name = .ok ref) (hfamily : familyOf m' (moduleOf key') = familyOf m (moduleOf key))
    (htasks : familyOf m (moduleOf key) = "opencompass" → ∀ task ∈ scoredTasks raw, task ∈ opencompassTasks)
    (hread : (adapt m key raw params cards).read ref = some x) : (adapt m' key' [] [] none).Takes ref := by
  have hheld : (dictGet ((adapt m key raw params cards).at ref.pointName) ref.key).isSome = true := by
    rw [← read_eq, hread]
    rfl
  refine ⟨fun hpoint => ?_, ?_⟩
  · rw [adapt_key_kind.2, hfamily]
    by_contra hkind
    have hname : ref.pointName ≠ "operating" := fun hop => by
      rw [pointName_operating hparse hop] at hpoint
      cases hpoint
    rw [adapt_at_other hkind hname] at hheld
    cases hheld
  · have hsupported := (adapt_reports m key ref.pointName).mem hheld
    rw [adapt_supports] at hsupported
    rw [adapt_supports, hfamily]
    rcases mem_supportsOf.mp hsupported with hmem | ⟨hsuite, hmem⟩
    · exact hmem
    · rw [taskScores_names] at hmem
      rcases List.mem_map.mp hmem with ⟨task, htask, heq⟩
      rw [hsuite, ← heq]
      exact accuracy_supported.mpr (htasks hsuite task htask)

theorem sweep_empty {sc : Scenario} {raw params : RawMetrics} {cards : Option ℚ} (hsc : sc.points = [])
    (h : levelsOf raw = []) : (sweep sc raw params cards).points = [] := by
  have hchosen : chooseLevel raw (levelsOf raw) = none := by
    have hreported : reportedLevel raw [] = none := by
      unfold reportedLevel
      cases numberAt raw "reported_concurrency" <;> rfl
    simp [chooseLevel, h, hreported]
  have hpeak : peakPoints raw params cards = [] := by simp [peakPoints, levelPoints, h, peakLevel, firstMax, sortLevels]
  rcases sweep_points hsc with ⟨-, hpoints⟩ | ⟨c, rule, hsome, hpoints⟩
  · rw [hpoints, hpeak]
  · rw [hchosen] at hsome
    cases hsome

/-- A module that reported nothing of its own holds its score at most. -/
theorem adapt_only_score {m : ModuleFamilies} {key : String} {raw params : RawMetrics} {cards : Option ℚ}
    {reported declared : String} (hreported : familyOf m (moduleOf key) = reported) (hne : reported ≠ declared)
    (hsame : SameReading declared reported raw) {point k : String}
    (h : (dictGet ((adapt m key raw params cards).at point) k).isSome = true) : point = "operating" ∧ k = "score" := by
  subst hreported
  -- the two families read the same, so neither is the replay
  have hreplay : familyOf m (moduleOf key) ≠ "replay" := by
    intro heq
    rw [heq] at hsame hne
    rcases hsame with hsame | ⟨-, hsame, -⟩ | ⟨-, hsame, -⟩
    · exact hne hsame
    · revert hsame
      decide
    · revert hsame
      decide
  -- what the reported family adapts is empty: a sweep without levels, or a quality report without numbers
  have hempty : ∀ (cards : Option ℚ) (name : String), (adaptFamily (familyOf m (moduleOf key))
      (blankScenario m key) raw params cards).at name = [] := by
    intro cards name
    unfold Scenario.at
    rcases hsame with hsame | ⟨-, hsweep, hlevels⟩ | ⟨-, hquality, hadapter⟩
    · exact absurd hsame hne
    · unfold adaptFamily
      rw [if_pos hsweep, sweep_empty rfl hlevels]
      rfl
    · have hnot : ∀ family, kindOf family ≠ .quality → familyOf m (moduleOf key) ≠ family := fun family hkind heq =>
        hkind (heq ▸ hquality)
      unfold adaptFamily
      rw [if_neg (hnot _ (by decide)), if_neg (hnot _ (by decide)), if_neg hreplay]
      cases hget : dictGet qualityAdapters (familyOf m (moduleOf key)) with
      | none =>
          by_cases hname : name = "operating"
          · simp [dictGet_set, hname]
          · simp [dictGet_set, hname, blankScenario]
      | some adapter =>
          have hout : (adapter raw).1 = [] := hadapter adapter hget
          by_cases hname : name = "operating"
          · simp only [dictGet_set, hname, if_true, Option.getD_some]
            exact hout
          · simp [dictGet_set, hname, blankScenario]
  -- what is left is the module's own score, at the operating point
  rw [adapt_at] at h
  by_cases hpoint : point = "operating"
  · refine ⟨hpoint, ?_⟩
    by_contra hk
    rw [hpoint] at h
    change (dictGet (Scenario.operating _) k).isSome = true at h
    rw [addScore_operating hreplay, dictGet_put, if_neg hk] at h
    change (dictGet (Scenario.at _ "operating") k).isSome = true at h
    rw [hempty] at h
    cases h
  · rw [addScore_at _ _ _ hpoint, hempty] at h
    cases h

/-! ### The scenario that is meant -/

theorem mem_of_mainEntry {m : ModuleFamilies} {entries : List (String × RawMetrics)} {e : String × RawMetrics}
    (h : mainEntry m entries = some e) : e ∈ entries := by
  unfold mainEntry at h
  rcases Option.or_eq_some_iff.mp h with h | ⟨-, h⟩
  · exact List.mem_of_find?_eq_some h
  · exact List.mem_of_mem_head? h

/-- With a throughput module there, the main module is one. -/
theorem mainEntry_throughput {m : ModuleFamilies} {entries : List (String × RawMetrics)} {e e' : String × RawMetrics}
    (h : mainEntry m entries = some e) (hmem : e' ∈ entries)
    (hkind : kindOf (familyOf m (moduleOf e'.1)) ≠ .quality) : kindOf (familyOf m (moduleOf e.1)) ≠ .quality := by
  unfold mainEntry at h
  rcases Option.or_eq_some_iff.mp h with h | ⟨hnone, -⟩
  · simpa using List.find?_some h
  · exact absurd hkind (by simpa using List.find?_eq_none.mp hnone e' hmem)

theorem main_of_run : mainScenario (run.scenarios settings) none =
    (mainEntry settings.measured (splitMetrics run.metrics)).map (run.scenarioOf settings) :=
  mainScenario_map run.paramsOf

/-- A benchmark with a module has a main module. -/
theorem main_declared {key : String} (h : key ∈ instanceKeys modules) :
    ∃ d, mainEntry settings.declared (benchmarkEntries modules) = some d := by
  refine Option.ne_none_iff_exists'.mp fun hnone => ?_
  have hempty : benchmarkEntries modules = [] := by simpa [mainEntry] using (Option.or_eq_none_iff.mp hnone).2
  have hin : (key, ([] : RawMetrics)) ∈ benchmarkEntries modules := List.mem_map.mpr ⟨key, h, rfl⟩
  rw [hempty] at hin
  cases hin

theorem main_of_benchmark {d : String × RawMetrics}
    (h : mainEntry settings.declared (benchmarkEntries modules) = some d) :
    mainScenario (declaredScenarios settings modules) none = some (adapt settings.declared d.1 [] [] none) := by
  have hraw : d.2 = [] := by
    rcases List.mem_map.mp (mem_of_mainEntry h) with ⟨key, -, rfl⟩
    rfl
  rw [declaredScenarios_eq, mainScenario_map fun _ => [], h, Option.map_some, hraw]

theorem find_benchmark {wanted : String} (h : wanted ∈ instanceKeys modules) :
    ((benchmarkEntries modules).find? fun e => e.1 = wanted) = some (wanted, []) := by
  cases hfind : (benchmarkEntries modules).find? fun e => e.1 = wanted with
  | none =>
      have hnone := List.find?_eq_none.mp hfind (wanted, []) (List.mem_map.mpr ⟨wanted, h, rfl⟩)
      simp at hnone
  | some e =>
      have hkey : e.1 = wanted := by simpa using List.find?_some hfind
      rcases List.mem_map.mp (List.mem_of_find?_eq_some hfind) with ⟨key, -, rfl⟩
      rw [← hkey]

theorem find_split {metrics : RawMetrics} {e : String × RawMetrics} (h : e ∈ splitMetrics metrics) :
    ((splitMetrics metrics).find? fun e' => e'.1 = e.1) = some e := by
  have hget : dictGet (splitMetrics metrics) e.1 = some e.2 := dictGet_of_mem (splitMetrics_nodup metrics) h
  unfold dictGet at hget
  rcases Option.map_eq_some_iff.mp hget with ⟨e', hfind, hvalue⟩
  have hkey : e'.1 = e.1 := by simpa using List.find?_some hfind
  rw [hfind, Prod.ext hkey hvalue]

/-- The scenario of a run that a reference is read from. -/
theorem scenario_read {sc : Scenario} (hparse : parse name = .ok ref)
    (h : mainScenario (run.scenarios settings) ref.scenario = some sc) :
    ∃ e ∈ splitMetrics run.metrics, sc = run.scenarioOf settings e ∧
      (∀ w ∈ ref.scenario, e.1 = w) ∧
      (ref.scenario = none → mainEntry settings.measured (splitMetrics run.metrics) = some e) := by
  cases hscenario : ref.scenario with
  | none =>
      rw [hscenario, main_of_run] at h
      rcases Option.map_eq_some_iff.mp h with ⟨e, hmain, rfl⟩
      exact ⟨e, mem_of_mainEntry hmain, rfl, by simp, fun _ => hmain⟩
  | some w =>
      have hw : w ≠ "" := by
        rintro rfl
        exact ((parsed_fields hparse).1 "" hscenario).module_ne (by decide)
      rw [hscenario, Reader.scenarios_eq] at h
      unfold Reader.scenarioOf at h
      rw [mainScenario_named run.paramsOf hw] at h
      rcases Option.map_eq_some_iff.mp h with ⟨e, hfind, rfl⟩
      refine ⟨e, List.mem_of_find?_eq_some hfind, rfl, ?_, by simp⟩
      intro w' hw'
      cases hw'
      simpa using List.find?_some hfind

/-- The scenario of its benchmark that the reference means. -/
theorem scenario_declared (hparse : parse name = .ok ref)
    (hreport : ∀ e ∈ splitMetrics run.metrics, e.1 ∈ instanceKeys modules) {e : String × RawMetrics}
    (he : e ∈ splitMetrics run.metrics) (hnamed : ∀ w ∈ ref.scenario, e.1 = w) :
    ∃ d, mainScenario (declaredScenarios settings modules) ref.scenario =
        some (adapt settings.declared d.1 [] [] none) ∧
      (∀ w ∈ ref.scenario, d.1 = w ∧
        familyOf settings.declared (moduleOf d.1) = familyOf settings.measured (moduleOf e.1)) ∧
      (ref.scenario = none → mainEntry settings.declared (benchmarkEntries modules) = some d) := by
  have hmem := hreport e he
  cases hscenario : ref.scenario with
  | none =>
      rcases main_declared hmem with ⟨d, hmain⟩
      exact ⟨d, main_of_benchmark hmain, by simp, fun _ => hmain⟩
  | some w =>
      have hwe : e.1 = w := hnamed w hscenario
      have hmodule : moduleOf w ≠ "" := ((parsed_fields hparse).1 w hscenario).module_ne
      have hw : w ≠ "" := by
        rintro rfl
        exact hmodule (by decide)
      refine ⟨(w, []), ?_, ?_, by simp⟩
      · rw [declaredScenarios_eq, mainScenario_named (fun _ => []) hw, find_benchmark (hwe ▸ hmem)]
        rfl
      · intro w' hw'
        cases hw'
        exact ⟨rfl, by rw [hwe]; exact familyOf_declared hmodule⟩

/-! ## Agreement -/

/-- What is read from a run its benchmark takes. -/
theorem declared_of_read (hreport : ∀ e ∈ splitMetrics run.metrics, e.1 ∈ instanceKeys modules)
    (hmain : MainAgrees settings modules run) (htasks : TasksDeclared settings run) {x : ℚ}
    (hparse : parse name = .ok ref) (hread : resolve ref (run.scenarios settings) = some x) :
    ∃ sc, mainScenario (declaredScenarios settings modules) ref.scenario = some sc ∧ sc.Takes ref := by
  rcases Option.bind_eq_some_iff.mp hread with ⟨sc, hsc, hvalue⟩
  rcases scenario_read hparse hsc with ⟨e, he, rfl, hnamed, hunnamed⟩
  rcases scenario_declared hparse hreport he hnamed with ⟨d, hd, hdnamed, hdunnamed⟩
  refine ⟨_, hd, ?_⟩
  have hdeclared : ∀ tasks : IsScenario e.1.toList ∨ mainEntry settings.measured (splitMetrics run.metrics) = some e,
      familyOf settings.measured (moduleOf e.1) = "opencompass" →
        ∀ task ∈ scoredTasks e.2, task ∈ opencompassTasks :=
    fun tasks hsuite task htask => (htasks e he hsuite task htask).2 tasks
  cases hscenario : ref.scenario with
  | some w =>
      have hw : e.1 = w := hnamed w hscenario
      have hscenarioName : IsScenario e.1.toList := hw ▸ (parsed_fields hparse).1 w hscenario
      exact takes_of_read hparse (hdnamed w hscenario).2 (hdeclared (Or.inl hscenarioName)) hvalue
  | none =>
      have hmainEntry := hunnamed hscenario
      have hsame := hmain e hmainEntry d (hdunnamed hscenario)
      by_cases heq : familyOf settings.measured (moduleOf e.1) = familyOf settings.declared (moduleOf d.1)
      · exact takes_of_read hparse heq.symm (hdeclared (Or.inr hmainEntry)) hvalue
      · -- nothing but the module's score is there to be read
        have hheld : (dictGet ((run.scenarioOf settings e).at ref.pointName) ref.key).isSome = true := by
          rw [← read_eq, hvalue]
          rfl
        have hscore := adapt_only_score rfl heq hsame hheld
        refine ⟨fun hpoint => ?_, ?_⟩
        · rw [pointName_operating hparse hscore.1] at hpoint
          cases hpoint
        · rw [adapt_supports, hscore.2]
          exact score_supported _ _

/-- What its benchmark takes is supported where it is read from a run. -/
theorem supported_of_declared (hreport : ∀ e ∈ splitMetrics run.metrics, e.1 ∈ instanceKeys modules)
    (hmain : MainAgrees settings modules run) {sc : Scenario} (hisref : isMeasureRef name = true)
    (hparse : parse name = .ok ref) (hproblem : problemWith settings name modules = none)
    (hsc : mainScenario (run.scenarios settings) ref.scenario = some sc) : ref.key ∈ sc.supports := by
  rcases scenario_read hparse hsc with ⟨e, he, rfl, hnamed, hunnamed⟩
  rcases scenario_declared hparse hreport he hnamed with ⟨d, hd, hdnamed, hdunnamed⟩
  rcases (problemWith_eq_none hisref hparse).mp hproblem with ⟨sc', hsc', -, htaken⟩
  rw [hd] at hsc'
  cases hsc'
  rw [adapt_supports] at htaken
  unfold Reader.scenarioOf
  rw [adapt_supports]
  refine mem_supportsOf.mpr (Or.inl ?_)
  cases hscenario : ref.scenario with
  | some w => rwa [← (hdnamed w hscenario).2]
  | none =>
      rcases hmain e (hunnamed hscenario) d (hdunnamed hscenario) with hsame | ⟨hone, hsweep, -⟩ | ⟨hunknown, -, -⟩
      · rwa [hsame]
      · rw [hone] at htaken
        rw [hsweep]
        exact level_supported htaken
      · have hscore : ref.key = "score" := by
          have hsupports : supportsOf "unknown" [] = [] ++ ["score"] ++ [] := rfl
          rw [hunknown, hsupports] at htaken
          simpa using htaken
        rw [hscore]
        exact score_supported _ _

theorem asked_of_agrees (hreport : ∀ e ∈ splitMetrics run.metrics, e.1 ∈ instanceKeys modules)
    (hmain : MainAgrees settings modules run) (htasks : TasksDeclared settings run) :
    AskedAsDeclared settings modules run where
  accepted := by
    intro name found hisref hvalue
    rcases resolve_of_value hisref hvalue with ⟨ref, x, hparse, hread⟩
    exact (problemWith_eq_none hisref hparse).mpr (declared_of_read hreport hmain htasks hparse hread)
  acceptedGet := by
    intro name default hisref hvalue
    rcases resolve_of_get hisref hvalue with ⟨ref, x, hparse, hread⟩
    exact (problemWith_eq_none hisref hparse).mpr (declared_of_read hreport hmain htasks hparse hread)
  written := by
    intro sc hsc point k hk
    rw [Reader.scenarios_eq] at hsc
    rcases List.mem_map.mp hsc with ⟨e, he, rfl⟩
    have hsupported := (adapt_reports settings.measured e.1 point).mem hk
    refine ⟨hsupported, ?_⟩
    rw [adapt_supports] at hsupported
    rcases mem_supportsOf.mp hsupported with hmem | ⟨hsuite, hmem⟩
    · exact supports_readBack _ k hmem
    · rw [taskScores_names] at hmem
      rcases List.mem_map.mp hmem with ⟨task, htask, rfl⟩
      exact accuracy_readsBack_iff.mpr (htasks e he hsuite task htask).1
  supported := fun _ _ _ hisref hparse hproblem hsc => supported_of_declared hreport hmain hisref hparse hproblem hsc

/-! ## What the agreement needs -/

/-- A measure that an accuracy suite scored is held under its task. -/
theorem task_held {e : String × RawMetrics} (hsuite : familyOf settings.measured (moduleOf e.1) = "opencompass")
    {task : String} (htask : task ∈ scoredTasks e.2) :
    (dictGet (run.scenarioOf settings e).operating (accuracyName task)).isSome = true :=
  adapt_held hsuite rfl (opencompass_held htask)

/-- What is held in the operating point of the main module is resolved by its own name. -/
theorem resolve_main {e : String × RawMetrics} {k : String}
    (hmain : mainEntry settings.measured (splitMetrics run.metrics) = some e)
    (hheld : (dictGet (run.scenarioOf settings e).operating k).isSome = true)
    (hkey : ref.key = k) (hscenario : ref.scenario = none) (hpoint : ref.point = none) :
    ∃ x, resolve ref (run.scenarios settings) = some x := by
  rcases Option.isSome_iff_exists.mp hheld with ⟨x, hx⟩
  refine ⟨x, ?_⟩
  unfold resolve
  rw [hscenario, main_of_run, hmain]
  subst hkey
  change dictGet ((run.scenarioOf settings e).at ref.pointName) ref.key = some x
  have hname : ref.pointName = "operating" := by simp [MeasureRef.pointName, hpoint]
  rw [hname]
  exact hx

/-- What is read back and held is accepted, so the benchmark's main module takes it. -/
theorem main_takes (h : AskedAsDeclared settings modules run) {e d : String × RawMetrics} {k : String}
    (hmain : mainEntry settings.measured (splitMetrics run.metrics) = some e)
    (hdeclared : mainEntry settings.declared (benchmarkEntries modules) = some d) (hback : ReadsBack k)
    (hheld : (dictGet (run.scenarioOf settings e).operating k).isSome = true) :
    k ∈ supportsOf (familyOf settings.declared (moduleOf d.1)) [] := by
  rcases hback with ⟨hisref, ref, hparse, -, hkey, hscenario, hpoint⟩
  rcases resolve_main hmain hheld hkey hscenario hpoint with ⟨x, hread⟩
  have hproblem := h.accepted k _ hisref (value_of_resolve hisref hparse hread)
  rcases (problemWith_eq_none hisref hparse).mp hproblem with ⟨sc, hsc, -, htaken⟩
  rw [hscenario, main_of_benchmark hdeclared] at hsc
  cases hsc
  rw [adapt_supports] at htaken
  exact hkey ▸ htaken

/-- A measure the benchmark's main module supports the run's main module supports. -/
theorem main_supports (h : AskedAsDeclared settings modules run) {e d : String × RawMetrics} {k : String}
    (hmain : mainEntry settings.measured (splitMetrics run.metrics) = some e)
    (hdeclared : mainEntry settings.declared (benchmarkEntries modules) = some d)
    (hk : k ∈ supportsOf (familyOf settings.declared (moduleOf d.1)) []) :
    k ∈ supportsOf (familyOf settings.measured (moduleOf e.1)) e.2 := by
  rcases supports_readBack _ k hk with ⟨hisref, ref, hparse, -, hkey, hscenario, hpoint⟩
  have htakes : (adapt settings.declared d.1 [] [] none).Takes ref := by
    refine ⟨by simp [hpoint], ?_⟩
    rw [adapt_supports, hkey]
    exact hk
  have hproblem : problemWith settings k modules = none :=
    (problemWith_eq_none hisref hparse).mpr ⟨_, by rw [hscenario, main_of_benchmark hdeclared], htakes⟩
  have hsupported := h.supported k ref (run.scenarioOf settings e) hisref hparse hproblem
    (by rw [hscenario, main_of_run, hmain]; rfl)
  unfold Reader.scenarioOf at hsupported
  rw [adapt_supports, hkey] at hsupported
  exact hsupported

/-- A sweep with a level has the concurrency of its peak. -/
theorem peak_held {m : ModuleFamilies} {key : String} {raw params : RawMetrics} {cards : Option ℚ}
    (hsweep : familyOf m (moduleOf key) = "perf_guidellm_sweep") (hlevels : levelsOf raw ≠ []) :
    (dictGet ((adapt m key raw params cards).at "peak") "concurrency").isSome = true := by
  obtain ⟨best, hbest⟩ : ∃ best, peakLevel (levelsOf raw) = some best :=
    Option.ne_none_iff_exists'.mp fun hnone => hlevels (firstMax_eq_none.mp hnone)
  have hmem : best ∈ levelsOf raw := (firstMax_eq_some.mp hbest).mem
  have hpeak : ∀ cards, (dictGet (peakPoints raw params cards) "peak").getD [] = levelPoint params cards best := by
    intro cards
    unfold peakPoints
    simp only [hbest]
    rw [dictGet_set, if_pos rfl, dictGet_levelPoints (levelsOf_nodup raw) hmem]
    rfl
  have hpoints : ∀ (sc : Scenario) (cards : Option ℚ), sc.points = [] →
      (sweep sc raw params cards).at "peak" = levelPoint params cards best := by
    intro sc cards hsc
    unfold Scenario.at
    rcases sweep_points hsc with ⟨-, hpts⟩ | ⟨c, rule, -, hpts⟩
    · rw [hpts, hpeak]
    · rw [hpts, dictGet_set, if_neg (by decide), hpeak]
  have hconcurrency : ∀ cards, dictGet (levelPoint params cards best) "concurrency" = some (best.1 : ℚ) := by
    intro cards
    unfold levelPoint guidellmLevel
    simp [dictGet_put, putAll]
  rw [adapt_at, addScore_at _ _ _ (by decide)]
  unfold adaptFamily
  rw [if_pos hsweep, hpoints _ _ rfl, hconcurrency]
  rfl

theorem score_notOwn {family : String} {adapter : RawMetrics → Point × List String} {raw : RawMetrics}
    (h : dictGet qualityAdapters family = some adapter) : "score" ∉ (adapter raw).2 := by
  have hmem := mem_of_dictGet h
  simp only [qualityAdapters, List.mem_cons, List.not_mem_nil, or_false, Prod.mk.injEq] at hmem
  have htask : ∀ task, accuracyName task ≠ "score" := by
    intro task heq
    have hprefix := congrArg (fun s => s.toList.take 9) heq
    simp [accuracyName] at hprefix
  rcases hmem with ⟨-, rfl⟩ | ⟨-, rfl⟩ | ⟨-, rfl⟩ | ⟨-, rfl⟩ | ⟨-, rfl⟩ | ⟨-, rfl⟩
  · simp [agentic]
  · have hnames : "score" ∉ (taskScores raw).map Prod.fst := by
      rw [taskScores_names]
      intro hin
      rcases List.mem_map.mp hin with ⟨task, -, heq⟩
      exact htask task heq
    intro hin
    simp only [opencompass, List.mem_append] at hin
    rcases hin with (hin | hin) | hin
    · revert hin
      decide
    · exact hnames hin
    · rcases List.mem_map.mp hin with ⟨task, -, heq⟩
      exact htask task heq
  · simp [functionalAcceptance, copied]
  · simp [toolCall, copied]
  · simp [hallucination, copied]
  · simp [caseTruncation, copied]

theorem main_agrees (hreport : ∀ e ∈ splitMetrics run.metrics, e.1 ∈ instanceKeys modules)
    (h : AskedAsDeclared settings modules run) : MainAgrees settings modules run := by
  intro e he d hd
  have hmem := mem_of_mainEntry he
  have hsc : run.scenarioOf settings e ∈ run.scenarios settings := List.mem_map_of_mem hmem
  by_cases hsame : familyOf settings.measured (moduleOf e.1) = familyOf settings.declared (moduleOf d.1)
  · exact Or.inl hsame
  have hkinds : kindOf (familyOf settings.measured (moduleOf e.1)) ≠ .quality →
      kindOf (familyOf settings.declared (moduleOf d.1)) ≠ .quality := by
    intro hkind
    have hin : (e.1, ([] : RawMetrics)) ∈ benchmarkEntries modules :=
      List.mem_map.mpr ⟨e.1, hreport e hmem, rfl⟩
    exact mainEntry_throughput hd hin (throughput_declared hkind)
  by_cases hunknown : familyOf settings.declared (moduleOf d.1) = "unknown"
  · refine Or.inr (Or.inr ⟨hunknown, ?_, fun adapter hadapter => eq_nil_iff_get.mpr fun k => ?_⟩)
    · by_contra hkind
      exact hkinds hkind (by rw [hunknown]; decide)
    · by_contra hk
      have hwrote : (dictGet (adapter e.2).1 k).isSome = true := Option.isSome_iff_ne_none.mpr hk
      have hheld : (dictGet (run.scenarioOf settings e).operating k).isSome = true := adapt_held rfl hadapter hwrote
      have hin := main_takes h he hd (h.written _ hsc "operating" k hheld).2 hheld
      have hscore : k = "score" := by
        have hsupports : supportsOf "unknown" [] = [] ++ ["score"] ++ [] := rfl
        rw [hunknown, hsupports] at hin
        simpa using hin
      exact score_notOwn hadapter (hscore ▸ (quality_writes hadapter).mem hwrote)
  by_cases hlevel : familyOf settings.declared (moduleOf d.1) = "perf_guidellm" ∧
      familyOf settings.measured (moduleOf e.1) = "perf_guidellm_sweep"
  · refine Or.inr (Or.inl ⟨hlevel.1, hlevel.2, ?_⟩)
    by_contra hlevels
    -- the peak of the sweep can be read, but not asked for
    let ref : MeasureRef := { measure := "concurrency", point := some "peak" }
    have hwell : ref.WellNamed := ⟨by decide, by simp [ref], by decide⟩
    have hheld : (dictGet ((run.scenarioOf settings e).at "peak") "concurrency").isSome = true :=
      peak_held hlevel.2 hlevels
    rcases Option.isSome_iff_exists.mp hheld with ⟨x, hx⟩
    have hread : resolve ref (run.scenarios settings) = some x := by
      have hkey : ref.key = "concurrency" := by decide
      unfold resolve
      rw [main_of_run, he]
      change dictGet ((run.scenarioOf settings e).at "peak") ref.key = some x
      rw [hkey, hx]
    have hproblem := h.accepted ref.text _ hwell.isMeasureRef (value_of_resolve hwell.isMeasureRef hwell.parse hread)
    rcases (problemWith_eq_none hwell.isMeasureRef hwell.parse).mp hproblem with ⟨sc, hmain, htakes⟩
    rw [main_of_benchmark hd] at hmain
    cases hmain
    have hkind := htakes.1 (by decide)
    rw [adapt_key_kind.2, hlevel.1] at hkind
    revert hkind
    decide
  · rcases family_marked _ (familyOf_mem settings.declared _) hunknown with ⟨mark, hmark, htask, hothers⟩
    have hsupported := main_supports h he hd hmark
    rcases mem_supportsOf.mp hsupported with hin | ⟨-, hin⟩
    · exact absurd hin (hothers _ (familyOf_mem settings.measured _) hsame hkinds hlevel)
    · rw [taskScores_names] at hin
      rcases List.mem_map.mp hin with ⟨task, -, heq⟩
      exact absurd heq.symm (htask task)

theorem tasks_declared (hreport : ∀ e ∈ splitMetrics run.metrics, e.1 ∈ instanceKeys modules)
    (h : AskedAsDeclared settings modules run) : TasksDeclared settings run := by
  intro e he hsuite task htask
  have hsc : run.scenarioOf settings e ∈ run.scenarios settings := List.mem_map_of_mem he
  -- the accuracy is held, so it is written under a name that is read back
  have hheld : (dictGet (run.scenarioOf settings e).operating (accuracyName task)).isSome = true :=
    task_held hsuite htask
  have hback := (h.written _ hsc "operating" _ hheld).2
  have hname := accuracy_readsBack_iff.mp hback
  refine ⟨hname, ?_⟩
  rintro (hscenario | hmain)
  · -- the suite is named by its key
    let ref : MeasureRef := { measure := "accuracy", qualifier := some task, scenario := some e.1 }
    have hwell : ref.WellNamed := ⟨isNamed_task hname, by simpa [ref] using hscenario, by simp [ref]⟩
    have hkey : ref.key = accuracyName task := by
      rw [accuracyName_eq]
      change "accuracy" ++ fieldText "@" "" none ++ fieldText "[" "]" (some task) = _
      rw [fieldText_some hname.1]
      simp only [String.append_assoc]
    have hne : e.1 ≠ "" := by
      intro hempty
      rw [hempty] at hscenario
      exact hscenario.module_ne (by decide)
    rcases Option.isSome_iff_exists.mp hheld with ⟨x, hx⟩
    have hread : resolve ref (run.scenarios settings) = some x := by
      unfold resolve
      rw [Reader.scenarios_eq]
      unfold Reader.scenarioOf
      rw [mainScenario_named run.paramsOf hne, find_split he]
      change dictGet (run.scenarioOf settings e).operating ref.key = some x
      rw [hkey, hx]
    have hproblem := h.accepted ref.text _ hwell.isMeasureRef (value_of_resolve hwell.isMeasureRef hwell.parse hread)
    -- the declared scenario that is asked takes it, so the suite has the task
    rcases (problemWith_eq_none hwell.isMeasureRef hwell.parse).mp hproblem with ⟨sc, hmain, -, htaken⟩
    rw [declaredScenarios_eq, mainScenario_named (fun _ => []) hne, find_benchmark (hreport e he)] at hmain
    cases hmain
    rw [adapt_supports, hkey, familyOf_declared hscenario.module_ne, hsuite] at htaken
    exact accuracy_supported.mp htaken
  · rcases main_declared (hreport e he) with ⟨d, hd⟩
    have hin := main_takes h hmain hd hback hheld
    -- the declared family is the suite's, or it reads what the suite reported as nothing
    rcases main_agrees hreport h e hmain d hd with hsame | ⟨-, hsweep, -⟩ | ⟨-, -, hnothing⟩
    · rw [← hsame, hsuite] at hin
      exact accuracy_supported.mp hin
    · rw [hsuite] at hsweep
      exact absurd hsweep (by decide)
    · have hempty := hnothing opencompass (by rw [hsuite]; rfl)
      have hwrote := opencompass_held htask
      rw [hempty] at hwrote
      cases hwrote

/-- A run is asked for as its benchmark says exactly when its main module is read as the benchmark's would be,
and its accuracy suites report declared tasks only. -/
theorem asked_as_declared_iff (settings : LlmbenchSettings) (modules : List String) (run : Reader)
    (hreport : ∀ e ∈ splitMetrics run.metrics, e.1 ∈ instanceKeys modules) :
    AskedAsDeclared settings modules run ↔ MainAgrees settings modules run ∧ TasksDeclared settings run :=
  ⟨fun h => ⟨main_agrees hreport h, tasks_declared hreport h⟩, fun h => asked_of_agrees hreport h.1 h.2⟩

end Reading

/-- A suite that reports a task which is not among the declared ones. -/
def undeclaredTask : Reader := { metrics := [("opencompass.mmlu", .float 80)] }

/-- The accuracy of the task is read from the run, and the benchmark is said never to report it. -/
theorem read_but_refused : (∀ e ∈ splitMetrics undeclaredTask.metrics, e.1 ∈ instanceKeys ["opencompass"]) ∧
    ¬ AskedAsDeclared {} ["opencompass"] undeclaredTask := by
  refine ⟨by decide, fun h => ?_⟩
  have hvalue : (undeclaredTask.get {} "accuracy[mmlu]" .null).truthy = true := by decide +kernel
  have hproblem := h.acceptedGet "accuracy[mmlu]" .null (by decide) (by
    intro hnull
    rw [hnull] at hvalue
    revert hvalue
    decide)
  revert hproblem
  decide

/-- A declared task is read and asked for. -/
theorem asked_as_declared_suite :
    AskedAsDeclared {} ["opencompass"] { metrics := [("opencompass.ifeval", .float 80)] } := by
  have hone : ∀ e ∈ splitMetrics [("opencompass.ifeval", .float 80)],
      e.1 = "opencompass" ∧ ∀ task ∈ scoredTasks e.2, task = "ifeval" := by decide
  have hbenchmark : ∀ d ∈ benchmarkEntries ["opencompass"], d.1 = "opencompass" := by decide
  refine (asked_as_declared_iff _ _ _ (by decide)).mpr ⟨?_, ?_⟩
  · intro e he d hd
    have hrun := (hone e (mem_of_mainEntry he)).1
    have hdeclared := hbenchmark d (mem_of_mainEntry hd)
    exact Or.inl (by rw [hrun, hdeclared]; decide)
  · intro e he _ task htask
    have htask' := (hone e he).2 task htask
    have hifeval : "ifeval".toList.all isScenarioChar = true ∧ "ifeval" ∈ opencompassTasks := by decide
    exact htask' ▸ ⟨⟨by decide, hifeval.1⟩, fun _ => hifeval.2⟩

end AutoTune
