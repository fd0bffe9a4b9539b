import AutoTune.Measures.MeasureNames
import AutoTune.Measures.Scenarios

/-!
# What a benchmark can be asked for

An objective is judged by the scenarios of a benchmark that has reported nothing, and read from those of a
run. The two agree where the run's main module is of the family that the benchmark's is of, and where an
accuracy suite reports no tasks but the declared ones.
-/

namespace AutoTune

open Lib

/-! ## One scenario -/

section Scenario

variable {m : ModuleFamilies} {key : String} {raw params : RawMetrics} {cards : Option ℚ}

theorem adapt_key_kind : (adapt m key raw params cards).key = key ∧
    (adapt m key raw params cards).kind = kindOf (familyOf m (moduleOf key)) := by
  have hsweep : ∀ (sc : Scenario) (cards : Option ℚ), (sweep sc raw params cards).key = sc.key ∧
      (sweep sc raw params cards).kind = sc.kind := by
    intro sc cards
    unfold sweep
    dsimp only
    cases chooseLevel raw (levelsOf raw) <;> exact ⟨rfl, rfl⟩
  have hfamily : ∀ (family : String) (sc : Scenario) (cards : Option ℚ),
      (adaptFamily family sc raw params cards).key = sc.key ∧
        (adaptFamily family sc raw params cards).kind = sc.kind := by
    intro family sc cards
    unfold adaptFamily
    split
    · exact hsweep sc cards
    · split
      · exact ⟨rfl, rfl⟩
      · split <;> exact ⟨rfl, rfl⟩
  have hscore : ∀ (family : String) (score cards : Option ℚ) (sc : Scenario),
      (addScore family score cards sc).key = sc.key ∧ (addScore family score cards sc).kind = sc.kind := by
    intro family score cards sc
    cases score <;> exact ⟨rfl, rfl⟩
  unfold adapt
  dsimp only
  rw [(hscore _ _ _ _).1, (hscore _ _ _ _).2]
  exact hfamily _ _ _

/-- Only a sweep has points beside the operating point. -/
theorem adapt_at_other (h : kindOf (familyOf m (moduleOf key)) ≠ .sweep) {name : String} (hname : name ≠ "operating") :
    (adapt m key raw params cards).at name = [] := by
  have hfamily : familyOf m (moduleOf key) ≠ "perf_guidellm_sweep" := by
    intro heq
    rw [heq] at h
    exact h rfl
  rw [adapt_at, addScore_at _ _ _ hname]
  unfold adaptFamily Scenario.at
  rw [if_neg hfamily]
  split
  · simp [single, dictGet_set, hname, blankScenario]
  · split
    · rcases replay_writes (blankScenario m key) raw params (cardsOf raw cards) with ⟨out, hpoints, -⟩
      rw [hpoints, dictGet_set, if_neg hname]
      rfl
    · simp [dictGet_set, hname, blankScenario]

/-! ### What is held -/

theorem held_set {out : Point} {k : String} (h : (dictGet out k).isSome = true) (key : String) (n : ℚ) :
    (dictGet (dictSet out key n) k).isSome = true := by
  rw [dictGet_set]
  split
  · rfl
  · exact h

theorem held_put {out : Point} {k : String} (h : (dictGet out k).isSome = true) (key : String) (value : Option ℚ) :
    (dictGet (put out key value) k).isSome = true := by
  cases value with
  | none => exact h
  | some n => exact held_set h key n

theorem held_putAll {out : Point} {k : String} (h : (dictGet out k).isSome = true)
    (entries : List (String × Option ℚ)) : (dictGet (putAll out entries) k).isSome = true := by
  induction entries generalizing out with
  | nil => exact h
  | cons e entries ih => exact ih (held_put h e.1 e.2)

/-- The score is added to what the adapter wrote. -/
theorem held_addScore {sc : Scenario} {k : String} (h : (dictGet sc.operating k).isSome = true) (family : String)
    (score cards : Option ℚ) : (dictGet (addScore family score cards sc).operating k).isSome = true := by
  cases score with
  | none => exact h
  | some score =>
      simp only [addScore]
      unfold Scenario.operating
      rw [dictGet_set, if_pos rfl, Option.getD_some]
      split
      · exact held_put (held_set h _ _) _ _
      · exact held_set h _ _

theorem adapt_held {family : String} {adapter : RawMetrics → Point × List String}
    (hfamily : familyOf m (moduleOf key) = family) (hadapter : dictGet qualityAdapters family = some adapter)
    {k : String} (hk : (dictGet (adapter raw).1 k).isSome = true) :
    (dictGet (adapt m key raw params cards).operating k).isSome = true := by
  have hquality : family ≠ "perf_guidellm_sweep" ∧ family ≠ "perf_guidellm" ∧ family ≠ "replay" := by
    have hmem := mem_of_dictGet hadapter
    have hnames : ∀ e ∈ qualityAdapters.map Prod.fst,
        e ≠ "perf_guidellm_sweep" ∧ e ≠ "perf_guidellm" ∧ e ≠ "replay" := by decide
    exact hnames family (List.mem_map.mpr ⟨_, hmem, rfl⟩)
  have hoperating : (adaptFamily family (blankScenario m key) raw params (cardsOf raw cards)).operating =
      (adapter raw).1 := by
    unfold adaptFamily Scenario.operating
    rw [if_neg hquality.1, if_neg hquality.2.1, if_neg hquality.2.2, hadapter]
    simp [dictGet_set]
  subst hfamily
  change (dictGet ((adapt m key raw params cards).at "operating") k).isSome = true
  rw [adapt_at]
  exact held_addScore (by rw [hoperating]; exact hk) _ _ _

end Scenario

/-! ### Tasks of an accuracy suite -/

/-- The keys that are scored as tasks. -/
def scoredTasks (raw : RawMetrics) : List String :=
  (raw.filter fun entry => isTask entry && (number entry.2).isSome).map Prod.fst

theorem taskScores_names (raw : RawMetrics) : (taskScores raw).map Prod.fst = (scoredTasks raw).map accuracyName := by
  unfold taskScores scoredTasks
  induction raw with
  | nil => rfl
  | cons entry raw ih =>
      cases htask : isTask entry with
      | false => simpa [List.filterMap_cons, htask] using ih
      | true =>
          cases hnumber : number entry.2 with
          | none => simpa [List.filterMap_cons, htask, hnumber] using ih
          | some n => simpa [List.filterMap_cons, htask, hnumber] using ih

theorem opencompass_held {raw : RawMetrics} {task : String} (h : task ∈ scoredTasks raw) :
    (dictGet (opencompass raw).1 (accuracyName task)).isSome = true := by
  have hscored : accuracyName task ∈ (taskScores raw).map Prod.fst := by
    rw [taskScores_names]
    exact List.mem_map.mpr ⟨task, h, rfl⟩
  refine held_putAll ?_ _
  generalize taskScores raw = scores at hscored
  have hfold : ∀ (scores : List (String × ℚ)) (out : Point) (k : String),
      (k ∈ scores.map Prod.fst ∨ (dictGet out k).isSome = true) →
      (dictGet (scores.foldl (fun out e => dictSet out e.1 e.2) out) k).isSome = true := by
    intro scores
    induction scores with
    | nil => exact fun out k hk => hk.resolve_left (by simp)
    | cons e scores ih =>
        intro out k hk
        refine ih _ k ?_
        rw [List.map_cons, List.mem_cons] at hk
        rcases hk with (rfl | hk) | hk
        · exact Or.inr (by rw [dictGet_set, if_pos rfl]; rfl)
        · exact Or.inl hk
        · exact Or.inr (held_set hk _ _)
  exact hfold scores [] _ (Or.inl hscored)

/-! ## The main module -/

/-- The module a reference without a scenario is of. -/
def mainEntry (m : ModuleFamilies) (entries : List (String × RawMetrics)) : Option (String × RawMetrics) :=
  (entries.find? fun e => kindOf (familyOf m (moduleOf e.1)) ≠ .quality).or entries.head?

theorem mainScenario_map {m : ModuleFamilies} {entries : List (String × RawMetrics)}
    (params : String × RawMetrics → RawMetrics) {cards : Option ℚ} :
    mainScenario (entries.map fun e => adapt m e.1 e.2 (params e) cards) none =
      (mainEntry m entries).map fun e => adapt m e.1 e.2 (params e) cards := by
  have hthroughput : ∀ e : String × RawMetrics, (adapt m e.1 e.2 (params e) cards).isThroughput =
      decide (kindOf (familyOf m (moduleOf e.1)) ≠ .quality) := by
    intro e
    rw [Scenario.isThroughput, adapt_key_kind.2]
  simp [mainScenario, mainEntry, List.find?_map, List.head?_map, Function.comp_def, hthroughput, Option.map_or]

theorem mainScenario_named {entries : List (String × RawMetrics)} {m : ModuleFamilies}
    (params : String × RawMetrics → RawMetrics) {cards : Option ℚ} {wanted : String} (hwanted : wanted ≠ "") :
    mainScenario (entries.map fun e => adapt m e.1 e.2 (params e) cards) (some wanted) =
      (entries.find? fun e => e.1 = wanted).map fun e => adapt m e.1 e.2 (params e) cards := by
  have hkey : ∀ e : String × RawMetrics, (adapt m e.1 e.2 (params e) cards).key = e.1 := fun e => adapt_key_kind.1
  simp [mainScenario, Option.filter_some, hwanted, List.find?_map, Function.comp_def, hkey]

/-! ## Judging a reference -/

/-- The scenario takes the reference: a point only of a sweep, and a measure it supports. -/
def Scenario.Takes (sc : Scenario) (ref : MeasureRef) : Prop :=
  ((ref.point.filter fun p => p ≠ "").isSome = true → sc.kind = .sweep) ∧ ref.key ∈ sc.supports

/-- A reference has no problem when the scenario it means takes it. -/
theorem problemWith_eq_none {settings : LlmbenchSettings} {modules : List String} {name : String} {ref : MeasureRef}
    (hname : isMeasureRef name = true) (hparse : parse name = .ok ref) :
    problemWith settings name modules = none ↔
      ∃ sc, mainScenario (declaredScenarios settings modules) ref.scenario = some sc ∧ sc.Takes ref := by
  unfold problemWith
  rw [if_pos hname, hparse]
  dsimp only
  cases hmain : mainScenario (declaredScenarios settings modules) ref.scenario with
  | none => cases ref.scenario.filter fun s => s ≠ "" <;> simp
  | some sc =>
      unfold Scenario.Takes
      cases hpoint : ref.point.filter fun p => p ≠ "" with
      | none => simp
      | some point => by_cases hkind : sc.kind = .sweep <;> simp [hkind]

/-- What `parse` says of the scenario and the point. -/
theorem parsed_fields {name : String} {ref : MeasureRef} (h : parse name = .ok ref) :
    (∀ s ∈ ref.scenario, IsScenario s.toList) ∧ ∀ p ∈ ref.point, p ≠ "operating" := by
  rcases parse_eq_ok.mp h with ⟨m, spec, hmatch, hspec, -, rfl⟩
  rcases matchRef_strip_iff.mp hmatch with ⟨hm, -⟩
  refine ⟨fun s hs => ?_, fun p hp => ?_⟩
  · exact (hm.ref (byName_mem hspec)).scenario s.toList (by simp only [Option.mem_def] at hs; simp [MeasureRef.toMatch, hs])
  · simp only [RefMatch.ref, Option.mem_def, Option.filter_eq_some_iff] at hp
    simpa using hp.2

/-- A scenario's name has a module in it. -/
theorem IsScenario.module_ne {key : String} (h : IsScenario key.toList) : moduleOf key ≠ "" := by
  rcases h with ⟨name, ordinal, hkey, hne, hname, -⟩
  cases name with
  | nil => exact absurd rfl hne
  | cons c name =>
      have hc : c ≠ '#' := by
        rintro rfl
        have hchar := List.all_eq_true.mp hname '#' List.mem_cons_self
        revert hchar
        decide
      intro hempty
      have hchars := congrArg String.toList hempty
      simp [moduleOf, partitionAt, hkey, hc] at hchars

/-! ### Settings -/

variable {settings : LlmbenchSettings}

/-- With a replay module set, modules are recognized alike. -/
theorem declared_eq_measured (h : settings.replayModule ≠ "") : settings.declared = settings.measured := by
  simp [LlmbenchSettings.declared, LlmbenchSettings.measured, h]

/-- Both ways of recognizing a module are the same, but for the module without a name. -/
theorem familyOf_declared {module : String} (h : module ≠ "") :
    familyOf settings.declared module = familyOf settings.measured module := by
  by_cases hempty : settings.replayModule = ""
  · simp [familyOf, LlmbenchSettings.declared, LlmbenchSettings.measured, hempty, h]
  · rw [declared_eq_measured hempty]

/-- A throughput module of a run is one of its benchmark. -/
theorem throughput_declared {module : String} (h : kindOf (familyOf settings.measured module) ≠ .quality) :
    kindOf (familyOf settings.declared module) ≠ .quality := by
  by_cases hmodule : module = ""
  · by_cases hempty : settings.replayModule = ""
    · have hreplay : familyOf settings.declared module = "replay" := by
        simp [familyOf, LlmbenchSettings.declared, hempty, hmodule]
      rw [hreplay]
      decide
    · rwa [declared_eq_measured hempty]
  · rwa [familyOf_declared hmodule]

/-! ### Families -/

/-- The families of the modules there are. -/
def everyFamily : List String := families ++ ["unknown"]

theorem familyOf_mem (m : ModuleFamilies) (module : String) : familyOf m module ∈ everyFamily := by
  unfold familyOf everyFamily
  by_cases hreplay : module = "replay" ∨ module ∈ m.replayNames
  · simp [hreplay, families]
  · by_cases hmapped : (dictGet m.aliases module).getD module ∈ families
    · simp [hreplay, hmapped]
    · simp [hreplay, hmapped]

/-- A measure that no other family of its kind supports. -/
def familyMarks : List (String × String) :=
  [("perf_guidellm_sweep", "meets_slo"), ("perf_guidellm", "itl_ms@p90"), ("replay", "score_per_gpu"),
    ("agentic", "itl_ms@mean"), ("opencompass", "tpot_ms@mean"), ("functional_acceptance", "pass_rate"),
    ("tool_call_success", "tool_call_success_rate"), ("hallucination", "hallucination_rate"),
    ("case_truncation", "long_output_completion_rate")]

/-- Where a family's measures are all supported by another that a run may mean instead, the two are one
level and a sweep, or the first one is not known. -/
theorem family_marked : ∀ declared ∈ everyFamily, declared ≠ "unknown" →
    ∃ mark ∈ supportsOf declared [], (∀ task, mark ≠ accuracyName task) ∧
      ∀ reported ∈ everyFamily, reported ≠ declared →
        (kindOf reported ≠ .quality → kindOf declared ≠ .quality) →
        ¬ (declared = "perf_guidellm" ∧ reported = "perf_guidellm_sweep") → mark ∉ supportsOf reported [] := by
  have hnames : ∀ declared ∈ everyFamily, declared ≠ "unknown" → declared ∈ familyMarks.map Prod.fst := by
    decide
  have hmarks : ∀ entry ∈ familyMarks,
      entry.2 ∈ supportsOf entry.1 [] ∧ entry.2.toList.take 9 ≠ "accuracy[".toList := by decide
  have hothers : ∀ entry ∈ familyMarks, ∀ reported ∈ everyFamily, reported ≠ entry.1 →
      (kindOf reported ≠ .quality → kindOf entry.1 ≠ .quality) →
      ¬ (entry.1 = "perf_guidellm" ∧ reported = "perf_guidellm_sweep") →
      entry.2 ∉ supportsOf reported [] := by decide
  intro declared hdeclared hknown
  rcases List.mem_map.mp (hnames declared hdeclared hknown) with ⟨entry, hentry, rfl⟩
  refine ⟨entry.2, (hmarks entry hentry).1, fun task heq => (hmarks entry hentry).2 ?_, hothers entry hentry⟩
  simp [heq, accuracyName]

end AutoTune
