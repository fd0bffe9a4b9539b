import AutoTune.Measures.SweepLevels

/-!
# What a module can report

The measures an adapter says it supports, next to those it writes: whatever a module reported, each point
of its scenario holds measures of its supports only. Except for an accuracy suite, whose tasks are those
of the result, a family supports the same measures in every run.
-/

namespace AutoTune

open Lib

/-! ## One family -/

/-- What the adapter of a family supports. -/
def ownSupports (family : String) (raw : RawMetrics) : List String :=
  if family = "perf_guidellm_sweep" then guidellmLevelSupports ++ ["meets_slo"]
  else if family = "perf_guidellm" then guidellmLevelSupports
  else if family = "replay" then replaySupports
  else ((dictGet qualityAdapters family).map fun adapter => (adapter raw).2).getD []

/-- A family's measures, the module's own score included. -/
def supportsOf (family : String) (raw : RawMetrics) : List String :=
  ownSupports family raw ++ ["score"] ++ if family = "replay" then ["score_per_gpu"] else []

/-! ### Adapters of what was answered -/

section Quality

variable {raw : RawMetrics}

theorem writes_listed (entries : List (String × Option ℚ)) :
    WritesKeys (entries.map Prod.fst) [] (putAll [] entries) :=
  writes_putAll (fun e he => List.mem_map.mpr ⟨e, he, rfl⟩) []

theorem copied_writes (keys : List (String × String)) : WritesKeys (copied raw keys).2 [] (copied raw keys).1 := by
  have hkeys : (keys.map fun e => (e.1, numberAt raw e.2)).map Prod.fst = keys.map Prod.fst := by simp
  unfold copied
  rw [← hkeys]
  exact writes_listed _

theorem opencompass_writes : WritesKeys (opencompass raw).2 [] (opencompass raw).1 := by
  have hscores : ∀ (scores : List (String × ℚ)) (out : Point),
      WritesKeys (scores.map Prod.fst) out (scores.foldl (fun out e => dictSet out e.1 e.2) out) := by
    intro scores
    induction scores with
    | nil => exact fun out => WritesKeys.refl _ out
    | cons e scores ih =>
        intro out
        have hstep : WritesKeys ((e :: scores).map Prod.fst) out (dictSet out e.1 e.2) := writes_set (by simp) out e.2
        exact hstep.trans ((ih _).mono (by simp))
  refine WritesKeys.trans ((hscores (taskScores raw) []).mono ?_) (writes_putAll ?_ _)
  · intro k hk
    simp only [opencompass, List.mem_append]
    exact Or.inl (Or.inr hk)
  · simp [opencompass]

theorem quality_writes {family : String} {adapter : RawMetrics → Point × List String}
    (h : dictGet qualityAdapters family = some adapter) : WritesKeys (adapter raw).2 [] (adapter raw).1 := by
  have hmem := mem_of_dictGet h
  simp only [qualityAdapters, List.mem_cons, List.not_mem_nil, or_false, Prod.mk.injEq] at hmem
  rcases hmem with ⟨-, rfl⟩ | ⟨-, rfl⟩ | ⟨-, rfl⟩ | ⟨-, rfl⟩ | ⟨-, rfl⟩ | ⟨-, rfl⟩
  · exact writes_listed _
  · exact opencompass_writes
  · exact copied_writes _
  · exact copied_writes _
  · exact copied_writes _
  · exact copied_writes _

end Quality

/-! ### Replays -/

theorem replay_writes (sc : Scenario) (raw params : RawMetrics) (cards : Option ℚ) :
    ∃ out, (replay sc raw params cards).points = dictSet sc.points "operating" out ∧
      WritesKeys replaySupports [] out := by
  have hforms : ∀ out : Point, WritesKeys replaySupports out (perGpu out cards) := by
    intro out
    refine writes_perGpu fun rate hrate _ => ?_
    simp only [List.mem_cons, List.not_mem_nil, or_false] at hrate
    rcases hrate with rfl | rfl | rfl | rfl | rfl <;> simp [replaySupports]
  have hbuckets : ∀ e ∈ replayBuckets raw, e.1 ∈ replaySupports := by
    simp [replayBuckets, promptBuckets, replaySupports, inBuckets, atStats]
  refine ⟨_, rfl, ?_⟩
  -- from the last step back to the first
  refine WritesKeys.trans ?_ (writes_putAll (by simp [replaySupports]) _)
  refine WritesKeys.trans ?_ (writes_putAll (by simp [replaySupports]) _)
  refine WritesKeys.trans ?_ (writes_putAll hbuckets _)
  refine WritesKeys.trans ?_ (writes_put (by simp [replaySupports, atStats]) _ _)
  refine WritesKeys.trans ?_ (writes_putAll (by simp [replaySupports, atStats]) _)
  refine WritesKeys.trans ?_ (writes_putAll (by simp [replaySupports, atStats]) _)
  refine WritesKeys.trans ?_ (writes_putAll (by simp [replaySupports, atStats]) _)
  refine WritesKeys.trans ?_ (writes_put (by simp [replaySupports, atStats]) _ _)
  refine WritesKeys.trans ?_ (hforms _)
  refine WritesKeys.trans ?_ (writes_put (by simp [replaySupports]) _ _)
  exact writes_putAll (by simp [replaySupports]) []

/-! ## Points -/

/-- Each point holds measures of these only. -/
def Reports (keys : List String) (points : List (String × Point)) : Prop :=
  ∀ name, WritesKeys keys [] ((dictGet points name).getD [])

section Points

variable {keys more : List String} {points : List (String × Point)} {raw params : RawMetrics} {cards : Option ℚ}
  {sc : Scenario}

theorem Reports.nil (keys : List String) : Reports keys [] := fun _ => WritesKeys.refl keys []

theorem Reports.mono (h : Reports keys points) (hsub : keys ⊆ more) : Reports more points := fun name =>
  (h name).mono hsub

theorem Reports.set (h : Reports keys points) {point : Point} (hpoint : WritesKeys keys [] point) (name : String) :
    Reports keys (dictSet points name point) := by
  intro other
  rw [dictGet_set]
  by_cases hname : other = name
  · rwa [if_pos hname]
  · rw [if_neg hname]
    exact h other

theorem levelPoint_writes (level : Nat × RawMetrics) :
    WritesKeys (guidellmLevelSupports ++ ["meets_slo"]) [] (levelPoint params cards level) :=
  ((guidellmLevel_supports _ _ _ _ _ _).mono (List.subset_append_left _ _)).trans (writes_put (by simp) _ _)

theorem levelPoints_reports (levels : List (Nat × RawMetrics)) :
    Reports (guidellmLevelSupports ++ ["meets_slo"]) (levelPoints params cards levels) := by
  have hfold : ∀ (levels : List (Nat × RawMetrics)) (points : List (String × Point)),
      Reports (guidellmLevelSupports ++ ["meets_slo"]) points →
      Reports (guidellmLevelSupports ++ ["meets_slo"])
        (levels.foldl (fun points level => dictSet points (levelName level.1) (levelPoint params cards level))
          points) := by
    intro levels
    induction levels with
    | nil => exact fun _ h => h
    | cons level levels ih => exact fun points h => ih _ (h.set (levelPoint_writes level) _)
  exact hfold _ _ (Reports.nil _)

/-- The points of a sweep before one is chosen: the levels and the peak. -/
def peakPoints (raw params : RawMetrics) (cards : Option ℚ) : List (String × Point) :=
  match peakLevel (levelsOf raw) with
  | some level =>
      dictSet (levelPoints params cards (levelsOf raw)) "peak"
        ((dictGet (levelPoints params cards (levelsOf raw)) (levelName level.1)).getD [])
  | none => levelPoints params cards (levelsOf raw)

theorem peakPoints_reports : Reports (guidellmLevelSupports ++ ["meets_slo"]) (peakPoints raw params cards) := by
  have hlevels : Reports (guidellmLevelSupports ++ ["meets_slo"]) (levelPoints params cards (levelsOf raw)) :=
    levelPoints_reports _
  unfold peakPoints
  cases peakLevel (levelsOf raw) with
  | none => exact hlevels
  | some level => exact hlevels.set (hlevels _) _

/-- A level's point as the operating point: a flag of the whole sweep is for a level without its own. -/
def withFlag (raw : RawMetrics) (point : Point) : Point :=
  put point "meets_slo" (if dictHas point "meets_slo" = true then none
    else (numberAt raw "reported_level_meets_slo").bind fun _ => (dictGet raw "reported_level_meets_slo").bind flag)

/-- A sweep has the points of its levels, its peak, and the level that is chosen if one is. -/
theorem sweep_points (hsc : sc.points = []) :
    (chooseLevel raw (levelsOf raw) = none ∧ (sweep sc raw params cards).points = peakPoints raw params cards) ∨
      ∃ c rule, chooseLevel raw (levelsOf raw) = some (c, rule) ∧
        (sweep sc raw params cards).points = dictSet (peakPoints raw params cards) "operating"
          (withFlag raw ((dictGet (peakPoints raw params cards) (levelName c)).getD [])) := by
  unfold sweep
  rw [hsc]
  dsimp only
  cases hchosen : chooseLevel raw (levelsOf raw) with
  | none => exact Or.inl ⟨rfl, rfl⟩
  | some chosen =>
      rcases chosen with ⟨c, rule⟩
      let point := (dictGet (peakPoints raw params cards) (levelName c)).getD []
      let whole := (numberAt raw "reported_level_meets_slo").bind fun _ =>
        (dictGet raw "reported_level_meets_slo").bind flag
      refine Or.inr ⟨c, rule, rfl, ?_⟩
      change dictSet (peakPoints raw params cards) "operating"
        (if dictHas point "meets_slo" = true then point else put point "meets_slo" whole) =
          dictSet (peakPoints raw params cards) "operating"
            (put point "meets_slo" (if dictHas point "meets_slo" = true then none else whole))
      by_cases hflag : dictHas point "meets_slo" = true
      · simp only [hflag, if_true]
        rfl
      · simp only [hflag]
        rfl

theorem sweep_supports : (sweep sc raw params cards).supports = guidellmLevelSupports ++ ["meets_slo"] := by
  unfold sweep
  dsimp only
  cases chooseLevel raw (levelsOf raw) with
  | none => rfl
  | some chosen => rfl

theorem sweep_reports (hsc : sc.points = []) :
    Reports (guidellmLevelSupports ++ ["meets_slo"]) (sweep sc raw params cards).points := by
  have hpeak : Reports (guidellmLevelSupports ++ ["meets_slo"]) (peakPoints raw params cards) := peakPoints_reports
  rcases sweep_points hsc with ⟨-, hpoints⟩ | ⟨c, rule, -, hpoints⟩
  · rw [hpoints]
    exact hpeak
  · rw [hpoints]
    exact hpeak.set ((hpeak _).trans (writes_put (by simp) _ _)) _

/-! ## The scenario of a module -/

/-- A scenario before its adapter has run. -/
def blankScenario (m : ModuleFamilies) (key : String) : Scenario where
  key := key
  module := moduleOf key
  family := familyOf m (moduleOf key)
  kind := kindOf (familyOf m (moduleOf key))

/-- The cards a module ran on: those that are told, or those its rates tell. -/
def cardsOf (raw : RawMetrics) (cards : Option ℚ) : Option ℚ := (nonzero cards).or (cardsFromCardNorm raw)

/-- A point of a module is what its adapter wrote, and the score. -/
theorem adapt_at (m : ModuleFamilies) (key : String) (raw params : RawMetrics) (cards : Option ℚ) (name : String) :
    (adapt m key raw params cards).at name =
      (addScore (familyOf m (moduleOf key)) (numberAt raw "score") (cardsOf raw cards)
        (adaptFamily (familyOf m (moduleOf key)) (blankScenario m key) raw params (cardsOf raw cards))).at name := rfl

theorem addScore_reports {family : String} {score : Option ℚ} (h : Reports keys sc.points) (hscore : "score" ∈ keys)
    (hperGpu : family = "replay" → "score_per_gpu" ∈ keys) : Reports keys (addScore family score cards sc).points := by
  cases score with
  | none => exact h
  | some score =>
      have hpoint : WritesKeys keys [] (dictSet sc.operating "score" score) := (h _).trans (writes_set hscore _ _)
      refine h.set ?_ _
      split
      · rename_i hfamily
        exact hpoint.trans (writes_put (hperGpu hfamily) _ _)
      · exact hpoint

theorem adaptFamily_supports (family : String) :
    (adaptFamily family sc raw params cards).supports = ownSupports family raw := by
  unfold adaptFamily ownSupports
  split
  · exact sweep_supports
  · split
    · rfl
    · split
      · rfl
      · cases dictGet qualityAdapters family <;> rfl

theorem adaptFamily_reports (family : String) (hsc : sc.points = []) :
    Reports (ownSupports family raw) (adaptFamily family sc raw params cards).points := by
  have hnone : ∀ keys, Reports keys sc.points := by
    intro keys
    rw [hsc]
    exact Reports.nil keys
  unfold adaptFamily ownSupports
  split
  · exact sweep_reports hsc
  · split
    · exact (hnone _).set (guidellmLevel_supports _ _ _ _ _ _) _
    · split
      · rcases replay_writes sc raw params cards with ⟨out, hpoints, hout⟩
        rw [hpoints]
        exact (hnone _).set hout _
      · cases hadapter : dictGet qualityAdapters family with
        | none => exact (hnone _).set (WritesKeys.refl _ _) _
        | some adapter => exact (hnone _).set (quality_writes hadapter) _

/-- What a module supports, whatever it is made of. -/
theorem adapt_supports (m : ModuleFamilies) (key : String) :
    (adapt m key raw params cards).supports = supportsOf (familyOf m (moduleOf key)) raw := by
  have hscore : ∀ family score cards (sc : Scenario), (addScore family score cards sc).supports = sc.supports := by
    intro family score cards sc
    cases score <;> rfl
  unfold adapt supportsOf
  dsimp only
  rw [hscore, adaptFamily_supports]

/-- Each point of a module's scenario holds measures the module supports. -/
theorem adapt_reports (m : ModuleFamilies) (key : String) :
    Reports (adapt m key raw params cards).supports (adapt m key raw params cards).points := by
  rw [adapt_supports]
  refine addScore_reports ((adaptFamily_reports _ rfl).mono ?_) ?_ ?_
  · intro k hk
    simp only [supportsOf, List.mem_append]
    exact Or.inl (Or.inl hk)
  · simp [supportsOf]
  · intro hfamily
    simp [supportsOf, hfamily]

end Points

end AutoTune
