import AutoTune.Measures.Points
import Mathlib.Tactic.Linarith

/-!
# The best level of a sweep

Levels are compared by the total a level reports, with a default below every rate, while the total rate
of a level may also be made of its input and output. The operating point and the peak are best among
their levels exactly when a reported total leads, or none is reported and the level that is then taken
happens to be best.
-/

namespace AutoTune

open Lib

/-! ## The levels -/

theorem addLevel_nodup {levels : List (Nat × RawMetrics)} (h : (levels.map Prod.fst).Nodup)
    (entry : String × Value) : ((addLevel levels entry).map Prod.fst).Nodup := by
  unfold addLevel
  dsimp only
  cases levelOf (partitionAt '.' entry.1).1 with
  | none => exact h
  | some c =>
      by_cases hleaf : (partitionAt '.' entry.1).2 = ""
      · simpa [hleaf] using h
      · simpa [hleaf] using nodup_dictSet h c _

/-- Each level is there once. -/
theorem levelsOf_nodup (raw : RawMetrics) : ((levelsOf raw).map Prod.fst).Nodup :=
  nodup_foldl addLevel_nodup raw List.nodup_nil

theorem levelName_injective : Function.Injective levelName := by
  intro m n h
  exact toString_nat_injective (by simpa [levelName] using h)

theorem levelName_ne {c : Nat} {name : String} (h : name.toList.head? ≠ some 'c') : levelName c ≠ name := by
  rintro rfl
  simp [levelName] at h

/-! ## Points -/

/-- The point of a scenario by its name. -/
def Scenario.at (sc : Scenario) (name : String) : Point := (dictGet sc.points name).getD []

/-- The points of the levels, written one by one. -/
def levelPoints (params : RawMetrics) (cards : Option ℚ) (levels : List (Nat × RawMetrics)) :
    List (String × Point) :=
  (sortLevels levels).foldl (fun points level => dictSet points (levelName level.1) (levelPoint params cards level)) []

section Points

variable {params : RawMetrics} {cards : Option ℚ} {levels : List (Nat × RawMetrics)}

/-- The points of the levels are those of each level under its name. -/
theorem dictGet_levelPoints_iff (hnd : (levels.map Prod.fst).Nodup) {name : String} {point : Point} :
    dictGet (levelPoints params cards levels) name = some point ↔
      ∃ level ∈ levels, name = levelName level.1 ∧ point = levelPoint params cards level := by
  have hperm : (sortLevels levels).Perm levels := List.perm_insertionSort _ levels
  let named := (sortLevels levels).map fun level => (levelName level.1, levelPoint params cards level)
  have hnames : (named.map Prod.fst).Nodup := by
    have hsorted : ((sortLevels levels).map Prod.fst).Nodup := (hperm.map Prod.fst).nodup_iff.mpr hnd
    simpa [named, List.map_map, Function.comp_def] using hsorted.map levelName_injective
  have hfold : levelPoints params cards levels = named.foldl (fun d e => dictSet d e.1 e.2) [] := by
    simp [levelPoints, named, List.foldl_map]
  rw [hfold, foldl_dictSet_fresh (by simpa using hnames), List.nil_append]
  constructor
  · intro h
    rcases List.mem_map.mp (mem_of_dictGet h) with ⟨level, hlevel, heq⟩
    cases heq
    exact ⟨level, hperm.mem_iff.mp hlevel, rfl, rfl⟩
  · rintro ⟨level, hlevel, rfl, rfl⟩
    exact dictGet_of_mem hnames (List.mem_map.mpr ⟨level, hperm.mem_iff.mpr hlevel, rfl⟩)

theorem dictGet_levelPoints (hnd : (levels.map Prod.fst).Nodup) {level : Nat × RawMetrics} (h : level ∈ levels) :
    dictGet (levelPoints params cards levels) (levelName level.1) = some (levelPoint params cards level) :=
  (dictGet_levelPoints_iff hnd).mpr ⟨level, h, rfl, rfl⟩

/-- What a level has for its total rate. -/
def levelTpm (level : RawMetrics) : Option ℚ :=
  totalTpm (numberAt level "output_tps_mean") (numberAt level "total_tps_mean") (numberAt level "input_tps_mean")

theorem levelPoint_total (level : Nat × RawMetrics) :
    dictGet (levelPoint params cards level) "total_tpm" = levelTpm level.2 := by
  unfold levelPoint levelTpm
  rw [dictGet_put, if_neg (by decide), guidellmLevel_total]

theorem levelPoint_score (level : Nat × RawMetrics) : dictGet (levelPoint params cards level) "score" = none := by
  unfold levelPoint
  rw [dictGet_put, if_neg (by decide),
    guidellmLevel_supports _ _ _ _ _ _ "score" (by simp [guidellmLevelSupports, atStats])]
  rfl

theorem flag_cases (value : Value) : flag value = none ∨ flag value = some 0 ∨ flag value = some 1 := by
  have hnumber : ∀ n : Option ℚ, let shown := n.map fun n => if n ≠ 0 then (1 : ℚ) else 0
      shown = none ∨ shown = some 0 ∨ shown = some 1 := by
    intro n
    cases n with
    | none => simp
    | some n => by_cases hn : n = 0 <;> simp [hn]
  cases value with
  | bool b => cases b <;> simp [flag]
  | _ =>
      rw [flag]
      · exact hnumber _
      · exact fun b => nofun

/-- A level that met the SLO says so in its point. -/
theorem levelPoint_flag {level : Nat × RawMetrics} (h : level ∈ passingLevels levels) :
    dictGet (levelPoint params cards level) "meets_slo" = some 1 := by
  have hflag : levelFlag level.2 = some 1 := by
    have hpass : (nonzero (levelFlag level.2)).isSome = true := (List.mem_filter.mp h).2
    unfold levelFlag at hpass ⊢
    cases hget : dictGet level.2 "meets_slo" with
    | none => simp [hget, nonzero] at hpass
    | some value =>
        rcases flag_cases value with hv | hv | hv
        · simp [hget, hv, nonzero] at hpass
        · simp [hget, hv, nonzero] at hpass
        · simp [hv]
  unfold levelPoint
  rw [dictGet_put, if_pos rfl, hflag]
  rfl

end Points

/-! ## What a reported total leads -/

/-- The other number is there and not below, if this one is there. -/
def NotAbove (a b : Option ℚ) : Prop := ∀ x ∈ a, ∃ y ∈ b, x ≤ y

/-- No level has a greater total rate. -/
def TopsLevels (levels : List (Nat × RawMetrics)) (best : Nat × RawMetrics) : Prop :=
  ∀ level ∈ levels, NotAbove (levelTpm level.2) (levelTpm best.2)

/-- A level reports a total, which no level that reports none has more than. -/
def ReportedLeads (levels : List (Nat × RawMetrics)) : Prop :=
  ∃ best ∈ levels, -1 < levelTotal best.2 ∧
    ∀ level ∈ levels, nonzero (numberAt level.2 "total_tps_mean") = none →
      ∀ tpm ∈ levelTpm level.2, tpm ≤ levelTotal best.2 * 60

/-- The levels that are compared by the default. -/
def atDefault (levels : List (Nat × RawMetrics)) : List (Nat × RawMetrics) :=
  levels.filter fun level => levelTotal level.2 = -1

/-- A reported total leads, or none is above the default and the level that is then taken tops the others. -/
def Decided (levels : List (Nat × RawMetrics)) (taken : Option (Nat × RawMetrics)) : Prop :=
  ReportedLeads levels ∨
    ((∀ level ∈ levels, levelTotal level.2 ≤ -1) ∧ ∀ best ∈ taken, TopsLevels levels best)

section Tops

variable {levels : List (Nat × RawMetrics)} {best : Nat × RawMetrics} {taken : Option (Nat × RawMetrics)}

/-- A total that is reported is what the level is compared by, and what its measure is made of. -/
theorem reported_or_default (level : RawMetrics) :
    (nonzero (numberAt level "total_tps_mean") = none ∧ levelTotal level = -1) ∨
      (nonzero (numberAt level "total_tps_mean") ≠ none ∧ levelTpm level = some (levelTotal level * 60)) := by
  unfold levelTotal levelTpm
  cases hreported : nonzero (numberAt level "total_tps_mean") with
  | none => simp
  | some x =>
      have hnumber : numberAt level "total_tps_mean" = some x := (Option.filter_eq_some_iff.mp hreported).1
      simp [hnumber, totalTpm]

theorem tops_of_reported (hmax : ∀ level ∈ levels, levelTotal level.2 ≤ levelTotal best.2)
    (hbest : levelTpm best.2 = some (levelTotal best.2 * 60))
    (hrest : ∀ level ∈ levels, nonzero (numberAt level.2 "total_tps_mean") = none →
      ∀ tpm ∈ levelTpm level.2, tpm ≤ levelTotal best.2 * 60) :
    TopsLevels levels best := by
  intro level hlevel tpm htpm
  refine ⟨_, hbest, ?_⟩
  rcases reported_or_default level.2 with ⟨hnone, -⟩ | ⟨-, hsome⟩
  · exact hrest level hlevel hnone tpm htpm
  · have heq : tpm = levelTotal level.2 * 60 := by
      rw [hsome] at htpm
      exact (Option.some.inj htpm).symm
    have hle := hmax level hlevel
    linarith

/-- The level with the greatest compared total tops the others exactly when the matter is decided. -/
theorem tops_iff (hmem : best ∈ levels) (hmax : ∀ level ∈ levels, levelTotal level.2 ≤ levelTotal best.2)
    (htaken : levelTotal best.2 = -1 → taken = some best) (hdefault : ∀ level ∈ taken, level ∈ atDefault levels) :
    TopsLevels levels best ↔ Decided levels taken := by
  constructor
  · intro htops
    by_cases hlead : -1 < levelTotal best.2
    · -- the level itself reports the total that leads
      rcases reported_or_default best.2 with ⟨-, hdef⟩ | ⟨-, hsome⟩
      · linarith
      · refine Or.inl ⟨best, hmem, hlead, fun level hlevel _ tpm htpm => ?_⟩
        rcases htops level hlevel tpm htpm with ⟨y, hy, hle⟩
        rw [hsome] at hy
        cases hy
        exact hle
    -- no level reports more than the default, so the one that is taken stands for them
    · refine Or.inr ⟨fun level hlevel => (hmax level hlevel).trans (not_lt.mp hlead), fun level hlevel => ?_⟩
      have hat : level ∈ levels ∧ levelTotal level.2 = -1 := by
        simpa [atDefault] using hdefault level hlevel
      have hbest : levelTotal best.2 = -1 :=
        le_antisymm (not_lt.mp hlead) (hat.2 ▸ hmax level hat.1)
      rw [htaken hbest] at hlevel
      cases hlevel
      exact htops
  · rintro (⟨lead, hlead, habove, hrest⟩ | ⟨hnone, htops⟩)
    -- a reported lead is topped by the greatest total, which is reported too
    · have hle := hmax lead hlead
      rcases reported_or_default best.2 with ⟨-, hdef⟩ | ⟨-, hsome⟩
      · linarith
      · refine tops_of_reported hmax hsome fun level hlevel hnone tpm htpm => ?_
        have htpm' := hrest level hlevel hnone tpm htpm
        linarith
    · by_cases hbest : levelTotal best.2 = -1
      · exact htops best (htaken hbest)
      · -- every level reports less than the default
        have hlt : levelTotal best.2 < -1 := lt_of_le_of_ne (hnone best hmem) hbest
        rcases reported_or_default best.2 with ⟨-, hdef⟩ | ⟨-, hsome⟩
        · exact absurd hdef hbest
        · refine tops_of_reported hmax hsome fun level hlevel hunreported => ?_
          rcases reported_or_default level.2 with ⟨-, hdef⟩ | ⟨hreported, -⟩
          · have hle := hmax level hlevel
            linarith
          · exact absurd hunreported hreported

/-- The peak, where it is compared by the default, is the first such level. -/
theorem peak_default (h : peakLevel levels = some best) (hbest : levelTotal best.2 = -1) :
    (atDefault levels).head? = some best := by
  have hfirst := (firstMax_eq_some.mp h).filter (p := fun level => levelTotal level.2 = -1) (by simpa using hbest)
  rcases hfirst with ⟨before, behind, hsplit, hbefore, -⟩
  have hempty : before = [] := by
    refine List.eq_nil_iff_forall_not_mem.mpr fun level hlevel => ?_
    have hlt : levelTotal level.2 < levelTotal best.2 := hbefore level hlevel
    have hat : levelTotal level.2 = -1 := by
      have hmem : level ∈ levels.filter fun level => levelTotal level.2 = -1 := by
        rw [hsplit]
        exact List.mem_append_left _ hlevel
      simpa using (List.mem_filter.mp hmem).2
    rw [hat, hbest] at hlt
    exact lt_irrefl _ hlt
  unfold atDefault
  rw [hsplit, hempty]
  rfl

/-- The choice among the levels that met the SLO, where it is compared by the default, has the greatest
concurrency of such levels. -/
theorem choice_default (h : firstMax levelRank levels = some best) (hbest : levelTotal best.2 = -1) :
    firstMax Prod.fst (atDefault levels) = some best := by
  refine firstMax_eq_some.mpr ?_
  have hfirst := (firstMax_eq_some.mp h).filter (p := fun level => levelTotal level.2 = -1) (by simpa using hbest)
  have hat : ∀ level ∈ atDefault levels, levelTotal level.2 = levelTotal best.2 := by
    intro level hlevel
    have hdef : levelTotal level.2 = -1 := by simpa using (List.mem_filter.mp hlevel).2
    rw [hdef, hbest]
  rcases hfirst with ⟨before, behind, hsplit, hbefore, hbehind⟩
  refine ⟨before, behind, hsplit, fun level hlevel => ?_, fun level hlevel => ?_⟩
  · have htotal := hat level (by unfold atDefault; rw [hsplit]; exact List.mem_append_left _ hlevel)
    have hrank := Prod.Lex.toLex_lt_toLex.mp (hbefore level hlevel)
    rcases hrank with hlt | ⟨-, hlt⟩
    · exact absurd htotal hlt.ne
    · exact hlt
  · have htotal := hat level
      (by unfold atDefault; rw [hsplit]; exact List.mem_append_right _ (List.mem_cons_of_mem _ hlevel))
    have hrank := Prod.Lex.toLex_le_toLex.mp (hbehind level hlevel)
    rcases hrank with hlt | ⟨-, hle⟩
    · exact absurd htotal hlt.ne
    · exact hle

end Tops

/-! ## The scenario of a sweep -/

/-- A grid's choice, where a level met the SLO. -/
theorem chooseLevel_passing {raw : RawMetrics} {levels : List (Nat × RawMetrics)} {best : Nat × RawMetrics}
    (hgrid : dictHas raw "search_probes" = false) (h : firstMax levelRank (passingLevels levels) = some best) :
    chooseLevel raw levels =
      some (best.1, "the level with the highest total throughput that met the SLO") := by
  have hmem : best ∈ passingLevels levels := (firstMax_eq_some.mp h).mem
  have hflagged : levels.any (fun level => (levelFlag level.2).isSome) = true := by
    refine List.any_eq_true.mpr ⟨best, (List.mem_filter.mp hmem).1, ?_⟩
    have hpass : (nonzero (levelFlag best.2)).isSome = true := (List.mem_filter.mp hmem).2
    cases hflag : levelFlag best.2 with
    | none => simp [hflag, nonzero] at hpass
    | some x => rfl
  simp [chooseLevel, hgrid, hflagged, h]

section Scenario

variable {sc : Scenario} {raw params : RawMetrics} {cards : Option ℚ} {best level : Nat × RawMetrics}

/-- The points of a sweep's levels and its peak. -/
def sweepPoints (raw params : RawMetrics) (cards : Option ℚ) (peak : Nat × RawMetrics) : List (String × Point) :=
  dictSet (levelPoints params cards (levelsOf raw)) "peak" (levelPoint params cards peak)

theorem dictGet_sweepPoints (hlevel : level ∈ levelsOf raw) :
    dictGet (sweepPoints raw params cards best) (levelName level.1) = some (levelPoint params cards level) := by
  unfold sweepPoints
  rw [dictGet_set, if_neg (levelName_ne (by decide)), dictGet_levelPoints (levelsOf_nodup raw) hlevel]

theorem sweep_grid {peak : Nat × RawMetrics} (hsc : sc.points = [])
    (hgrid : dictHas raw "search_probes" = false) (hpeak : peakLevel (levelsOf raw) = some peak)
    (hbest : firstMax levelRank (passingLevels (levelsOf raw)) = some best) :
    (sweep sc raw params cards).operatingLevel = levelName best.1 ∧
      (sweep sc raw params cards).points =
        dictSet (sweepPoints raw params cards peak) "operating" (levelPoint params cards best) := by
  have hpeakmem : peak ∈ levelsOf raw := (firstMax_eq_some.mp hpeak).mem
  have hpass : best ∈ passingLevels (levelsOf raw) := (firstMax_eq_some.mp hbest).mem
  have hbestmem : best ∈ levelsOf raw := (List.mem_filter.mp hpass).1
  -- the level has a flag of its own, which no flag of the whole sweep replaces
  have hhas : dictHas (levelPoint params cards best) "meets_slo" = true := by
    have hflag : dictGet (levelPoint params cards best) "meets_slo" = some 1 := levelPoint_flag hpass
    exact dictHas_eq.trans (by rw [hflag]; rfl)
  have hpeakpoint : dictGet (levelPoints params cards (levelsOf raw)) (levelName peak.1) =
      some (levelPoint params cards peak) := dictGet_levelPoints (levelsOf_nodup raw) hpeakmem
  have hpoint : dictGet (sweepPoints raw params cards peak) (levelName best.1) =
      some (levelPoint params cards best) := dictGet_sweepPoints hbestmem
  unfold sweepPoints levelPoints at *
  unfold sweep
  simp only [hsc, hpeak, hpeakpoint, chooseLevel_passing hgrid hbest, hpoint, hhas, Option.getD_some, if_true]
  exact ⟨trivial, trivial⟩

/-! ### The score -/

theorem addScore_operating {family : String} (hfamily : family ≠ "replay") (score cards : Option ℚ) :
    (addScore family score cards sc).operating = put sc.operating "score" score := by
  cases score with
  | none => rfl
  | some score =>
      simp only [addScore, if_neg hfamily]
      unfold Scenario.operating
      rw [dictGet_set, if_pos rfl]
      rfl

theorem addScore_at (family : String) (score cards : Option ℚ) {name : String} (hname : name ≠ "operating") :
    (addScore family score cards sc).at name = sc.at name := by
  cases score with
  | none => rfl
  | some score =>
      simp only [addScore]
      unfold Scenario.at
      rw [dictGet_set, if_neg hname]

theorem addScore_level (family : String) (score cards : Option ℚ) :
    (addScore family score cards sc).operatingLevel = sc.operatingLevel := by
  cases score <;> rfl

/-- A sweep's scenario, the module's own score included. -/
theorem adapt_grid {m : ModuleFamilies} {key : String} {peak : Nat × RawMetrics}
    (hfamily : familyOf m (moduleOf key) = "perf_guidellm_sweep") (hgrid : dictHas raw "search_probes" = false)
    (hpeak : peakLevel (levelsOf raw) = some peak)
    (hbest : firstMax levelRank (passingLevels (levelsOf raw)) = some best) :
    ∃ cards', (adapt m key raw params cards).operatingLevel = levelName best.1 ∧
      (adapt m key raw params cards).operating =
        put (levelPoint params cards' best) "score" (numberAt raw "score") ∧
      ∀ name, name ≠ "operating" →
        (adapt m key raw params cards).at name =
          (dictGet (sweepPoints raw params cards' peak) name).getD [] := by
  let start : Scenario :=
    { key := key, module := moduleOf key, family := "perf_guidellm_sweep", kind := kindOf "perf_guidellm_sweep" }
  let cards' := (nonzero cards).or (cardsFromCardNorm raw)
  have hsweep : (sweep start raw params cards').operatingLevel = levelName best.1 ∧
      (sweep start raw params cards').points =
        dictSet (sweepPoints raw params cards' peak) "operating" (levelPoint params cards' best) :=
    sweep_grid rfl hgrid hpeak hbest
  -- the score of a sweep is written beside its levels
  have hadapt : adapt m key raw params cards =
      { addScore "perf_guidellm_sweep" (numberAt raw "score") cards' (sweep start raw params cards') with
        supports := (addScore "perf_guidellm_sweep" (numberAt raw "score") cards'
          (sweep start raw params cards')).supports ++ ["score"] ++ [] } := by
    unfold adapt
    simp only [hfamily]
    rfl
  have hoperating : (sweep start raw params cards').operating = levelPoint params cards' best := by
    unfold Scenario.operating
    rw [hsweep.2, dictGet_set, if_pos rfl]
    rfl
  refine ⟨cards', ?_, ?_, fun name hname => ?_⟩
  · rw [hadapt, ← hsweep.1]
    exact addScore_level _ _ _
  · rw [hadapt, ← hoperating]
    exact addScore_operating (by decide) _ _
  · have hat : (sweep start raw params cards').at name = (dictGet (sweepPoints raw params cards' peak) name).getD [] := by
      unfold Scenario.at
      rw [hsweep.2, dictGet_set, if_neg hname]
    rw [hadapt, ← hat]
    exact addScore_at _ _ _ hname

end Scenario

/-! ## The best level -/

/-- What a sweep's scenario says of its levels: the operating point is a level that met the SLO and has the
greatest total rate of those, with that level's numbers and the module's score, and no level has more than
the peak. -/
structure BestLevelTold (levels : List (Nat × RawMetrics)) (score : Option ℚ) (sc : Scenario) : Prop where
  operating : ∃ best ∈ passingLevels levels, sc.operatingLevel = levelName best.1 ∧
    (∀ k, k ≠ "score" → dictGet sc.operating k = dictGet (sc.at (levelName best.1)) k) ∧
    dictGet sc.operating "score" = score ∧ dictGet sc.operating "meets_slo" = some 1 ∧
    ∀ level ∈ passingLevels levels,
      NotAbove (dictGet (sc.at (levelName level.1)) "total_tpm") (dictGet sc.operating "total_tpm")
  peak : ∀ level ∈ levels,
    NotAbove (dictGet (sc.at (levelName level.1)) "total_tpm") (dictGet (sc.at "peak") "total_tpm")

/-- A grid with a level that met the SLO tells its best level exactly when the totals decide it, among the
levels that met the SLO and among all of them. -/
theorem best_level_told_iff (m : ModuleFamilies) (key : String) (raw params : RawMetrics) (cards : Option ℚ)
    (hfamily : familyOf m (moduleOf key) = "perf_guidellm_sweep") (hgrid : dictHas raw "search_probes" = false)
    (hpass : passingLevels (levelsOf raw) ≠ []) :
    BestLevelTold (levelsOf raw) (numberAt raw "score") (adapt m key raw params cards) ↔
      Decided (passingLevels (levelsOf raw)) (firstMax Prod.fst (atDefault (passingLevels (levelsOf raw)))) ∧
        Decided (levelsOf raw) (atDefault (levelsOf raw)).head? := by
  have hnd := levelsOf_nodup raw
  have hsub : ∀ level ∈ passingLevels (levelsOf raw), level ∈ levelsOf raw := fun level hlevel =>
    (List.mem_filter.mp hlevel).1
  obtain ⟨best, hbest⟩ : ∃ best, firstMax levelRank (passingLevels (levelsOf raw)) = some best :=
    Option.ne_none_iff_exists'.mp fun hnone => hpass (firstMax_eq_none.mp hnone)
  obtain ⟨peak, hpeak⟩ : ∃ peak, peakLevel (levelsOf raw) = some peak := by
    refine Option.ne_none_iff_exists'.mp fun hnone => hpass ?_
    rw [firstMax_eq_none.mp hnone]
    rfl
  have hchosen := firstMax_eq_some.mp hbest
  have hpeakmem : peak ∈ levelsOf raw := (firstMax_eq_some.mp hpeak).mem
  rcases adapt_grid hfamily hgrid hpeak hbest with ⟨cards', hlevel, hoperating, hat⟩
  generalize adapt m key raw params cards = sc at hlevel hoperating hat ⊢
  -- what the points hold for their total rate
  have hlevelPoint : ∀ level ∈ levelsOf raw, sc.at (levelName level.1) = levelPoint params cards' level := by
    intro level hmem
    rw [hat _ (levelName_ne (by decide)), dictGet_sweepPoints hmem]
    rfl
  have hlevelTpm : ∀ level ∈ levelsOf raw, dictGet (sc.at (levelName level.1)) "total_tpm" = levelTpm level.2 :=
    fun level hmem => by rw [hlevelPoint level hmem, levelPoint_total]
  have hpeakTpm : dictGet (sc.at "peak") "total_tpm" = levelTpm peak.2 := by
    rw [hat _ (by decide), sweepPoints, dictGet_set, if_pos rfl]
    exact levelPoint_total peak
  have hfrom : ∀ k, k ≠ "score" → dictGet sc.operating k = dictGet (levelPoint params cards' best) k := by
    intro k hk
    rw [hoperating, dictGet_put, if_neg hk]
  have hoperatingTpm : dictGet sc.operating "total_tpm" = levelTpm best.2 := by
    rw [hfrom _ (by decide), levelPoint_total]
  -- the two choices, each by what it is compared by
  have hbestTops : TopsLevels (passingLevels (levelsOf raw)) best ↔
      Decided (passingLevels (levelsOf raw)) (firstMax Prod.fst (atDefault (passingLevels (levelsOf raw)))) := by
    refine tops_iff hchosen.mem (fun level hmem => ?_) (choice_default hbest) fun level hmem =>
      (firstMax_eq_some.mp hmem).mem
    rcases Prod.Lex.toLex_le_toLex.mp (hchosen.le level hmem) with hlt | ⟨heq, -⟩
    · exact hlt.le
    · exact heq.le
  have hpeakTops : TopsLevels (levelsOf raw) peak ↔ Decided (levelsOf raw) (atDefault (levelsOf raw)).head? :=
    tops_iff hpeakmem (firstMax_eq_some.mp hpeak).le (peak_default hpeak) fun level hmem =>
      List.mem_of_mem_head? hmem
  rw [← hbestTops, ← hpeakTops]
  constructor
  · intro h
    refine ⟨?_, fun level hmem => ?_⟩
    · rcases h.operating with ⟨told, -, -, -, -, -, htops⟩
      intro level hmem
      rw [← hlevelTpm level (hsub level hmem), ← hoperatingTpm]
      exact htops level hmem
    · rw [← hlevelTpm level hmem, ← hpeakTpm]
      exact h.peak level hmem
  · rintro ⟨hop, hpk⟩
    refine ⟨⟨best, hchosen.mem, hlevel, fun k hk => ?_, ?_, ?_, fun level hmem => ?_⟩, fun level hmem => ?_⟩
    · rw [hlevelPoint best (hsub best hchosen.mem), hfrom k hk]
    · rw [hoperating, dictGet_put, if_pos rfl, levelPoint_score, Option.or_none]
    · rw [hfrom _ (by decide)]
      exact levelPoint_flag hchosen.mem
    · rw [hlevelTpm level (hsub level hmem), hoperatingTpm]
      exact hop level hmem
    · rw [hlevelTpm level hmem, hpeakTpm]
      exact hpk level hmem

/-- One level reports its total, the other only the rates it is made of. -/
def totalAndRates : RawMetrics :=
  [("c8.total_tps_mean", .float 10), ("c8.meets_slo", .bool true), ("c16.output_tps_mean", .float 50),
    ("c16.input_tps_mean", .float 50), ("c16.meets_slo", .bool true)]

/-- A level with a tenth of the throughput is taken, since it reports its total. -/
theorem reported_total_preferred :
    familyOf ⟨["replay"], []⟩ (moduleOf "perf_guidellm_sweep") = "perf_guidellm_sweep" ∧
      dictHas totalAndRates "search_probes" = false ∧ passingLevels (levelsOf totalAndRates) ≠ [] ∧
      ¬ BestLevelTold (levelsOf totalAndRates) (numberAt totalAndRates "score")
        (adapt ⟨["replay"], []⟩ "perf_guidellm_sweep" totalAndRates [] none) := by
  refine ⟨by decide, by decide, by decide, fun h => ?_⟩
  rcases h.operating with ⟨-, -, -, -, -, -, htops⟩
  obtain ⟨level, hmem, hsixteen⟩ : ∃ level ∈ passingLevels (levelsOf totalAndRates), level.1 = 16 := by
    decide
  have hlevel : dictGet ((adapt ⟨["replay"], []⟩ "perf_guidellm_sweep" totalAndRates [] none).at
      (levelName level.1)) "total_tpm" = some 6000 := by
    rw [hsixteen]
    decide +kernel
  have hoperating : dictGet (adapt ⟨["replay"], []⟩ "perf_guidellm_sweep" totalAndRates [] none).operating
      "total_tpm" = some 600 := by decide +kernel
  rcases htops level hmem 6000 (by rw [hlevel]; rfl) with ⟨y, hy, hle⟩
  rw [hoperating] at hy
  cases hy
  exact absurd hle (by decide)

/-- With both totals reported the greater one is taken. -/
theorem best_level_told_reported :
    BestLevelTold
      (levelsOf [("c8.total_tps_mean", .float 10), ("c8.meets_slo", .bool true), ("c16.total_tps_mean", .float 20),
        ("c16.meets_slo", .bool true)]) none
      (adapt ⟨["replay"], []⟩ "perf_guidellm_sweep"
        [("c8.total_tps_mean", .float 10), ("c8.meets_slo", .bool true), ("c16.total_tps_mean", .float 20),
          ("c16.meets_slo", .bool true)] [] none) := by
  refine (best_level_told_iff _ _ _ _ _ (by decide) (by decide) (by decide)).mpr ?_
  have hlead : ∀ levels : List (Nat × RawMetrics), (∃ best ∈ levels, -1 < levelTotal best.2) →
      (∀ level ∈ levels, nonzero (numberAt level.2 "total_tps_mean") ≠ none) → ReportedLeads levels := by
    rintro levels ⟨best, hbest, habove⟩ hall
    exact ⟨best, hbest, habove, fun level hlevel hnone => absurd hnone (hall level hlevel)⟩
  exact ⟨Or.inl (hlead _ (by decide) (by decide)),
    Or.inl (hlead _ (by decide) (by decide))⟩

end AutoTune
