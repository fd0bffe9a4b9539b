import AutoTune.Lib.Grouping
import AutoTune.Measures.Acceptance

/-!
# A module's numbers in another order

The store does not keep the order of a result's keys. A module's keys are filed under the module and a
sweep's under their levels, both by groups. What is read of a module does not depend on the order of its
keys, but for the peak of a sweep, where two levels have the same highest total, and for a level that is
spelled in two ways.
-/

namespace AutoTune

open Lib

/-! ## Groups -/

/-- Where a key of a run's metrics is filed. -/
def splitPlace (entry : String × Value) : Option (String × String × Value) :=
  if entry.1 ∈ submissionKeys ∨ hasChar entry.1 '.' = false then none
  else some ((partitionAt '.' entry.1).1, (partitionAt '.' entry.1).2, entry.2)

theorem splitMetrics_eq (metrics : RawMetrics) : splitMetrics metrics = grouped splitPlace metrics := by
  have hstep : splitEntry = fileEntry splitPlace := by
    funext out entry
    unfold splitEntry fileEntry splitPlace
    by_cases h : entry.1 ∈ submissionKeys ∨ hasChar entry.1 '.' = false
    · rw [if_pos h, if_pos h]
    · rw [if_neg h, if_neg h]
  unfold splitMetrics grouped
  rw [hstep]

/-- Where a key of a sweep is filed. -/
def levelPlace (entry : String × Value) : Option (Nat × String × Value) :=
  (levelOf (partitionAt '.' entry.1).1).bind fun c =>
    if (partitionAt '.' entry.1).2 = "" then none else some (c, (partitionAt '.' entry.1).2, entry.2)

theorem levelsOf_eq (raw : RawMetrics) : levelsOf raw = grouped levelPlace raw := by
  have hstep : addLevel = fileEntry levelPlace := by
    funext levels entry
    unfold addLevel fileEntry levelPlace
    dsimp only
    cases levelOf (partitionAt '.' entry.1).1 with
    | none => rfl
    | some c =>
        by_cases h : (partitionAt '.' entry.1).2 = ""
        · simp [h]
        · simp [h]
  unfold levelsOf grouped
  rw [hstep]

/-- A dotted key is its module, the dot and the rest. -/
theorem join_partition {s : String} (h : hasChar s '.' = true) :
    s = (partitionAt '.' s).1 ++ "." ++ (partitionAt '.' s).2 := by
  have hmem : '.' ∈ s.toList := by simpa [hasChar] using h
  have hsplit : ∀ cs : List Char, '.' ∈ cs →
      cs = (cs.takeWhile fun c => c != '.') ++ '.' :: ((cs.dropWhile fun c => c != '.').drop 1) := by
    intro cs
    induction cs with
    | nil => simp
    | cons c cs ih =>
        intro hc
        by_cases hdot : c = '.'
        · simp [hdot]
        · have hcs : '.' ∈ cs := by simpa [Ne.symm hdot] using hc
          simpa [hdot] using ih hcs
  refine String.toList_injective ?_
  simpa [partitionAt] using hsplit s.toList hmem

/-- With each key once a run's metrics name nothing twice in a module. -/
theorem splitMetrics_namedOnce {metrics : RawMetrics} (hdict : (metrics.map Prod.fst).Nodup) :
    NamedOnce splitPlace metrics := by
  refine List.Nodup.of_map (fun p : String × String => p.1 ++ "." ++ p.2) ?_
  have hkeys : (((metrics.filterMap splitPlace).map fun p => (p.1, p.2.1)).map fun p => p.1 ++ "." ++ p.2) =
      (metrics.filter fun entry => (splitPlace entry).isSome).map Prod.fst := by
    clear hdict
    induction metrics with
    | nil => rfl
    | cons entry metrics ih =>
        by_cases h : entry.1 ∈ submissionKeys ∨ hasChar entry.1 '.' = false
        · have hnone : splitPlace entry = none := if_pos h
          rw [List.filterMap_cons_none hnone, List.filter_cons_of_neg (by simp [hnone])]
          exact ih
        · have hsome : splitPlace entry = some ((partitionAt '.' entry.1).1, (partitionAt '.' entry.1).2, entry.2) :=
            if_neg h
          have hdot : hasChar entry.1 '.' = true := by simpa using (not_or.mp h).2
          rw [List.filterMap_cons_some hsome, List.filter_cons_of_pos (by simp [hsome])]
          simp only [List.map_cons]
          rw [ih, ← join_partition hdot]
  rw [hkeys]
  exact hdict.sublist (List.filter_sublist.map Prod.fst)

/-! ## Alike -/

/-- The two hold the same number under every key. -/
def Alike (out out' : Point) : Prop := ∀ k, dictGet out k = dictGet out' k

theorem Alike.refl (out : Point) : Alike out out := fun _ => rfl

section Alike

variable {out out' : Point}

theorem Alike.set (h : Alike out out') (key : String) (n : ℚ) : Alike (dictSet out key n) (dictSet out' key n) := by
  intro k
  rw [dictGet_set, dictGet_set, h k]

theorem Alike.put (h : Alike out out') (key : String) (value : Option ℚ) :
    Alike (put out key value) (AutoTune.put out' key value) := by
  cases value with
  | none => exact h
  | some n => exact h.set key n

theorem Alike.putAll (h : Alike out out') (entries : List (String × Option ℚ)) :
    Alike (putAll out entries) (AutoTune.putAll out' entries) := by
  induction entries generalizing out out' with
  | nil => exact h
  | cons e entries ih => exact ih (h.put e.1 e.2)

end Alike

/-! ## A module but a sweep -/

section Module

variable {raw raw' params : RawMetrics} {cards : Option ℚ}

/-- The scores of tasks, in another order. -/
theorem taskScores_alike (hdict : (raw.map Prod.fst).Nodup) (hperm : raw.Perm raw') (k : String) :
    dictGet ((taskScores raw).foldl (fun out e => dictSet out e.1 e.2) []) k =
      dictGet ((taskScores raw').foldl (fun out e => dictSet out e.1 e.2) []) k := by
  have hnames : ∀ {raw : RawMetrics}, (raw.map Prod.fst).Nodup → ((taskScores raw).map Prod.fst).Nodup := by
    intro raw hraw
    rw [taskScores_names]
    exact (hraw.sublist (List.filter_sublist.map Prod.fst)).map accuracyName_injective
  have hraw' : (raw'.map Prod.fst).Nodup := (hperm.map Prod.fst).nodup_iff.mp hdict
  have hscores : (taskScores raw).Perm (taskScores raw') := hperm.filterMap _
  rw [dictGet_assignAll (hnames hdict), dictGet_assignAll (hnames hraw')]
  rw [dictGet_perm (hnames hdict) hscores]

theorem opencompass_alike (hdict : (raw.map Prod.fst).Nodup) (hperm : raw.Perm raw') :
    Alike (opencompass raw).1 (opencompass raw').1 := by
  have hnumber : numberAt raw = numberAt raw' := funext fun k => by
    unfold numberAt
    rw [dictGet_perm hdict hperm]
  unfold opencompass
  dsimp only
  rw [hnumber]
  exact Alike.putAll (taskScores_alike hdict hperm) _

theorem quality_alike (hdict : (raw.map Prod.fst).Nodup) (hperm : raw.Perm raw') {family : String}
    {adapter : RawMetrics → Point × List String} (h : dictGet qualityAdapters family = some adapter) :
    Alike (adapter raw).1 (adapter raw').1 := by
  have hnumber : numberAt raw = numberAt raw' := funext fun k => by
    unfold numberAt
    rw [dictGet_perm hdict hperm]
  have hmem := mem_of_dictGet h
  simp only [qualityAdapters, List.mem_cons, List.not_mem_nil, or_false, Prod.mk.injEq] at hmem
  rcases hmem with ⟨-, rfl⟩ | ⟨-, rfl⟩ | ⟨-, rfl⟩ | ⟨-, rfl⟩ | ⟨-, rfl⟩ | ⟨-, rfl⟩
  · intro k
    unfold agentic
    rw [hnumber]
  · exact opencompass_alike hdict hperm
  · intro k
    unfold functionalAcceptance copied
    rw [hnumber]
  · intro k
    unfold toolCall copied
    rw [hnumber]
  · intro k
    unfold hallucination copied
    rw [hnumber]
  · intro k
    unfold caseTruncation copied
    rw [hnumber]

/-- A scenario holds the same under every point. -/
def ScenariosAlike (sc sc' : Scenario) : Prop := ∀ name, Alike (sc.at name) (sc'.at name)

theorem adaptFamily_alike (hdict : (raw.map Prod.fst).Nodup) (hperm : raw.Perm raw') {family : String}
    (hfamily : family ≠ "perf_guidellm_sweep") (sc : Scenario) (cards : Option ℚ) :
    ScenariosAlike (adaptFamily family sc raw params cards) (adaptFamily family sc raw' params cards) := by
  -- the order of the keys is nothing to looking one up, and the families look theirs up
  have hget : dictGet raw = dictGet raw' := funext fun k => dictGet_perm hdict hperm k
  have hnumber : numberAt raw = numberAt raw' := funext fun k => by
    unfold numberAt
    rw [hget]
  have hhas : dictHas raw = dictHas raw' := funext fun k => by rw [dictHas_eq, dictHas_eq, hget]
  intro name
  unfold adaptFamily
  rw [if_neg hfamily, if_neg hfamily]
  split
  · have hsame : (single sc raw params cards).points = (single sc raw' params cards).points := by
      unfold single guidellmLevel levelLatencies
      simp only [hnumber, hhas]
    intro k
    unfold Scenario.at
    rw [hsame]
  · split
    · have hsame : (replay sc raw params cards).points = (replay sc raw' params cards).points := by
        unfold replay replayBuckets
        simp only [hnumber, hget]
      intro k
      unfold Scenario.at
      rw [hsame]
    -- a quality module writes its operating point only
    · unfold Scenario.at
      dsimp only
      rw [dictGet_set, dictGet_set]
      by_cases hname : name = "operating"
      · rw [if_pos hname, if_pos hname]
        cases hadapter : dictGet qualityAdapters family with
        | none => exact Alike.refl _
        | some adapter => exact quality_alike hdict hperm hadapter
      · rw [if_neg hname, if_neg hname]
        exact Alike.refl _

theorem addScore_alike {sc sc' : Scenario} (h : ScenariosAlike sc sc') (family : String) (score cards : Option ℚ) :
    ScenariosAlike (addScore family score cards sc) (addScore family score cards sc') := by
  intro name
  by_cases hname : name = "operating"
  · subst hname
    cases score with
    | none => exact h "operating"
    | some score =>
        have hoperating : Alike sc.operating sc'.operating := h "operating"
        simp only [addScore]
        unfold Scenario.at
        rw [dictGet_set, dictGet_set, if_pos rfl, if_pos rfl]
        split
        · exact (hoperating.set _ _).put _ _
        · exact hoperating.set _ _
  · rw [addScore_at _ _ _ hname, addScore_at _ _ _ hname]
    exact h name

theorem cardsFromCardNorm_perm (hdict : (raw.map Prod.fst).Nodup) (hperm : raw.Perm raw') :
    cardsFromCardNorm raw = cardsFromCardNorm raw' ∧ numberAt raw = numberAt raw' := by
  have hnumber : numberAt raw = numberAt raw' := funext fun k => by
    unfold numberAt
    rw [dictGet_perm hdict hperm]
  refine ⟨?_, hnumber⟩
  unfold cardsFromCardNorm
  rw [hnumber]

/-- A module that is no sweep reads the same in every order of its keys. -/
theorem adapt_alike (hdict : (raw.map Prod.fst).Nodup) (hperm : raw.Perm raw') (m : ModuleFamilies) {key : String}
    (hfamily : familyOf m (moduleOf key) ≠ "perf_guidellm_sweep") :
    ScenariosAlike (adapt m key raw params cards) (adapt m key raw' params cards) := by
  have hsame := cardsFromCardNorm_perm hdict hperm
  have hwrote : ScenariosAlike
      (adaptFamily (familyOf m (moduleOf key)) (blankScenario m key) raw params (cardsOf raw cards))
      (adaptFamily (familyOf m (moduleOf key)) (blankScenario m key) raw' params (cardsOf raw cards)) :=
    adaptFamily_alike hdict hperm hfamily _ _
  intro name
  have hat := addScore_alike hwrote (familyOf m (moduleOf key)) (numberAt raw "score") (cardsOf raw cards) name
  rw [adapt_at, adapt_at, ← hsame.2]
  unfold cardsOf at hat ⊢
  rwa [← hsame.1]

end Module

/-! ## A sweep -/

/-- Levels that are there alike, each with the same values. -/
structure LevelsAlike (levels levels' : List (Nat × RawMetrics)) : Prop where
  nodup : (levels.map Prod.fst).Nodup
  nodup' : (levels'.map Prod.fst).Nodup
  keys : ∀ c, c ∈ levels.map Prod.fst ↔ c ∈ levels'.map Prod.fst
  same : ∀ c level level', (c, level) ∈ levels → (c, level') ∈ levels' → dictGet level = dictGet level'

section Levels

variable {levels levels' : List (Nat × RawMetrics)} {raw raw' params : RawMetrics} {cards : Option ℚ}

theorem LevelsAlike.symm (h : LevelsAlike levels levels') : LevelsAlike levels' levels where
  nodup := h.nodup'
  nodup' := h.nodup
  keys := fun c => (h.keys c).symm
  same := fun c level level' hlevel hlevel' => (h.same c level' level hlevel' hlevel).symm

/-- Each level has its like. -/
theorem LevelsAlike.partner (h : LevelsAlike levels levels') {level : Nat × RawMetrics} (hlevel : level ∈ levels) :
    ∃ level' ∈ levels', level'.1 = level.1 ∧ dictGet level'.2 = dictGet level.2 := by
  have hkey : level.1 ∈ levels'.map Prod.fst := (h.keys level.1).mp (List.mem_map_of_mem hlevel)
  rcases List.mem_map.mp hkey with ⟨level', hlevel', hc⟩
  refine ⟨level', hlevel', hc, (h.same level.1 level.2 level'.2 hlevel ?_).symm⟩
  rw [← hc]
  exact hlevel'

/-- With no key of a level spelled in two ways the levels are alike in every order. -/
theorem levelsOf_alike (honce : NamedOnce levelPlace raw) (hperm : raw.Perm raw') :
    LevelsAlike (levelsOf raw) (levelsOf raw') where
  nodup := levelsOf_nodup raw
  nodup' := levelsOf_nodup raw'
  keys := by
    intro c
    have hrows : (rowsOf levelPlace c raw).Perm (rowsOf levelPlace c raw') := rowsOf_perm hperm c
    rw [levelsOf_eq, levelsOf_eq, mem_keys_grouped, mem_keys_grouped, ne_eq, ne_eq, not_iff_not]
    exact ⟨fun hnil => (hnil ▸ hrows).nil_eq.symm, fun hnil => (hnil ▸ hrows).eq_nil⟩
  same := by
    intro c level level' hlevel hlevel'
    rw [levelsOf_eq] at hlevel hlevel'
    rw [(mem_grouped.mp hlevel).2, (mem_grouped.mp hlevel').2, honce.assigned, (honce.perm hperm).assigned]
    exact funext fun leaf => dictGet_perm (honce.rows c) (rowsOf_perm hperm c) leaf

theorem levelPoint_congr {level level' : Nat × RawMetrics} (hc : level'.1 = level.1)
    (hget : dictGet level'.2 = dictGet level.2) : levelPoint params cards level' = levelPoint params cards level := by
  have hnumber : numberAt level'.2 = numberAt level.2 := funext fun k => by
    unfold numberAt
    rw [hget]
  unfold levelPoint guidellmLevel levelLatencies levelFlag
  rw [hnumber, hget, hc]

theorem levelTotal_congr {level level' : RawMetrics} (hget : dictGet level' = dictGet level) :
    levelTotal level' = levelTotal level := by
  unfold levelTotal numberAt
  rw [hget]

theorem levelFlag_congr {level level' : RawMetrics} (hget : dictGet level' = dictGet level) :
    levelFlag level' = levelFlag level := by
  unfold levelFlag
  rw [hget]

theorem levelPoints_alike (h : LevelsAlike levels levels') (name : String) :
    dictGet (levelPoints params cards levels) name = dictGet (levelPoints params cards levels') name := by
  refine Option.ext fun point => ?_
  rw [dictGet_levelPoints_iff h.nodup, dictGet_levelPoints_iff h.nodup']
  have hto : ∀ {levels levels' : List (Nat × RawMetrics)}, LevelsAlike levels levels' →
      (∃ level ∈ levels, name = levelName level.1 ∧ point = levelPoint params cards level) →
      ∃ level ∈ levels', name = levelName level.1 ∧ point = levelPoint params cards level := by
    rintro levels levels' h ⟨level, hlevel, rfl, rfl⟩
    rcases h.partner hlevel with ⟨level', hlevel', hc, hget⟩
    exact ⟨level', hlevel', by rw [hc], (levelPoint_congr hc hget).symm⟩
  exact ⟨hto h, hto h.symm⟩

/-! ### The choice of a level -/

theorem reportedLevel_alike (h : LevelsAlike levels levels') (hnumber : numberAt raw = numberAt raw') :
    reportedLevel raw levels = reportedLevel raw' levels' := by
  have hfind : ∀ (l : List Nat) (n : Int) (c : Nat),
      l.find? (fun c : Nat => decide ((c : Int) = n)) = some c ↔ c ∈ l ∧ (c : Int) = n := by
    intro l n c
    constructor
    · intro hsome
      exact ⟨List.mem_of_find?_eq_some hsome, by simpa using List.find?_some hsome⟩
    · rintro ⟨hmem, hc⟩
      cases hfind : l.find? (fun c : Nat => decide ((c : Int) = n)) with
      | none => exact absurd hc (by simpa using List.find?_eq_none.mp hfind c hmem)
      | some c' =>
          have hc' : (c' : Int) = n := by simpa using List.find?_some hfind
          rw [Int.ofNat.inj (hc'.trans hc.symm)]
  unfold reportedLevel
  rw [hnumber]
  refine congrArg _ (funext fun n => Option.ext fun c => ?_)
  rw [hfind, hfind, h.keys c]

theorem passing_alike (h : LevelsAlike levels levels') {level : Nat × RawMetrics}
    (hlevel : level ∈ passingLevels levels) :
    ∃ level' ∈ passingLevels levels', level'.1 = level.1 ∧ dictGet level'.2 = dictGet level.2 := by
  rcases List.mem_filter.mp hlevel with ⟨hmem, hpass⟩
  rcases h.partner hmem with ⟨level', hlevel', hc, hget⟩
  exact ⟨level', List.mem_filter.mpr ⟨hlevel', by rwa [levelFlag_congr hget]⟩, hc, hget⟩

/-- The best level that met the SLO has the same concurrency. -/
theorem best_alike (h : LevelsAlike levels levels') :
    (firstMax levelRank (passingLevels levels)).map Prod.fst =
      (firstMax levelRank (passingLevels levels')).map Prod.fst := by
  have hle : ∀ {levels levels' : List (Nat × RawMetrics)} {best best' : Nat × RawMetrics}, LevelsAlike levels levels' →
      firstMax levelRank (passingLevels levels) = some best →
      firstMax levelRank (passingLevels levels') = some best' → levelRank best ≤ levelRank best' := by
    intro levels levels' best best' h hbest hbest'
    rcases passing_alike h (firstMax_eq_some.mp hbest).mem with ⟨like, hlike, hc, hget⟩
    have hrank : levelRank like = levelRank best := by
      unfold levelRank
      rw [hc, levelTotal_congr hget]
    rw [← hrank]
    exact (firstMax_eq_some.mp hbest').le like hlike
  have hnone : ∀ {levels levels' : List (Nat × RawMetrics)}, LevelsAlike levels levels' →
      firstMax levelRank (passingLevels levels) = none → firstMax levelRank (passingLevels levels') = none := by
    intro levels levels' h hempty
    rw [firstMax_eq_none] at hempty ⊢
    refine List.eq_nil_iff_forall_not_mem.mpr fun level hlevel => ?_
    rcases passing_alike h.symm hlevel with ⟨like, hlike, -, -⟩
    rw [hempty] at hlike
    cases hlike
  cases hbest : firstMax levelRank (passingLevels levels) with
  | none => rw [hnone h hbest]
  | some best =>
      cases hbest' : firstMax levelRank (passingLevels levels') with
      | none =>
          rw [hnone h.symm hbest'] at hbest
          cases hbest
      | some best' =>
          have hrank := le_antisymm (hle h hbest hbest') (hle h.symm hbest' hbest)
          have hc : best.1 = best'.1 := congrArg (fun rank => (ofLex rank).2) hrank
          rw [Option.map_some, Option.map_some, hc]

theorem chooseLevel_alike (h : LevelsAlike levels levels') (hnumber : numberAt raw = numberAt raw')
    (hhas : dictHas raw = dictHas raw') : chooseLevel raw levels = chooseLevel raw' levels' := by
  have hflagged : (levels.any fun level => (levelFlag level.2).isSome) =
      levels'.any fun level => (levelFlag level.2).isSome := by
    have hto : ∀ {levels levels' : List (Nat × RawMetrics)}, LevelsAlike levels levels' →
        (levels.any fun level => (levelFlag level.2).isSome) = true →
        (levels'.any fun level => (levelFlag level.2).isSome) = true := by
      intro levels levels' h hany
      rcases List.any_eq_true.mp hany with ⟨level, hlevel, hflag⟩
      rcases h.partner hlevel with ⟨level', hlevel', -, hget⟩
      exact List.any_eq_true.mpr ⟨level', hlevel', by rwa [levelFlag_congr hget]⟩
    exact Bool.eq_iff_iff.mpr ⟨hto h, hto h.symm⟩
  have hmin : (levels.map Prod.fst).min? = (levels'.map Prod.fst).min? := by
    refine Option.ext fun c => ?_
    rw [List.min?_eq_some_iff, List.min?_eq_some_iff, h.keys c]
    exact and_congr_right fun _ =>
      ⟨fun hle b hb => hle b ((h.keys b).mpr hb), fun hle b hb => hle b ((h.keys b).mp hb)⟩
  have hbest := best_alike h
  unfold chooseLevel
  rw [hflagged, hmin, hhas, reportedLevel_alike h hnumber]
  cases h1 : firstMax levelRank (passingLevels levels) with
  | none =>
      rw [h1] at hbest
      rw [Option.map_eq_none_iff.mp hbest.symm]
  | some best =>
      rw [h1] at hbest
      rcases Option.map_eq_some_iff.mp hbest.symm with ⟨best', h2, hc⟩
      rw [h2]
      simp only [hc]

theorem dictGet_peakPoints {name : String} (hname : name ≠ "peak") :
    dictGet (peakPoints raw params cards) name = dictGet (levelPoints params cards (levelsOf raw)) name := by
  unfold peakPoints
  cases peakLevel (levelsOf raw) with
  | none => rfl
  | some level => rw [dictGet_set, if_neg hname]

/-- But for its peak a sweep reads the same in every order of its keys. -/
theorem sweep_alike (hdict : (raw.map Prod.fst).Nodup) (honce : NamedOnce levelPlace raw) (hperm : raw.Perm raw')
    {sc : Scenario} (hsc : sc.points = []) {name : String} (hname : name ≠ "peak") :
    (sweep sc raw params cards).at name = (sweep sc raw' params cards).at name := by
  have halike := levelsOf_alike honce hperm
  have hget : dictGet raw = dictGet raw' := funext fun k => dictGet_perm hdict hperm k
  have hnumber : numberAt raw = numberAt raw' := (cardsFromCardNorm_perm hdict hperm).2
  have hhas : dictHas raw = dictHas raw' := funext fun k => by rw [dictHas_eq, dictHas_eq, hget]
  have hchosen := chooseLevel_alike halike hnumber hhas
  have hpoints : ∀ name, name ≠ "peak" →
      dictGet (peakPoints raw params cards) name = dictGet (peakPoints raw' params cards) name := by
    intro name hname
    rw [dictGet_peakPoints hname, dictGet_peakPoints hname, levelPoints_alike halike]
  have hflag : withFlag raw = withFlag raw' := funext fun point => by
    unfold withFlag
    rw [hnumber, hget]
  unfold Scenario.at
  rcases sweep_points hsc with ⟨hnone, hpts⟩ | ⟨c, rule, hsome, hpts⟩
  · rcases sweep_points hsc with ⟨-, hpts'⟩ | ⟨c, rule, hsome, -⟩
    · rw [hpts, hpts', hpoints name hname]
    · rw [← hchosen, hnone] at hsome
      cases hsome
  · rcases sweep_points hsc with ⟨hnone, -⟩ | ⟨c', rule', hsome', hpts'⟩
    · rw [← hchosen, hsome] at hnone
      cases hnone
    · rw [← hchosen, hsome] at hsome'
      cases hsome'
      rw [hpts, hpts', dictGet_set, dictGet_set, hpoints (levelName c) (levelName_ne (by decide)), hflag,
        hpoints name hname]

theorem sweep_peak {sc : Scenario} (hsc : sc.points = []) : (sweep sc raw params cards).at "peak" =
    ((peakLevel (levelsOf raw)).map (levelPoint params cards)).getD [] := by
  have hpeak : (dictGet (peakPoints raw params cards) "peak").getD [] =
      ((peakLevel (levelsOf raw)).map (levelPoint params cards)).getD [] := by
    unfold peakPoints
    cases hbest : peakLevel (levelsOf raw) with
    | none =>
        have hnone : dictGet (levelPoints params cards (levelsOf raw)) "peak" = none := by
          rw [firstMax_eq_none.mp hbest]
          rfl
        simp [hnone]
    | some best =>
        have hmem : best ∈ levelsOf raw := (firstMax_eq_some.mp hbest).mem
        simp only [dictGet_set, if_true, dictGet_levelPoints (levelsOf_nodup raw) hmem]
        rfl
  unfold Scenario.at
  rcases sweep_points hsc with ⟨-, hpts⟩ | ⟨c, rule, -, hpts⟩
  · rw [hpts, hpeak]
  · rw [hpts, dictGet_set, if_neg (by decide), hpeak]

/-! ### The peak -/

/-- The levels with the highest total have the same number under a measure. -/
def TopsAgree (raw params : RawMetrics) (cards : Option ℚ) (k : String) : Prop :=
  ∀ a ∈ levelsOf raw, ∀ b ∈ levelsOf raw, (∀ level ∈ levelsOf raw, levelTotal level.2 ≤ levelTotal a.2) →
    (∀ level ∈ levelsOf raw, levelTotal level.2 ≤ levelTotal b.2) →
    dictGet (levelPoint params cards a) k = dictGet (levelPoint params cards b) k

theorem peak_top (h : LevelsAlike levels levels') {best : Nat × RawMetrics} (hbest : peakLevel levels' = some best) :
    ∃ like ∈ levels, like.1 = best.1 ∧ dictGet like.2 = dictGet best.2 ∧
      ∀ level ∈ levels, levelTotal level.2 ≤ levelTotal like.2 := by
  have hfirst := firstMax_eq_some.mp hbest
  rcases h.symm.partner hfirst.mem with ⟨like, hlike, hc, hget⟩
  refine ⟨like, hlike, hc, hget, fun level hlevel => ?_⟩
  rcases h.partner hlevel with ⟨level', hlevel', -, hget'⟩
  rw [levelTotal_congr hget, ← levelTotal_congr hget']
  exact hfirst.le level' hlevel'

/-- The peak reads the same in every order exactly when the levels with the highest total agree. -/
theorem peak_steady_iff (honce : NamedOnce levelPlace raw) (k : String) :
    (∀ raw', raw'.Perm raw →
      dictGet (((peakLevel (levelsOf raw')).map (levelPoint params cards)).getD []) k =
        dictGet (((peakLevel (levelsOf raw)).map (levelPoint params cards)).getD []) k) ↔
      TopsAgree raw params cards k := by
  constructor
  · intro h
    -- a level with the highest total is the peak, once its keys stand in front
    have hfront : ∀ a ∈ levelsOf raw, (∀ level ∈ levelsOf raw, levelTotal level.2 ≤ levelTotal a.2) →
        dictGet (levelPoint params cards a) k =
          dictGet (((peakLevel (levelsOf raw)).map (levelPoint params cards)).getD []) k := by
      intro a ha hmax
      have hrows : rowsOf levelPlace a.1 raw ≠ [] := by
        rw [levelsOf_eq] at ha
        exact (mem_grouped.mp ha).1
      rcases exists_front hrows with ⟨raw', hperm, level, rest, hlevels⟩
      rw [← levelsOf_eq] at hlevels
      have halike := levelsOf_alike honce hperm.symm
      have hin : (a.1, level) ∈ levelsOf raw' := by
        rw [hlevels]
        exact List.mem_cons_self
      have hget : dictGet level = dictGet a.2 := (halike.same a.1 a.2 level ha hin).symm
      have hbest : peakLevel (levelsOf raw') = some (a.1, level) := by
        refine firstMax_eq_some.mpr ⟨[], rest, by rw [hlevels]; rfl, by simp, fun level' hlevel' => ?_⟩
        have hmem : level' ∈ levelsOf raw' := by
          rw [hlevels]
          exact List.mem_cons_of_mem _ hlevel'
        rcases halike.symm.partner hmem with ⟨like, hlike, -, hlikeget⟩
        calc
          levelTotal level'.2 = levelTotal like.2 := (levelTotal_congr hlikeget).symm
          _ ≤ levelTotal a.2 := hmax like hlike
          _ = levelTotal level := (levelTotal_congr hget).symm
      have hsame : levelPoint params cards (a.1, level) = levelPoint params cards a := levelPoint_congr rfl hget
      rw [← h raw' hperm, hbest, Option.map_some, Option.getD_some, hsame]
    intro a ha b hb hmaxa hmaxb
    rw [hfront a ha hmaxa, hfront b hb hmaxb]
  · intro h raw' hperm
    have halike := levelsOf_alike honce hperm.symm
    cases hbest : peakLevel (levelsOf raw) with
    | none =>
        have hempty : levelsOf raw' = [] := by
          refine List.eq_nil_iff_forall_not_mem.mpr fun level hlevel => ?_
          rcases halike.symm.partner hlevel with ⟨like, hlike, -, -⟩
          rw [firstMax_eq_none.mp hbest] at hlike
          cases hlike
        rw [hempty]
        rfl
    | some best =>
        have hfirst := firstMax_eq_some.mp hbest
        cases hbest' : peakLevel (levelsOf raw') with
        | none =>
            rcases halike.partner hfirst.mem with ⟨like, hlike, -, -⟩
            rw [firstMax_eq_none.mp hbest'] at hlike
            cases hlike
        | some best' =>
            rcases peak_top halike hbest' with ⟨like, hlike, hc, hget, hmax⟩
            have hsame : levelPoint params cards best' = levelPoint params cards like :=
              (levelPoint_congr hc hget).symm
            simp only [Option.map_some, Option.getD_some, hsame]
            exact h like hlike best hfirst.mem hmax hfirst.le

end Levels

end AutoTune
