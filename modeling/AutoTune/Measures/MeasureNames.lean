import AutoTune.Measures.RefRoundTrip
import AutoTune.Measures.Supports

/-!
# Names that read back

A measure of the catalogue with a statistic and a qualifier it takes, perhaps with a scenario and a point,
is read back from what it prints. The measures a family supports are named like that, and the tasks of an
accuracy suite are if their names are spelled in the characters of the grammar.
-/

namespace AutoTune

open Lib

/-- A statistic the measure has, or none if it has none. -/
def takesStat (spec : Measure) : Option String → Bool
  | none => spec.stats == []
  | some stat => spec.stats.contains stat

/-- A qualifier the measure takes, spelled without a dot, or none if it can be left out. -/
def takesQualifier (spec : Measure) : Option String → Bool
  | none => spec.qualifier == "" || spec.qualifierValues != []
  | some qualifier =>
      spec.qualifier != "" && (spec.qualifierValues == [] || spec.qualifierValues.contains qualifier) &&
        !qualifier.toList.isEmpty && qualifier.toList.all isScenarioChar

/-- A measure of the catalogue, with a statistic and a qualifier it takes. -/
def isNamed (measure : String) (stat qualifier : Option String) : Bool :=
  (byName measure).any fun spec => takesStat spec stat && takesQualifier spec qualifier

/-- A reference that is spelled as the grammar has it. -/
structure MeasureRef.WellNamed (r : MeasureRef) : Prop where
  named : isNamed r.measure r.stat r.qualifier = true
  scenario : ∀ s ∈ r.scenario, IsScenario s.toList
  point : ∀ p ∈ r.point, p ≠ "operating" ∧ isPoint p = true ∧ p.toList ≠ [] ∧ p.toList.all isStatChar = true

/-- The statistics of the catalogue are spelled in the characters of the grammar. -/
theorem stats_spelled : ∀ spec ∈ measures, ∀ stat ∈ spec.stats,
    stat.toList ≠ [] ∧ stat.toList.all isStatChar = true := by decide

section WellNamed

variable {r : MeasureRef}

theorem MeasureRef.WellNamed.spec (h : r.WellNamed) : ∃ spec, byName r.measure = some spec ∧
    takesStat spec r.stat = true ∧ takesQualifier spec r.qualifier = true := by
  have hnamed := h.named
  unfold isNamed at hnamed
  rw [Option.any_eq_true] at hnamed
  rcases hnamed with ⟨spec, hspec, htakes⟩
  exact ⟨spec, hspec, by simpa using htakes⟩

theorem MeasureRef.WellNamed.wellFormed (h : r.WellNamed) : r.toMatch.WellFormed := by
  rcases h.spec with ⟨spec, hspec, hstat, hqualifier⟩
  have hmem := byName_mem hspec
  have hname := byName_name hspec
  refine ⟨?_, ?_, ?_, ?_, ?_⟩
  · intro s hs
    rcases Option.map_eq_some_iff.mp hs with ⟨s', hs', rfl⟩
    exact h.scenario s' hs'
  · have hspelled := measures_spelled spec hmem
    rw [hname] at hspelled
    exact ⟨hspelled.1, hspelled.2.1⟩
  · intro run hrun
    rcases Option.map_eq_some_iff.mp hrun with ⟨stat, hs, rfl⟩
    rw [hs] at hstat
    exact stats_spelled spec hmem stat (by simpa [takesStat] using hstat)
  · intro run hrun
    rcases Option.map_eq_some_iff.mp hrun with ⟨qualifier, hq, rfl⟩
    rw [hq] at hqualifier
    simp only [takesQualifier, Bool.and_eq_true] at hqualifier
    refine ⟨by simpa using hqualifier.1.2, List.all_eq_true.mpr fun c hc => ?_⟩
    have hchar := List.all_eq_true.mp hqualifier.2 c hc
    simp [isQualifierChar, hchar]
  · intro run hrun
    rcases Option.map_eq_some_iff.mp hrun with ⟨p, hp, rfl⟩
    exact (h.point p hp).2.2

/-- Nothing is wrong in it, and it is read as it stands. -/
theorem MeasureRef.WellNamed.ref (h : r.WellNamed) {spec : Measure} (hspec : byName r.measure = some spec) :
    r.toMatch.problem spec = none ∧ r.toMatch.ref spec = r := by
  rcases h.spec with ⟨spec', hspec', hstat, hqualifier⟩
  cases hspec.symm.trans hspec'
  have hname := byName_name hspec
  have hstatOk : statProblem spec r.stat = none ∧ (if spec.stats = [] then none else r.stat.or spec.defaultStat) = r.stat := by
    cases hs : r.stat with
    | none =>
        have hnone : spec.stats = [] := by simpa [hs, takesStat] using hstat
        simp [statProblem, hnone]
    | some stat =>
        have hin : stat ∈ spec.stats := by simpa [hs, takesStat] using hstat
        have hne : spec.stats ≠ [] := List.ne_nil_of_mem hin
        simp [statProblem, hne, hin]
  have hqualifierOk : qualifierProblem spec r.qualifier = none := by
    cases hq : r.qualifier with
    | none =>
        have hout : spec.qualifier = "" ∨ spec.qualifierValues ≠ [] := by simpa [hq, takesQualifier] using hqualifier
        rcases hout with hout | hout <;> simp [qualifierProblem, hout]
    | some qualifier =>
        simp only [hq, takesQualifier, Bool.and_eq_true, Bool.or_eq_true, bne_iff_ne, beq_iff_eq,
          List.contains_iff_mem] at hqualifier
        rcases hqualifier.1.1 with ⟨hne, hvalues | hvalues⟩ <;> simp [qualifierProblem, hne, hvalues]
  have hpointOk : pointProblem r.point = none ∧ (r.point.filter fun p => p ≠ "operating") = r.point := by
    cases hp : r.point with
    | none => simp [pointProblem]
    | some p =>
        have hpoint := h.point p hp
        simp [pointProblem, Option.filter_some, hpoint.1, hpoint.2.1]
  constructor
  · simp only [RefMatch.problem, MeasureRef.toMatch, map_toList_ofList, Option.or_eq_none_iff]
    exact ⟨⟨hstatOk.1, hqualifierOk⟩, hpointOk.1⟩
  · simp only [RefMatch.ref, MeasureRef.toMatch, map_toList_ofList]
    rw [hstatOk.2, hpointOk.2, hname]

/-- It is read back from what it prints. -/
theorem MeasureRef.WellNamed.parse (h : r.WellNamed) : parse r.text = .ok r := by
  rcases h.spec with ⟨spec, hspec, -, -⟩
  rcases h.ref hspec with ⟨hproblem, href⟩
  have hback := h.wellFormed.parse_text hspec hproblem
  rwa [href] at hback

theorem MeasureRef.WellNamed.text_chars (h : r.WellNamed) : r.text.toList = r.toMatch.write := by
  rcases h.spec with ⟨spec, hspec, -, -⟩
  have hchars := h.wellFormed.text_toList (byName_mem hspec)
  rwa [(h.ref hspec).2] at hchars

/-- It is taken for a reference. -/
theorem MeasureRef.WellNamed.isMeasureRef (h : r.WellNamed) : isMeasureRef r.text = true := by
  rcases parse_eq_ok.mp h.parse with ⟨m, spec, hmatch, hspec, -, -⟩
  refine (isMeasureRef_iff hmatch hspec).mpr ⟨?_, Or.inr (Or.inl ?_)⟩
  · -- a dot could only stand in the qualifier
    have hdot : '.' ∉ r.toMatch.write := by
      rw [h.wellFormed.dot_iff]
      rcases h.spec with ⟨spec', -, -, hqualifier⟩
      cases hq : r.qualifier with
      | none => simp [MeasureRef.toMatch, hq, writeGroup]
      | some qualifier =>
          simp only [hq, takesQualifier, Bool.and_eq_true] at hqualifier
          have hnot : '.' ∉ qualifier.toList := by
            intro hmem
            have hchar := List.all_eq_true.mp hqualifier.2 '.' hmem
            revert hchar
            decide
          simpa [MeasureRef.toMatch, hq, writeGroup] using hnot
    rw [hasChar, h.text_chars]
    simpa using hdot
  · exact (strip_of_noSpace (by rw [h.text_chars]; exact h.wellFormed.notSpace)).symm

end WellNamed

/-! ## Measures -/

/-- A measure parses back to itself, with no scenario and no point, and is taken for a reference. -/
def ReadsBack (k : String) : Prop :=
  isMeasureRef k = true ∧
    ∃ ref, parse k = .ok ref ∧ ref.text = k ∧ ref.key = k ∧ ref.scenario = none ∧ ref.point = none

theorem fieldText_some {opening closing field : String} (h : field ≠ "") :
    fieldText opening closing (some field) = opening ++ field ++ closing := by
  simp [fieldText, Option.filter_some, h]

theorem readsBack_key {measure : String} {stat qualifier : Option String}
    (h : isNamed measure stat qualifier = true) :
    ReadsBack (measure ++ fieldText "@" "" stat ++ fieldText "[" "]" qualifier) := by
  let r : MeasureRef := { measure := measure, stat := stat, qualifier := qualifier }
  have hr : r.WellNamed := ⟨h, by simp [r], by simp [r]⟩
  have htext : r.text = r.key := by simp [MeasureRef.text, fieldText, r]
  refine ⟨?_, r, ?_, htext, rfl, rfl, rfl⟩
  · change AutoTune.isMeasureRef r.key = true
    rw [← htext]
    exact hr.isMeasureRef
  · change AutoTune.parse r.key = .ok r
    rw [← htext]
    exact hr.parse

theorem readsBack_plain {measure : String} (h : isNamed measure none none = true) : ReadsBack measure := by
  simpa [fieldText] using readsBack_key h

theorem readsBack_stat {measure stat : String} (h : isNamed measure (some stat) none = true) (hne : stat ≠ "") :
    ReadsBack (measure ++ "@" ++ stat) := by
  have hback := readsBack_key h
  rw [fieldText_some hne] at hback
  simpa [fieldText, String.append_assoc] using hback

theorem readsBack_qualifier {measure qualifier : String} {stat : Option String}
    (h : isNamed measure stat (some qualifier) = true) (hne : qualifier ≠ "") :
    ReadsBack (measure ++ fieldText "@" "" stat ++ "[" ++ qualifier ++ "]") := by
  have hback := readsBack_key h
  simpa [fieldText_some hne, String.append_assoc] using hback

/-! ### What the families support -/

/-- A measure without a qualifier. -/
def isMeasureName (k : String) : Bool :=
  isNamed k none none ||
    measures.any fun spec => spec.stats.any fun stat =>
      k == spec.name ++ "@" ++ stat && isNamed spec.name (some stat) none && stat != ""

theorem readsBack_name {k : String} (h : isMeasureName k = true) : ReadsBack k := by
  simp only [isMeasureName, Bool.or_eq_true, List.any_eq_true, Bool.and_eq_true, beq_iff_eq, bne_iff_ne] at h
  rcases h with h | ⟨spec, -, stat, -, ⟨rfl, hnamed⟩, hne⟩
  · exact readsBack_plain h
  · exact readsBack_stat hnamed hne

/-- The measures of a level. -/
theorem level_readsBack : ∀ k ∈ guidellmLevelSupports ++ ["meets_slo"], ReadsBack k := by
  have hall : ∀ k ∈ guidellmLevelSupports ++ ["meets_slo"], isMeasureName k = true := by decide
  exact fun k hk => readsBack_name (hall k hk)

theorem buckets_readBack {measure : String} {stat : Option String}
    (h : ∀ bucket ∈ promptBuckets, isNamed measure stat (some bucket) = true ∧ bucket ≠ "") :
    ∀ k ∈ inBuckets (measure ++ fieldText "@" "" stat), ReadsBack k := by
  intro k hk
  rcases List.mem_map.mp hk with ⟨bucket, hbucket, rfl⟩
  exact readsBack_qualifier (h bucket hbucket).1 (h bucket hbucket).2

theorem replay_readsBack : ∀ k ∈ replaySupports ++ ["score_per_gpu"], ReadsBack k := by
  have hlatencies : ∀ stat ∈ ["mean", "p50", "p90"], ∀ bucket ∈ promptBuckets,
      isNamed "ttft_ms" (some stat) (some bucket) = true ∧ bucket ≠ "" := by decide
  have hcounts : ∀ bucket ∈ promptBuckets,
      isNamed "prompt_bucket_requests" none (some bucket) = true ∧ bucket ≠ "" := by decide
  have hnames : ∀ k ∈ replaySupports ++ ["score_per_gpu"],
      k ∈ (atStats "ttft_ms" ["mean", "p50", "p90"]).flatMap inBuckets ∨ k ∈ inBuckets "prompt_bucket_requests" ∨
        isMeasureName k = true := by decide
  intro k hk
  rcases hnames k hk with hbucket | hbucket | hname
  · simp only [atStats, List.mem_flatMap, List.mem_map] at hbucket
    rcases hbucket with ⟨_, ⟨stat, hstat, rfl⟩, hk⟩
    have hne : stat ≠ "" := by
      rintro rfl
      revert hstat
      decide
    have hmeasure : "ttft_ms" ++ "@" ++ stat = "ttft_ms" ++ fieldText "@" "" (some stat) := by
      rw [fieldText_some hne, String.append_empty, String.append_assoc]
    rw [hmeasure] at hk
    exact buckets_readBack (hlatencies stat hstat) k hk
  · have hmeasure : "prompt_bucket_requests" = "prompt_bucket_requests" ++ fieldText "@" "" none := by
      simp [fieldText]
    rw [hmeasure] at hbucket
    exact buckets_readBack hcounts k hbucket
  · exact readsBack_name hname

/-! ### Tasks -/

/-- A task's name that a reference can hold, without a dot. -/
def IsTaskName (task : String) : Prop := task ≠ "" ∧ task.toList.all isScenarioChar = true

theorem accuracyName_eq (task : String) :
    accuracyName task = "accuracy" ++ fieldText "@" "" none ++ "[" ++ task ++ "]" := by
  have hsign : "accuracy[" = "accuracy" ++ "[" := by decide
  simp [accuracyName, fieldText, hsign]

theorem accuracyName_injective : Function.Injective accuracyName := by
  intro a b h
  have hchars := congrArg String.toList h
  simp only [accuracyName, String.toList_append, List.append_assoc, List.append_cancel_left_eq,
    List.append_cancel_right_eq] at hchars
  exact String.toList_injective hchars

theorem isNamed_task {task : String} (h : IsTaskName task) : isNamed "accuracy" none (some task) = true := by
  have hspec : byName "accuracy" = some { name := "accuracy", qualifier := "task" } := by decide
  have hne : task.toList ≠ [] := fun hnil => h.1 (String.toList_injective (by simpa using hnil))
  simp [isNamed, hspec, takesStat, takesQualifier, hne, h.2]

/-- A task's accuracy is read back exactly when the task's name is spelled in the characters of the grammar. -/
theorem accuracy_readsBack_iff {task : String} : ReadsBack (accuracyName task) ↔ IsTaskName task := by
  constructor
  · rintro ⟨hisref, ref, hparse, htext, -, hscenario, hpoint⟩
    rcases parse_eq_ok.mp hparse with ⟨m, spec, hmatch, hspec, -, rfl⟩
    rcases matchRef_strip_iff.mp hmatch with ⟨hm, -⟩
    have hmem := byName_mem hspec
    have hwell := hm.ref hmem
    have hchars : (accuracyName task).toList = (m.ref spec).toMatch.write := by rw [← htext, hm.text_toList hmem]
    have hwrite : (m.ref spec).toMatch.write = (m.ref spec).toMatch.measure ++
        (writeGroup '@' [] (m.ref spec).toMatch.stat ++ (writeGroup '[' [']'] (m.ref spec).toMatch.qualifier ++ [])) := by
      have hnoscenario : (m.ref spec).toMatch.scenario = none := by rw [MeasureRef.toMatch, hscenario]; rfl
      have hnopoint : (m.ref spec).toMatch.point = none := by rw [MeasureRef.toMatch, hpoint]; rfl
      simp [RefMatch.write, hnoscenario, hnopoint, writeScenario, writeGroup]
    generalize (m.ref spec).toMatch = read at hwell hchars hwrite
    have haccuracy : (accuracyName task).toList = "accuracy".toList ++ ('[' :: (task.toList ++ [']'])) := by
      simp [accuracyName]
    -- the measure is the run before the bracket, and what stands in the bracket is the qualifier
    have hstop : Stops isMeasureChar (writeGroup '@' [] read.stat ++ (writeGroup '[' [']'] read.qualifier ++ [])) :=
      stops_group '@' (by decide) [] read.stat (stops_group '[' (by decide) [']'] read.qualifier (stops_nil _))
    have hdrop := dropWhile_run hwell.measure.2 hstop
    rw [← hwrite, ← hchars, haccuracy,
      dropWhile_run (by decide) (stops_cons (by decide) (task.toList ++ [']'])), List.append_nil] at hdrop
    cases hstat : read.stat with
    | some run => simp [hstat, writeGroup] at hdrop
    | none =>
        cases hqualifier : read.qualifier with
        | none => simp [hstat, hqualifier, writeGroup] at hdrop
        | some run =>
            have hrun : run = task.toList := by simpa [hstat, hqualifier, writeGroup, eq_comm] using hdrop
            have hspelled := hwell.qualifier run hqualifier
            rw [hrun] at hspelled
            have hdot : '.' ∉ (accuracyName task).toList := by
              intro hmem
              have hno : AutoTune.isMeasureRef (accuracyName task) = false := by
                simp [AutoTune.isMeasureRef, hasChar, hmem]
              rw [hno] at hisref
              cases hisref
            refine ⟨fun hempty => hspelled.1 (by rw [hempty]; rfl), List.all_eq_true.mpr fun c hc => ?_⟩
            have hchar := List.all_eq_true.mp hspelled.2 c hc
            simp only [isQualifierChar, Bool.or_eq_true, beq_iff_eq] at hchar
            rcases hchar with hchar | rfl
            · exact hchar
            · exact absurd (by rw [haccuracy]; simp [hc]) hdot
  · intro h
    rw [accuracyName_eq]
    exact readsBack_qualifier (isNamed_task h) h.1

/-! ### Every family -/

/-- But for the tasks of an accuracy suite, a family supports the same measures whatever was reported. -/
theorem mem_supportsOf {family k : String} {raw : RawMetrics} : k ∈ supportsOf family raw ↔
    k ∈ supportsOf family [] ∨ (family = "opencompass" ∧ k ∈ (taskScores raw).map Prod.fst) := by
  by_cases hsuite : family = "opencompass"
  · subst hsuite
    have hown : ∀ raw, ownSupports "opencompass" raw = (opencompass raw).2 := fun raw => rfl
    have hnone : taskScores [] = [] := rfl
    simp only [supportsOf, hown, opencompass, hnone, List.map_nil, List.append_nil, List.mem_append, true_and]
    tauto
  · have hsame : ownSupports family raw = ownSupports family [] := by
      unfold ownSupports
      cases hadapter : dictGet qualityAdapters family with
      | none => rfl
      | some adapter =>
          have hmem := mem_of_dictGet hadapter
          simp only [qualityAdapters, List.mem_cons, List.not_mem_nil, or_false, Prod.mk.injEq] at hmem
          rcases hmem with ⟨-, rfl⟩ | ⟨rfl, -⟩ | ⟨-, rfl⟩ | ⟨-, rfl⟩ | ⟨-, rfl⟩ | ⟨-, rfl⟩
          · rfl
          · exact absurd rfl hsuite
          · rfl
          · rfl
          · rfl
          · rfl
    simp [supportsOf, hsame, hsuite]

/-- What a family supports when nothing is reported can be asked for by its own name. -/
theorem supports_readBack (family : String) : ∀ k ∈ supportsOf family [], ReadsBack k := by
  have hscore : ReadsBack "score" := replay_readsBack "score" (by simp [replaySupports])
  -- the lists are fixed, so their names are checked one by one
  have hquality : ∀ adapter ∈ [agentic, functionalAcceptance, toolCall, hallucination, caseTruncation],
      ∀ k ∈ (adapter []).2, isMeasureName k = true := by decide
  have hsuite : ∀ k ∈ ["ttft_ms@mean", "tpot_ms@mean", "request_output_tps@mean", "output_tpm"],
      isMeasureName k = true := by decide
  have htasks : ∀ task ∈ opencompassTasks, task ≠ "" ∧ task.toList.all isScenarioChar = true := by decide
  have hown : ∀ k ∈ ownSupports family [], ReadsBack k := by
    unfold ownSupports
    split
    · exact level_readsBack
    · split
      · exact fun k hk => level_readsBack k (List.mem_append_left _ hk)
      · split
        · exact fun k hk => replay_readsBack k (List.mem_append_left _ hk)
        · cases hadapter : dictGet qualityAdapters family with
          | none => simp
          | some adapter =>
              have hmem := mem_of_dictGet hadapter
              -- the suites in the order the code lists them; the second has a name for each task
              simp only [qualityAdapters, List.mem_cons, List.not_mem_nil, or_false, Prod.mk.injEq] at hmem
              intro k hk
              rcases hmem with ⟨-, rfl⟩ | ⟨-, rfl⟩ | ⟨-, rfl⟩ | ⟨-, rfl⟩ | ⟨-, rfl⟩ | ⟨-, rfl⟩
              · exact readsBack_name (hquality _ (by simp) k hk)
              · have hparts : k ∈ ["ttft_ms@mean", "tpot_ms@mean", "request_output_tps@mean", "output_tpm"] ∨
                    k ∈ opencompassTasks.map accuracyName := List.mem_append.mp hk
                rcases hparts with hk | hk
                · exact readsBack_name (hsuite k hk)
                · rcases List.mem_map.mp hk with ⟨task, htask, rfl⟩
                  exact accuracy_readsBack_iff.mpr (htasks task htask)
              · exact readsBack_name (hquality _ (by simp) k hk)
              · exact readsBack_name (hquality _ (by simp) k hk)
              · exact readsBack_name (hquality _ (by simp) k hk)
              · exact readsBack_name (hquality _ (by simp) k hk)
  intro k hk
  simp only [supportsOf, List.mem_append, List.mem_singleton] at hk
  rcases hk with (hk | rfl) | hk
  · exact hown k hk
  · exact hscore
  · split at hk
    · exact replay_readsBack k (List.mem_append_right _ hk)
    · simp at hk

end AutoTune
