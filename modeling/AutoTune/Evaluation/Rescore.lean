import AutoTune.Evaluation.Harvest
import AutoTune.Evaluation.Quality
import AutoTune.Lib.Numerals
import Mathlib.Data.List.Induction

/-!
# Judging results again

When production's score moves, every result a relative redline holds is judged again. A result is written only
where its verdict or the text of a breach changed: one that holds its floor before and after keeps the slack it
had to the old one.
-/

namespace AutoTune

open Lib

/-! ## The tables -/

/-- A result with its run and what a reader answers on it. `production` says whether the run's config is
production's. -/
structure MeasuredRow where
  runId : Nat
  source : String
  reading : JsonDict ℚ
  production : Bool
  summary : StoredSummary

/-- A trial of a policy, as far as it repeats a result. -/
structure TrialRow where
  idempotencyKey : Option String
  reportedObjectiveValue : Option Extended
  reportedFeasible : Option Bool

/-- The results of a campaign and the trials. -/
structure QualityDb where
  results : List MeasuredRow
  trials : List TrialRow

/-- The key of the trial a run is recorded as. -/
def platformKey (runId : Nat) : String := "platform-run-" ++ toString runId

/-- The first trial under a key. -/
def findTrial (key : String) (trials : List TrialRow) : Option TrialRow :=
  trials.find? fun trial => trial.idempotencyKey = some key

/-- A trial with a result written into it. -/
def TrialRow.write (stored : StoredSummary) (trial : TrialRow) : TrialRow :=
  { trial with reportedObjectiveValue := stored.objectiveValue, reportedFeasible := some stored.feasible }

/-- The first trial under a key, written. -/
def writeTrial (key : String) (stored : StoredSummary) : List TrialRow → List TrialRow
  | [] => []
  | trial :: trials =>
      if trial.idempotencyKey = some key then trial.write stored :: trials
      else trial :: writeTrial key stored trials

/-! ## Judging -/

/-- `production_scores`: the mean of what production's results say, for each metric. -/
def productionScores (results : List MeasuredRow) (metrics : List String) : List (String × ℚ) :=
  metrics.filterMap fun metric =>
    let seen := results.filterMap fun row =>
      if row.source = "llmbench" ∧ row.production = true then asNumber ((dictGet row.reading metric).getD .null)
      else none
    if seen.isEmpty then none else some (metric, seen.sum / seen.length)

/-- The metric of a redline, if a score can be kept for it; a list or a dictionary cannot be looked up. -/
def neededMetric (redline : JsonDict ℚ) : Except PyError (Option String) :=
  match (dictGet redline "metric").filter Json.truthy with
  | some (.str s) => .ok (some s)
  | some (.list _) | some (.dict _) => .error .typeError
  | _ => .ok none

/-- `judge`. -/
def Quality.judge (results : List MeasuredRow) (objective reading : JsonDict ℚ) : Except PyError ResultSummary := do
  let needed ← (← relativeRedlines objective).mapM neededMetric
  summarize (← Quality.resolve objective (productionScores results (needed.filterMap id))) reading

/-- A result judged again, if a relative redline holds it. -/
def judgedAgain (objectiveOf : Nat → JsonDict ℚ) (results : List MeasuredRow) (row : MeasuredRow) :
    Except PyError (Option StoredSummary) := do
  if row.source ≠ "llmbench" then return none
  if (← relativeRedlines (objectiveOf row.runId)).isEmpty then return none
  return some (← Quality.judge results (objectiveOf row.runId) row.reading).asDict

/-- Did the verdict or a breach change? -/
def hasMoved (row : MeasuredRow) (stored : StoredSummary) : Bool :=
  !(stored.feasible = row.summary.feasible && stored.breaches = row.summary.breaches)

/-- What `rescore` has done so far. -/
structure Rescored where
  results : List MeasuredRow := []
  trials : List TrialRow
  changed : Nat := 0

/-- One result of `rescore`. What it writes is no part of a reading, so production's scores are those of the
results as they were. -/
def rescoreRow (objectiveOf : Nat → JsonDict ℚ) (results : List MeasuredRow) (out : Rescored) (row : MeasuredRow) :
    Except PyError Rescored := do
  match ← judgedAgain objectiveOf results row with
  | none => return { out with results := out.results ++ [row] }
  | some stored =>
      if hasMoved row stored then
        return { results := out.results ++ [{ row with summary := stored }]
                 trials := writeTrial (platformKey row.runId) stored out.trials, changed := out.changed + 1 }
      else return { out with results := out.results ++ [row] }

/-- `rescore`. -/
def rescore (objectiveOf : Nat → JsonDict ℚ) (db : QualityDb) : Except PyError (QualityDb × Nat) :=
  (db.results.foldlM (rescoreRow objectiveOf db.results) { trials := db.trials }).map fun out =>
    ({ results := out.results, trials := out.trials }, out.changed)

/-! ## What one pass should leave -/

/-- The verdict on a result a relative redline holds. -/
def verdictOn (objectiveOf : Nat → JsonDict ℚ) (results : List MeasuredRow) (row : MeasuredRow) : Option StoredSummary :=
  (judgedAgain objectiveOf results row).toOption.join

/-- Does a trial say what a result says? -/
def TrialRow.Carries (stored : StoredSummary) (trial : TrialRow) : Prop :=
  trial.reportedObjectiveValue = stored.objectiveValue ∧ trial.reportedFeasible = some stored.feasible

/-- Every result that is held is stored as it is judged, and its trial says the same. -/
structure Converged (objectiveOf : Nat → JsonDict ℚ) (db : QualityDb) : Prop where
  stored : ∀ row ∈ db.results, ∀ stored ∈ verdictOn objectiveOf db.results row, row.summary = stored
  carried : ∀ row ∈ db.results, ∀ stored ∈ verdictOn objectiveOf db.results row,
    ∀ trial ∈ findTrial (platformKey row.runId) db.trials, trial.Carries stored

/-! ## When one pass is enough -/

section Pass

variable (objectiveOf : Nat → JsonDict ℚ) (db : QualityDb)

/-- The run and the verdict of a result that is written. -/
def movedTo (row : MeasuredRow) : Option (Nat × StoredSummary) :=
  (verdictOn objectiveOf db.results row).bind fun stored =>
    if hasMoved row stored then some (row.runId, stored) else none

/-- The verdict of the last result of a run that is written. -/
def lastMoved (runId : Nat) : Option StoredSummary := dictGet (db.results.filterMap (movedTo objectiveOf db)).reverse runId

/-- Every result that is held moved, or is stored as it is judged; and its trial says the same, as it is or as
the last result of the run that moved says. -/
structure RescoresAll : Prop where
  stored : ∀ row ∈ db.results, ∀ stored ∈ verdictOn objectiveOf db.results row,
    hasMoved row stored = true ∨ row.summary = stored
  carried : ∀ row ∈ db.results, ∀ stored ∈ verdictOn objectiveOf db.results row,
    ∀ trial ∈ findTrial (platformKey row.runId) db.trials,
      match lastMoved objectiveOf db row.runId with
      | some last => last.objectiveValue = stored.objectiveValue ∧ last.feasible = stored.feasible
      | none => trial.Carries stored

/-- A result after the pass. -/
def rescoredRow (row : MeasuredRow) : MeasuredRow :=
  match movedTo objectiveOf db row with
  | some (_, stored) => { row with summary := stored }
  | none => row

end Pass

/-! ### Trials -/

theorem platformKey_injective {run run' : Nat} (h : platformKey run = platformKey run') : run = run' := by
  have hlist := congrArg String.toList h
  unfold platformKey at hlist
  rw [String.toList_append, String.toList_append] at hlist
  exact toString_nat_injective (String.toList_injective (List.append_cancel_left hlist))

theorem findTrial_writeTrial (key key' : String) (stored : StoredSummary) (trials : List TrialRow) :
    findTrial key (writeTrial key' stored trials) =
      if key = key' then (findTrial key trials).map (TrialRow.write stored) else findTrial key trials := by
  induction trials with
  | nil => simp [writeTrial, findTrial]
  | cons trial trials ih =>
      unfold findTrial at ih ⊢
      unfold writeTrial
      by_cases hkey' : trial.idempotencyKey = some key'
      · rw [if_pos hkey']
        have hwritten : (trial.write stored).idempotencyKey = some key' := hkey'
        by_cases hkey : key = key'
        · simp [hkey, hkey', hwritten]
        · have hother : key' ≠ key := fun h => hkey h.symm
          simp [hkey, hkey', hwritten, hother]
      · rw [if_neg hkey', List.find?_cons, List.find?_cons, ih]
        by_cases hkey : trial.idempotencyKey = some key
        · have hother : key ≠ key' := fun h => hkey' (h ▸ hkey)
          simp [hkey, hother]
        · simp [hkey]

/-- Writing over a trial leaves what was written last. -/
theorem write_write (stored last : StoredSummary) (trial : TrialRow) :
    (trial.write stored).write last = trial.write last := rfl

/-- A trial after a row of writes holds the last one of its run. -/
theorem findTrial_writes (trials : List TrialRow) (writes : List (Nat × StoredSummary)) (run : Nat) :
    findTrial (platformKey run) (writes.foldl (fun out w => writeTrial (platformKey w.1) w.2 out) trials) =
      (findTrial (platformKey run) trials).map fun trial =>
        match dictGet writes.reverse run with
        | some last => trial.write last
        | none => trial := by
  induction writes using List.reverseRecOn with
  | nil => simp [dictGet]
  | append_singleton writes w ih =>
      rw [List.foldl_append, List.foldl_cons, List.foldl_nil, findTrial_writeTrial, ih, List.reverse_append,
        List.reverse_singleton, List.singleton_append, dictGet_cons]
      by_cases hrun : w.1 = run
      · rw [if_pos (by rw [hrun]), if_pos hrun, Option.map_map]
        refine Option.map_congr fun trial _ => ?_
        cases hlast : dictGet writes.reverse run with
        | none => simp
        | some last => simp [write_write]
      · rw [if_neg fun h => hrun (platformKey_injective h).symm, if_neg hrun]

/-! ### Results -/

section Rows

variable {objectiveOf : Nat → JsonDict ℚ} {db : QualityDb}

/-- A result judged again after what is written into other results is judged as before. -/
theorem judgedAgain_map {results : List MeasuredRow} {f : MeasuredRow → MeasuredRow}
    (hf : ∀ row, (f row).runId = row.runId ∧ (f row).source = row.source ∧ (f row).reading = row.reading ∧
      (f row).production = row.production) (row : MeasuredRow) :
    judgedAgain objectiveOf (results.map f) (f row) = judgedAgain objectiveOf results row := by
  have hscores : productionScores (results.map f) = productionScores results := by
    funext metrics
    unfold productionScores
    refine List.filterMap_congr fun metric _ => ?_
    have hseen : ((results.map f).filterMap fun row =>
        if row.source = "llmbench" ∧ row.production = true then asNumber ((dictGet row.reading metric).getD .null)
        else none) = results.filterMap fun row =>
        if row.source = "llmbench" ∧ row.production = true then asNumber ((dictGet row.reading metric).getD .null)
        else none := by
      rw [List.filterMap_map]
      refine List.filterMap_congr fun row _ => ?_
      rcases hf row with ⟨-, hsource, hreading, hproduction⟩
      simp [hsource, hreading, hproduction]
    rw [hseen]
  rcases hf row with ⟨hrun, hsource, hreading, -⟩
  unfold judgedAgain Quality.judge
  rw [hrun, hsource, hreading, hscores]

theorem rescoredRow_same (row : MeasuredRow) : (rescoredRow objectiveOf db row).runId = row.runId ∧
    (rescoredRow objectiveOf db row).source = row.source ∧ (rescoredRow objectiveOf db row).reading = row.reading ∧
      (rescoredRow objectiveOf db row).production = row.production := by
  unfold rescoredRow
  split
  · exact ⟨rfl, rfl, rfl, rfl⟩
  · exact ⟨rfl, rfl, rfl, rfl⟩

/-- One turn of the pass. -/
theorem rescoreRow_eq_ok {out out' : Rescored} {row : MeasuredRow}
    (h : rescoreRow objectiveOf db.results out row = .ok out') :
    (∃ verdict, judgedAgain objectiveOf db.results row = .ok verdict) ∧
      out'.results = out.results ++ [rescoredRow objectiveOf db row] ∧
      out'.trials = (movedTo objectiveOf db row).toList.foldl
        (fun trials w => writeTrial (platformKey w.1) w.2 trials) out.trials := by
  rcases bind_eq_ok.mp h with ⟨verdict, hverdict, h⟩
  have hon : verdictOn objectiveOf db.results row = verdict := by
    rw [verdictOn, hverdict]
    rfl
  refine ⟨⟨verdict, hverdict⟩, ?_⟩
  cases verdict with
  | none =>
      cases h
      simp [rescoredRow, movedTo, hon]
  | some stored =>
      cases hmoved : hasMoved row stored with
      | true =>
          simp only [hmoved, if_true] at h
          cases h
          simp [rescoredRow, movedTo, hon, hmoved]
      | false =>
          simp only [hmoved, Bool.false_eq_true, if_false] at h
          cases h
          simp [rescoredRow, movedTo, hon, hmoved]

/-- The whole pass. -/
theorem foldlM_rescoreRow {rows : List MeasuredRow} {out out' : Rescored}
    (h : rows.foldlM (rescoreRow objectiveOf db.results) out = .ok out') :
    (∀ row ∈ rows, ∃ verdict, judgedAgain objectiveOf db.results row = .ok verdict) ∧
      out'.results = out.results ++ rows.map (rescoredRow objectiveOf db) ∧
      out'.trials = (rows.filterMap (movedTo objectiveOf db)).foldl
        (fun trials w => writeTrial (platformKey w.1) w.2 trials) out.trials := by
  induction rows generalizing out with
  | nil =>
      cases h
      simp
  | cons row rows ih =>
      rw [List.foldlM_cons] at h
      rcases bind_eq_ok.mp h with ⟨next, hrow, h⟩
      rcases rescoreRow_eq_ok hrow with ⟨hverdict, hresults, htrials⟩
      rcases ih h with ⟨hverdicts, hresults', htrials'⟩
      refine ⟨fun row' hrow' => ?_, ?_, ?_⟩
      · rcases List.mem_cons.mp hrow' with rfl | hrow'
        · exact hverdict
        · exact hverdicts row' hrow'
      · rw [hresults', hresults, List.map_cons, List.append_assoc, List.singleton_append]
      · rw [htrials', htrials, List.filterMap_cons]
        cases movedTo objectiveOf db row with
        | none => rfl
        | some w => rfl

/-- A pass over results none of which moves. -/
theorem foldlM_still {results rows : List MeasuredRow} {out : Rescored}
    (h : ∀ row ∈ rows, ∃ verdict, judgedAgain objectiveOf results row = .ok verdict ∧
      ∀ stored ∈ verdict, hasMoved row stored = false) :
    rows.foldlM (rescoreRow objectiveOf results) out = .ok { out with results := out.results ++ rows } := by
  induction rows generalizing out with
  | nil =>
      rw [List.append_nil]
      rfl
  | cons row rows ih =>
      rcases h row List.mem_cons_self with ⟨verdict, hverdict, hstill⟩
      have hrow : rescoreRow objectiveOf results out row = .ok { out with results := out.results ++ [row] } := by
        refine bind_eq_ok.mpr ⟨verdict, hverdict, ?_⟩
        cases verdict with
        | none => rfl
        | some stored => simp only [hstill stored rfl, Bool.false_eq_true, if_false, pure, Except.pure]
      rw [List.foldlM_cons, hrow]
      change rows.foldlM (rescoreRow objectiveOf results) { out with results := out.results ++ [row] } = _
      rw [ih fun row' hrow' => h row' (List.mem_cons_of_mem row hrow')]
      simp

end Rows

/-! ### Both passes -/

section Pass

variable {objectiveOf : Nat → JsonDict ℚ} {db db' : QualityDb} {changed : Nat}

/-- What the pass leaves. -/
theorem rescore_eq_ok (h : rescore objectiveOf db = .ok (db', changed)) :
    (∀ row ∈ db.results, ∃ verdict, judgedAgain objectiveOf db.results row = .ok verdict) ∧
      db'.results = db.results.map (rescoredRow objectiveOf db) ∧
      db'.trials = (db.results.filterMap (movedTo objectiveOf db)).foldl
        (fun trials w => writeTrial (platformKey w.1) w.2 trials) db.trials := by
  rcases map_eq_ok.mp h with ⟨out, hout, heq⟩
  rcases foldlM_rescoreRow hout with ⟨hverdicts, hresults, htrials⟩
  cases heq
  exact ⟨hverdicts, by simpa using hresults, htrials⟩

theorem verdictOn_rescored (h : rescore objectiveOf db = .ok (db', changed)) (row : MeasuredRow) :
    verdictOn objectiveOf db'.results (rescoredRow objectiveOf db row) = verdictOn objectiveOf db.results row := by
  unfold verdictOn
  rw [(rescore_eq_ok h).2.1, judgedAgain_map rescoredRow_same]

/-- A result that moved is stored as it is judged. -/
theorem summary_rescored {row : MeasuredRow} {stored : StoredSummary}
    (hstored : verdictOn objectiveOf db.results row = some stored) :
    (rescoredRow objectiveOf db row).summary = if hasMoved row stored then stored else row.summary := by
  unfold rescoredRow movedTo
  rw [hstored]
  cases hmoved : hasMoved row stored with
  | true => simp [hmoved]
  | false => simp [hmoved]

/-- A second pass with the same scores finds nothing. -/
theorem rescore_again (h : rescore objectiveOf db = .ok (db', changed)) : rescore objectiveOf db' = .ok (db', 0) := by
  have hresults := (rescore_eq_ok h).2.1
  have hstill : ∀ row' ∈ db'.results, ∃ verdict, judgedAgain objectiveOf db'.results row' = .ok verdict ∧
      ∀ stored ∈ verdict, hasMoved row' stored = false := by
    intro row' hrow'
    rw [hresults] at hrow'
    rcases List.mem_map.mp hrow' with ⟨row, hrow, rfl⟩
    rcases (rescore_eq_ok h).1 row hrow with ⟨verdict, hverdict⟩
    refine ⟨verdict, by rw [hresults, judgedAgain_map rescoredRow_same, hverdict], fun stored hstored => ?_⟩
    have hon : verdictOn objectiveOf db.results row = some stored := by
      rw [verdictOn, hverdict]
      exact hstored
    unfold hasMoved
    rw [summary_rescored hon]
    cases hmoved : hasMoved row stored with
    | true => simp
    | false => simpa [hasMoved] using hmoved
  unfold rescore
  rw [foldlM_still hstill]
  rfl

/-- One pass leaves every result as it is judged, and its trial with it, exactly where each moved or was stored
so before; a second pass never changes anything. -/
theorem rescore_converges_iff (h : rescore objectiveOf db = .ok (db', changed)) :
    (Converged objectiveOf db' ∧ rescore objectiveOf db' = .ok (db', 0)) ↔ RescoresAll objectiveOf db := by
  rcases rescore_eq_ok h with ⟨-, hresults, htrials⟩
  have hstored : ∀ row stored, verdictOn objectiveOf db.results row = some stored →
      ((rescoredRow objectiveOf db row).summary = stored ↔ hasMoved row stored = true ∨ row.summary = stored) := by
    intro row stored hon
    rw [summary_rescored hon]
    cases hmoved : hasMoved row stored with
    | true => simp
    | false => simp
  -- a trial carries what the last moved result of its run wrote, or what it carried before
  have hcarried : ∀ run stored, (∀ trial ∈ findTrial (platformKey run) db'.trials, trial.Carries stored) ↔
      ∀ trial ∈ findTrial (platformKey run) db.trials,
        match lastMoved objectiveOf db run with
        | some last => last.objectiveValue = stored.objectiveValue ∧ last.feasible = stored.feasible
        | none => trial.Carries stored := by
    intro run stored
    rw [htrials, findTrial_writes]
    unfold lastMoved
    cases findTrial (platformKey run) db.trials with
    | none => simp
    | some trial =>
        cases dictGet (db.results.filterMap (movedTo objectiveOf db)).reverse run with
        | none => simp
        | some last => simp [TrialRow.Carries, TrialRow.write]
  rw [and_iff_left (rescore_again h)]
  constructor
  · intro hconverged
    refine ⟨fun row hrow stored hon => ?_, fun row hrow stored hon => ?_⟩
    · have hin : rescoredRow objectiveOf db row ∈ db'.results := hresults ▸ List.mem_map_of_mem hrow
      exact (hstored row stored hon).mp (hconverged.stored _ hin stored ((verdictOn_rescored h row).trans hon))
    · have hin : rescoredRow objectiveOf db row ∈ db'.results := hresults ▸ List.mem_map_of_mem hrow
      have hkept := hconverged.carried _ hin stored ((verdictOn_rescored h row).trans hon)
      rw [(rescoredRow_same row).1] at hkept
      exact (hcarried row.runId stored).mp hkept
  · intro hall
    refine ⟨fun row' hrow' stored hon' => ?_, fun row' hrow' stored hon' => ?_⟩
    · rcases List.mem_map.mp (hresults ▸ hrow') with ⟨row, hrow, rfl⟩
      have hon := (verdictOn_rescored h row).symm.trans hon'
      exact (hstored row stored hon).mpr (hall.stored row hrow stored hon)
    · rcases List.mem_map.mp (hresults ▸ hrow') with ⟨row, hrow, rfl⟩
      have hon := (verdictOn_rescored h row).symm.trans hon'
      rw [(rescoredRow_same row).1]
      exact (hcarried row.runId stored).mpr (hall.carried row hrow stored hon)

end Pass

/-- An accuracy at most a tenth below production's. -/
def accuracyObjective : JsonDict ℚ :=
  [("target_metric", .str "tps"), ("redlines", .list [.dict [("metric", .str "accuracy"), ("op", .str ">="),
    ("relative_to", .str "production"), ("value", .float (-1 / 10))]])]

/-- A result with its accuracy, as it was judged when there was no score of production's. -/
def unscoredRow (run : Nat) (isProduction : Bool) (accuracy : ℚ) : MeasuredRow where
  runId := run
  source := "llmbench"
  reading := [("tps", .int 100), ("accuracy", .float accuracy)]
  production := isProduction
  summary :=
    { objectiveValue := some (.finite 100), feasible := false, constraints := [none]
      breaches := ["accuracy: no production score to compare with yet"] }

/-- A finalist measured before production. -/
def beforeProduction : QualityDb where
  results := [unscoredRow 1 false (3 / 4), unscoredRow 2 true (7 / 10)]
  trials := [{ idempotencyKey := some "platform-run-1", reportedObjectiveValue := some (.finite 100)
               reportedFeasible := some false }]

theorem beforeProduction_moves : RescoresAll (fun _ => accuracyObjective) beforeProduction := by
  have hmoved : ∀ row ∈ beforeProduction.results, (verdictOn (fun _ => accuracyObjective) beforeProduction.results row).all
      (fun stored => hasMoved row stored) = true := by decide +kernel
  have hlast : ∀ row ∈ beforeProduction.results,
      (lastMoved (fun _ => accuracyObjective) beforeProduction row.runId).map (fun last => (last.objectiveValue, last.feasible)) =
        (verdictOn (fun _ => accuracyObjective) beforeProduction.results row).map
          fun stored => (stored.objectiveValue, stored.feasible) := by decide +kernel
  refine ⟨fun row hrow stored hon => Or.inl ?_, fun row hrow stored hon trial htrial => ?_⟩
  · have hall := hmoved row hrow
    rw [Option.mem_def.mp hon] at hall
    exact hall
  · have hsame := hlast row hrow
    rw [Option.mem_def.mp hon] at hsame
    cases hmovedTo : lastMoved (fun _ => accuracyObjective) beforeProduction row.runId with
    | none =>
        rw [hmovedTo] at hsame
        cases hsame
    | some last =>
        rw [hmovedTo] at hsame
        exact Prod.mk.inj (Option.some.inj hsame)

theorem beforeProduction_converges : ∃ db' changed,
    rescore (fun _ => accuracyObjective) beforeProduction = .ok (db', changed) ∧
      Converged (fun _ => accuracyObjective) db' ∧ rescore (fun _ => accuracyObjective) db' = .ok (db', 0) := by
  have hok : (rescore (fun _ => accuracyObjective) beforeProduction).isOk = true := by decide +kernel
  cases h : rescore (fun _ => accuracyObjective) beforeProduction with
  | error e =>
      rw [h] at hok
      cases hok
  | ok out => exact ⟨out.1, out.2, rfl, (rescore_converges_iff h).mpr beforeProduction_moves⟩

/-- A finalist that holds its floor, with the slack it had when production's score was 0.7. -/
def heldRow : MeasuredRow :=
  { unscoredRow 1 false (3 / 4) with
    summary := { objectiveValue := some (.finite 100), feasible := true, constraints := [some (-3 / 20)], breaches := [] } }

/-- Production's second measurement is lower; the finalist still holds its floor, with more slack. -/
def afterSecond : QualityDb where
  results := [heldRow, unscoredRow 2 true (7 / 10), unscoredRow 3 true (3 / 5)]
  trials := []

theorem heldRow_staleSlack : ¬ ∀ (objectiveOf : Nat → JsonDict ℚ) (db db' : QualityDb) (changed : Nat),
    rescore objectiveOf db = .ok (db', changed) → Converged objectiveOf db' ∧ rescore objectiveOf db' = .ok (db', 0) := by
  intro hall
  have hok : (rescore (fun _ => accuracyObjective) afterSecond).isOk = true := by decide +kernel
  have hverdict : (verdictOn (fun _ => accuracyObjective) afterSecond.results heldRow).map
      (fun stored => (hasMoved heldRow stored, stored.constraints)) = some (false, [some (-1 / 5)]) := by decide +kernel
  cases h : rescore (fun _ => accuracyObjective) afterSecond with
  | error e =>
      rw [h] at hok
      cases hok
  | ok out =>
      have hconverged := (hall _ _ out.1 out.2 h).1
      rcases Option.map_eq_some_iff.mp hverdict with ⟨stored, hon, hstored⟩
      rcases Prod.mk.inj hstored with ⟨hstill, hslack⟩
      have hin : rescoredRow (fun _ => accuracyObjective) afterSecond heldRow ∈ out.1.results := by
        rw [(rescore_eq_ok h).2.1]
        exact List.mem_map_of_mem List.mem_cons_self
      have hkept := hconverged.stored _ hin stored ((verdictOn_rescored h heldRow).trans hon)
      rw [summary_rescored hon, hstill, if_neg Bool.false_ne_true] at hkept
      rw [← hkept] at hslack
      exact absurd hslack (by decide +kernel)

end AutoTune
