import AutoTune.Evaluation.Aggregate
import AutoTune.Lib.Fallible
import Mathlib.Tactic.Linarith

/-!
# The verdict and the slacks

The verdict of a redline compares what was measured as it stands, its slack subtracts numbers. Where a
redline orders numbers and a strict limit is not met exactly, both say the same; `==` and `!=` have no
distance, and their slack always says crossed.
-/

namespace AutoTune

open Lib

/-- A whole number or a float. -/
def Value.exact : Value → Option ℚ
  | .int n => some n
  | .float x => some x
  | _ => none

/-- What the redline is about was measured as `actual`. -/
def MeasuredAs (metrics redline : JsonDict ℚ) (actual : Value) : Prop :=
  actualOf metrics ((dictGet redline "metric").getD .null) = .ok actual

/-- The redline orders numbers: an operator that has a sign, a limit that is a number, and a metric that
is missing, is a text that is no number, or is a number, which a strict limit does not equal. -/
structure OrdersNumbers (redline : JsonDict ℚ) (actual : Value) : Prop where
  absolute : (dictGet redline "relative_to").filter Json.truthy = none
  op : ∃ op, (dictGet redline "op").getD (.str "<=") = .str op ∧ slackSign op ≠ none
  limit : ∃ x, Value.exact ((dictGet redline "value").getD .null) = some x
  actual : actual = .null ∨ (∃ s, actual = .str s ∧ extendedOfText (strip s) = none) ∨
    ∃ x, Value.exact actual = some x ∧
      ((dictGet redline "op").getD (.str "<=") = .str "<" ∨
        (dictGet redline "op").getD (.str "<=") = .str ">" →
        Value.exact ((dictGet redline "value").getD .null) ≠ some x)

/-- The redline is judged as it is measured: it orders numbers, or waits for a score to be relative to. -/
def OnScale (metrics redline : JsonDict ℚ) : Prop :=
  ∃ actual, MeasuredAs metrics redline actual ∧
    (OrdersNumbers redline actual ∨ ((dictGet redline "relative_to").filter Json.truthy).isSome = true)

/-- What `as_dict` and `constraints_from_stored` keep. -/
def Extended.storable (x : Extended) : Prop := x = Extended.inf ∨ ∃ q, x = .finite q

theorem stored_of_storable {l : List Extended} (h : ∀ x ∈ l, Extended.storable x) :
    constraintsFromStored (l.map Extended.finite?) = l := by
  unfold constraintsFromStored
  rw [List.map_map]
  conv_rhs => rw [← List.map_id l]
  refine List.map_congr_left fun x hx => ?_
  rcases h x hx with rfl | ⟨q, rfl⟩
  · rfl
  · rfl

/-! ## One redline -/

/-- The result says one thing. -/
structure RedlineResult.Agrees (r : RedlineResult) : Prop where
  verdict : r.slack.nonpos = r.ok
  storable : Extended.storable r.slack
  described : r.ok = false → ∃ text, r.describe = .ok text

theorem numericOf_exact {v : Value} {x : ℚ} (h : Value.exact v = some x) :
    numericOf v = some (.finite x) := by
  cases v with
  | int n =>
      cases h
      rfl
  | float y =>
      cases h
      rfl
  | _ => cases h

theorem number_exact {v : Value} {x : ℚ} (h : Value.exact v = some x) : Value.number v = some x := by
  cases v with
  | int n =>
      cases h
      rfl
  | float y =>
      cases h
      rfl
  | _ => cases h

theorem formatted_of_isNumber {v : Value} (h : v.isNumber = true) : ∃ text, v.formatted = .ok text := by
  cases v with
  | bool b => exact ⟨_, rfl⟩
  | int n => exact ⟨_, rfl⟩
  | float x => exact ⟨_, rfl⟩
  | _ => cases h

/-- A crossed redline whose limit is a number can be described. -/
theorem RedlineResult.describe_returns {r : RedlineResult} (h : r.limit.isNumber = true) :
    ∃ text, r.describe = .ok text := by
  rcases formatted_of_isNumber h with ⟨limit, hlimit⟩
  unfold RedlineResult.describe
  split
  · exact ⟨_, rfl⟩
  split
  · rename_i hbasis
    rcases formatted_of_isNumber hbasis.2 with ⟨actual, hactual⟩
    exact ⟨_, bind_eq_ok.mpr ⟨actual, hactual, bind_eq_ok.mpr ⟨limit, hlimit, rfl⟩⟩⟩
  split
  · exact ⟨_, rfl⟩
  split
  · rename_i hactual
    rcases formatted_of_isNumber hactual with ⟨actual, hactual⟩
    exact ⟨_, bind_eq_ok.mpr ⟨actual, hactual, bind_eq_ok.mpr ⟨limit, hlimit, rfl⟩⟩⟩
  · exact ⟨_, rfl⟩

/-- Comparing two numbers. -/
theorem before_exact {v w : Value} {x y : ℚ} (hv : Value.exact v = some x) (hw : Value.exact w = some y)
    (orEqual : Bool) :
    Value.before orEqual v w = some (if orEqual then decide (x ≤ y) else decide (x < y)) := by
  have hx := number_exact hv
  have hy := number_exact hw
  cases v with
  | int n => simp [Value.before, hx, hy]
  | float z => simp [Value.before, hx, hy]
  | _ => cases hv

/-- The operators that have a sign. -/
theorem slackSign_cases {op : String} (h : slackSign op ≠ none) :
    op = "<=" ∨ op = "<" ∨ op = ">=" ∨ op = ">" := by
  unfold slackSign at h
  split at h
  · rename_i hle
    exact hle.elim Or.inl fun hlt => Or.inr (Or.inl hlt)
  · split at h
    · rename_i hge
      exact hge.elim (fun hge => Or.inr (Or.inr (Or.inl hge))) fun hgt => Or.inr (Or.inr (Or.inr hgt))
    · exact absurd rfl h

/-- The slack of two numbers is at most 0 where their comparison holds. -/
theorem slackOf_exact {op : String} (hop : slackSign op ≠ none) {actual limit : Value} {x y : ℚ}
    (hactual : Value.exact actual = some x) (hlimit : Value.exact limit = some y)
    (hstrict : op = "<" ∨ op = ">" → y ≠ x) :
    (∃ q, slackOf op actual limit = .finite q) ∧
      ∃ o, Operator.ofText op = some o ∧
        (slackOf op actual limit).nonpos = (o.compare actual limit).getD false := by
  unfold slackOf
  rw [numericOf_exact hactual, numericOf_exact hlimit]
  rcases slackSign_cases hop with rfl | rfl | rfl | rfl
  · refine ⟨⟨x - y, rfl⟩, .le, rfl, ?_⟩
    rw [Operator.compare, before_exact hactual hlimit]
    change decide (x - y ≤ 0) = decide (x ≤ y)
    exact decide_eq_decide.mpr sub_nonpos
  · refine ⟨⟨x - y, rfl⟩, .lt, rfl, ?_⟩
    rw [Operator.compare, before_exact hactual hlimit]
    change decide (x - y ≤ 0) = decide (x < y)
    refine decide_eq_decide.mpr (sub_nonpos.trans ⟨fun hle => ?_, le_of_lt⟩)
    exact lt_of_le_of_ne hle fun heq => hstrict (Or.inl rfl) heq.symm
  · refine ⟨⟨-(x - y), rfl⟩, .ge, rfl, ?_⟩
    rw [Operator.compare, before_exact hlimit hactual]
    change decide (-(x - y) ≤ 0) = decide (y ≤ x)
    rw [neg_sub]
    exact decide_eq_decide.mpr sub_nonpos
  · refine ⟨⟨-(x - y), rfl⟩, .gt, rfl, ?_⟩
    rw [Operator.compare, before_exact hlimit hactual]
    change decide (-(x - y) ≤ 0) = decide (y < x)
    rw [neg_sub]
    refine decide_eq_decide.mpr (sub_nonpos.trans ⟨fun hle => ?_, le_of_lt⟩)
    exact lt_of_le_of_ne hle (hstrict (Or.inr rfl))

/-- Without a number there is no distance. -/
theorem slackOf_none {op : String} {actual limit : Value} (h : numericOf actual = none) :
    slackOf op actual limit = Extended.inf := by
  unfold slackOf
  rw [h]
  cases slackSign op <;> rfl

theorem slackOf_no_limit {op : String} {actual limit : Value} (h : numericOf limit = none) :
    slackOf op actual limit = Extended.inf := by
  unfold slackOf
  rw [h]
  cases slackSign op with
  | none => rfl
  | some s => cases numericOf actual <;> rfl

/-- `==`, `!=` and what is no operator have no distance. -/
theorem slackOf_no_sign {op : String} (h : slackSign op = none) (actual limit : Value) :
    slackOf op actual limit = Extended.inf := by
  unfold slackOf
  rw [h]

/-- What is missing or no number crosses an ordering of numbers. -/
theorem compare_text {s : String} {limit : Value} {y : ℚ} (h : Value.exact limit = some y) {op : String}
    (hop : slackSign op ≠ none) :
    ∃ o, Operator.ofText op = some o ∧ o.compare (.str s) limit = none := by
  cases limit with
  | int n =>
      rcases slackSign_cases hop with rfl | rfl | rfl | rfl
      · exact ⟨.le, rfl, rfl⟩
      · exact ⟨.lt, rfl, rfl⟩
      · exact ⟨.ge, rfl, rfl⟩
      · exact ⟨.gt, rfl, rfl⟩
  | float x =>
      rcases slackSign_cases hop with rfl | rfl | rfl | rfl
      · exact ⟨.le, rfl, rfl⟩
      · exact ⟨.lt, rfl, rfl⟩
      · exact ⟨.ge, rfl, rfl⟩
      · exact ⟨.gt, rfl, rfl⟩
  | _ => cases h

/-- A result whose verdict is its comparison agrees with its slack. -/
theorem agrees_of_comparison {r : RedlineResult} {o : Operator} {y : ℚ} (hop : slackSign r.op ≠ none)
    (ho : Operator.ofText r.op = some o) (hlimit : Value.exact r.limit = some y)
    (hok : r.ok = match r.actual with
      | .null => false
      | actual => (o.compare actual r.limit).getD false)
    (hactual : r.actual = .null ∨ (∃ s, r.actual = .str s ∧ extendedOfText (strip s) = none) ∨
      ∃ x, Value.exact r.actual = some x ∧ (r.op = "<" ∨ r.op = ">" → y ≠ x)) : r.Agrees := by
  have hdescribed : r.ok = false → ∃ text, r.describe = .ok text := fun _ =>
    r.describe_returns (by rw [Value.isNumber, number_exact hlimit]; rfl)
  -- nothing was measured, a text was, or a number was
  rcases hactual with hnull | ⟨s, hs, htext⟩ | ⟨x, hx, hstrict⟩
  · have hslack : r.slack = Extended.inf := by
      unfold RedlineResult.slack
      rw [hnull]
      exact slackOf_none rfl
    refine ⟨?_, Or.inl hslack, hdescribed⟩
    rw [hslack, hok, hnull]
    rfl
  · have hslack : r.slack = Extended.inf := by
      unfold RedlineResult.slack
      rw [hs]
      exact slackOf_none htext
    rcases compare_text hlimit hop (s := s) with ⟨o', ho', hcompare⟩
    rw [ho] at ho'
    cases ho'
    refine ⟨?_, Or.inl hslack, hdescribed⟩
    rw [hslack, hok, hs]
    dsimp only
    rw [hcompare]
    rfl
  -- for a number the slack is positive exactly where the comparison fails
  · rcases slackOf_exact hop hx hlimit hstrict with ⟨hfinite, o', ho', hnonpos⟩
    rw [ho] at ho'
    cases ho'
    refine ⟨?_, Or.inr hfinite, hdescribed⟩
    rw [RedlineResult.slack, hnonpos, hok]
    split
    · rename_i hnull
      rw [hnull] at hx
      cases hx
    · rfl

theorem evaluateRedline_orders {metrics redline : JsonDict ℚ} {actual : Value}
    (hmeasured : MeasuredAs metrics redline actual) (h : OrdersNumbers redline actual) :
    ∃ r, evaluateRedline metrics redline = .ok r ∧ r.Agrees := by
  rcases h.op with ⟨op, hop, hsign⟩
  rcases h.limit with ⟨y, hlimit⟩
  have hactual := h.actual
  rw [hop, hlimit] at hactual
  -- the operator that is read is the one that is written
  have hstrict : actual = .null ∨ (∃ s, actual = .str s ∧ extendedOfText (strip s) = none) ∨
      ∃ x, Value.exact actual = some x ∧ (op = "<" ∨ op = ">" → y ≠ x) := by
    rcases hactual with hnull | htext | ⟨x, hx, hne⟩
    · exact Or.inl hnull
    · exact Or.inr (Or.inl htext)
    · refine Or.inr (Or.inr ⟨x, hx, fun hop' heq => hne ?_ (by rw [heq])⟩)
      rcases hop' with rfl | rfl
      · exact Or.inl rfl
      · exact Or.inr rfl
  rcases compare_text hlimit hsign (s := "") with ⟨o, ho, -⟩
  unfold MeasuredAs at hmeasured
  -- the redline is judged on what was measured, by that operator
  refine ⟨judgeRedline redline ((dictGet redline "metric").getD .null) (.str op)
    ((dictGet redline "value").getD .null) actual (some o), ?_, ?_⟩
  · unfold evaluateRedline
    rw [h.absolute]
    dsimp only
    rw [hmeasured, hop]
    simp only [Except.bind, comparison, ho, Except.map]
  · generalize (dictGet redline "metric").getD .null = metric at *
    generalize (dictGet redline "value").getD .null = limit at *
    unfold judgeRedline
    dsimp only
    split
    · -- a redline that names no metric
      have hmissing : actual = .null := (Except.ok.inj hmeasured).symm
      refine agrees_of_comparison (o := o) hsign ho hlimit ?_ hstrict
      rw [hmissing]
    · cases hlimit
    · exact agrees_of_comparison hsign ho hlimit rfl hstrict

/-- A redline that is judged as it is measured has a result that says one thing. -/
theorem evaluateRedline_onScale {metrics redline : JsonDict ℚ} (h : OnScale metrics redline) :
    ∃ r, evaluateRedline metrics redline = .ok r ∧ r.Agrees := by
  rcases h with ⟨actual, hmeasured, horders | hrelative⟩
  · exact evaluateRedline_orders hmeasured horders
  · -- nothing to be relative to: crossed, at no distance
    rcases Option.isSome_iff_exists.mp hrelative with ⟨basis, hbasis⟩
    have hfound : ∃ found, (if metrics.isEmpty then .ok .null else
        actualOf metrics ((dictGet redline "metric").getD .null)) = .ok found := by
      split
      · exact ⟨_, rfl⟩
      · exact ⟨actual, hmeasured⟩
    rcases hfound with ⟨found, hfound⟩
    unfold evaluateRedline
    rw [hbasis]
    dsimp only
    rw [hfound]
    refine ⟨_, rfl, ?_, Or.inl (slackOf_no_limit rfl), fun _ => ?_⟩
    · rw [RedlineResult.slack, slackOf_no_limit rfl]
      rfl
    · unfold RedlineResult.describe
      rw [if_pos]
      · exact ⟨_, rfl⟩
      · intro hempty
        have hlength := congrArg (fun s : String => s.toList.length) hempty
        simp at hlength

/-! ## A whole result -/

theorem summarize_eq {objective metrics : JsonDict ℚ} {results : List RedlineResult} {summary : ResultSummary}
    (hresults : evaluateRedlines objective metrics = .ok results)
    (hsummary : summarize objective metrics = .ok summary) :
    ∃ value breaches, metricAt metrics (targetMetric objective) = .ok value ∧
      (results.filter fun r => !r.ok).mapM RedlineResult.describe = .ok breaches ∧
      summary = { objectiveValue := numericOf value
                  feasible := breaches.isEmpty && (numericOf value).isSome
                  constraints := results.map RedlineResult.slack, breaches := breaches } := by
  rcases bind_eq_ok.mp hsummary with ⟨value, hvalue, h⟩
  rcases bind_eq_ok.mp h with ⟨results', hresults', h⟩
  rw [hresults] at hresults'
  cases hresults'
  rcases bind_eq_ok.mp h with ⟨breaches, hbreaches, h⟩
  cases h
  exact ⟨value, breaches, hvalue, hbreaches, rfl⟩

/-- Nothing is described exactly when every redline holds. -/
theorem breaches_isEmpty_iff {results : List RedlineResult} {breaches : List String}
    (h : (results.filter fun r => !r.ok).mapM RedlineResult.describe = .ok breaches) :
    breaches.isEmpty = true ↔ ∀ r ∈ results, r.ok = true := by
  have hlength := (mapM_eq_ok.mp h).length_eq
  rw [List.isEmpty_iff, ← List.length_eq_zero_iff, ← hlength, List.length_eq_zero_iff,
    List.filter_eq_nil_iff]
  refine forall₂_congr fun r _ => ?_
  cases r.ok <;> decide

/-- A run counts if its target was measured and every redline holds. -/
theorem feasible_iff {objective metrics : JsonDict ℚ} {results : List RedlineResult} {summary : ResultSummary}
    (hresults : evaluateRedlines objective metrics = .ok results)
    (hsummary : summarize objective metrics = .ok summary) :
    summary.feasible = true ↔ summary.objectiveValue.isSome = true ∧ ∀ r ∈ results, r.ok = true := by
  rcases summarize_eq hresults hsummary with ⟨value, breaches, -, hbreaches, rfl⟩
  rw [Bool.and_eq_true, breaches_isEmpty_iff hbreaches, and_comm]

/-- An objective whose redlines are judged as they are measured can be summarized. -/
theorem summarize_onScale {objective metrics : JsonDict ℚ} {lines : List (JsonDict ℚ)} {value : Value}
    (hlines : redlines objective = .ok lines)
    (hvalue : metricAt metrics (targetMetric objective) = .ok value) (h : ∀ l ∈ lines, OnScale metrics l) :
    ∃ results summary, evaluateRedlines objective metrics = .ok results ∧
      summarize objective metrics = .ok summary ∧ summary.objectiveValue = numericOf value ∧
      ∀ r ∈ results, r.Agrees := by
  rcases mapM_returns fun l hl => evaluateRedline_onScale (h l hl) with ⟨results, hresults, hall⟩
  have hevaluate : evaluateRedlines objective metrics = .ok results :=
    bind_eq_ok.mpr ⟨lines, hlines, hresults⟩
  rcases mapM_returns (f := RedlineResult.describe) (l := results.filter fun r => !r.ok)
    (P := fun _ => True) (fun r hr => by
      rcases List.mem_filter.mp hr with ⟨hr, hok⟩
      rcases (hall r hr).described (by simpa using hok) with ⟨text, htext⟩
      exact ⟨text, htext, trivial⟩) with ⟨breaches, hbreaches, -⟩
  exact ⟨results, _, hevaluate,
    bind_eq_ok.mpr ⟨value, hvalue, bind_eq_ok.mpr ⟨results, hevaluate,
      bind_eq_ok.mpr ⟨breaches, hbreaches, rfl⟩⟩⟩, rfl, hall⟩

/-- A result has a slack for each redline, counts exactly when its target was measured and every verdict
holds, and puts `==` and `!=` infinitely far outside. Where every redline is judged as it is measured, a
slack is at most 0 exactly where the verdict holds, and what is stored says the same. -/
theorem verdict_and_slacks (objective metrics : JsonDict ℚ) :
    (∀ results summary, evaluateRedlines objective metrics = .ok results →
      summarize objective metrics = .ok summary →
      summary.constraints = results.map RedlineResult.slack ∧
      (summary.feasible = true ↔ summary.objectiveValue.isSome = true ∧ ∀ r ∈ results, r.ok = true) ∧
      ∀ r ∈ results, slackSign r.op = none → r.slack = Extended.inf) ∧
    ∀ lines value, redlines objective = .ok lines →
      metricAt metrics (targetMetric objective) = .ok value → (∀ l ∈ lines, OnScale metrics l) →
      ∃ results summary, evaluateRedlines objective metrics = .ok results ∧
        summarize objective metrics = .ok summary ∧
        summary.constraints = results.map RedlineResult.slack ∧
        (∀ r ∈ results, r.slack.nonpos = true ↔ r.ok = true) ∧
        (summary.feasible = true ↔
          (numericOf value).isSome = true ∧ ∀ c ∈ summary.constraints, c.nonpos = true) ∧
        constraintsFromStored summary.asDict.constraints = summary.constraints ∧
        summary.asDict.feasible = summary.feasible := by
  refine ⟨fun results summary hresults hsummary => ⟨?_, feasible_iff hresults hsummary, fun r _ hsign =>
    slackOf_no_sign hsign _ _⟩, fun lines value hlines hvalue h => ?_⟩
  · rcases summarize_eq hresults hsummary with ⟨value, breaches, -, -, rfl⟩
    rfl
  · rcases summarize_onScale hlines hvalue h with ⟨results, summary, hresults, hsummary, htarget, hagrees⟩
    have hconstraints : summary.constraints = results.map RedlineResult.slack := by
      rcases summarize_eq hresults hsummary with ⟨value, breaches, -, -, rfl⟩
      rfl
    have hverdict : ∀ r ∈ results, r.slack.nonpos = true ↔ r.ok = true := fun r hr => by
      rw [(hagrees r hr).verdict]
    refine ⟨results, summary, hresults, hsummary, hconstraints, hverdict, ?_, ?_, rfl⟩
    · rw [feasible_iff hresults hsummary, htarget, hconstraints, List.forall_mem_map]
      exact and_congr_right fun _ => forall₂_congr fun r hr => (hverdict r hr).symm
    · refine stored_of_storable ?_
      rw [hconstraints, List.forall_mem_map]
      exact fun r hr => (hagrees r hr).storable

/-! ## Two objectives -/

/-- Throughput under a limit on the latency. -/
def latencyObjective : JsonDict ℚ :=
  [("target_metric", .str "tps"),
    ("redlines", .list [.dict [("metric", .str "ttft"), ("op", .str "<="), ("value", .int 5000)]])]

/-- Throughput, and every answer right. -/
def exactObjective : JsonDict ℚ :=
  [("target_metric", .str "tps"),
    ("redlines", .list [.dict [("metric", .str "pass_rate"), ("op", .str "=="), ("value", .int 1)]])]

def measuredMetrics : JsonDict ℚ := [("tps", .int 900), ("ttft", .int 4000), ("pass_rate", .int 1)]

theorem latency_onScale : ∃ results summary,
    evaluateRedlines latencyObjective measuredMetrics = .ok results ∧
      summarize latencyObjective measuredMetrics = .ok summary ∧
      summary.constraints = results.map RedlineResult.slack ∧
      (∀ r ∈ results, r.slack.nonpos = true ↔ r.ok = true) ∧
      (summary.feasible = true ↔
        (numericOf (.int 900)).isSome = true ∧ ∀ c ∈ summary.constraints, c.nonpos = true) ∧
      constraintsFromStored summary.asDict.constraints = summary.constraints ∧
      summary.asDict.feasible = summary.feasible := by
  refine (verdict_and_slacks latencyObjective measuredMetrics).2 _ _ rfl rfl fun l hl => ?_
  rw [List.mem_singleton.mp hl]
  refine ⟨.int 4000, rfl, Or.inl ⟨rfl, ⟨_, rfl, by decide⟩, ⟨5000, rfl⟩, Or.inr (Or.inr ⟨4000, rfl, ?_⟩)⟩⟩
  rintro (h | h)
  · exact absurd h (by simp [dictGet])
  · exact absurd h (by simp [dictGet])

/-- A redline of equality holds, and its slack says that it is crossed. -/
theorem equality_crossed : ∃ results summary,
    evaluateRedlines exactObjective measuredMetrics = .ok results ∧
      summarize exactObjective measuredMetrics = .ok summary ∧
      ¬ (∀ r ∈ results, r.slack.nonpos = true ↔ r.ok = true) ∧
      ¬ (summary.feasible = true ↔
        summary.objectiveValue.isSome = true ∧ ∀ c ∈ summary.constraints, c.nonpos = true) := by
  refine ⟨_, _, rfl, rfl, fun h => ?_, fun h => ?_⟩
  · have hcrossed := (h _ List.mem_cons_self).mpr (by decide)
    exact absurd hcrossed (by decide)
  · have hcrossed := (h.mp (by decide)).2 Extended.inf List.mem_cons_self
    exact absurd hcrossed (by decide)

end AutoTune
