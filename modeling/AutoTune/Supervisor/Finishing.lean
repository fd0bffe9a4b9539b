import AutoTune.Search.Space
import AutoTune.Supervisor.Finish

/-!
# Finishing a campaign

When nothing of a campaign is pending and nothing runs, the worker repeats the best configs, then
verifies the best of those against the expensive benchmark, and ends the campaign when neither adds a
candidate. Both read one ranking of the screening runs. Objective values are exact.
-/

namespace AutoTune

open Lib

/-! ## The rows of one campaign -/

/-- `CandidateKind`. -/
inductive CandidateKind where
  | search
  | confirmation
  | verification
  | baseline
deriving DecidableEq, Repr

/-- `BASELINE_CONFIG_KEY`. -/
def baselineConfigKey : String := "__baseline__"

/-- A candidate of the campaign. -/
structure PipelineCandidate where
  id : CandidateId
  config : Config := Dict.empty
  configHash : String
  status : CandidateStatus := .valid
  kind : CandidateKind := .search
  isBaseline : Bool := false
  repeatOf : Option CandidateId := none

/-- `is_in_place_baseline`. -/
def PipelineCandidate.inPlaceBaseline (c : PipelineCandidate) : Bool :=
  c.kind = .baseline || c.config.has baselineConfigKey

/-- `is_baseline_candidate`. -/
def PipelineCandidate.anyBaseline (c : PipelineCandidate) : Bool := c.isBaseline || c.inPlaceBaseline

/-- Does `stage_of` place the candidate in the second stage? -/
def PipelineCandidate.verifies (c : PipelineCandidate) : Bool := c.kind = .verification

/-- A run of the campaign. -/
structure PipelineRun where
  id : RunId
  candidateId : CandidateId
  kind : RunKind := .experiment
  status : RunStatus := .pending
  failureClass : String := ""
deriving DecidableEq, Repr

/-- A result row; `value` and `feasible` are what `summary_of` makes of it. -/
structure RunResult where
  runId : RunId
  source : String := "llmbench"
  value : Option ℚ
  feasible : Bool := true

/-- What the campaign row says about its stages, and what its search space expands to, each point with
its hash; no points if it declares none. -/
structure PipelineSettings where
  confirmTopK : Nat := 0
  confirmRepeats : Nat := 3
  verifyBenchmarkSlug : String := ""
  verifyTopK : Nat := 0
  runBaselineCanary : Bool := false
  minimize : Bool := false
  points : List (String × Config) := []

/-- `is_staged`. -/
def PipelineSettings.staged (s : PipelineSettings) : Bool := s.verifyBenchmarkSlug ≠ "" && 0 < s.verifyTopK

/-- How often a config of the shortlist is to be measured. -/
def PipelineSettings.target (s : PipelineSettings) : Nat := max 1 s.confirmRepeats

/-- A production reference, as `resolve_baseline` answers it. -/
structure ResolvedBaseline where
  id : Nat
  engineArgs : Config

/-- What is written for a candidate that is queued. -/
structure NewCandidate where
  config : Config
  configHash : String
  status : CandidateStatus := .valid
  kind : CandidateKind
  isBaseline : Bool := false
  repeatOf : Option CandidateId := none

/-- The campaign's rows; results in the order of their ids. -/
structure Pipeline where
  status : CampaignStatus := .active
  candidates : Table fun c : PipelineCandidate => c.id := Table.empty
  runs : Table fun r : PipelineRun => r.id := Table.empty
  results : List RunResult := []

/-- The row of a queued candidate. -/
def NewCandidate.row (n : NewCandidate) (id : CandidateId) : PipelineCandidate where
  id := id
  config := n.config
  configHash := n.configHash
  status := n.status
  kind := n.kind
  isBaseline := n.isBaseline
  repeatOf := n.repeatOf

theorem NewCandidate.row_id (n : NewCandidate) (id : CandidateId) : (n.row id).id = id := rfl

namespace Pipeline

variable (p : Pipeline)

/-- Queue candidates. -/
def add (l : List NewCandidate) : Pipeline :=
  { p with candidates := l.foldl (fun t n => t.insert n.row n.row_id) p.candidates }

/-! ## The ranking -/

/-- The candidate of a run, if it is a search point of the first stage. -/
def screened (r : PipelineRun) : Option PipelineCandidate :=
  (p.candidates.get? r.candidateId).filter fun c => !c.verifies && !c.anyBaseline

/-- The screening runs, each with the hash of its config. -/
def screenRuns : List (String × PipelineRun) :=
  (p.runs.rows.filter fun r => r.kind = .experiment).filterMap fun r =>
    (p.screened r).map fun c => (c.configHash, r)

/-- `by_config`: the runs of each config, in the order the configs were first run. -/
def byConfig : Dict (List PipelineRun) :=
  p.screenRuns.foldl (fun d e => d.set e.1 ((d.get? e.1).getD [] ++ [e.2])) Dict.empty

/-- The objective value of a run that succeeded, if its last result is feasible and has one. -/
def valueOf (r : PipelineRun) : Option ℚ :=
  if r.status = .succeeded then
    ((p.results.filter fun s => s.runId = r.id && s.source = "llmbench").getLast?).bind fun s =>
      if s.feasible then s.value else none
  else none

/-- A config that was measured: its runs and the mean of their values. -/
structure Ranked where
  configHash : String
  group : List PipelineRun
  mean : ℚ

/-- The config of a group, if any of its runs has a value. -/
def rankedOf (entry : String × List PipelineRun) : Option Ranked :=
  let values := entry.2.filterMap p.valueOf
  if values.isEmpty then none
  else some { configHash := entry.1, group := entry.2, mean := values.sum / values.length }

/-- `sort_key`, of a value that is there. -/
def sortKey (minimize : Bool) (value : ℚ) : ℚ := if minimize then value else -value

/-- `_ranked_screen_configs`. -/
def rankedScreenConfigs (minimize : Bool) : List Ranked :=
  (p.byConfig.entries.filterMap p.rankedOf).insertionSort fun a b =>
    sortKey minimize a.mean ≤ sortKey minimize b.mean

/-- The first candidate that ran a config, and its config. -/
def rootOf (group : List PipelineRun) : CandidateId × Config :=
  let root := ((group.map PipelineRun.candidateId).min?).getD 0
  (root, ((p.candidates.get? root).map PipelineCandidate.config).getD Dict.empty)

/-! ## Confirmation -/

variable (s : PipelineSettings)

/-- The repeats of a config, as they are queued. -/
def repeatsOf (missing : Nat) (r : Ranked) : List NewCandidate :=
  List.replicate missing
    { config := (p.rootOf r.group).2, configHash := r.configHash, kind := .confirmation
      repeatOf := some (p.rootOf r.group).1 }

/-- What `_schedule_confirmations` queues: every attempt counts, not just the successful ones. -/
def confirmations : List NewCandidate :=
  if s.confirmTopK = 0 then []
  else ((p.rankedScreenConfigs s.minimize).take s.confirmTopK).flatMap fun r =>
    p.repeatsOf (s.target - r.group.length) r

/-! ## Verification -/

/-- `_has_baseline_candidate`. -/
def hasBaseline (verify : Bool) : Bool :=
  p.candidates.rows.any fun c => c.anyBaseline && c.verifies == verify

/-- `_add_baseline_candidate`. -/
def baselineCandidate (b : ResolvedBaseline) (verify : Bool) : NewCandidate where
  config := b.engineArgs
  configHash := "baseline-" ++ (if verify then "verification" else "search") ++ "-" ++ toString b.id
  kind := if verify then .verification else .search
  isBaseline := true

/-- The hashes that were verified already. -/
def verifiedHashes : List String :=
  (p.candidates.rows.filter PipelineCandidate.verifies).map PipelineCandidate.configHash

/-- The configs of the verification shortlist that were not verified before. -/
def unverified : List Ranked :=
  ((p.rankedScreenConfigs s.minimize).take s.verifyTopK).filter fun r =>
    !p.verifiedHashes.contains r.configHash

/-- What `_schedule_verification` queues, given what the baseline resolves to. -/
def verifications (waiting : Bool) (baseline : Option ResolvedBaseline) : List NewCandidate :=
  if !s.staged || waiting || (p.rankedScreenConfigs s.minimize).isEmpty then []
  else
    (p.unverified s).map (fun r =>
      { config := (p.rootOf r.group).2, configHash := r.configHash, kind := .verification
        repeatOf := some (p.rootOf r.group).1 }) ++
      if s.runBaselineCanary && !p.hasBaseline true then
        (baseline.map fun b => baselineCandidate b true).toList
      else []

/-! ## `_maybe_finish_campaign` -/

/-- Is a candidate still to be run? -/
def pending : Bool := p.candidates.rows.any fun c => c.status = .pending || c.status = .valid

/-- Does a run go on? -/
def live : Bool := p.runs.rows.any fun r => !r.status.terminal

/-- `_not_planned_yet`. -/
def notPlannedYet : Bool := !s.points.isEmpty && p.candidates.rows.isEmpty

/-- `_maybe_finish_campaign`; `waiting` is `_waiting_on_dataset`. -/
def maybeFinish (waiting : Bool) (baseline : Option ResolvedBaseline) : Pipeline :=
  if p.pending || p.live then p
  else if p.notPlannedYet s then p
  else if !(p.confirmations s).isEmpty then p.add (p.confirmations s)
  else if waiting then p
  else if !(p.verifications s waiting baseline).isEmpty then p.add (p.verifications s waiting baseline)
  else { p with status := .done }

/-- Is the candidate of a run that failed with `failureClass` given its slot back by
`_requeue_if_infrastructure`? -/
def requeues (r : PipelineRun) : Bool :=
  r.kind = .experiment && infrastructureFailures.contains r.failureClass &&
    p.runs.rows.countP (fun o => o.candidateId = r.candidateId && o.failureClass != released) <
      maxAttemptsPerCandidate

/-! ## What the ranking is made of -/

variable {p s}

theorem grouped (l : List (String × PipelineRun)) (d : Dict (List PipelineRun)) (h : String) :
    ((l.foldl (fun d e => d.set e.1 ((d.get? e.1).getD [] ++ [e.2])) d).get? h).getD [] =
      (d.get? h).getD [] ++ (l.filter fun e => e.1 = h).map Prod.snd := by
  induction l generalizing d with
  | nil => simp
  | cons e l ih =>
      rw [List.foldl_cons, ih, Dict.get?_set]
      by_cases he : h = e.1
      · rw [if_pos he, List.filter_cons_of_pos (by simpa using he.symm), ← he]
        simp
      · rw [if_neg he, List.filter_cons_of_neg (by simpa using fun hh => he hh.symm)]

/-- The runs of a config. -/
def runsOf (p : Pipeline) (h : String) : List PipelineRun :=
  (p.screenRuns.filter fun e => e.1 = h).map Prod.snd

theorem byConfig_runs (p : Pipeline) {h : String} {group : List PipelineRun}
    (hget : p.byConfig.get? h = some group) : group = p.runsOf h := by
  have hgroup := grouped p.screenRuns Dict.empty h
  change (p.byConfig.get? h).getD [] = _ at hgroup
  rw [hget] at hgroup
  exact hgroup

theorem mem_screenRuns {h : String} {r : PipelineRun} : (h, r) ∈ p.screenRuns ↔
    r ∈ p.runs.rows ∧ r.kind = .experiment ∧ ∃ c, p.screened r = some c ∧ c.configHash = h := by
  unfold screenRuns
  rw [List.mem_filterMap]
  constructor
  · rintro ⟨r', hr', hmap⟩
    rcases Option.map_eq_some_iff.mp hmap with ⟨c, hc, heq⟩
    cases heq
    rcases List.mem_filter.mp hr' with ⟨hrow, hkind⟩
    exact ⟨hrow, by simpa using hkind, c, hc, rfl⟩
  · rintro ⟨hrow, hkind, c, hc, rfl⟩
    exact ⟨r, List.mem_filter.mpr ⟨hrow, by simpa using hkind⟩, by rw [hc]; rfl⟩

theorem mem_runsOf {h : String} {r : PipelineRun} : r ∈ p.runsOf h ↔ (h, r) ∈ p.screenRuns := by
  unfold runsOf
  rw [List.mem_map]
  constructor
  · rintro ⟨e, he, rfl⟩
    rcases List.mem_filter.mp he with ⟨hmem, hkey⟩
    have : e.1 = h := by simpa using hkey
    rw [← this]
    exact hmem
  · intro hmem
    exact ⟨(h, r), List.mem_filter.mpr ⟨hmem, by simp⟩, rfl⟩

theorem screened_eq_some {r : PipelineRun} {c : PipelineCandidate} : p.screened r = some c ↔
    c ∈ p.candidates.rows ∧ c.id = r.candidateId ∧ c.verifies = false ∧ c.anyBaseline = false := by
  unfold screened
  rw [Option.filter_eq_some_iff, Table.get?_eq_some_iff]
  simp [and_assoc]

/-- Each config is ranked once, with all its runs, and one of them has a value. -/
theorem mem_ranked {minimize : Bool} {r : Ranked} (h : r ∈ p.rankedScreenConfigs minimize) :
    r.group = p.runsOf r.configHash ∧ r.group ≠ [] := by
  unfold rankedScreenConfigs at h
  rw [(List.perm_insertionSort _ _).mem_iff, List.mem_filterMap] at h
  rcases h with ⟨e, he, hranked⟩
  unfold rankedOf at hranked
  dsimp only at hranked
  split at hranked
  · cases hranked
  · rename_i hvalues
    cases hranked
    refine ⟨p.byConfig_runs (Dict.mem_entries.mp he), fun hempty => hvalues ?_⟩
    rw [show e.2 = [] from hempty]
    rfl

theorem ranked_nodup (p : Pipeline) (minimize : Bool) :
    ((p.rankedScreenConfigs minimize).map Ranked.configHash).Nodup := by
  have hkeys : (p.byConfig.entries.filterMap p.rankedOf).map Ranked.configHash =
      (p.byConfig.entries.filter fun e => (p.rankedOf e).isSome).map Prod.fst := by
    induction p.byConfig.entries with
    | nil => rfl
    | cons e l ih =>
        cases hr : p.rankedOf e with
        | none => simp [hr, ih]
        | some r =>
            have hhash : r.configHash = e.1 := by
              unfold rankedOf at hr
              dsimp only at hr
              split at hr
              · cases hr
              · cases hr
                rfl
            simp [hr, ih, hhash]
  have hperm : ((p.rankedScreenConfigs minimize).map Ranked.configHash).Perm
      ((p.byConfig.entries.filterMap p.rankedOf).map Ranked.configHash) :=
    (List.perm_insertionSort _ _).map _
  rw [hperm.nodup_iff, hkeys]
  exact p.byConfig.nodup.sublist (List.filter_sublist.map Prod.fst)

end Pipeline

end AutoTune
