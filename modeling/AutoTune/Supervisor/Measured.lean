import AutoTune.Supervisor.Finishing
import Mathlib.Data.List.Perm.Subperm

/-!
# What was measured is not queued again

The worker's steps on one campaign, and what they keep: what was queued for a config has run before
anything more is, and every run counts, so no config is repeated beyond its target or verified twice.
-/

namespace AutoTune

open Lib

namespace Pipeline

/-! ## The worker's steps -/

/-- `_plan`, for one point: a point whose hash is not there yet becomes a candidate. -/
def planPoint (valid : String → Bool) (p : Pipeline) (point : String × Config) : Pipeline :=
  if p.candidates.rows.any fun c => c.configHash = point.1 then p
  else p.add [{ config := point.2, configHash := point.1, kind := .search
                status := if valid point.1 then .valid else .invalid }]

/-- `_ensure_relaunch_baseline`. -/
def ensureRelaunchBaseline (s : PipelineSettings) (baseline : Option ResolvedBaseline) (p : Pipeline) :
    Pipeline :=
  if s.runBaselineCanary && !p.hasBaseline false then
    p.add (baseline.map fun b => baselineCandidate b false).toList
  else p

def setStatus (p : Pipeline) (k : CandidateId) (status : CandidateStatus) : Pipeline :=
  { p with candidates := p.candidates.modify k fun c => { c with status := status } }

/-- `_create_run`, for a candidate that is ready. -/
def place (p : Pipeline) (k : CandidateId) : Pipeline :=
  match p.candidates.get? k with
  | none => p
  | some c =>
      if c.status = .valid && !c.inPlaceBaseline then
        { p.setStatus k .exhausted with
          runs := p.runs.insert fun id => { id := id, candidateId := k } }
      else p

/-- What the worker does with a campaign: plan it, measure its baseline, retire a candidate that is
measured in place, place a run, move a run and record what it measured, give a candidate back, and try
to finish. -/
inductive Step where
  | plan (valid : String → Bool)
  | relaunchBaseline (baseline : Option ResolvedBaseline)
  | retire (k : CandidateId)
  | place (k : CandidateId)
  | advance (r : RunId) (status : RunStatus) (failureClass : String)
  | report (result : RunResult)
  | giveBack (r : RunId)
  | finish (waiting : Bool) (baseline : Option ResolvedBaseline)

def step (s : PipelineSettings) (p : Pipeline) : Step → Pipeline
  | .plan valid => s.points.foldl (planPoint valid) p
  | .relaunchBaseline baseline => p.ensureRelaunchBaseline s baseline
  | .retire k =>
      match p.candidates.get? k with
      | none => p
      | some c => if c.status = .valid && c.inPlaceBaseline then p.setStatus k .exhausted else p
  | .place k => p.place k
  | .advance r status failureClass =>
      { p with runs := p.runs.modify r fun r => { r with status := status, failureClass := failureClass } }
  | .report result => { p with results := p.results ++ [result] }
  | .giveBack r =>
      match p.runs.get? r with
      | none => p
      | some r => p.setStatus r.candidateId .valid
  | .finish waiting baseline => p.maybeFinish s waiting baseline

/-! ## What adding does -/

theorem mem_add {p : Pipeline} {l : List NewCandidate} {c : PipelineCandidate} :
    c ∈ (p.add l).candidates.rows → c ∈ p.candidates.rows ∨ ∃ n ∈ l, ∃ id, c = n.row id := by
  unfold add
  dsimp only
  generalize p.candidates = t
  induction l generalizing t with
  | nil => exact Or.inl
  | cons n l ih =>
      intro hc
      rcases ih _ hc with hin | ⟨m, hm, hrow⟩
      · rcases Table.mem_insert.mp hin with hold | hnew
        · exact Or.inl hold
        · exact Or.inr ⟨n, List.mem_cons_self, _, hnew⟩
      · exact Or.inr ⟨m, List.mem_cons_of_mem _ hm, hrow⟩

theorem mem_add_old {p : Pipeline} (l : List NewCandidate) {c : PipelineCandidate}
    (h : c ∈ p.candidates.rows) : c ∈ (p.add l).candidates.rows := by
  unfold add
  dsimp only
  revert h
  generalize p.candidates = t
  induction l generalizing t with
  | nil => exact id
  | cons n l ih => exact fun h => ih _ (Table.mem_insert.mpr (Or.inl h))

/-- What does not look at the id is counted over the old rows and the new ones. -/
theorem countP_add (p : Pipeline) (l : List NewCandidate) {q : PipelineCandidate → Bool}
    {g : NewCandidate → Bool} (hq : ∀ n id, q (n.row id) = g n) :
    (p.add l).candidates.rows.countP q = p.candidates.rows.countP q + l.countP g := by
  unfold add
  dsimp only
  generalize p.candidates = t
  induction l generalizing t with
  | nil => simp
  | cons n l ih =>
      rw [List.foldl_cons, ih, Table.rows_insert, List.countP_append, List.countP_singleton, hq,
        List.countP_cons]
      omega

theorem rows_setStatus (p : Pipeline) (k : CandidateId) (status : CandidateStatus) :
    (p.setStatus k status).candidates.rows =
      p.candidates.rows.map fun c => if c.id = k then { c with status := status } else c := rfl

theorem countP_setStatus (p : Pipeline) (k : CandidateId) (status : CandidateStatus)
    {q : PipelineCandidate → Bool} (hq : ∀ c, q { c with status := status } = q c) :
    (p.setStatus k status).candidates.rows.countP q = p.candidates.rows.countP q := by
  rw [rows_setStatus, List.countP_map]
  refine List.countP_congr fun c _ => ?_
  dsimp only [Function.comp]
  split
  · rw [hq]
  · rfl

/-! ## The invariant -/

/-- A repeat of a config. -/
def isRepeat (h : String) (c : PipelineCandidate) : Bool := c.kind = .confirmation && c.configHash = h

/-- A verification of a config, the baseline's apart. -/
def isVerification (h : String) (c : PipelineCandidate) : Bool :=
  c.verifies && !c.isBaseline && c.configHash = h

/-- A point of the search. -/
def isPoint (h : String) (c : PipelineCandidate) : Bool :=
  c.kind = .search && !c.isBaseline && c.configHash = h

/-- The baseline of a stage. -/
def isAnchor (verify : Bool) (c : PipelineCandidate) : Bool := c.isBaseline && c.verifies == verify

/-- The candidate has run. -/
def HasRun (p : Pipeline) (c : PipelineCandidate) : Prop :=
  ∃ r ∈ p.runs.rows, r.candidateId = c.id ∧ r.kind = .experiment

/-- What holds between the worker's steps: who is done has run, and a config that is repeated has run
as something else as well. -/
structure Measured (s : PipelineSettings) (p : Pipeline) : Prop where
  hasRun : ∀ c ∈ p.candidates.rows, c.status = .exhausted → c.inPlaceBaseline = false → p.HasRun c
  repeats : ∀ c ∈ p.candidates.rows, c.kind = .confirmation →
    c.anyBaseline = false ∧ (c.status = .valid ∨ c.status = .exhausted)
  kinds : ∀ c ∈ p.candidates.rows, c.kind ≠ .baseline
  known : ∀ c ∈ p.candidates.rows, c.isBaseline = false → c.configHash ∈ s.points.map Prod.fst
  points : ∀ h, p.candidates.rows.countP (isPoint h) ≤ 1
  anchors : ∀ v, p.candidates.rows.countP (isAnchor v) ≤ 1
  confirmed : ∀ h, p.candidates.rows.countP (isRepeat h) ≤ s.target - 1
  rooted : ∀ h, 0 < p.candidates.rows.countP (isRepeat h) → ∃ c ∈ p.candidates.rows,
    c.configHash = h ∧ c.kind ≠ .confirmation ∧ c.verifies = false ∧ c.anyBaseline = false ∧ p.HasRun c
  verified : ∀ h, p.candidates.rows.countP (isVerification h) ≤ 1

variable {s : PipelineSettings} {p : Pipeline}

/-! ## Steps that add nothing -/

/-- Runs that move, and runs that are added, change nothing about it. -/
theorem Measured.of_runs {p' : Pipeline} (h : Measured s p) (hcandidates : p'.candidates = p.candidates)
    (hruns : ∀ c, p.HasRun c → p'.HasRun c) : Measured s p' where
  hasRun := by
    rw [hcandidates]
    exact fun c hc hdone hplace => hruns c (h.hasRun c hc hdone hplace)
  repeats := hcandidates ▸ h.repeats
  kinds := hcandidates ▸ h.kinds
  known := hcandidates ▸ h.known
  points := hcandidates ▸ h.points
  anchors := hcandidates ▸ h.anchors
  confirmed := hcandidates ▸ h.confirmed
  rooted := by
    rw [hcandidates]
    intro hash hpos
    rcases h.rooted hash hpos with ⟨c, hc, heq, hkind, hstage, hbase, hrun⟩
    exact ⟨c, hc, heq, hkind, hstage, hbase, hruns c hrun⟩
  verified := hcandidates ▸ h.verified

theorem mem_setStatus {k : CandidateId} {status : CandidateStatus} {c : PipelineCandidate}
    (hc : c ∈ (p.setStatus k status).candidates.rows) :
    c ∈ p.candidates.rows ∨ ∃ c' ∈ p.candidates.rows, c'.id = k ∧ c = { c' with status := status } := by
  rw [rows_setStatus] at hc
  rcases List.mem_map.mp hc with ⟨c', hc', rfl⟩
  by_cases hk : c'.id = k
  · exact Or.inr ⟨c', hc', hk, by rw [if_pos hk]⟩
  · rw [if_neg hk]
    exact Or.inl hc'

theorem exists_mem_setStatus (k : CandidateId) (status : CandidateStatus) {c : PipelineCandidate}
    (hc : c ∈ p.candidates.rows) : ∃ status', { c with status := status' } ∈
      (p.setStatus k status).candidates.rows := by
  rw [rows_setStatus]
  by_cases hk : c.id = k
  · exact ⟨status, List.mem_map.mpr ⟨c, hc, by rw [if_pos hk]⟩⟩
  · exact ⟨c.status, List.mem_map.mpr ⟨c, hc, by rw [if_neg hk]⟩⟩

/-- A candidate that is done has run, or is measured in place. -/
theorem Measured.setStatus (h : Measured s p) {k : CandidateId} {status : CandidateStatus}
    (hstatus : status = .valid ∨ status = .exhausted ∧
      ∀ c ∈ p.candidates.rows, c.id = k → c.inPlaceBaseline = false → p.HasRun c) :
    Measured s (p.setStatus k status) where
  hasRun := by
    intro c hc hdone hplace
    rcases mem_setStatus hc with hold | ⟨c', hc', hk, rfl⟩
    · exact h.hasRun c hold hdone hplace
    · rcases hstatus with rfl | ⟨-, hrun⟩
      · cases hdone
      · exact hrun c' hc' hk hplace
  repeats := by
    intro c hc hkind
    rcases mem_setStatus hc with hold | ⟨c', hc', -, rfl⟩
    · exact h.repeats c hold hkind
    · exact ⟨(h.repeats c' hc' hkind).1, hstatus.imp id And.left⟩
  kinds := by
    intro c hc
    rcases mem_setStatus hc with hold | ⟨c', hc', -, rfl⟩
    · exact h.kinds c hold
    · exact h.kinds c' hc'
  known := by
    intro c hc hflag
    rcases mem_setStatus hc with hold | ⟨c', hc', -, rfl⟩
    · exact h.known c hold hflag
    · exact h.known c' hc' hflag
  points := fun hash => (countP_setStatus p k status fun _ => rfl).trans_le (h.points hash)
  anchors := fun v => (countP_setStatus p k status fun _ => rfl).trans_le (h.anchors v)
  confirmed := fun hash => (countP_setStatus p k status fun _ => rfl).trans_le (h.confirmed hash)
  rooted := by
    intro hash hpos
    rw [countP_setStatus p k status fun _ => rfl] at hpos
    rcases h.rooted hash hpos with ⟨c, hc, heq, hkind, hstage, hbase, hrun⟩
    rcases exists_mem_setStatus k status hc with ⟨status', hmem⟩
    exact ⟨_, hmem, heq, hkind, hstage, hbase, hrun⟩
  verified := fun hash => (countP_setStatus p k status fun _ => rfl).trans_le (h.verified hash)

/-! ## Steps that add candidates -/

/-- What the candidates of a list keep to. -/
structure Adds (s : PipelineSettings) (p : Pipeline) (l : List NewCandidate) : Prop where
  fresh : ∀ n ∈ l, n.status ≠ .exhausted ∧ n.kind ≠ .baseline
  repeats : ∀ n ∈ l, n.kind = .confirmation →
    n.isBaseline = false ∧ n.config.has baselineConfigKey = false ∧ n.status = .valid
  known : ∀ n ∈ l, n.isBaseline = false → n.configHash ∈ s.points.map Prod.fst
  points : ∀ h, p.candidates.rows.countP (isPoint h) + l.countP (fun n => isPoint h (n.row 0)) ≤ 1
  anchors : ∀ v, p.candidates.rows.countP (isAnchor v) + l.countP (fun n => isAnchor v (n.row 0)) ≤ 1
  confirmed : ∀ h, p.candidates.rows.countP (isRepeat h) + l.countP (fun n => isRepeat h (n.row 0)) ≤
    s.target - 1
  rooted : ∀ h, 0 < l.countP (fun n => isRepeat h (n.row 0)) → ∃ c ∈ p.candidates.rows,
    c.configHash = h ∧ c.kind ≠ .confirmation ∧ c.verifies = false ∧ c.anyBaseline = false ∧ p.HasRun c
  verified : ∀ h, p.candidates.rows.countP (isVerification h) +
    l.countP (fun n => isVerification h (n.row 0)) ≤ 1

theorem Measured.add (h : Measured s p) {l : List NewCandidate} (hl : Adds s p l) :
    Measured s (p.add l) where
  hasRun := by
    intro c hc hdone hplace
    rcases mem_add hc with hold | ⟨n, hn, id, rfl⟩
    · exact h.hasRun c hold hdone hplace
    · exact absurd hdone (hl.fresh n hn).1
  repeats := by
    intro c hc hkind
    rcases mem_add hc with hold | ⟨n, hn, id, rfl⟩
    · exact h.repeats c hold hkind
    · rcases hl.repeats n hn hkind with ⟨hflag, hconfig, hstatus⟩
      have hk : n.kind = .confirmation := hkind
      refine ⟨?_, Or.inl hstatus⟩
      simp [PipelineCandidate.anyBaseline, PipelineCandidate.inPlaceBaseline, NewCandidate.row, hflag,
        hconfig, hk]
  kinds := by
    intro c hc
    rcases mem_add hc with hold | ⟨n, hn, id, rfl⟩
    · exact h.kinds c hold
    · exact (hl.fresh n hn).2
  known := by
    intro c hc hflag
    rcases mem_add hc with hold | ⟨n, hn, id, rfl⟩
    · exact h.known c hold hflag
    · exact hl.known n hn hflag
  points := fun hash => (countP_add p l fun _ _ => rfl).trans_le (hl.points hash)
  anchors := fun v => (countP_add p l fun _ _ => rfl).trans_le (hl.anchors v)
  confirmed := fun hash => (countP_add p l fun _ _ => rfl).trans_le (hl.confirmed hash)
  rooted := by
    intro hash hpos
    rw [countP_add p l (g := fun n => isRepeat hash (n.row 0)) fun _ _ => rfl] at hpos
    have hroot : ∃ c ∈ p.candidates.rows, c.configHash = hash ∧ c.kind ≠ .confirmation ∧
        c.verifies = false ∧ c.anyBaseline = false ∧ p.HasRun c := by
      by_cases hold : 0 < p.candidates.rows.countP (isRepeat hash)
      · exact h.rooted hash hold
      · exact hl.rooted hash (by omega)
    rcases hroot with ⟨c, hc, hrest⟩
    exact ⟨c, mem_add_old l hc, hrest⟩
  verified := fun hash => (countP_add p l fun _ _ => rfl).trans_le (hl.verified hash)

theorem countP_zero_of_hash {h : String} {q : String → PipelineCandidate → Bool}
    (hq : ∀ c, q h c = true → c.configHash = h)
    (hnone : (p.candidates.rows.any fun c => c.configHash = h) = false) :
    p.candidates.rows.countP (q h) = 0 := by
  rw [List.countP_eq_zero]
  intro c hc hcount
  have hno := List.any_eq_false.mp hnone c hc
  exact hno (by simpa using hq c hcount)

theorem Measured.planPoint (h : Measured s p) (valid : String → Bool) {point : String × Config}
    (hpoint : point ∈ s.points) : Measured s (p.planPoint valid point) := by
  unfold Pipeline.planPoint
  split
  · exact h
  · rename_i hnew
    rw [Bool.not_eq_true] at hnew
    refine h.add ?_
    have hcount : ∀ hash, p.candidates.rows.countP (isPoint hash) +
        (if isPoint hash (NewCandidate.row { config := point.2, configHash := point.1, kind := .search } 0)
          then 1 else 0) ≤ 1 := by
      intro hash
      split
      · rename_i heq
        simp only [isPoint, Bool.and_eq_true, decide_eq_true_eq] at heq
        have hhash : point.1 = hash := heq.2
        subst hhash
        rw [countP_zero_of_hash (q := isPoint) (fun c hc => by
          simp only [isPoint, Bool.and_eq_true, decide_eq_true_eq] at hc
          exact hc.2) hnew]
      · exact h.points hash
    exact
      { fresh := by
          intro n hn
          rw [List.mem_singleton.mp hn]
          refine ⟨?_, by simp⟩
          dsimp only
          split <;> simp
        repeats := by
          intro n hn hkind
          rw [List.mem_singleton.mp hn] at hkind
          cases hkind
        known := by
          intro n hn _
          rw [List.mem_singleton.mp hn]
          exact List.mem_map_of_mem hpoint
        points := by
          intro hash
          rw [List.countP_singleton]
          exact hcount hash
        anchors := by
          intro v
          simpa [isAnchor, NewCandidate.row, List.countP_singleton] using h.anchors v
        confirmed := by
          intro hash
          simpa [isRepeat, NewCandidate.row, List.countP_singleton] using h.confirmed hash
        rooted := by
          intro hash hpos
          simp [isRepeat, NewCandidate.row] at hpos
        verified := by
          intro hash
          simpa [isVerification, PipelineCandidate.verifies, NewCandidate.row,
            List.countP_singleton] using h.verified hash }

theorem Measured.plan (h : Measured s p) (valid : String → Bool) :
    Measured s (s.points.foldl (Pipeline.planPoint valid) p) := by
  have hall : ∀ l : List (String × Config), (∀ point ∈ l, point ∈ s.points) → ∀ p, Measured s p →
      Measured s (l.foldl (Pipeline.planPoint valid) p) := by
    intro l
    induction l with
    | nil => exact fun _ _ h => h
    | cons point l ih =>
        intro hl p hp
        exact ih (fun q hq => hl q (List.mem_cons_of_mem _ hq)) _
          (hp.planPoint valid (hl point List.mem_cons_self))
  exact hall s.points (fun _ h => h) p h

/-- A stage without a baseline gets one. -/
theorem anchors_baseline (h : Measured s p) {verify : Bool} (hnone : p.hasBaseline verify = false)
    (v : Bool) : p.candidates.rows.countP (isAnchor v) + (if verify = v then 1 else 0) ≤ 1 := by
  by_cases hv : verify = v
  · subst hv
    have hzero : p.candidates.rows.countP (isAnchor verify) = 0 := by
      rw [List.countP_eq_zero]
      intro c hc hanchor
      have hno := List.any_eq_false.mp hnone c hc
      simp only [isAnchor, Bool.and_eq_true] at hanchor
      refine hno ?_
      simp [PipelineCandidate.anyBaseline, hanchor.1, hanchor.2]
    simp [hzero]
  · simpa [hv] using h.anchors v

theorem Measured.adds_nil (h : Measured s p) : Adds s p [] where
  fresh := fun _ hn => absurd hn List.not_mem_nil
  repeats := fun _ hn => absurd hn List.not_mem_nil
  known := fun _ hn => absurd hn List.not_mem_nil
  points := h.points
  anchors := h.anchors
  confirmed := h.confirmed
  rooted := fun _ hpos => absurd hpos (Nat.lt_irrefl 0)
  verified := h.verified

/-- The baseline of a stage that has none may be queued with anything else that is no baseline's. -/
theorem Measured.adds_baseline (h : Measured s p) {verify : Bool} (hnone : p.hasBaseline verify = false)
    (b : ResolvedBaseline) {l : List NewCandidate} (hl : Adds s p l)
    (hplain : ∀ n ∈ l, n.isBaseline = false) : Adds s p (l ++ [baselineCandidate b verify]) := by
  have hcount : ∀ q : PipelineCandidate → Bool, (∀ c, c.isBaseline = true →
      c.kind = (if verify then .verification else .search) → q c = false) →
      (l ++ [baselineCandidate b verify]).countP (fun n => q (n.row 0)) =
        l.countP fun n => q (n.row 0) := by
    intro q hq
    rw [List.countP_append, List.countP_singleton, hq _ rfl rfl]
    rfl
  have hmem : ∀ n ∈ l ++ [baselineCandidate b verify], n ∈ l ∨ n = baselineCandidate b verify := by
    intro n hn
    rwa [List.mem_append, List.mem_singleton] at hn
  have hrepeat : ∀ hash, (l ++ [baselineCandidate b verify]).countP (fun n => isRepeat hash (n.row 0)) =
      l.countP fun n => isRepeat hash (n.row 0) := by
    intro hash
    refine hcount (isRepeat hash) fun c _ hkind => ?_
    cases verify <;> simp [isRepeat, hkind]
  exact
    { fresh := by
        intro n hn
        rcases hmem n hn with hold | rfl
        · exact hl.fresh n hold
        · cases verify <;> simp [baselineCandidate]
      repeats := by
        intro n hn hkind
        rcases hmem n hn with hold | rfl
        · exact hl.repeats n hold hkind
        · cases verify <;> cases hkind
      known := by
        intro n hn hflag
        rcases hmem n hn with hold | rfl
        · exact hl.known n hold hflag
        · cases hflag
      points := by
        intro hash
        rw [hcount (isPoint hash) fun c hflag _ => by simp [isPoint, hflag]]
        exact hl.points hash
      anchors := by
        intro v
        have hzero : l.countP (fun n => isAnchor v (n.row 0)) = 0 := by
          rw [List.countP_eq_zero]
          intro n hn hanchor
          simp [isAnchor, NewCandidate.row, hplain n hn] at hanchor
        have hone : isAnchor v ((baselineCandidate b verify).row 0) = decide (verify = v) := by
          cases verify <;> cases v <;> rfl
        rw [List.countP_append, hzero, List.countP_singleton, hone]
        simpa using anchors_baseline h hnone v
      confirmed := by
        intro hash
        rw [hrepeat hash]
        exact hl.confirmed hash
      rooted := by
        intro hash hpos
        rw [hrepeat hash] at hpos
        exact hl.rooted hash hpos
      verified := by
        intro hash
        rw [hcount (isVerification hash) fun c hflag _ => by simp [isVerification, hflag]]
        exact hl.verified hash }

theorem Measured.ensureRelaunchBaseline (h : Measured s p) (baseline : Option ResolvedBaseline) :
    Measured s (p.ensureRelaunchBaseline s baseline) := by
  unfold Pipeline.ensureRelaunchBaseline
  split
  · rename_i hwanted
    simp only [Bool.and_eq_true, Bool.not_eq_true'] at hwanted
    cases baseline with
    | none => exact h
    | some b => exact h.add (h.adds_baseline hwanted.2 b h.adds_nil fun _ hn => absurd hn List.not_mem_nil)
  · exact h

/-! ## Confirmation -/

/-- The runs of a ranked config are runs of screened candidates with its hash. -/
theorem mem_group {minimize : Bool} {r : Ranked} (hr : r ∈ p.rankedScreenConfigs minimize)
    {run : PipelineRun} (hrun : run ∈ r.group) : ∃ c ∈ p.candidates.rows, c.id = run.candidateId ∧
      c.configHash = r.configHash ∧ c.verifies = false ∧ c.anyBaseline = false ∧ p.HasRun c := by
  rw [(mem_ranked hr).1, mem_runsOf, mem_screenRuns] at hrun
  rcases hrun with ⟨hrow, hkind, c, hc, hhash⟩
  rcases screened_eq_some.mp hc with ⟨hmem, hid, hstage, hbase⟩
  exact ⟨c, hmem, hid, hhash, hstage, hbase, run, hrow, hid.symm, hkind⟩

/-- The root of a ranked config is a screened candidate with its hash. -/
theorem rootOf_spec {minimize : Bool} {r : Ranked} (hr : r ∈ p.rankedScreenConfigs minimize) :
    ∃ c ∈ p.candidates.rows, c.id = (p.rootOf r.group).1 ∧ c.config = (p.rootOf r.group).2 ∧
      c.configHash = r.configHash ∧ c.verifies = false ∧ c.anyBaseline = false ∧ p.HasRun c := by
  cases hmin : (r.group.map PipelineRun.candidateId).min? with
  | none =>
      rw [List.min?_eq_none_iff, List.map_eq_nil_iff] at hmin
      exact absurd hmin (mem_ranked hr).2
  | some root =>
      rcases List.mem_map.mp (List.min?_eq_some_iff.mp hmin).1 with ⟨run, hrun, hroot⟩
      rcases mem_group hr hrun with ⟨c, hc, hid, hrest⟩
      have hget : p.candidates.get? root = some c := by
        rw [Table.get?_eq_some_iff]
        exact ⟨hc, hid.trans hroot⟩
      refine ⟨c, hc, ?_, ?_, hrest⟩
      · simp [rootOf, hmin, hid, hroot]
      · simp [rootOf, hmin, hget]

/-- The repeats of a config have all run, and so has one candidate more. -/
theorem repeats_lt_group (h : Measured s p) (hquiet : p.pending = false) {minimize : Bool} {r : Ranked}
    (hr : r ∈ p.rankedScreenConfigs minimize) :
    p.candidates.rows.countP (isRepeat r.configHash) < r.group.length := by
  by_cases hpos : 0 < p.candidates.rows.countP (isRepeat r.configHash)
  · rcases h.rooted _ hpos with ⟨root, hroot, hhash, hkind, hstage, hbase, hrun⟩
    -- every candidate with a run has one of the group
    have hgroup : ∀ c ∈ p.candidates.rows, c.configHash = r.configHash → c.verifies = false →
        c.anyBaseline = false → p.HasRun c → c.id ∈ r.group.map PipelineRun.candidateId := by
      rintro c hc heq hstage hbase ⟨run, hrow, hid, hkind⟩
      refine List.mem_map.mpr ⟨run, ?_, hid⟩
      rw [(mem_ranked hr).1, mem_runsOf, mem_screenRuns]
      exact ⟨hrow, hkind, c, screened_eq_some.mpr ⟨hc, hid.symm, hstage, hbase⟩, heq⟩
    have hsub : root.id :: (p.candidates.rows.filter (isRepeat r.configHash)).map PipelineCandidate.id ⊆
        r.group.map PipelineRun.candidateId := by
      intro id hid
      rcases List.mem_cons.mp hid with rfl | hrepeat
      · exact hgroup root hroot hhash hstage hbase hrun
      · rcases List.mem_map.mp hrepeat with ⟨c, hc, rfl⟩
        rcases List.mem_filter.mp hc with ⟨hmem, hcount⟩
        simp only [isRepeat, Bool.and_eq_true, decide_eq_true_eq] at hcount
        rcases h.repeats c hmem hcount.1 with ⟨hnotBase, hstatus⟩
        have hno := List.any_eq_false.mp hquiet c hmem
        have hdone : c.status = .exhausted := hstatus.resolve_left fun hv => hno (by simp [hv])
        have hplace : c.inPlaceBaseline = false := by
          rw [PipelineCandidate.anyBaseline, Bool.or_eq_false_iff] at hnotBase
          exact hnotBase.2
        exact hgroup c hmem hcount.2 (by simp [PipelineCandidate.verifies, hcount.1]) hnotBase
          (h.hasRun c hmem hdone hplace)
    have hnodup : (root.id :: (p.candidates.rows.filter (isRepeat r.configHash)).map
        PipelineCandidate.id).Nodup := by
      refine List.nodup_cons.mpr ⟨?_, p.candidates.nodup.sublist (List.filter_sublist.map _)⟩
      intro hmem
      rcases List.mem_map.mp hmem with ⟨c, hc, hid⟩
      rcases List.mem_filter.mp hc with ⟨hrow, hcount⟩
      have hsame := p.candidates.eq_of_key_eq hrow hroot hid
      simp only [isRepeat, Bool.and_eq_true, decide_eq_true_eq] at hcount
      exact hkind (hsame ▸ hcount.1)
    have hlen := (List.subperm_of_subset hnodup hsub).length_le
    rw [List.length_cons, List.length_map, List.length_map, ← List.countP_eq_length_filter] at hlen
    omega
  · have hne := List.length_pos_of_ne_nil (mem_ranked hr).2
    omega

theorem countP_repeatsOf (hash : String) (missing : Nat) (r : Ranked) :
    (p.repeatsOf missing r).countP (fun n => isRepeat hash (n.row 0)) =
      if r.configHash = hash then missing else 0 := by
  unfold repeatsOf
  rw [List.countP_replicate]
  by_cases hsame : r.configHash = hash <;> simp [isRepeat, NewCandidate.row, hsame]

/-- A config that is not listed gets no repeats. -/
theorem countP_repeats_of_notMem (s : PipelineSettings) {hash : String} {l : List Ranked}
    (h : hash ∉ l.map Ranked.configHash) :
    (l.flatMap fun r => p.repeatsOf (s.target - r.group.length) r).countP
      (fun n => isRepeat hash (n.row 0)) = 0 := by
  induction l with
  | nil => rfl
  | cons r l ih =>
      rw [List.map_cons, List.mem_cons, not_or] at h
      rw [List.flatMap_cons, List.countP_append, countP_repeatsOf, if_neg (Ne.symm h.1), ih h.2]

/-- Of configs that are listed once each, the repeats of one are counted in its own group. -/
theorem countP_repeats_of_mem (s : PipelineSettings) {l : List Ranked}
    (hnd : (l.map Ranked.configHash).Nodup) {r : Ranked} (hr : r ∈ l) :
    (l.flatMap fun r => p.repeatsOf (s.target - r.group.length) r).countP
      (fun n => isRepeat r.configHash (n.row 0)) = s.target - r.group.length := by
  induction l with
  | nil => exact absurd hr List.not_mem_nil
  | cons r' l ih =>
      rw [List.map_cons, List.nodup_cons] at hnd
      rw [List.flatMap_cons, List.countP_append, countP_repeatsOf]
      rcases List.mem_cons.mp hr with rfl | hr
      · rw [if_pos rfl, countP_repeats_of_notMem s hnd.1, Nat.add_zero]
      · have hne : r'.configHash ≠ r.configHash := fun hsame =>
          hnd.1 (List.mem_map.mpr ⟨r, hr, hsame.symm⟩)
        rw [if_neg hne, ih hnd.2 hr, Nat.zero_add]

theorem mem_repeatsOf {missing : Nat} {r : Ranked} {n : NewCandidate} (h : n ∈ p.repeatsOf missing r) :
    n = { config := (p.rootOf r.group).2, configHash := r.configHash, kind := .confirmation
          repeatOf := some (p.rootOf r.group).1 } :=
  List.eq_of_mem_replicate h

/-- A ranked config has run as something else than a repeat. -/
theorem Measured.ranked_rooted (h : Measured s p) {minimize : Bool} {r : Ranked}
    (hr : r ∈ p.rankedScreenConfigs minimize) : ∃ c ∈ p.candidates.rows, c.configHash = r.configHash ∧
      c.kind ≠ .confirmation ∧ c.verifies = false ∧ c.anyBaseline = false ∧ p.HasRun c := by
  rcases rootOf_spec hr with ⟨c, hc, -, -, hhash, hstage, hbase, hrun⟩
  by_cases hkind : c.kind = .confirmation
  · refine h.rooted r.configHash (List.countP_pos_iff.mpr ⟨c, hc, ?_⟩)
    simp [isRepeat, hkind, hhash]
  · exact ⟨c, hc, hhash, hkind, hstage, hbase, hrun⟩

/-- The config of a ranked config is no baseline's, and its hash is a point's. -/
theorem Measured.root_config (h : Measured s p) {minimize : Bool} {r : Ranked}
    (hr : r ∈ p.rankedScreenConfigs minimize) :
    (p.rootOf r.group).2.has baselineConfigKey = false ∧ r.configHash ∈ s.points.map Prod.fst := by
  rcases rootOf_spec hr with ⟨c, hc, -, hconfig, hhash, -, hbase, -⟩
  simp only [PipelineCandidate.anyBaseline, PipelineCandidate.inPlaceBaseline,
    Bool.or_eq_false_iff] at hbase
  exact ⟨hconfig ▸ hbase.2.2, hhash ▸ h.known c hc hbase.1⟩

theorem Measured.adds_confirmations (h : Measured s p) (hquiet : p.pending = false) :
    Adds s p (p.confirmations s) := by
  unfold confirmations
  split
  · exact h.adds_nil
  · set shortlist := (p.rankedScreenConfigs s.minimize).take s.confirmTopK with hshort
    have hranked : ∀ r ∈ shortlist, r ∈ p.rankedScreenConfigs s.minimize := fun r hr =>
      List.mem_of_mem_take hr
    have hnd : (shortlist.map Ranked.configHash).Nodup := by
      rw [hshort, List.map_take]
      exact (p.ranked_nodup s.minimize).sublist (List.take_sublist _ _)
    have hmem : ∀ n ∈ shortlist.flatMap fun r => p.repeatsOf (s.target - r.group.length) r,
        ∃ r ∈ shortlist, n =
          { config := (p.rootOf r.group).2, configHash := r.configHash, kind := .confirmation
            repeatOf := some (p.rootOf r.group).1 } := by
      intro n hn
      rcases List.mem_flatMap.mp hn with ⟨r, hr, hn⟩
      exact ⟨r, hr, mem_repeatsOf hn⟩
    have hother : ∀ q : PipelineCandidate → Bool,
        (∀ c, c.kind = .confirmation → c.isBaseline = false → q c = false) →
        (shortlist.flatMap fun r => p.repeatsOf (s.target - r.group.length) r).countP
          (fun n => q (n.row 0)) = 0 := by
      intro q hq
      rw [List.countP_eq_zero]
      intro n hn
      rcases hmem n hn with ⟨r, -, rfl⟩
      rw [hq _ rfl rfl]
      decide
    exact
      { fresh := by
          intro n hn
          rcases hmem n hn with ⟨r, -, rfl⟩
          exact ⟨by simp, by simp⟩
        repeats := by
          intro n hn _
          rcases hmem n hn with ⟨r, hr, rfl⟩
          exact ⟨rfl, (h.root_config (hranked r hr)).1, rfl⟩
        known := by
          intro n hn _
          rcases hmem n hn with ⟨r, hr, rfl⟩
          exact (h.root_config (hranked r hr)).2
        points := by
          intro hash
          rw [hother (isPoint hash) fun c hkind _ => by simp [isPoint, hkind]]
          exact h.points hash
        anchors := by
          intro v
          rw [hother (isAnchor v) fun c _ hflag => by simp [isAnchor, hflag]]
          exact h.anchors v
        confirmed := by
          intro hash
          have hbound := h.confirmed hash
          by_cases hin : hash ∈ shortlist.map Ranked.configHash
          · -- the repeats that are there have all run, and so has one candidate more
            rcases List.mem_map.mp hin with ⟨r, hr, rfl⟩
            have hlt := repeats_lt_group h hquiet (hranked r hr)
            rw [countP_repeats_of_mem s hnd hr]
            omega
          · rw [countP_repeats_of_notMem s hin]
            exact hbound
        rooted := by
          intro hash hpos
          by_cases hin : hash ∈ shortlist.map Ranked.configHash
          · rcases List.mem_map.mp hin with ⟨r, hr, rfl⟩
            exact h.ranked_rooted (hranked r hr)
          · rw [countP_repeats_of_notMem s hin] at hpos
            exact absurd hpos (Nat.lt_irrefl 0)
        verified := by
          intro hash
          rw [hother (isVerification hash) fun c hkind _ => by
            simp [isVerification, PipelineCandidate.verifies, hkind]]
          exact h.verified hash }

/-! ## Verification -/

/-- A config as it is queued for verification. -/
def verificationOf (p : Pipeline) (r : Ranked) : NewCandidate where
  config := (p.rootOf r.group).2
  configHash := r.configHash
  kind := .verification
  repeatOf := some (p.rootOf r.group).1

/-- No config is queued for verification that was verified, and none twice. -/
theorem Measured.countP_unverified (h : Measured s p) (hash : String) :
    p.candidates.rows.countP (isVerification hash) +
      ((p.unverified s).map p.verificationOf).countP (fun n => isVerification hash (n.row 0)) ≤ 1 := by
  have hnd : ((p.unverified s).map Ranked.configHash).Nodup :=
    ((p.ranked_nodup s.minimize).sublist ((List.take_sublist _ _).map _)).sublist
      (List.filter_sublist.map _)
  have hcount : ((p.unverified s).map p.verificationOf).countP (fun n => isVerification hash (n.row 0)) =
      ((p.unverified s).map Ranked.configHash).count hash := by
    rw [List.count_eq_countP, List.countP_map, List.countP_map]
    refine List.countP_congr fun r _ => ?_
    simp only [isVerification, Bool.and_eq_true, Function.comp]
    exact ⟨fun hv => decide_eq_true (of_decide_eq_true hv.2 : r.configHash = hash),
      fun hsame => ⟨⟨rfl, rfl⟩, decide_eq_true (of_decide_eq_true hsame : r.configHash = hash)⟩⟩
  have honce := List.nodup_iff_count_le_one.mp hnd hash
  rw [hcount]
  by_cases hin : hash ∈ (p.unverified s).map Ranked.configHash
  · rcases List.mem_map.mp hin with ⟨r, hr, rfl⟩
    have hnot : r.configHash ∉ p.verifiedHashes := by simpa using (List.mem_filter.mp hr).2
    have hzero : p.candidates.rows.countP (isVerification r.configHash) = 0 := by
      rw [List.countP_eq_zero]
      intro c hc hverified
      simp only [isVerification, Bool.and_eq_true, decide_eq_true_eq] at hverified
      exact hnot (List.mem_map.mpr ⟨c, List.mem_filter.mpr ⟨hc, hverified.1.1⟩, hverified.2⟩)
    omega
  · rw [List.count_eq_zero_of_not_mem hin]
    exact h.verified hash

/-- The verifications queued, and of them the baseline's. -/
theorem verifications_cases (waiting : Bool) (baseline : Option ResolvedBaseline) :
    p.verifications s waiting baseline = [] ∨
    p.verifications s waiting baseline = (p.unverified s).map p.verificationOf ∨
    ∃ b, p.hasBaseline true = false ∧ p.verifications s waiting baseline =
      (p.unverified s).map p.verificationOf ++ [baselineCandidate b true] := by
  unfold verifications
  split
  · exact Or.inl rfl
  · split
    · rename_i hwanted
      simp only [Bool.and_eq_true, Bool.not_eq_true'] at hwanted
      cases baseline with
      | none => exact Or.inr (Or.inl (List.append_nil _))
      | some b => exact Or.inr (Or.inr ⟨b, hwanted.2, rfl⟩)
    · exact Or.inr (Or.inl (List.append_nil _))

theorem Measured.adds_unverified (h : Measured s p) :
    Adds s p ((p.unverified s).map p.verificationOf) := by
  have hmem : ∀ n ∈ (p.unverified s).map p.verificationOf,
      ∃ r ∈ p.rankedScreenConfigs s.minimize, n = p.verificationOf r := by
    intro n hn
    rcases List.mem_map.mp hn with ⟨r, hr, rfl⟩
    exact ⟨r, List.mem_of_mem_take (List.mem_filter.mp hr).1, rfl⟩
  have hother : ∀ q : PipelineCandidate → Bool,
      (∀ c, c.kind = .verification → c.isBaseline = false → q c = false) →
      ((p.unverified s).map p.verificationOf).countP (fun n => q (n.row 0)) = 0 := by
    intro q hq
    rw [List.countP_eq_zero]
    intro n hn
    rcases hmem n hn with ⟨r, -, rfl⟩
    rw [hq _ rfl rfl]
    decide
  have hrepeat : ∀ hash, ((p.unverified s).map p.verificationOf).countP
      (fun n => isRepeat hash (n.row 0)) = 0 := fun hash =>
    hother (isRepeat hash) fun c hkind _ => by simp [isRepeat, hkind]
  exact
    { fresh := by
        intro n hn
        rcases hmem n hn with ⟨r, -, rfl⟩
        exact ⟨by simp [verificationOf], by simp [verificationOf]⟩
      repeats := by
        intro n hn hkind
        rcases hmem n hn with ⟨r, -, rfl⟩
        cases hkind
      known := by
        intro n hn _
        rcases hmem n hn with ⟨r, hr, rfl⟩
        exact (h.root_config hr).2
      points := by
        intro hash
        rw [hother (isPoint hash) fun c hkind _ => by simp [isPoint, hkind]]
        exact h.points hash
      anchors := by
        intro v
        rw [hother (isAnchor v) fun c _ hflag => by simp [isAnchor, hflag]]
        exact h.anchors v
      confirmed := by
        intro hash
        rw [hrepeat hash]
        exact h.confirmed hash
      rooted := by
        intro hash hpos
        rw [hrepeat hash] at hpos
        exact absurd hpos (Nat.lt_irrefl 0)
      verified := h.countP_unverified }

theorem Measured.adds_verifications (h : Measured s p) (waiting : Bool)
    (baseline : Option ResolvedBaseline) : Adds s p (p.verifications s waiting baseline) := by
  rcases p.verifications_cases (s := s) waiting baseline with heq | heq | ⟨b, hnone, heq⟩
  · rw [heq]
    exact h.adds_nil
  · rw [heq]
    exact h.adds_unverified
  · rw [heq]
    refine h.adds_baseline hnone b h.adds_unverified fun n hn => ?_
    rcases List.mem_map.mp hn with ⟨r, -, rfl⟩
    rfl

/-! ## A step of the worker -/

theorem Measured.maybeFinish (h : Measured s p) (waiting : Bool) (baseline : Option ResolvedBaseline) :
    Measured s (p.maybeFinish s waiting baseline) := by
  unfold Pipeline.maybeFinish
  split
  · exact h
  · rename_i hquiet
    simp only [Bool.or_eq_true, not_or, Bool.not_eq_true] at hquiet
    split
    · exact h
    · split
      · exact h.add (h.adds_confirmations hquiet.1)
      · split
        · exact h
        · split
          · exact h.add (h.adds_verifications waiting baseline)
          · exact h.of_runs rfl fun _ hrun => hrun

theorem Measured.place (h : Measured s p) (k : CandidateId) : Measured s (p.place k) := by
  unfold Pipeline.place
  cases hget : p.candidates.get? k with
  | none => exact h
  | some c =>
      dsimp only
      split
      · -- the run is there before its candidate is done
        have hruns : ∀ c', p.HasRun c' → HasRun
            { p with runs := p.runs.insert fun id => { id := id, candidateId := k } } c' := by
          rintro c' ⟨r, hr, hid, hkind⟩
          exact ⟨r, Table.mem_insert.mpr (Or.inl hr), hid, hkind⟩
        have hmoved : Measured s
            { p with runs := p.runs.insert fun id => { id := id, candidateId := k } } :=
          h.of_runs rfl hruns
        refine hmoved.setStatus (k := k) (Or.inr ⟨rfl, ?_⟩)
        intro c' _ hk _
        exact ⟨_, Table.mem_insert.mpr (Or.inr rfl), hk.symm, rfl⟩
      · exact h

theorem Measured.step (h : Measured s p) (a : Step) : Measured s (Pipeline.step s p a) := by
  cases a with
  | plan valid => exact h.plan valid
  | relaunchBaseline baseline => exact h.ensureRelaunchBaseline baseline
  | retire k =>
      dsimp only [Pipeline.step]
      cases hget : p.candidates.get? k with
      | none => exact h
      | some c =>
          dsimp only
          split
          · rename_i hplace
            simp only [Bool.and_eq_true, decide_eq_true_eq] at hplace
            rcases Table.get?_eq_some_iff.mp hget with ⟨hc, hid⟩
            refine h.setStatus (Or.inr ⟨rfl, fun c' hc' hk hnot => ?_⟩)
            have hsame := p.candidates.eq_of_key_eq hc' hc (hk.trans hid.symm)
            rw [hsame, hplace.2] at hnot
            cases hnot
          · exact h
  | place k => exact h.place k
  | advance r status failureClass =>
      refine h.of_runs rfl ?_
      rintro c ⟨run, hrun, hid, hkind⟩
      have hmoved : (if run.id = r then { run with status := status, failureClass := failureClass } else run) ∈
          (Pipeline.step s p (.advance r status failureClass)).runs.rows :=
        List.mem_map.mpr ⟨run, hrun, rfl⟩
      refine ⟨_, hmoved, ?_, ?_⟩
      · split <;> exact hid
      · split <;> exact hkind
  | report result => exact h.of_runs rfl fun _ hrun => hrun
  | giveBack r =>
      dsimp only [Pipeline.step]
      cases hget : p.runs.get? r with
      | none => exact h
      | some run => exact h.setStatus (Or.inl rfl)
  | finish waiting baseline => exact h.maybeFinish waiting baseline

end Pipeline

end AutoTune
