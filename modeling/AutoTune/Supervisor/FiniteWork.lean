import AutoTune.Lib.Trace
import AutoTune.Supervisor.Measured

/-!
# A campaign's own work is finite

Runs succeed and fail and the ranking changes with each of them, but each config has its repeats and its
verification once. So the candidates of a campaign are bounded, and a campaign that keeps being finished
ends.
-/

namespace AutoTune

open Lib

namespace Pipeline

variable {s : PipelineSettings} {p : Pipeline}

/-! ## Runs of the worker -/

theorem measured_empty (s : PipelineSettings) : Measured s {} where
  hasRun := fun _ hc => absurd hc List.not_mem_nil
  repeats := fun _ hc => absurd hc List.not_mem_nil
  kinds := fun _ hc => absurd hc List.not_mem_nil
  known := fun _ hc => absurd hc List.not_mem_nil
  points := fun _ => Nat.zero_le 1
  anchors := fun _ => Nat.zero_le 1
  confirmed := fun _ => Nat.zero_le _
  rooted := fun _ hpos => absurd hpos (Nat.lt_irrefl 0)
  verified := fun _ => Nat.zero_le 1

/-- The campaign after `n` steps of the worker, from before its first. -/
def worked (s : PipelineSettings) (input : Nat → Step) (n : Nat) : Pipeline :=
  turns (Pipeline.step s) input {} n

theorem worked_succ (s : PipelineSettings) (input : Nat → Step) (n : Nat) :
    worked s input (n + 1) = Pipeline.step s (worked s input n) (input n) := rfl

theorem measured_worked (s : PipelineSettings) (input : Nat → Step) (n : Nat) :
    Measured s (worked s input n) := by
  induction n with
  | zero => exact measured_empty s
  | succ n ih => exact ih.step (input n)

/-! ## How many candidates there can be -/

/-- A point, its repeats and its verification for each hash, and a baseline for each stage. -/
def capacity (s : PipelineSettings) : Nat := s.points.length * (s.target + 1) + 2

theorem Measured.countP_hash (h : Measured s p) (hash : String) :
    (p.candidates.rows.countP fun c => !c.isBaseline && c.configHash = hash) ≤ s.target + 1 := by
  have hpoint := h.points hash
  have hrepeat := h.confirmed hash
  have hverified := h.verified hash
  have htarget : 1 ≤ s.target := Nat.le_max_left 1 _
  calc (p.candidates.rows.countP fun c => !c.isBaseline && c.configHash = hash)
      ≤ p.candidates.rows.countP (isPoint hash) +
          p.candidates.rows.countP (fun c => isRepeat hash c || isVerification hash c) := by
        refine countP_le_add fun c hc hcount => ?_
        simp only [Bool.and_eq_true, Bool.not_eq_true', decide_eq_true_eq] at hcount
        have hkind := h.kinds c hc
        cases hk : c.kind with
        | baseline => exact absurd hk hkind
        | search => exact Or.inl (by simp [isPoint, hk, hcount.1, hcount.2])
        | confirmation => exact Or.inr (by simp [isRepeat, hk, hcount.2])
        | verification =>
            exact Or.inr (by
              simp [isVerification, PipelineCandidate.verifies, hk, hcount.1, hcount.2])
    _ ≤ p.candidates.rows.countP (isPoint hash) + (p.candidates.rows.countP (isRepeat hash) +
          p.candidates.rows.countP (isVerification hash)) :=
        Nat.add_le_add_left (countP_le_add fun c _ hcount => by simpa using hcount) _
    _ ≤ s.target + 1 := by omega

theorem Measured.length_le (h : Measured s p) : p.candidates.rows.length ≤ capacity s := by
  have hscreen := h.anchors false
  have hverify := h.anchors true
  calc p.candidates.rows.length
      = p.candidates.rows.countP (fun _ => true) := (congrFun List.countP_true _).symm
    _ ≤ p.candidates.rows.countP (fun c => !c.isBaseline && (s.points.map Prod.fst).contains c.configHash)
          + p.candidates.rows.countP (fun c => isAnchor false c || isAnchor true c) := by
        refine countP_le_add fun c hc _ => ?_
        cases hflag : c.isBaseline with
        | false => exact Or.inl (by simpa using h.known c hc hflag)
        | true => exact Or.inr (by cases hv : c.verifies <;> simp [isAnchor, hflag, hv])
    _ ≤ (s.points.map Prod.fst).length * (s.target + 1) +
          (p.candidates.rows.countP (isAnchor false) + p.candidates.rows.countP (isAnchor true)) :=
        Nat.add_le_add (countP_mem_le PipelineCandidate.configHash _ h.countP_hash)
          (countP_le_add fun c _ hcount => by simpa using hcount)
    _ ≤ capacity s := by
        rw [List.length_map, capacity]
        omega

theorem length_add (p : Pipeline) (l : List NewCandidate) :
    (p.add l).candidates.rows.length = p.candidates.rows.length + l.length := by
  have hcount := countP_add p l (q := fun _ => true) (g := fun _ => true) fun _ _ => rfl
  simpa only [List.countP_true] using hcount

theorem length_setStatus (p : Pipeline) (k : CandidateId) (status : CandidateStatus) :
    (p.setStatus k status).candidates.rows.length = p.candidates.rows.length := by
  rw [rows_setStatus, List.length_map]

theorem length_planPoint (valid : String → Bool) (p : Pipeline) (point : String × Config) :
    p.candidates.rows.length ≤ (p.planPoint valid point).candidates.rows.length := by
  unfold Pipeline.planPoint
  split
  · exact le_rfl
  · rw [length_add]
    exact Nat.le_add_right _ _

theorem length_plan (valid : String → Bool) (points : List (String × Config)) (p : Pipeline) :
    p.candidates.rows.length ≤ (points.foldl (Pipeline.planPoint valid) p).candidates.rows.length := by
  induction points generalizing p with
  | nil => exact le_rfl
  | cons point l ih => exact (length_planPoint valid p point).trans (ih _)

/-- No step takes a candidate away. -/
theorem length_step (s : PipelineSettings) (p : Pipeline) (a : Step) :
    p.candidates.rows.length ≤ (Pipeline.step s p a).candidates.rows.length := by
  cases a with
  | plan valid => exact length_plan valid s.points p
  | relaunchBaseline baseline =>
      dsimp only [Pipeline.step, Pipeline.ensureRelaunchBaseline]
      split
      · rw [length_add]
        exact Nat.le_add_right _ _
      · exact le_rfl
  | retire k =>
      dsimp only [Pipeline.step]
      cases p.candidates.get? k with
      | none => exact le_rfl
      | some c =>
          dsimp only
          split
          · exact (length_setStatus p k .exhausted).ge
          · exact le_rfl
  | place k =>
      dsimp only [Pipeline.step, Pipeline.place]
      cases p.candidates.get? k with
      | none => exact le_rfl
      | some c =>
          dsimp only
          split
          · exact (length_setStatus p k .exhausted).ge
          · exact le_rfl
  | advance r status failureClass => exact le_rfl
  | report result => exact le_rfl
  | giveBack r =>
      dsimp only [Pipeline.step]
      cases p.runs.get? r with
      | none => exact le_rfl
      | some run => exact (length_setStatus p run.candidateId .valid).ge
  | finish waiting baseline =>
      dsimp only [Pipeline.step, Pipeline.maybeFinish]
      split
      · exact le_rfl
      · split
        · exact le_rfl
        · split
          · rw [length_add]
            exact Nat.le_add_right _ _
          · split
            · exact le_rfl
            · split
              · rw [length_add]
                exact Nat.le_add_right _ _
              · exact le_rfl

/-- With nothing pending, nothing live, a plan and a dataset, the campaign ends or gets a candidate. -/
theorem maybeFinish_ends (s : PipelineSettings) {p : Pipeline} (baseline : Option ResolvedBaseline)
    (hpending : p.pending = false) (hlive : p.live = false) (hplanned : p.notPlannedYet s = false) :
    (p.maybeFinish s false baseline).status = .done ∨
      p.candidates.rows.length < (p.maybeFinish s false baseline).candidates.rows.length := by
  have hmore : ∀ l : List NewCandidate, (!l.isEmpty) = true →
      p.candidates.rows.length < (p.add l).candidates.rows.length := by
    intro l hl
    rw [length_add]
    cases l with
    | nil => cases hl
    | cons n l => exact Nat.lt_add_of_pos_right (Nat.succ_pos _)
  unfold Pipeline.maybeFinish
  rw [hpending, hlive, hplanned]
  simp only [Bool.or_self, Bool.false_eq_true, if_false]
  split
  · rename_i hconfirm
    exact Or.inr (hmore _ hconfirm)
  · split
    · rename_i hverify
      exact Or.inr (hmore _ hverify)
    · exact Or.inl rfl

/-! ## Campaigns that only search -/

theorem mem_planPoint {valid : String → Bool} {point : String × Config} {c : PipelineCandidate}
    (hc : c ∈ (p.planPoint valid point).candidates.rows) : c ∈ p.candidates.rows ∨ c.kind = .search := by
  unfold Pipeline.planPoint at hc
  split at hc
  · exact Or.inl hc
  · rcases mem_add hc with hold | ⟨n, hn, id, rfl⟩
    · exact Or.inl hold
    · rw [List.mem_singleton.mp hn]
      exact Or.inr rfl

theorem mem_plan {valid : String → Bool} {points : List (String × Config)} {c : PipelineCandidate}
    (hc : c ∈ (points.foldl (Pipeline.planPoint valid) p).candidates.rows) :
    c ∈ p.candidates.rows ∨ c.kind = .search := by
  induction points generalizing p with
  | nil => exact Or.inl hc
  | cons point l ih => exact (ih hc).elim mem_planPoint Or.inr

theorem kind_setStatus {k : CandidateId} {status : CandidateStatus} {kind : CandidateKind}
    (h : ∀ c ∈ p.candidates.rows, c.kind = kind) :
    ∀ c ∈ (p.setStatus k status).candidates.rows, c.kind = kind := by
  intro c hc
  rcases mem_setStatus hc with hold | ⟨c', hc', -, rfl⟩
  · exact h c hold
  · exact h c' hc'

/-- Without a shortlist and a second stage, finishing queues nothing. -/
theorem maybeFinish_candidates (htop : s.confirmTopK = 0) (hstaged : s.staged = false) (waiting : Bool)
    (baseline : Option ResolvedBaseline) :
    (p.maybeFinish s waiting baseline).candidates = p.candidates := by
  have hconfirm : p.confirmations s = [] := by
    unfold confirmations
    rw [if_pos htop]
  have hverify : p.verifications s waiting baseline = [] := by
    unfold verifications
    rw [hstaged]
    rfl
  unfold Pipeline.maybeFinish
  rw [hconfirm, hverify]
  simp only [List.isEmpty_nil, Bool.not_true, Bool.false_eq_true, if_false]
  split
  · rfl
  · split
    · rfl
    · split <;> rfl

theorem step_searches (htop : s.confirmTopK = 0) (hstaged : s.staged = false)
    (h : ∀ c ∈ p.candidates.rows, c.kind = .search) (a : Step) :
    ∀ c ∈ (Pipeline.step s p a).candidates.rows, c.kind = .search := by
  cases a with
  | plan valid => exact fun c hc => (mem_plan hc).elim (h c) id
  | relaunchBaseline baseline =>
      dsimp only [Pipeline.step, Pipeline.ensureRelaunchBaseline]
      split
      · intro c hc
        rcases mem_add hc with hold | ⟨n, hn, id, rfl⟩
        · exact h c hold
        · rcases Option.map_eq_some_iff.mp (Option.mem_toList.mp hn) with ⟨b, -, rfl⟩
          rfl
      · exact h
  | retire k =>
      dsimp only [Pipeline.step]
      cases p.candidates.get? k with
      | none => exact h
      | some c =>
          dsimp only
          split
          · exact kind_setStatus h
          · exact h
  | place k =>
      dsimp only [Pipeline.step, Pipeline.place]
      cases p.candidates.get? k with
      | none => exact h
      | some c =>
          dsimp only
          split
          · exact kind_setStatus h
          · exact h
  | advance r status failureClass => exact h
  | report result => exact h
  | giveBack r =>
      dsimp only [Pipeline.step]
      cases p.runs.get? r with
      | none => exact h
      | some run => exact kind_setStatus h
  | finish waiting baseline =>
      dsimp only [Pipeline.step]
      rw [maybeFinish_candidates htop hstaged]
      exact h

/-! ## The work ends -/

/-- After finitely many steps every call with nothing to do ends the campaign, unless it waits on a
dataset or `except` holds. -/
def EndsUnless (s : PipelineSettings) (except : Pipeline → Bool) (input : Nat → Step) : Prop :=
  ∃ N, ∀ n, N ≤ n → ∀ baseline, input n = .finish false baseline →
    (worked s input n).pending = false → (worked s input n).live = false →
    except (worked s input n) = false → (worked s input (n + 1)).status = .done

theorem ends_unless_unplanned (s : PipelineSettings) (input : Nat → Step) :
    EndsUnless s (fun p => p.notPlannedYet s) input := by
  -- the number of candidates only grows, and there is a last time it does
  rcases bounded_settles (fun n => (worked s input n).candidates.rows.length) (capacity s)
    (fun n => length_step s (worked s input n) (input n))
    (fun n => (measured_worked s input n).length_le) with ⟨N, hN⟩
  refine ⟨N, fun n hn baseline hinput hpending hlive hplanned => ?_⟩
  have hsame : (worked s input (n + 1)).candidates.rows.length =
      (worked s input n).candidates.rows.length := (hN (n + 1) (by omega)).trans (hN n hn).symm
  have hnext : worked s input (n + 1) = (worked s input n).maybeFinish s false baseline := by
    rw [worked_succ, hinput]
    rfl
  rcases maybeFinish_ends s baseline hpending hlive hplanned with hdone | hmore
  · rw [hnext]
    exact hdone
  · rw [hnext] at hsame
    omega

/-- Whatever its runs do, a campaign repeats and verifies each config a bounded number of times, and
ends. -/
theorem campaign_work_is_finite (s : PipelineSettings) (input : Nat → Step) :
    (∀ n hash, (worked s input n).candidates.rows.countP (isRepeat hash) ≤ s.confirmRepeats - 1 ∧
      (worked s input n).candidates.rows.countP (isVerification hash) ≤ 1) ∧
    (s.confirmTopK = 0 → s.staged = false → ∀ n, ∀ c ∈ (worked s input n).candidates.rows,
      c.kind = .search) ∧
    (∀ n, (worked s input n).candidates.rows.length ≤ capacity s) ∧
    EndsUnless s (fun p => p.notPlannedYet s) input := by
  refine ⟨fun n hash => ?_, fun htop hstaged n => ?_, fun n => (measured_worked s input n).length_le,
    ends_unless_unplanned s input⟩
  · have hmeasured := measured_worked s input n
    refine ⟨(hmeasured.confirmed hash).trans ?_, hmeasured.verified hash⟩
    rw [PipelineSettings.target]
    omega
  · induction n with
    | zero => exact fun c hc => absurd hc List.not_mem_nil
    | succ n ih => exact step_searches htop hstaged ih (input n)

/-- A campaign that is not planned yet is left alone however often it is finished. -/
theorem unplanned_campaign_never_done : ¬ EndsUnless
    { points := [("6f1c", Dict.empty)] } (fun _ => false) (fun _ => .finish false none) := by
  rintro ⟨N, hN⟩
  have hsame : ∀ n, worked { points := [("6f1c", Dict.empty)] } (fun _ => .finish false none) n = {} := by
    intro n
    induction n with
    | zero => rfl
    | succ n ih =>
        rw [worked_succ, ih]
        rfl
  have hdone := hN N le_rfl none rfl (by rw [hsame]; rfl) (by rw [hsame]; rfl) rfl
  rw [hsame] at hdone
  cases hdone

end Pipeline

end AutoTune
