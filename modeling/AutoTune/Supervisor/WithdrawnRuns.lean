import AutoTune.Supervisor.Measured
import AutoTune.Supervisor.Shortlist

/-!
# Withdrawn runs in a campaign's decisions

A run that was given back to a queue tried nothing. Retrying a candidate does not count it. Repeating a
config does: every screening run of it counts against its target, and the place of a withdrawn run among
the others can break a tie between two means. Two histories of one campaign that differ in withdrawn runs
alone are compared.
-/

namespace AutoTune

open Lib

/-- Was the run given back? -/
def PipelineRun.withdrawn (r : PipelineRun) : Bool := r.failureClass = released

namespace Pipeline

/-- Two histories that are the same but for withdrawn runs, all of which were killed. -/
structure SameButWithdrawn (p q : Pipeline) : Prop where
  status : p.status = q.status
  candidates : p.candidates = q.candidates
  results : p.results = q.results
  runs : (p.runs.rows.filter fun r => !r.withdrawn) = q.runs.rows.filter fun r => !r.withdrawn
  killed : ∀ r ∈ p.runs.rows, r.withdrawn = true → r.status = .killed
  killed' : ∀ r ∈ q.runs.rows, r.withdrawn = true → r.status = .killed

/-- The runs of a config that were not withdrawn. -/
def tries (p : Pipeline) (h : String) : Nat := (p.runsOf h).countP fun r => !r.withdrawn

/-- The runs of a config that were. -/
def withdrawals (p : Pipeline) (h : String) : Nat := (p.runsOf h).countP PipelineRun.withdrawn

/-- The worker decides the same in both: who is given its slot back, how often each config is repeated,
which configs and whether the baseline is verified, and whether the campaign is done. -/
structure SameDecisions (s : PipelineSettings) (waiting : Bool) (baseline : Option ResolvedBaseline)
    (p q : Pipeline) : Prop where
  requeued : ∀ r, p.requeues r = q.requeues r
  repeated : ∀ h, (p.confirmations s).countP (fun n => isRepeat h (n.row 0)) =
    (q.confirmations s).countP fun n => isRepeat h (n.row 0)
  verified : ∀ h, ((p.verifications s waiting baseline).any fun n => isVerification h (n.row 0)) =
    (q.verifications s waiting baseline).any fun n => isVerification h (n.row 0)
  anchored : (p.verifications s waiting baseline).any NewCandidate.isBaseline =
    (q.verifications s waiting baseline).any NewCandidate.isBaseline
  done : (p.maybeFinish s waiting baseline).status = (q.maybeFinish s waiting baseline).status

/-- No withdrawn run makes up the target of a config, and none turns a tie at the end of a shortlist. -/
structure WithdrawalsUnseen (s : PipelineSettings) (waiting : Bool) (p q : Pipeline) : Prop where
  both : ∀ h, p.shortlisted s.minimize s.confirmTopK h = true →
    q.shortlisted s.minimize s.confirmTopK h = true → p.withdrawals h = q.withdrawals h ∨
      s.target ≤ p.tries h + min (p.withdrawals h) (q.withdrawals h)
  left : ∀ h, p.shortlisted s.minimize s.confirmTopK h = true →
    q.shortlisted s.minimize s.confirmTopK h = false → s.target ≤ p.tries h + p.withdrawals h
  right : ∀ h, p.shortlisted s.minimize s.confirmTopK h = false →
    q.shortlisted s.minimize s.confirmTopK h = true → s.target ≤ q.tries h + q.withdrawals h
  verified : s.staged = true → waiting = false → ∀ h, h ∉ p.verifiedHashes →
    p.shortlisted s.minimize s.verifyTopK h = q.shortlisted s.minimize s.verifyTopK h

variable {s : PipelineSettings} {p q : Pipeline}

/-! ## What the decisions come to -/

theorem length_runsOf (p : Pipeline) (h : String) : (p.runsOf h).length = p.tries h + p.withdrawals h := by
  have hsplit := List.length_eq_countP_add_countP (l := p.runsOf h) PipelineRun.withdrawn
  rw [hsplit, Nat.add_comm]
  congr 1
  exact List.countP_congr fun r _ => by simp

/-- A config of the shortlist gets what is missing to its target. -/
theorem countP_confirmations (s : PipelineSettings) (p : Pipeline) (h : String) :
    (p.confirmations s).countP (fun n => isRepeat h (n.row 0)) =
      if p.shortlisted s.minimize s.confirmTopK h then s.target - (p.tries h + p.withdrawals h) else 0 := by
  have hnd : (((p.rankedScreenConfigs s.minimize).take s.confirmTopK).map Ranked.configHash).Nodup := by
    rw [List.map_take]
    exact (p.ranked_nodup s.minimize).sublist (List.take_sublist _ _)
  have hflat : p.confirmations s = ((p.rankedScreenConfigs s.minimize).take s.confirmTopK).flatMap
      fun r => p.repeatsOf (s.target - r.group.length) r := by
    unfold confirmations
    split
    · rename_i htop
      rw [htop]
      rfl
    · rfl
  rw [hflat]
  split
  · rename_i hshort
    rcases List.mem_map.mp ((p.mem_shortlist _ _ h).mpr hshort) with ⟨r, hr, rfl⟩
    rw [countP_repeats_of_mem s hnd hr, (mem_ranked (List.mem_of_mem_take hr)).1, length_runsOf]
  · rename_i hshort
    exact countP_repeats_of_notMem s fun hin => hshort ((p.mem_shortlist _ _ h).mp hin)

theorem any_unverified (s : PipelineSettings) (p : Pipeline) (h : String) :
    (((p.unverified s).map p.verificationOf).any fun n => isVerification h (n.row 0)) = true ↔
      p.shortlisted s.minimize s.verifyTopK h = true ∧ h ∉ p.verifiedHashes := by
  rw [List.any_map, List.any_eq_true, ← p.mem_shortlist]
  constructor
  · rintro ⟨r, hr, hcount⟩
    have hverified : isVerification h ((p.verificationOf r).row 0) = true := hcount
    simp only [isVerification, Bool.and_eq_true, decide_eq_true_eq] at hverified
    have hhash : r.configHash = h := hverified.2
    rcases List.mem_filter.mp hr with ⟨hmem, hnew⟩
    exact ⟨List.mem_map.mpr ⟨r, hmem, hhash⟩, hhash ▸ (by simpa using hnew)⟩
  · rintro ⟨hin, hnew⟩
    rcases List.mem_map.mp hin with ⟨r, hr, rfl⟩
    refine ⟨r, List.mem_filter.mpr ⟨hr, by simpa using hnew⟩, ?_⟩
    change isVerification r.configHash ((p.verificationOf r).row 0) = true
    simp only [isVerification, Bool.and_eq_true, decide_eq_true_eq]
    exact ⟨⟨rfl, rfl⟩, rfl⟩

/-- A config of the second shortlist is verified if it never was. -/
theorem any_verifications (s : PipelineSettings) (p : Pipeline) (waiting : Bool)
    (baseline : Option ResolvedBaseline) (h : String) :
    ((p.verifications s waiting baseline).any fun n => isVerification h (n.row 0)) = true ↔
      (s.staged = true ∧ waiting = false) ∧
        p.shortlisted s.minimize s.verifyTopK h = true ∧ h ∉ p.verifiedHashes := by
  rw [← any_unverified]
  unfold verifications
  split
  · rename_i hskip
    simp only [List.any_nil, Bool.false_eq_true, false_iff, not_and]
    intro hstaged hany
    simp only [hstaged.1, hstaged.2, Bool.not_true, Bool.or_self, Bool.false_or,
      List.isEmpty_iff] at hskip
    unfold unverified at hany
    rw [hskip, List.take_nil] at hany
    cases hany
  · rename_i hgo
    simp only [Bool.or_eq_true, Bool.not_eq_true', not_or, Bool.not_eq_false, Bool.not_eq_true] at hgo
    rw [List.any_append]
    have hbaseline : ∀ b : Option ResolvedBaseline,
        ((b.map fun b => baselineCandidate b true).toList.any fun n => isVerification h (n.row 0)) = false := by
      intro b
      cases b <;> rfl
    have hrest : ((if s.runBaselineCanary && !p.hasBaseline true then
        (baseline.map fun b => baselineCandidate b true).toList else []).any
          fun n => isVerification h (n.row 0)) = false := by
      split
      · exact hbaseline baseline
      · rfl
    rw [hrest, Bool.or_false]
    exact (and_iff_right hgo.1).symm

/-- The baseline is verified if the stage is scheduled for any config. -/
theorem any_baseline (s : PipelineSettings) (p : Pipeline) (waiting : Bool)
    (baseline : Option ResolvedBaseline) :
    (p.verifications s waiting baseline).any NewCandidate.isBaseline =
      (s.staged && !waiting && !(p.rankedScreenConfigs s.minimize).isEmpty && s.runBaselineCanary &&
        !p.hasBaseline true && baseline.isSome) := by
  have hplain : ((p.unverified s).map p.verificationOf).any NewCandidate.isBaseline = false := by
    rw [List.any_map, List.any_eq_false]
    intro r _
    exact Bool.false_ne_true
  unfold verifications
  cases hstaged : s.staged <;> cases waiting <;> cases (p.rankedScreenConfigs s.minimize).isEmpty <;>
    try rfl
  simp only [Bool.not_true, Bool.or_self, Bool.false_eq_true, if_false, List.any_append]
  change (((p.unverified s).map p.verificationOf).any NewCandidate.isBaseline || _) = _
  rw [hplain]
  cases s.runBaselineCanary <;> cases p.hasBaseline true <;> cases baseline <;> rfl

theorem confirmations_isEmpty (s : PipelineSettings) (p : Pipeline) :
    (p.confirmations s).isEmpty = true ↔
      ∀ h, (p.confirmations s).countP (fun n => isRepeat h (n.row 0)) = 0 := by
  constructor
  · intro hempty h
    rw [List.isEmpty_iff.mp hempty]
    rfl
  · intro hnone
    rw [List.isEmpty_iff, List.eq_nil_iff_forall_not_mem]
    intro n hn
    have hrepeat : n.kind = .confirmation := by
      unfold confirmations at hn
      split at hn
      · cases hn
      · rcases List.mem_flatMap.mp hn with ⟨r, -, hn⟩
        rw [mem_repeatsOf hn]
    refine List.countP_eq_zero.mp (hnone n.configHash) n hn ?_
    simp [isRepeat, NewCandidate.row, hrepeat]

theorem verifications_isEmpty (s : PipelineSettings) (p : Pipeline) (waiting : Bool)
    (baseline : Option ResolvedBaseline) : (p.verifications s waiting baseline).isEmpty = true ↔
      (∀ h, ((p.verifications s waiting baseline).any fun n => isVerification h (n.row 0)) = false) ∧
        (p.verifications s waiting baseline).any NewCandidate.isBaseline = false := by
  constructor
  · intro hempty
    rw [List.isEmpty_iff.mp hempty]
    exact ⟨fun _ => rfl, rfl⟩
  · rintro ⟨hconfigs, hbaseline⟩
    rw [List.isEmpty_iff, List.eq_nil_iff_forall_not_mem]
    intro n hn
    have hflag := List.any_eq_false.mp hbaseline n hn
    have hkind : n.kind = .verification := by
      rcases p.verifications_cases (s := s) waiting baseline with heq | heq | ⟨b, -, heq⟩ <;> rw [heq] at hn
      · cases hn
      · rcases List.mem_map.mp hn with ⟨r, -, rfl⟩
        rfl
      · rcases List.mem_append.mp hn with hn | hn
        · rcases List.mem_map.mp hn with ⟨r, -, rfl⟩
          rfl
        · rw [List.mem_singleton.mp hn]
          rfl
    refine List.any_eq_false.mp (hconfigs n.configHash) n hn ?_
    simp [isVerification, PipelineCandidate.verifies, NewCandidate.row, hkind, hflag]

theorem maybeFinish_status (s : PipelineSettings) (p : Pipeline) (waiting : Bool)
    (baseline : Option ResolvedBaseline) : (p.maybeFinish s waiting baseline).status =
      if p.pending || p.live || p.notPlannedYet s || !(p.confirmations s).isEmpty || waiting ||
        !(p.verifications s waiting baseline).isEmpty then p.status else .done := by
  unfold maybeFinish
  cases p.pending || p.live <;> cases p.notPlannedYet s <;> cases (p.confirmations s).isEmpty <;>
    cases waiting <;> try rfl
  cases (p.verifications s false baseline).isEmpty <;> rfl

/-! ## What a withdrawn run leaves alone -/

/-- The runs of a config, read off the table. -/
theorem runsOf_eq (p : Pipeline) (h : String) : p.runsOf h = p.runs.rows.filter fun r =>
    r.kind = .experiment && (p.screened r).any fun c => c.configHash = h := by
  unfold runsOf screenRuns
  induction p.runs.rows with
  | nil => rfl
  | cons r l ih =>
      by_cases hkind : r.kind = .experiment
      · rw [List.filter_cons_of_pos (by simpa using hkind)]
        cases hscreened : p.screened r with
        | none =>
            rw [List.filterMap_cons_none (by rw [hscreened]; rfl), ih,
              List.filter_cons_of_neg (by simp [hscreened])]
        | some c =>
            rw [List.filterMap_cons_some (b := (c.configHash, r)) (by rw [hscreened]; rfl)]
            by_cases hhash : c.configHash = h
            · rw [List.filter_cons_of_pos (by simpa using hhash), List.map_cons, ih,
                List.filter_cons_of_pos (by simp [hscreened, hkind, hhash])]
            · rw [List.filter_cons_of_neg (by simpa using hhash), ih,
                List.filter_cons_of_neg (by simp [hscreened, hhash])]
      · rw [List.filter_cons_of_neg (by simpa using hkind), ih,
          List.filter_cons_of_neg (by simp [hkind])]

theorem SameButWithdrawn.symm (h : SameButWithdrawn p q) : SameButWithdrawn q p where
  status := h.status.symm
  candidates := h.candidates.symm
  results := h.results.symm
  runs := h.runs.symm
  killed := h.killed'
  killed' := h.killed

theorem SameButWithdrawn.screened (h : SameButWithdrawn p q) : p.screened = q.screened := by
  unfold Pipeline.screened
  rw [h.candidates]

/-- Both histories have the same runs of a config that were not withdrawn. -/
theorem SameButWithdrawn.runsOf (h : SameButWithdrawn p q) (hash : String) :
    ((p.runsOf hash).filter fun r => !r.withdrawn) = (q.runsOf hash).filter fun r => !r.withdrawn := by
  rw [runsOf_eq, runsOf_eq, h.screened, List.filter_comm, h.runs, List.filter_comm]

theorem SameButWithdrawn.tries (h : SameButWithdrawn p q) (hash : String) : p.tries hash = q.tries hash := by
  unfold Pipeline.tries
  rw [List.countP_eq_length_filter, List.countP_eq_length_filter, h.runsOf]

theorem SameButWithdrawn.valueOf (h : SameButWithdrawn p q) : p.valueOf = q.valueOf := by
  unfold Pipeline.valueOf
  rw [h.results]

/-- A withdrawn run has no value. -/
theorem values_kept {l : List PipelineRun} (hl : ∀ r ∈ l, r.withdrawn = true → r.status = .killed) :
    l.filterMap p.valueOf = (l.filter fun r => !r.withdrawn).filterMap p.valueOf := by
  induction l with
  | nil => rfl
  | cons r l ih =>
      have hrest := ih fun r hr => hl r (List.mem_cons_of_mem _ hr)
      cases hw : r.withdrawn with
      | false =>
          rw [List.filter_cons_of_pos (by simp [hw]), List.filterMap_cons, List.filterMap_cons, hrest]
      | true =>
          have hnone : p.valueOf r = none := by
            unfold Pipeline.valueOf
            rw [hl r List.mem_cons_self hw]
            rfl
          rw [List.filter_cons_of_neg (by simp [hw]), List.filterMap_cons_none hnone, hrest]

theorem SameButWithdrawn.meanOf (h : SameButWithdrawn p q) (hash : String) :
    p.meanOf hash = q.meanOf hash := by
  have hvalues : (p.runsOf hash).filterMap p.valueOf = (q.runsOf hash).filterMap q.valueOf := by
    rw [values_kept (p := p), values_kept (p := q) (l := q.runsOf hash), h.runsOf, h.valueOf]
    · intro r hr
      rw [runsOf_eq] at hr
      exact h.killed' r (List.mem_filter.mp hr).1
    · intro r hr
      rw [runsOf_eq] at hr
      exact h.killed r (List.mem_filter.mp hr).1
  unfold Pipeline.meanOf
  rw [hvalues]

theorem SameButWithdrawn.ranked_isEmpty (h : SameButWithdrawn p q) (minimize : Bool) :
    (p.rankedScreenConfigs minimize).isEmpty = (q.rankedScreenConfigs minimize).isEmpty := by
  have hempty : ∀ p q, SameButWithdrawn p q → (q.rankedScreenConfigs minimize).isEmpty = true →
      (p.rankedScreenConfigs minimize).isEmpty = true := by
    intro p q h hq
    rw [List.isEmpty_iff, List.eq_nil_iff_forall_not_mem]
    intro r hr
    rcases exists_ranked minimize (p := q) ((h.meanOf _).symm.trans (meanOf_ranked hr)) with ⟨r', hr', -⟩
    rw [List.isEmpty_iff.mp hq] at hr'
    exact absurd hr' List.not_mem_nil
  rw [Bool.eq_iff_iff]
  exact ⟨hempty q p h.symm, hempty p q h⟩

/-- A withdrawn run is over. -/
theorem SameButWithdrawn.live (h : SameButWithdrawn p q) : p.live = q.live := by
  have hkept : ∀ p : Pipeline, (∀ r ∈ p.runs.rows, r.withdrawn = true → r.status = .killed) →
      p.live = (p.runs.rows.filter fun r => !r.withdrawn).any fun r => !r.status.terminal := by
    intro p hkilled
    rw [Bool.eq_iff_iff, Pipeline.live, List.any_eq_true, List.any_eq_true]
    constructor
    · rintro ⟨r, hr, hlive⟩
      refine ⟨r, List.mem_filter.mpr ⟨hr, ?_⟩, hlive⟩
      cases hw : r.withdrawn with
      | false => rfl
      | true =>
          rw [hkilled r hr hw] at hlive
          cases hlive
    · rintro ⟨r, hr, hlive⟩
      exact ⟨r, (List.mem_filter.mp hr).1, hlive⟩
  rw [hkept p h.killed, hkept q h.killed', h.runs]

/-- Retrying does not count withdrawn runs. -/
theorem SameButWithdrawn.requeues (h : SameButWithdrawn p q) (r : PipelineRun) :
    p.requeues r = q.requeues r := by
  have hkept : ∀ p : Pipeline,
      (p.runs.rows.countP fun o => o.candidateId = r.candidateId && o.failureClass != released) =
        (p.runs.rows.filter fun r => !r.withdrawn).countP fun o => o.candidateId = r.candidateId := by
    intro p
    rw [List.countP_filter]
    refine List.countP_congr fun o _ => ?_
    simp [PipelineRun.withdrawn, bne_iff_ne]
  unfold Pipeline.requeues
  rw [hkept p, hkept q, h.runs]

/-! ## The decisions of both histories -/

/-- The same repeats, config by config. -/
theorem repeated_iff (h : SameButWithdrawn p q) (hash : String) :
    (p.confirmations s).countP (fun n => isRepeat hash (n.row 0)) =
      (q.confirmations s).countP (fun n => isRepeat hash (n.row 0)) ↔
    (p.shortlisted s.minimize s.confirmTopK hash = true →
      q.shortlisted s.minimize s.confirmTopK hash = true → p.withdrawals hash = q.withdrawals hash ∨
        s.target ≤ p.tries hash + min (p.withdrawals hash) (q.withdrawals hash)) ∧
    (p.shortlisted s.minimize s.confirmTopK hash = true →
      q.shortlisted s.minimize s.confirmTopK hash = false → s.target ≤ p.tries hash + p.withdrawals hash) ∧
    (p.shortlisted s.minimize s.confirmTopK hash = false →
      q.shortlisted s.minimize s.confirmTopK hash = true → s.target ≤ q.tries hash + q.withdrawals hash) := by
  have htries := h.tries hash
  rw [countP_confirmations, countP_confirmations]
  cases hp : p.shortlisted s.minimize s.confirmTopK hash <;>
    cases hq : q.shortlisted s.minimize s.confirmTopK hash <;>
      simp only [Bool.false_eq_true, if_false, if_true, forall_const, IsEmpty.forall_iff, true_and,
        and_true, reduceCtorEq]
  · omega
  · omega
  · omega

theorem SameButWithdrawn.verifiedHashes (h : SameButWithdrawn p q) : p.verifiedHashes = q.verifiedHashes := by
  unfold Pipeline.verifiedHashes
  rw [h.candidates]

theorem verified_iff (h : SameButWithdrawn p q) (waiting : Bool) (baseline : Option ResolvedBaseline)
    (hash : String) :
    (((p.verifications s waiting baseline).any fun n => isVerification hash (n.row 0)) =
      (q.verifications s waiting baseline).any fun n => isVerification hash (n.row 0)) ↔
    (s.staged = true → waiting = false → hash ∉ p.verifiedHashes →
      p.shortlisted s.minimize s.verifyTopK hash = q.shortlisted s.minimize s.verifyTopK hash) := by
  rw [Bool.eq_iff_iff, any_verifications, any_verifications, ← h.verifiedHashes]
  constructor
  · intro hsame hstaged hwaiting hnew
    rw [Bool.eq_iff_iff]
    simpa [hstaged, hwaiting, hnew] using hsame
  · intro hsame
    refine and_congr_right fun hgo => ⟨fun hp => ⟨?_, hp.2⟩, fun hq => ⟨?_, hq.2⟩⟩
    · rw [← hsame hgo.1 hgo.2 hp.2]
      exact hp.1
    · rw [hsame hgo.1 hgo.2 hq.2]
      exact hq.1

theorem anchored_same (h : SameButWithdrawn p q) (waiting : Bool) (baseline : Option ResolvedBaseline) :
    (p.verifications s waiting baseline).any NewCandidate.isBaseline =
      (q.verifications s waiting baseline).any NewCandidate.isBaseline := by
  rw [any_baseline, any_baseline, h.ranked_isEmpty]
  unfold hasBaseline
  rw [h.candidates]

/-- Who queues the same ends the same. -/
theorem done_same (h : SameButWithdrawn p q) (waiting : Bool) (baseline : Option ResolvedBaseline)
    (hrepeated : ∀ hash, (p.confirmations s).countP (fun n => isRepeat hash (n.row 0)) =
      (q.confirmations s).countP fun n => isRepeat hash (n.row 0))
    (hverified : ∀ hash, ((p.verifications s waiting baseline).any fun n => isVerification hash (n.row 0)) =
      (q.verifications s waiting baseline).any fun n => isVerification hash (n.row 0)) :
    (p.maybeFinish s waiting baseline).status = (q.maybeFinish s waiting baseline).status := by
  have hconfirm : (p.confirmations s).isEmpty = (q.confirmations s).isEmpty := by
    rw [Bool.eq_iff_iff, confirmations_isEmpty, confirmations_isEmpty]
    exact forall_congr' fun hash => by rw [hrepeated hash]
  have hverify : (p.verifications s waiting baseline).isEmpty =
      (q.verifications s waiting baseline).isEmpty := by
    rw [Bool.eq_iff_iff, verifications_isEmpty, verifications_isEmpty, anchored_same h]
    exact and_congr_left fun _ => forall_congr' fun hash => by rw [hverified hash]
  have hpending : p.pending = q.pending := by
    unfold pending
    rw [h.candidates]
  have hplanned : p.notPlannedYet s = q.notPlannedYet s := by
    unfold notPlannedYet
    rw [h.candidates]
  rw [maybeFinish_status, maybeFinish_status, hconfirm, hverify, hpending, hplanned, h.live, h.status]

/-- The worker decides the same in two histories that differ in withdrawn runs exactly if none of them
makes up a target or turns a tie. -/
theorem same_decisions_iff (s : PipelineSettings) (waiting : Bool) (baseline : Option ResolvedBaseline)
    (p q : Pipeline) (h : SameButWithdrawn p q) :
    SameDecisions s waiting baseline p q ↔ WithdrawalsUnseen s waiting p q := by
  constructor
  · intro hsame
    have hrepeated := fun hash => (repeated_iff h hash).mp (hsame.repeated hash)
    exact
      { both := fun hash => (hrepeated hash).1
        left := fun hash => (hrepeated hash).2.1
        right := fun hash => (hrepeated hash).2.2
        verified := fun hstaged hwaiting hash =>
          (verified_iff h waiting baseline hash).mp (hsame.verified hash) hstaged hwaiting }
  · intro hunseen
    have hrepeated := fun hash => (repeated_iff h hash).mpr
      ⟨hunseen.both hash, hunseen.left hash, hunseen.right hash⟩
    have hverified := fun hash => (verified_iff h waiting baseline hash).mpr
      fun hstaged hwaiting => hunseen.verified hstaged hwaiting hash
    exact
      { requeued := h.requeues
        repeated := hrepeated
        verified := hverified
        anchored := anchored_same h waiting baseline
        done := done_same h waiting baseline hrepeated hverified }

/-! ## A config that was withdrawn once -/

/-- A run that measured the config. -/
def measuringRun (id : RunId) : PipelineRun where
  id := id
  candidateId := 1
  status := .succeeded

theorem measuringRun_id (id : RunId) : (measuringRun id).id = id := rfl

/-- A run of it that was given back while it was queued. -/
def givenBackRun : PipelineRun where
  id := 1
  candidateId := 1
  status := .killed
  failureClass := released

/-- One config, measured in run 2. -/
def measuredOnce : Pipeline where
  candidates := Table.single { id := 1, configHash := "6f1c", status := .exhausted }
  runs := Table.single (measuringRun 2)
  results := [{ runId := 2, value := some 1700 }]

/-- The same, with a run that was withdrawn first. -/
def withdrawnOnce : Pipeline :=
  { measuredOnce with runs := (Table.single givenBackRun).insert measuringRun measuringRun_id }

theorem measuredOnce_same : SameButWithdrawn measuredOnce withdrawnOnce where
  status := rfl
  candidates := rfl
  results := rfl
  runs := by decide
  killed := by decide
  killed' := by decide

/-- If one measurement is the target, the withdrawn run makes no difference. -/
theorem measuredOnce_unseen :
    SameDecisions { confirmTopK := 1, confirmRepeats := 1 } false none measuredOnce withdrawnOnce := by
  have hhash : ∀ p : Pipeline, (∀ h ∈ p.screenRuns.map Prod.fst, h = "6f1c") → ∀ h minimize k,
      p.shortlisted minimize k h = true → h = "6f1c" := by
    intro p hall h minimize k hshort
    exact hall h (run_of_mean ((Bool.and_eq_true _ _).mp hshort).1)
  have hleft := hhash measuredOnce (by decide)
  have hright := hhash withdrawnOnce (by decide)
  refine (same_decisions_iff _ false none measuredOnce withdrawnOnce measuredOnce_same).mpr
    { both := ?_, left := ?_, right := ?_, verified := ?_ }
  · intro h hp _
    rw [hleft h _ _ hp]
    decide
  · intro h hp _
    rw [hleft h _ _ hp]
    decide
  · intro h _ hq
    rw [hright h _ _ hq]
    decide
  · intro hstaged
    cases hstaged

/-- If it is to be measured three times, the withdrawn run counts as one of them. -/
theorem withdrawn_run_counted : SameButWithdrawn measuredOnce withdrawnOnce ∧
    ¬ SameDecisions { confirmTopK := 1 } false none measuredOnce withdrawnOnce := by
  refine ⟨measuredOnce_same, fun hsame => ?_⟩
  have hrepeated := hsame.repeated "6f1c"
  rw [countP_confirmations, countP_confirmations] at hrepeated
  exact absurd hrepeated (by decide +kernel)

end Pipeline

end AutoTune
