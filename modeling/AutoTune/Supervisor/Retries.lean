import AutoTune.Lib.Trace
import AutoTune.Supervisor.MachineQueue
import AutoTune.Supervisor.Outcomes

/-!
# Retries are bounded

A candidate comes back to VALID from three places: an infrastructure failure, a pause that withdraws
a queued run, and a stop of its whole campaign. Only the first counts attempts. What bounds the
retries is a charge: a run is charged to its candidate while it is live and, once over, unless it was
released. Placing spends one charge, the three returns leave at least one unspent.
-/

namespace AutoTune

open Lib

/-! ## The worker -/

/-- A turn of a campaign in `_schedule`, which serves active campaigns without a policy. -/
def campaignTurn (held : Reservations) (blocked : List MachineId) (f : TurnFinds) (id : CampaignId)
    (db : Db) : Db :=
  match db.campaigns.get? id with
  | none => db
  | some c =>
      if c.status != .active || c.policyId.isSome then db
      else
        let started := startOne held blocked f.stageAllowed db c
        if started.pending then started.db else maybeFinishCampaign f.finish c.id started.db

/-- A candidate `_plan` or `_add_baseline_candidate` adds to a campaign without a policy; `valid` is
whether its config passed validation. -/
def planCandidate (id : CampaignId) (verify : Bool) (q : QueuedConfig) (valid : Bool) (db : Db) : Db :=
  match db.campaigns.get? id with
  | none => db
  | some c =>
      if c.policyId.isSome then db
      else { db with
        candidates := db.candidates.insert fun k =>
          { id := k, campaignId := id, status := if valid then .valid else .invalid,
            inPlaceBaseline := q.inPlaceBaseline, cards := q.cards, worldSize := q.worldSize,
            verify := verify } }

/-- The steps of the worker that touch runs or candidates, and whatever is written to the other tables
between them. -/
inductive WorkerStep where
  | releaseQueuedWhilePaused (drivers : RunId → TeardownReplies) (clock : RunId → Time)
      (finds : RunId → QueueFinds) (campaigns : RowOrder CampaignId) (order : RowOrder RunId)
  | reconcile (drivers : RunId → TeardownReplies) (clock : RunId → Time) (attached : RunId → Bool)
      (order : RowOrder RunId)
  | processStopRequests (drivers : RunId → TeardownReplies) (now : Time)
      (order : RowOrder StopRequest)
  | enforceWindows (drivers : RunId → TeardownReplies) (clock : RunId → Time) (why : RunId → String)
      (order : RowOrder RunId)
  | advanceLease (drivers : RunId → TeardownReplies) (now : Time)
      (sessions : RowOrder PolicySession) (order : RowOrder RunId) (machine : MachineId)
  | advanceRuns (drivers : RunId → TeardownReplies) (clock : RunId → Time)
      (observed : RunId → Observed) (order : RowOrder RunId)
  | killSessionRuns (drivers : RunId → TeardownReplies) (now : Time) (order : RowOrder RunId)
      (session : SessionId) (reason : String)
  | reapTeardowns (drivers : RunId → ReapReplies) (clock : TeardownClock) (now : Time)
  | campaignTurn (held : Reservations) (blocked : List MachineId) (finds : TurnFinds)
      (campaign : CampaignId)
  | planCandidate (campaign : CampaignId) (verify : Bool) (config : QueuedConfig) (valid : Bool)
  | launchValidationRun (session : SessionId) (config : LaunchConfig)
  | outside (machines : Table Machine.id) (campaigns : Table Campaign.id)
      (sessions : Table PolicySession.id) (stopRequests : List StopRequest)

namespace WorkerStep

/-- How the step ends. -/
def run (db : Db) : WorkerStep → Ran Db IllegalTransition
  | .releaseQueuedWhilePaused drivers clock finds campaigns order =>
      AutoTune.releaseQueuedWhilePaused drivers clock finds campaigns order db
  | .reconcile drivers clock attached order => AutoTune.reconcile drivers clock attached order db
  | .processStopRequests drivers now order => AutoTune.processStopRequests drivers now order db
  | .enforceWindows drivers clock why order => AutoTune.enforceWindows drivers clock why order db
  | .advanceLease drivers now sessions order machine =>
      AutoTune.advanceLease drivers now sessions order machine db
  | .advanceRuns drivers clock observed order => AutoTune.advanceRuns drivers clock observed order db
  | .killSessionRuns drivers now order session reason =>
      AutoTune.killSessionRuns drivers now order session reason db
  | .reapTeardowns drivers clock now => Ran.done (AutoTune.reapTeardowns drivers clock now db)
  | .campaignTurn held blocked finds campaign =>
      Ran.done (AutoTune.campaignTurn held blocked finds campaign db)
  | .planCandidate campaign verify config valid =>
      Ran.done (AutoTune.planCandidate campaign verify config valid db)
  | .launchValidationRun session config =>
      Ran.done ((AutoTune.launchValidationRun session config db).getD db)
  | .outside machines campaigns sessions stopRequests =>
      Ran.done { db with machines, campaigns, sessions, stopRequests }

/-- Is an exception of this step caught with its writes kept? -/
def caught : WorkerStep → Bool
  | .advanceLease .. => true
  | .killSessionRuns .. => true
  | _ => false

/-- The store after the step; what raised and was not caught is not committed. -/
def apply (db : Db) (s : WorkerStep) : Db :=
  match (s.run db).raised with
  | none => (s.run db).state
  | some _ => if s.caught then (s.run db).state else db

/-- What the step's writes keep, the step keeps. -/
theorem apply_preserves {I : Db → Prop} {db : Db} (s : WorkerStep) (hdb : I db)
    (hrun : I (s.run db).state) : I (s.apply db) := by
  unfold apply
  split
  · exact hrun
  · split_ifs
    · exact hrun
    · exact hdb

end WorkerStep

/-! ## Charges -/

/-- Is the run charged to its candidate? -/
def Run.charged (r : Run) : Bool := r.live || r.failureClass != released

def Run.liveOf (k : CandidateId) (r : Run) : Bool := r.candidateId == k && r.live

def Run.chargedTo (k : CandidateId) (r : Run) : Bool := r.candidateId == k && r.charged

/-- The live runs of a candidate. -/
def Db.liveRunsOf (db : Db) (k : CandidateId) : List Run := db.runs.rows.filter (Run.liveOf k)

/-- The runs of a candidate that count as attempts. -/
def Db.attemptsOf (db : Db) (k : CandidateId) : List Run :=
  db.runs.rows.filter fun r => r.candidateId == k && r.failureClass != released

/-- A candidate has one live run at most and three charges at most; while it is VALID it has no live
run and a charge left to spend. -/
structure Db.RetriesBounded (db : Db) : Prop where
  known : ∀ r ∈ db.runs.rows, ∃ k ∈ db.candidates.rows, k.id = r.candidateId
  oneLive : ∀ k, db.runs.rows.countP (Run.liveOf k) ≤ 1
  charged : ∀ k, db.runs.rows.countP (Run.chargedTo k) ≤ maxAttemptsPerCandidate
  valid : ∀ k ∈ db.candidates.rows, k.status = .valid →
    db.runs.rows.countP (Run.liveOf k.id) = 0 ∧
      db.runs.rows.countP (Run.chargedTo k.id) < maxAttemptsPerCandidate

/-- `r'` is `r` later in its life, with no more charged to its candidate. -/
structure Run.Lapses (r r' : Run) : Prop where
  id : r'.id = r.id
  candidateId : r'.candidateId = r.candidateId
  live : r'.live = true → r.live = true
  charged : r'.charged = true → r.charged = true

/-- Runs lapse and no candidate is touched. -/
structure Db.Lapses (db db' : Db) : Prop where
  runs : List.Forall₂ Run.Lapses db.runs.rows db'.runs.rows
  candidates : db'.candidates = db.candidates

theorem Run.Lapses.trans {r r' r'' : Run} (h : Run.Lapses r r') (h' : Run.Lapses r' r'') :
    Run.Lapses r r'' :=
  ⟨h'.id.trans h.id, h'.candidateId.trans h.candidateId, fun hl => h.live (h'.live hl),
    fun hc => h.charged (h'.charged hc)⟩

theorem Run.Lapses.liveOf {r r' : Run} (h : Run.Lapses r r') {k : CandidateId}
    (hl : r'.liveOf k = true) : r.liveOf k = true := by
  simp only [Run.liveOf, Bool.and_eq_true, beq_iff_eq] at hl ⊢
  exact ⟨h.candidateId.symm.trans hl.1, h.live hl.2⟩

theorem Run.Lapses.chargedTo {r r' : Run} (h : Run.Lapses r r') {k : CandidateId}
    (hc : r'.chargedTo k = true) : r.chargedTo k = true := by
  simp only [Run.chargedTo, Bool.and_eq_true, beq_iff_eq] at hc ⊢
  exact ⟨h.candidateId.symm.trans hc.1, h.charged hc.2⟩

/-- Ending a run leaves what it was charged, or ends the charge of its being live. -/
theorem Run.Ends.lapses {r r' : Run} (h : Run.Ends r r') : Run.Lapses r r' where
  id := h.id
  candidateId := h.candidateId
  live := h.live
  charged := by
    intro hc
    cases hl : r.live with
    | true => simp [Run.charged, hl]
    | false =>
        have hl' : r'.live = false := by
          rw [Run.live, (h.ended hl).1]
          exact hl
        simpa [Run.charged, hl, hl', (h.ended hl).2] using hc

namespace Db.Lapses

variable {db db' db'' : Db}

theorem trans (h : Db.Lapses db db') (h' : Db.Lapses db' db'') : Db.Lapses db db'' where
  runs := forall₂_trans (R := Run.Lapses) (fun _ _ _ a b => Run.Lapses.trans a b) h.runs h'.runs
  candidates := h'.candidates.trans h.candidates

theorem of_ends (h : Db.Ends db db') : Db.Lapses db db' where
  runs := h.runs.imp fun _ _ => Run.Ends.lapses
  candidates := h.candidates

/-- Calling a run released. -/
theorem release {id : RunId} {f : Run → Run} {hf : ∀ r, (f r).id = r.id}
    (hcandidate : ∀ r, (f r).candidateId = r.candidateId) (hstatus : ∀ r, (f r).status = r.status)
    (hclass : ∀ r, (f r).failureClass = released) : Db.Lapses db (db.setRun id f hf) where
  runs := by
    rw [Db.setRun, Table.rows_modify, List.forall₂_map_right_iff]
    apply List.forall₂_same.mpr
    intro r _
    by_cases hid : r.id = id
    · refine ⟨by simp [hid, hf], by simp [hid, hcandidate], ?_, ?_⟩
      · simp [hid, Run.live, hstatus]
      · simp only [hid, if_true, Run.charged, Run.live, hstatus, hclass]
        intro hc
        simp_all
    · simpa [hid] using Run.Lapses.mk rfl rfl (fun hl => hl) fun hc => hc
  candidates := rfl

theorem exists_run (h : Db.Lapses db db') {r' : Run} (hr' : r' ∈ db'.runs.rows) :
    ∃ r ∈ db.runs.rows, Run.Lapses r r' :=
  exists_mem_of_forall₂ h.runs hr'

/-- What no run newly satisfies, and one run no longer, is counted less often. -/
theorem countP_lt (h : Db.Lapses db db') {p : Run → Bool}
    (hp : ∀ r r', Run.Lapses r r' → p r' = true → p r = true) {r : Run} (hr : r ∈ db.runs.rows)
    (hpr : p r = true) (hgone : ∀ r' ∈ db'.runs.rows, r'.id = r.id → p r' = false) :
    db'.runs.rows.countP p < db.runs.rows.countP p := by
  -- count the other runs on both sides
  have hothers : db'.runs.rows.countP p ≤ db'.runs.rows.countP fun q => p q && q.id != r.id := by
    refine List.countP_mono_left ?_
    intro r' hr' hpr'
    have hne : r'.id ≠ r.id := fun hid => by simp [hgone r' hr' hid] at hpr'
    simp [hpr', hne]
  have hless : db'.runs.rows.countP (fun q => p q && q.id != r.id) ≤
      db.runs.rows.countP fun q => p q && q.id != r.id := by
    refine countP_le_of_forall₂ ?_ h.runs
    intro q q' hqq hq'
    simp only [Bool.and_eq_true, bne_iff_ne, ne_eq] at hq' ⊢
    exact ⟨hp q q' hqq hq'.1, by rw [← hqq.id]; exact hq'.2⟩
  have hstrict : db.runs.rows.countP (fun q => p q && q.id != r.id) < db.runs.rows.countP p := by
    refine countP_lt_countP ?_ hr hpr (by simp)
    intro q _ hq
    simp only [Bool.and_eq_true] at hq
    exact hq.1
  omega

end Db.Lapses

/-! ## One write at a time -/

namespace Db.RetriesBounded

variable {db db' : Db}

theorem of_rows (h : db.RetriesBounded) (hruns : db'.runs = db.runs)
    (hcandidates : db'.candidates = db.candidates) : db'.RetriesBounded where
  known := by
    rw [hruns, hcandidates]
    exact h.known
  oneLive := by
    rw [hruns]
    exact h.oneLive
  charged := by
    rw [hruns]
    exact h.charged
  valid := by
    rw [hruns, hcandidates]
    exact h.valid

theorem of_lapses (h : db.RetriesBounded) (hl : Db.Lapses db db') : db'.RetriesBounded := by
  have hlive : ∀ k, db'.runs.rows.countP (Run.liveOf k) ≤ db.runs.rows.countP (Run.liveOf k) :=
    fun k => countP_le_of_forall₂ (fun _ _ hr => hr.liveOf) hl.runs
  have hcharged : ∀ k,
      db'.runs.rows.countP (Run.chargedTo k) ≤ db.runs.rows.countP (Run.chargedTo k) :=
    fun k => countP_le_of_forall₂ (fun _ _ hr => hr.chargedTo) hl.runs
  refine ⟨?_, fun k => (hlive k).trans (h.oneLive k), fun k => (hcharged k).trans (h.charged k), ?_⟩
  · intro r' hr'
    rcases hl.exists_run hr' with ⟨r, hr, hrr⟩
    rw [hl.candidates, hrr.candidateId]
    exact h.known r hr
  · intro k hk hvalid
    rw [hl.candidates] at hk
    rcases h.valid k hk hvalid with ⟨hnone, hspare⟩
    exact ⟨Nat.le_zero.mp (hnone ▸ hlive k.id), (hcharged k.id).trans_lt hspare⟩

theorem of_ends (h : db.RetriesBounded) (he : Db.Ends db db') : db'.RetriesBounded :=
  h.of_lapses (Db.Lapses.of_ends he)

/-- A candidate may be written as long as it is not made VALID. -/
theorem setCandidate (h : db.RetriesBounded) {k : CandidateId} {f : Candidate → Candidate}
    {hf : ∀ c, (f c).id = c.id} (hstatus : ∀ c, (f c).status ≠ .valid) :
    (db.setCandidate k f hf).RetriesBounded where
  known := by
    intro r hr
    rcases h.known r hr with ⟨c, hc, hid⟩
    rcases Table.exists_mem_modify k f hf hc with ⟨c', hc', hid'⟩
    exact ⟨c', hc', hid'.trans hid⟩
  oneLive := h.oneLive
  charged := h.charged
  valid := by
    intro c' hc' hvalid
    rcases Db.mem_setCandidate.mp hc' with ⟨c, hc, rfl⟩
    split_ifs at hvalid ⊢
    · exact absurd hvalid (hstatus c)
    · exact h.valid c hc hvalid

/-- And made VALID when it has no live run and a charge left. -/
theorem requeue (h : db.RetriesBounded) {k : CandidateId}
    (hnone : db.runs.rows.countP (Run.liveOf k) = 0)
    (hspare : db.runs.rows.countP (Run.chargedTo k) < maxAttemptsPerCandidate) :
    (db.requeue k).RetriesBounded where
  known := by
    intro r hr
    rcases h.known r hr with ⟨c, hc, hid⟩
    rcases Table.exists_mem_modify k (fun c => { c with status := CandidateStatus.valid })
      (fun _ => rfl) hc with ⟨c', hc', hid'⟩
    exact ⟨c', hc', hid'.trans hid⟩
  oneLive := h.oneLive
  charged := h.charged
  valid := by
    intro c' hc' hvalid
    rcases Db.mem_setCandidate.mp hc' with ⟨c, hc, rfl⟩
    split_ifs at hvalid ⊢ with hid
    · show db.runs.rows.countP (Run.liveOf c.id) = 0 ∧
        db.runs.rows.countP (Run.chargedTo c.id) < maxAttemptsPerCandidate
      rw [hid]
      exact ⟨hnone, hspare⟩
    · exact h.valid c hc hvalid

/-- A run that was live gives its candidate back, once nothing of it is charged any more. -/
theorem giveBack (h : db.RetriesBounded) (hl : Db.Lapses db db') {r : Run} (hr : r ∈ db.runs.rows)
    (hlive : r.live = true)
    (hgone : ∀ r' ∈ db'.runs.rows, r'.id = r.id → r'.charged = false) :
    (db'.requeue r.candidateId).RetriesBounded := by
  refine (h.of_lapses hl).requeue ?_ ?_
  · have hlt : db'.runs.rows.countP (Run.liveOf r.candidateId) <
        db.runs.rows.countP (Run.liveOf r.candidateId) := by
      refine hl.countP_lt (fun _ _ hrr => hrr.liveOf) hr (by simp [Run.liveOf, hlive]) ?_
      intro r' hr' hid
      have hover := hgone r' hr' hid
      simp only [Run.charged, Bool.or_eq_false_iff] at hover
      simp [Run.liveOf, hover.1]
    have hone := h.oneLive r.candidateId
    omega
  · have hlt : db'.runs.rows.countP (Run.chargedTo r.candidateId) <
        db.runs.rows.countP (Run.chargedTo r.candidateId) := by
      refine hl.countP_lt (fun _ _ hrr => hrr.chargedTo) hr
        (by simp [Run.chargedTo, Run.charged, hlive]) ?_
      intro r' hr' hid
      simp [Run.chargedTo, hgone r' hr' hid]
    exact hlt.trans_le (h.charged r.candidateId)

/-- No run names a candidate that does not exist yet. -/
theorem countP_nextKey (h : db.RetriesBounded) (p : Run → Bool) :
    db.runs.rows.countP (fun r => r.candidateId == db.candidates.nextKey && p r) = 0 := by
  rw [List.countP_eq_zero]
  intro r hr
  rcases h.known r hr with ⟨c, hc, hid⟩
  have hlt := Table.key_lt_nextKey hc
  rw [hid] at hlt
  simp [Nat.ne_of_lt hlt]

theorem insertCandidate (h : db.RetriesBounded) {mk : Nat → Candidate} (hmk : ∀ n, (mk n).id = n) :
    ({ db with candidates := db.candidates.insert mk hmk } : Db).RetriesBounded where
  known := by
    intro r hr
    rcases h.known r hr with ⟨c, hc, hid⟩
    exact ⟨c, List.mem_append_left _ hc, hid⟩
  oneLive := h.oneLive
  charged := h.charged
  valid := by
    intro c hc hvalid
    rcases (@Table.mem_insert _ _ _ _ hmk _).mp hc with hc | rfl
    · exact h.valid c hc hvalid
    · rw [hmk]
      exact ⟨h.countP_nextKey Run.live, (h.countP_nextKey Run.charged).trans_lt (by decide)⟩

/-- A run is added to a candidate that is not VALID, has no live run, and a charge left. -/
theorem insertRun (h : db.RetriesBounded) {mk : Nat → Run} {hmk : ∀ n, (mk n).id = n}
    {k : Candidate} (hk : k ∈ db.candidates.rows) (hcandidate : ∀ n, (mk n).candidateId = k.id)
    (hstatus : k.status ≠ .valid) (hnone : db.runs.rows.countP (Run.liveOf k.id) = 0)
    (hspare : db.runs.rows.countP (Run.chargedTo k.id) < maxAttemptsPerCandidate) :
    ({ db with runs := db.runs.insert mk hmk } : Db).RetriesBounded := by
  -- the new row counts once at most, and for its own candidate only
  have hadd : ∀ p : Run → Bool, (db.runs.insert mk hmk).rows.countP p ≤ db.runs.rows.countP p + 1 := by
    intro p
    rw [Table.rows_insert, List.countP_append]
    have hone := List.countP_le_length (p := p) (l := [mk db.runs.nextKey])
    simp only [List.length_singleton] at hone
    omega
  have hother : ∀ (j : CandidateId) (p : Run → Bool), j ≠ k.id →
      (db.runs.insert mk hmk).rows.countP (fun r => r.candidateId == j && p r) =
        db.runs.rows.countP fun r => r.candidateId == j && p r := by
    intro j p hne
    rw [Table.rows_insert, List.countP_append]
    simp [hcandidate, hne.symm]
  refine ⟨?_, ?_, ?_, ?_⟩
  · intro r hr
    rcases (@Table.mem_insert _ _ _ _ hmk _).mp hr with hr | rfl
    · exact h.known r hr
    · exact ⟨k, hk, (hcandidate _).symm⟩
  · intro j
    by_cases hj : j = k.id
    · have hle := hadd (Run.liveOf k.id)
      rw [hnone] at hle
      rw [hj]
      exact hle
    · exact (hother j Run.live hj).trans_le (h.oneLive j)
  · intro j
    by_cases hj : j = k.id
    · have hle := hadd (Run.chargedTo k.id)
      rw [hj]
      exact hle.trans hspare
    · exact (hother j Run.charged hj).trans_le (h.charged j)
  · intro c hc hvalid
    have hne : c.id ≠ k.id := by
      intro hid
      rw [Table.eq_of_key_eq hc hk hid] at hvalid
      exact hstatus hvalid
    rcases h.valid c hc hvalid with ⟨hlive, hcharged⟩
    exact ⟨(hother c.id Run.live hne).trans hlive, (hother c.id Run.charged hne).trans_lt hcharged⟩

/-- A run may come with a new candidate of its own, as long as that is not VALID. -/
theorem addedWithRun (h : db.RetriesBounded) {mkRun : Nat → Run} {mkCandidate : Nat → Candidate}
    {hrun : ∀ n, (mkRun n).id = n} {hmk : ∀ n, (mkCandidate n).id = n}
    (hcandidate : ∀ n, (mkRun n).candidateId = db.candidates.nextKey)
    (hstatus : ∀ n, (mkCandidate n).status ≠ .valid) :
    ({ db with
        candidates := db.candidates.insert mkCandidate hmk
        runs := db.runs.insert mkRun hrun } : Db).RetriesBounded := by
  have hmem : mkCandidate db.candidates.nextKey ∈ (db.candidates.insert mkCandidate hmk).rows :=
    List.mem_append_right _ (List.mem_singleton_self _)
  refine (h.insertCandidate hmk).insertRun hmem (fun n => (hcandidate n).trans (hmk _).symm)
    (hstatus _) ?_ ?_
  · rw [hmk]
    exact h.countP_nextKey Run.live
  · rw [hmk]
    exact (h.countP_nextKey Run.charged).trans_lt (by decide)

end Db.RetriesBounded

/-! ## The procedures -/

section Procedures

variable (drivers : RunId → TeardownReplies)

/-- `_fail` of a live run: it is its candidate's only one, and the attempts are counted when it is
over. -/
theorem fail_bounded {now : Time} {db : Db} {id : RunId} {r : Run} (failureClass error : String)
    (hget : db.runs.get? id = some r) (hlive : r.live = true) (h : db.RetriesBounded) :
    (fail drivers now db id failureClass error).state.RetriesBounded := by
  have hget' := get?_setFailureClass failureClass hget
  have hends := failing_ends drivers now failureClass error hget hlive
  have hlegal := finish_legal drivers now error hget' (canTransition_of_live hlive).1 rfl
  rw [fail, Ran.andThen_of_returned hlegal.1, Ran.done_state]
  set db' := (finish drivers now (db.setFailureClass id failureClass) id .failed error).state
    with hdb'
  have hdead : db'.isLive id = false := by simp [hlegal.2 id]
  have h' : db'.RetriesBounded := h.of_ends hends
  unfold requeueIfInfrastructure
  cases hr' : db'.runs.get? id with
  | none => exact h'
  | some r' =>
      dsimp only
      split_ifs with hkind hinfra hcount
      · exact h'
      · exact h'
      · exact h'
      · rcases Table.get?_eq_some_iff.mp hget with ⟨hr, hid⟩
        have hcandidate : r'.candidateId = r.candidateId := by
          rcases hends.exists_run (Table.get?_eq_some_iff.mp hr').1 with ⟨q, hq, hqr⟩
          have hqid : q.id = r.id :=
            hqr.id.symm.trans ((Table.get?_eq_some_iff.mp hr').2.trans hid.symm)
          rw [hqr.candidateId, Table.eq_of_key_eq hq hr hqid]
        rw [hcandidate] at hcount ⊢
        have hnone : db'.runs.rows.countP (Run.liveOf r.candidateId) = 0 := by
          have hlt : db'.runs.rows.countP (Run.liveOf r.candidateId) <
              db.runs.rows.countP (Run.liveOf r.candidateId) := by
            refine (Db.Lapses.of_ends hends).countP_lt (fun _ _ hrr => hrr.liveOf) hr
              (by simp [Run.liveOf, hlive]) ?_
            intro q hq hqid
            have hqlive : q.live = false := by
              rw [← hdead, isLive_of_get? (Table.get?_eq_some_iff.mpr ⟨hq, hqid.trans hid⟩)]
            simp [Run.liveOf, hqlive]
          have hone := h.oneLive r.candidateId
          omega
        refine h'.requeue hnone ?_
        -- with no live run, what is charged are the attempts just counted
        have hattempts : db'.runs.rows.countP (Run.chargedTo r.candidateId) ≤
            db'.runs.rows.countP fun o => o.candidateId == r.candidateId && o.failureClass != released := by
          refine List.countP_mono_left ?_
          intro q hq hcharged
          have hnot := List.countP_eq_zero.mp hnone q hq
          simp only [Run.chargedTo, Run.charged, Run.liveOf, Bool.and_eq_true] at hcharged hnot ⊢
          refine ⟨hcharged.1, ?_⟩
          rcases Bool.or_eq_true_iff.mp hcharged.2 with hl | hclass
          · exact absurd ⟨hcharged.1, hl⟩ hnot
          · exact hclass
        rw [← List.countP_eq_length_filter] at hcount
        omega

theorem advanceOne_bounded {now : Time} {o : Observed} {db : Db} {id : RunId}
    (hfin : Finishable db id) (h : db.RetriesBounded) :
    (advanceOne drivers now o db id).state.RetriesBounded := by
  cases hget : db.runs.get? id with
  | none =>
      simp only [advanceOne, hget]
      exact h
  | some r =>
      rcases Table.get?_eq_some_iff.mp hget with ⟨hr, rfl⟩
      have hadvances := advanceOne_advances drivers now hget (o := o)
      generalize advanceOne drivers now o db r.id = x at hadvances ⊢
      cases hadvances with
      | stay => exact h
      | move target _ _ => exact h.of_ends (transition_ends db r.id target)
      | succeed _ => exact h.of_ends (finish_ends drivers now db r.id _ _)
      | fail failureClass error _ hlive =>
          have hlive' : r.live = true := by
            rcases hlive with hlive | hours
            · exact hlive
            · exact (hfin r hr rfl).resolve_right (by simp [hours])
          exact fail_bounded drivers failureClass error hget hlive' h

/-- A withdrawn run is killed under the name of released, so nothing of it stays charged. -/
theorem releaseToQueue_bounded {clock : RunId → Time} {db : Db} {r : Run} (hr : r ∈ db.runs.rows)
    (hlive : r.live = true) (h : db.RetriesBounded) :
    (releaseToQueue drivers clock db r).state.RetriesBounded := by
  have hget : db.runs.get? r.id = some r := Table.get?_key hr
  have hget' := get?_setFailureClass released hget
  have hcan := (canTransition_of_live hlive).2
  have hlegal := finish_legal drivers (clock r.id) withdrawnError hget' hcan rfl
  have hends := finish_ends drivers (clock r.id) (db.setFailureClass r.id released) r.id .killed
    withdrawnError
  have hlapse : Db.Lapses db (db.setFailureClass r.id released) :=
    Db.Lapses.release (fun _ => rfl) (fun _ => rfl) fun _ => rfl
  rw [releaseToQueue, Ran.andThen_of_returned hlegal.1, Ran.done_state]
  refine h.giveBack (hlapse.trans (Db.Lapses.of_ends hends)) hr hlive ?_
  intro r' hr' hid
  rcases finish_outcome drivers (clock r.id) withdrawnError hget' hcan rfl hr' hid with
    ⟨hstatus, hclass⟩
  simp [Run.charged, Run.live, hstatus, hclass, RunStatus.terminal]

/-- What is withdrawn is ours, and a run of ours that may be finished is live. -/
theorem live_of_withdraws {f : QueueFinds} {db : Db} {r : Run} (hr : r ∈ db.runs.rows)
    (hfin : Finishable db r.id) (hw : f.withdraws r = true) : r.live = true := by
  simp only [QueueFinds.withdraws, Bool.and_eq_true, Bool.not_eq_true'] at hw
  exact (hfin r hr rfl).resolve_right (by simp [hw.1])

theorem releaseQueued_moves {clock : RunId → Time} {finds : RunId → QueueFinds} {id : RunId} {db : Db}
    (hfin : Finishable db id) : Moves db id (releaseQueued drivers clock finds id db) := by
  unfold releaseQueued
  cases hget : db.runs.get? id with
  | none => exact Moves.stay db id
  | some r =>
      rcases Table.get?_eq_some_iff.mp hget with ⟨hr, rfl⟩
      dsimp only
      split_ifs with hw
      · refine Moves.andThen_done ?_ (fun _ => rfl) fun _ => Db.Settles.setCandidate
        exact Moves.of_setFailureClass (Moves.finish drivers _ _ (get?_setFailureClass released hget)
          (canTransition_of_live (live_of_withdraws hr hfin hw)).2 rfl)
      · exact Moves.stay db r.id

theorem releaseQueued_bounded {clock : RunId → Time} {finds : RunId → QueueFinds} {id : RunId}
    {db : Db} (hfin : Finishable db id) (h : db.RetriesBounded) :
    (releaseQueued drivers clock finds id db).state.RetriesBounded := by
  unfold releaseQueued
  cases hget : db.runs.get? id with
  | none => exact h
  | some r =>
      rcases Table.get?_eq_some_iff.mp hget with ⟨hr, rfl⟩
      dsimp only
      split_ifs with hw
      · exact releaseToQueue_bounded drivers hr (live_of_withdraws hr hfin hw) h
      · exact h

theorem releaseQueuedWhilePaused_bounded (clock : RunId → Time) (finds : RunId → QueueFinds)
    (campaigns : RowOrder CampaignId) (order : RowOrder RunId) {db : Db} (h : db.RetriesBounded) :
    (releaseQueuedWhilePaused drivers clock finds campaigns order db).state.RetriesBounded := by
  refine Ran.forEach_preserves (I := Db.RetriesBounded) ?_ h
  intro c _ db hdb
  refine forEach_moves_preserves (fun _ _ => releaseQueued_moves drivers)
    (fun _ _ _ => releaseQueued_bounded drivers) (nodup_arranged List.filter_sublist order) ?_ hdb
  refine finishable_of_live List.filter_sublist ?_ order
  intro r hr
  have hcond := (List.mem_filter.mp hr).2
  simp only [Bool.and_eq_true] at hcond
  exact hcond.2

/-- `reconcile` fails a run of ours that may be finished, which is live, or does nothing. -/
theorem reconcileRun_cases {clock : RunId → Time} {attached : RunId → Bool} {id : RunId} {db : Db}
    (hfin : Finishable db id) :
    reconcileRun drivers clock attached id db = Ran.done db ∨
      ∃ r, db.runs.get? id = some r ∧ r.live = true ∧
        reconcileRun drivers clock attached id db =
          fail drivers (clock id) db id "orphaned" "container gone after worker restart" := by
  unfold reconcileRun
  cases hget : db.runs.get? id with
  | none => exact Or.inl rfl
  | some r =>
      rcases Table.get?_eq_some_iff.mp hget with ⟨hr, hid⟩
      dsimp only
      split_ifs with hskip
      · exact Or.inl rfl
      · simp only [Bool.or_eq_true, not_or] at hskip
        have hours : r.kind.notOurs = false := Bool.eq_false_iff.mpr hskip.2
        exact Or.inr ⟨r, rfl, (hfin r hr hid).resolve_right (by simp [hours]), rfl⟩
      · exact Or.inl rfl

theorem reconcileRun_moves {clock : RunId → Time} {attached : RunId → Bool} {id : RunId} {db : Db}
    (hfin : Finishable db id) : Moves db id (reconcileRun drivers clock attached id db) := by
  rcases reconcileRun_cases drivers hfin with hstay | ⟨r, hget, hlive, hfail⟩
  · rw [hstay]
    exact Moves.stay db id
  · rw [hfail]
    exact Moves.fail drivers hget hlive

theorem reconcile_bounded (clock : RunId → Time) (attached : RunId → Bool) (order : RowOrder RunId)
    {db : Db} (h : db.RetriesBounded) :
    (reconcile drivers clock attached order db).state.RetriesBounded := by
  refine forEach_moves_preserves (fun _ _ => reconcileRun_moves drivers) ?_
    (nodup_arranged List.filter_sublist order)
    (finishable_of_live List.filter_sublist (fun r hr => (Db.mem_liveRuns.mp hr).2) order) h
  intro id _ db hfin hdb
  rcases reconcileRun_cases drivers hfin with hstay | ⟨r, hget, hlive, hfail⟩
  · rw [hstay]
    exact hdb
  · rw [hfail]
    exact fail_bounded drivers _ _ hget hlive hdb

theorem advanceRuns_bounded (clock : RunId → Time) (observed : RunId → Observed)
    (order : RowOrder RunId) {db : Db} (h : db.RetriesBounded) :
    (advanceRuns drivers clock observed order db).state.RetriesBounded :=
  forEach_moves_preserves (fun _ _ => advanceOne_moves drivers)
    (fun _ _ _ => advanceOne_bounded drivers) (nodup_arranged List.filter_sublist order)
    (finishable_of_live List.filter_sublist (fun _ hr => (Db.mem_liveRuns.mp hr).2) order) h

/-- A stop looks at the run again, so what it ends is live; a stop of the campaign then releases it. -/
theorem processStop_bounded (now : Time) (e : StopRequest) {db : Db} (h : db.RetriesBounded) :
    (processStop drivers now e db).state.RetriesBounded := by
  unfold processStop
  cases hget : db.runs.get? e.runId with
  | none => exact h
  | some r =>
      rcases Table.get?_eq_some_iff.mp hget with ⟨hr, hid⟩
      dsimp only
      by_cases hterm : r.status.terminal = true
      · rw [if_pos hterm]
        exact h
      · rw [if_neg hterm]
        have hlive : r.live = true := by simpa [Run.live] using hterm
        have hcan := (canTransition_of_live hlive).2
        have hends := finish_ends drivers now db e.runId .killed userStopError
        rw [Ran.andThen_of_returned (finish_legal drivers now _ hget hcan rfl).1]
        split_ifs
        · rw [Ran.done_state]
          unfold Db.giveBack
          refine h.giveBack ((Db.Lapses.of_ends hends).trans
            (Db.Lapses.release (f := fun r => { r with
              failureClass := released
              error := "stopped with the campaign; measured again when it starts" })
              (fun _ => rfl) (fun _ => rfl) fun _ => rfl)) hr hlive ?_
          intro r' hr' hid'
          rcases Db.mem_setRun.mp hr' with ⟨q, hq, rfl⟩
          split_ifs at hid' ⊢ with hqid
          · have hstatus :=
              (finish_outcome drivers now userStopError hget hcan rfl hq (hqid.trans hid)).1
            simp [Run.charged, Run.live, hstatus, RunStatus.terminal]
          · exact absurd hid' hqid
        · exact h.of_ends hends

/-- Killing runs gives nothing back. -/
theorem killRuns_bounded (now : Time) (reason : String) (l : List RunId) {db : Db}
    (h : db.RetriesBounded) :
    (Ran.forEach (fun id db => finish drivers now db id .killed reason) l db).state.RetriesBounded :=
  Ran.forEach_preserves (I := Db.RetriesBounded)
    (fun id _ _ hdb => hdb.of_ends (finish_ends drivers now _ id _ _)) h

theorem advanceLease_bounded (now : Time) (sessions : RowOrder PolicySession)
    (order : RowOrder RunId) (machine : MachineId) {db : Db} (h : db.RetriesBounded) :
    (advanceLease drivers now sessions order machine db).state.RetriesBounded := by
  have hexpire : (expireLease now machine db).RetriesBounded := by
    unfold expireLease
    split
    · exact h
    · split_ifs
      · exact h.of_rows rfl rfl
      · exact h
  unfold advanceLease
  dsimp only
  split
  · exact hexpire
  · split_ifs
    · exact hexpire
    · unfold advanceDrain
      split
      · unfold drainSession
        split_ifs <;> exact hexpire.of_rows rfl rfl
      · dsimp only
        split_ifs
        · exact hexpire
        · exact killRuns_bounded drivers _ _ _ hexpire
        · exact hexpire.of_rows rfl rfl

end Procedures

/-! ## Placing -/

/-- Placing a VALID candidate spends one of its charges. -/
theorem createRun_bounded {db : Db} (h : db.RetriesBounded) (c : Campaign) {k : Candidate}
    (hk : k ∈ db.candidates.rows) (hnone : db.runs.rows.countP (Run.liveOf k.id) = 0)
    (hspare : db.runs.rows.countP (Run.chargedTo k.id) < maxAttemptsPerCandidate)
    (plan : List (MachineId × List Nat)) (servicePort distPort : Nat) :
    (createRun db c k.id plan servicePort distPort).RetriesBounded := by
  unfold createRun
  cases plan with
  | nil => exact h
  | cons master workers =>
      have hruns := reserveMachines_runs db (master :: workers)
      have hreserved : (reserveMachines db (master :: workers)).RetriesBounded :=
        h.of_rows hruns (reserveMachines_candidates db _)
      have hretired : ((reserveMachines db (master :: workers)).setCandidate k.id fun c =>
          { c with status := .exhausted }).RetriesBounded :=
        hreserved.setCandidate fun _ => by simp
      refine hretired.insertRun (k := { k with status := .exhausted }) ?_ (fun _ => rfl) (by simp) ?_ ?_
      · refine Db.mem_setCandidate.mpr ⟨k, ?_, by simp⟩
        rw [reserveMachines_candidates]
        exact hk
      · exact hruns ▸ hnone
      · exact hruns ▸ hspare

theorem retireInPlace_bounded {db : Db} (h : db.RetriesBounded) (pending : List Candidate) :
    (retireInPlace db pending).RetriesBounded := by
  unfold retireInPlace
  induction pending.filter Candidate.inPlaceBaseline generalizing db with
  | nil => exact h
  | cons k l ih => exact ih (h.setCandidate fun _ => by simp)

theorem startOne_bounded {db : Db} (h : db.RetriesBounded) (held : Reservations)
    (blocked : List MachineId) (stageAllowed : Bool → Bool) (c : Campaign) :
    (startOne held blocked stageAllowed db c).db.RetriesBounded := by
  have hretired := retireInPlace_bounded h (db.validCandidates c)
  have hvalid : ∀ q ∈ db.validCandidates c, q ∈ db.candidates.rows := fun q hq => (List.mem_filter.mp hq).1
  rcases startOne_spec held blocked stageAllowed db c with ⟨-, hdb⟩ |
    ⟨-, plan, port, dist, k, hk, hbase, -, -, hdb⟩
  · rw [hdb]
    exact hretired
  · rw [hdb]
    rcases List.mem_filter.mp hk with ⟨hmem, hcond⟩
    simp only [Bool.and_eq_true, beq_iff_eq] at hcond
    rcases h.valid k hmem hcond.2 with ⟨hnone, hspare⟩
    rcases retireInPlace_frame db (db.validCandidates c) with ⟨t, ht⟩
    have hruns : (retireInPlace db (db.validCandidates c)).runs = db.runs := by rw [ht]
    exact createRun_bounded hretired c (mem_retireInPlace hvalid hmem hbase) (hruns ▸ hnone)
      (hruns ▸ hspare) plan port dist

theorem queueConfigs_bounded {db : Db} (h : db.RetriesBounded) (c : CampaignId) (verify : Bool)
    (configs : List QueuedConfig) : (db.queueConfigs c verify configs).RetriesBounded := by
  unfold Db.queueConfigs
  induction configs generalizing db with
  | nil => exact h
  | cons q l ih => exact ih (h.insertCandidate fun _ => rfl)

theorem campaignTurn_bounded {db : Db} (h : db.RetriesBounded) (held : Reservations)
    (blocked : List MachineId) (f : TurnFinds) (id : CampaignId) :
    (campaignTurn held blocked f id db).RetriesBounded := by
  unfold campaignTurn
  split
  · exact h
  · rename_i c _
    dsimp only
    have hstarted := startOne_bounded h held blocked f.stageAllowed c
    split_ifs
    · exact h
    · exact hstarted
    · unfold maybeFinishCampaign
      dsimp only
      split_ifs
      all_goals first
        | exact hstarted
        | exact queueConfigs_bounded hstarted _ _ _
        | exact hstarted.of_rows rfl rfl

theorem planCandidate_bounded {db : Db} (h : db.RetriesBounded) (id : CampaignId) (verify : Bool)
    (q : QueuedConfig) (valid : Bool) : (planCandidate id verify q valid db).RetriesBounded := by
  unfold planCandidate
  split
  · exact h
  · split_ifs
    · exact h
    · exact h.insertCandidate fun _ => rfl
    · exact h.insertCandidate fun _ => rfl

/-- A validation run has a candidate of its own, added with it. -/
theorem launchValidationRun_bounded {db : Db} (h : db.RetriesBounded) (session : SessionId)
    (config : LaunchConfig) : ((launchValidationRun session config db).getD db).RetriesBounded := by
  unfold launchValidationRun
  split
  · exact h
  · split
    · exact h
    · rename_i s _ _ c _
      cases validationCards s config.cards (db.blockersOf s) with
      | none => exact h
      | some cards =>
          dsimp only [Option.map_some, Option.getD_some]
          unfold addValidationRun
          dsimp only
          exact h.addedWithRun (fun _ => rfl) fun _ => by simp

/-! ## Runs of the worker -/

theorem WorkerStep.run_bounded (s : WorkerStep) {db : Db} (h : db.RetriesBounded) :
    (s.run db).state.RetriesBounded := by
  cases s with
  | releaseQueuedWhilePaused drivers clock finds campaigns order =>
      exact releaseQueuedWhilePaused_bounded drivers clock finds campaigns order h
  | reconcile drivers clock attached order => exact reconcile_bounded drivers clock attached order h
  | processStopRequests drivers now order =>
      exact Ran.forEach_preserves (I := Db.RetriesBounded)
        (fun e _ _ hdb => processStop_bounded drivers now e hdb) h
  | enforceWindows drivers clock why order =>
      refine Ran.forEach_preserves (I := Db.RetriesBounded) ?_ h
      intro id _ db hdb
      split_ifs
      · exact hdb.of_ends (finish_ends drivers _ db id _ _)
      · exact hdb
  | advanceLease drivers now sessions order machine =>
      exact advanceLease_bounded drivers now sessions order machine h
  | advanceRuns drivers clock observed order => exact advanceRuns_bounded drivers clock observed order h
  | killSessionRuns drivers now order session reason => exact killRuns_bounded drivers now reason _ h
  | reapTeardowns drivers clock now => exact h.of_ends (reapTeardowns_ends drivers clock now db)
  | campaignTurn held blocked finds campaign => exact campaignTurn_bounded h held blocked finds campaign
  | planCandidate campaign verify config valid =>
      exact planCandidate_bounded h campaign verify config valid
  | launchValidationRun session config => exact launchValidationRun_bounded h session config
  | outside machines campaigns sessions stopRequests => exact h.of_rows rfl rfl

/-- A store without runs has nothing charged. -/
theorem Db.RetriesBounded.of_no_runs {db : Db} (h : db.runs.rows = []) : db.RetriesBounded where
  known := by simp [h]
  oneLive := by simp [h]
  charged := by simp [h]
  valid := by simp [h, maxAttemptsPerCandidate]

/-- In every run of the worker, from a store without runs or any that is bounded already, a candidate
has at most one live run, none while it is VALID, and never more than `MAX_ATTEMPTS_PER_CANDIDATE`
runs that were not released. -/
theorem retries_bounded :
    (∀ db : Db, db.runs.rows = [] → db.RetriesBounded) ∧
      ∀ (db : Db) (steps : List WorkerStep), db.RetriesBounded →
        ∀ k ∈ (runFrom WorkerStep.apply db steps).candidates.rows,
          ((runFrom WorkerStep.apply db steps).liveRunsOf k.id).length ≤ 1 ∧
            (k.status = .valid → (runFrom WorkerStep.apply db steps).liveRunsOf k.id = []) ∧
            ((runFrom WorkerStep.apply db steps).attemptsOf k.id).length ≤
              maxAttemptsPerCandidate := by
  refine ⟨fun db => Db.RetriesBounded.of_no_runs, ?_⟩
  intro db steps hdb k hk
  have h : (runFrom WorkerStep.apply db steps).RetriesBounded :=
    invariant_of_step (fun _ s hs => s.apply_preserves hs (s.run_bounded hs)) hdb steps
  refine ⟨?_, ?_, ?_⟩
  · rw [Db.liveRunsOf, ← List.countP_eq_length_filter]
    exact h.oneLive k.id
  · intro hvalid
    rw [Db.liveRunsOf, ← List.length_eq_zero_iff, ← List.countP_eq_length_filter]
    exact (h.valid k hk hvalid).1
  · rw [Db.attemptsOf, ← List.countP_eq_length_filter]
    refine le_trans (List.countP_mono_left ?_) (h.charged k.id)
    intro r _ hr
    simp only [Run.chargedTo, Run.charged, Bool.and_eq_true, Bool.or_eq_true] at hr ⊢
    exact ⟨hr.1, Or.inr hr.2⟩

/-- One campaign on one leased machine, with one candidate waiting. -/
def oneQueued : Db where
  machines := .single { id := 1, name := "node-1", state := .available, leaseState := .active }
  campaigns := .single { id := 1, status := .active }
  candidates := .single { id := 1, campaignId := 1, status := .valid, cards := 1, worldSize := 1 }

/-- The engine's image is missing. -/
def imageMissing : Observed := { allWell with launch := .refused "image_missing" "no such image" }

/-- The candidate is placed and its launch refused. -/
def placedAndRefused : List WorkerStep :=
  [.campaignTurn (fun _ => []) [] {} 1,
   .advanceRuns (fun _ => cleanTeardown) (fun _ => 5) (fun _ => imageMissing) (RowOrder.byKey _)]

/-- An image that stays missing is tried three times, and the candidate is then given up. -/
theorem retries_bounded_imageMissing :
    let db := runFrom WorkerStep.apply oneQueued
      (placedAndRefused ++ placedAndRefused ++ placedAndRefused ++ placedAndRefused)
    db.candidates.rows.map Candidate.status = [.exhausted] ∧ db.runs.rows.length = 3 ∧
      (∀ k ∈ db.candidates.rows, (db.attemptsOf k.id).length ≤ maxAttemptsPerCandidate) := by
  refine ⟨by decide, by decide, fun k hk => ?_⟩
  exact (retries_bounded.2 oneQueued _ (retries_bounded.1 oneQueued rfl) k hk).2.2

end AutoTune
