import AutoTune.Api.Benchmarks
import AutoTune.Policy.Contenders
import AutoTune.Supervisor.Retries

/-!
# A policy's candidates are a ledger

The candidates of a policy campaign record what its session launched, benchmarked and validated; they
are EXHAUSTED from birth and no queue serves them. Four places write VALID without asking whose
candidate it is: the requeue after an infrastructure failure, the withdrawal of a queued run, the stop
of a campaign, and `POST /campaigns/{id}/retry-failed`.
-/

namespace AutoTune

open Lib

/-! ## `retry_failed` -/

/-- Is this candidate queued again? Its runs all failed or were killed; `baseline` is what
`is_baseline_candidate` says of it. -/
def Db.retriable (db : Db) (baseline : Candidate → Bool) (k : Candidate) : Bool :=
  k.status == .exhausted && !baseline k &&
    (db.runs.rows.filter fun r => r.campaignId == k.campaignId && r.candidateId == k.id).all fun r =>
      r.status == .failed || r.status == .killed

/-- The candidates `retry_failed` queues again. -/
def Db.retried (db : Db) (baseline : Candidate → Bool) (campaign : CampaignId) : List Candidate :=
  db.candidates.rows.filter fun k => k.campaignId == campaign && db.retriable baseline k

/-- `retry_failed`: a campaign that was done is active again once something is queued. -/
def retryFailed (baseline : Candidate → Bool) (campaign : CampaignId) (db : Db) : Db :=
  if (db.campaigns.get? campaign).isNone then db
  else
    { db with
      candidates := db.candidates.update fun k =>
        { k with status := if k.campaignId == campaign && db.retriable baseline k then .valid
            else k.status }
      campaigns := db.campaigns.modify campaign fun c =>
        { c with status := if c.status = .done ∧ (db.retried baseline campaign).isEmpty = false
            then .active else c.status } }

/-! ## Steps -/

/-- `contender_serving` as far as its rows go: the session validates, and the contender was commanded. -/
def serveContender (session : SessionId) (config : Option LaunchConfig) (port : Nat) (db : Db) : Db :=
  match db.sessions.get? session with
  | none => db
  | some s => if s.status = .validating then addServing s config port db else db

/-- Is the run's campaign paused? -/
def Db.pausedRun (db : Db) (id : RunId) : Bool :=
  ((db.runs.get? id).bind db.campaignOf).any fun c => c.status == .paused

/-- What the worker does to one run or one candidate, the requests of the policy and of the operator,
and whatever is written to the other tables. The worker's loops are sequences of these. -/
inductive LedgerStep where
  | withdraw (drivers : RunId → TeardownReplies) (clock : RunId → Time) (finds : RunId → QueueFinds)
      (run : RunId)
  | reconcile (drivers : RunId → TeardownReplies) (clock : RunId → Time) (attached : RunId → Bool)
      (run : RunId)
  | stop (drivers : RunId → TeardownReplies) (now : Time) (request : StopRequest)
  | advance (drivers : RunId → TeardownReplies) (now : Time) (observed : Observed) (run : RunId)
  | kill (drivers : RunId → TeardownReplies) (now : Time) (run : RunId) (reason : String)
  | reap (drivers : RunId → ReapReplies) (clock : TeardownClock) (now : Time) (run : RunId)
  | turn (held : Reservations) (blocked : List MachineId) (finds : TurnFinds) (campaign : CampaignId)
  | plan (campaign : CampaignId) (verify : Bool) (config : QueuedConfig) (valid : Bool)
  | validate (session : SessionId) (config : LaunchConfig)
  | launch (session : SessionId) (body : LaunchIn)
  | benchLaunch (session : SessionId) (body : LaunchBenchmarkIn)
  | benchExternal (session : SessionId) (body : ExternalBenchmarkIn)
  | serve (session : SessionId) (config : Option LaunchConfig) (port : Nat)
  | retryFailed (baseline : Candidate → Bool) (campaign : CampaignId)
  | outside (machines : Table Machine.id) (campaigns : Table Campaign.id)
      (sessions : Table PolicySession.id) (stopRequests : List StopRequest)

namespace LedgerStep

def apply (db : Db) : LedgerStep → Db
  | .withdraw drivers clock finds run =>
      if db.isLive run && db.pausedRun run then (releaseQueued drivers clock finds run db).state else db
  | .reconcile drivers clock attached run =>
      if db.isLive run then (reconcileRun drivers clock attached run db).state else db
  | .stop drivers now request => (processStop drivers now request db).state
  | .advance drivers now observed run =>
      if db.isLive run then (advanceOne drivers now observed db run).state else db
  | .kill drivers now run reason => (finish drivers now db run .killed reason).state
  | .reap drivers clock now run => reapTeardown drivers clock now db run
  | .turn held blocked finds campaign => campaignTurn held blocked finds campaign db
  | .plan campaign verify config valid => planCandidate campaign verify config valid db
  | .validate session config => (launchValidationRun session config db).getD db
  | .launch session body => requestLaunch session body db
  | .benchLaunch session body => AutoTune.benchLaunch session body db
  | .benchExternal session body => AutoTune.benchExternal session body db
  | .serve session config port => serveContender session config port db
  | .retryFailed baseline campaign => AutoTune.retryFailed baseline campaign db
  | .outside machines campaigns sessions stopRequests =>
      { db with machines, campaigns, sessions, stopRequests }

/-- The campaign's policy is set before and after, and no session changes its campaign: those columns
are written once. -/
def KeepsPolicy (p : CampaignId) (db : Db) : LedgerStep → Prop
  | .outside _ campaigns sessions _ =>
      (campaigns.get? p).any (fun c => c.policyId.isSome) = true ∧
        ∀ s ∈ db.sessions.rows, ∃ s' ∈ sessions.rows, s'.id = s.id ∧ s'.campaignId = s.campaignId
  | _ => True

/-- The step takes none of the four ways a candidate of the campaign becomes VALID: no validation run
of it fails for an infrastructure reason, no run of it is withdrawn, no stop of the campaign finds a
validation run live, and a retry finds nothing to queue. -/
def Spares (p : CampaignId) (db : Db) : LedgerStep → Prop
  | .withdraw _ _ finds run =>
      ∀ r ∈ db.runs.rows, r.id = run → r.campaignId = p → db.pausedRun run = true → r.live = true →
        (finds run).withdraws r = false
  | .reconcile _ _ attached run =>
      ∀ r ∈ db.runs.rows, r.id = run → r.campaignId = p → r.kind = .experiment → r.live = true →
        attached run = true ∨ r.status = .pending ∨ r.status = .benching
  | .stop _ _ request =>
      ∀ r ∈ db.runs.rows, r.id = request.runId → r.campaignId = p → r.live = true →
        request.forceStop = true → r.kind = .policyLaunch ∨ r.kind.isExternal = true
  | .advance _ _ observed run =>
      ∀ r ∈ db.runs.rows, r.id = run → r.campaignId = p → r.kind = .experiment → r.live = true →
        ∀ c, observed.failureOf r = some c → infrastructureFailures.contains c = false
  | .retryFailed baseline campaign => campaign = p → db.retried baseline p = []
  | _ => True

end LedgerStep

/-! ## The invariant -/

/-- The campaign has a policy, none of its candidates is VALID or PENDING and none of its runs is called
released unless it failed; a run belongs to the campaign of its candidate and of its session. -/
structure LedgerOnly (p : CampaignId) (db : Db) : Prop where
  policy : (db.campaigns.get? p).any (fun c => c.policyId.isSome) = true
  idle : ∀ k ∈ db.candidates.rows, k.campaignId = p → k.status ≠ .valid ∧ k.status ≠ .pending
  unreleased : ∀ r ∈ db.runs.rows, r.campaignId = p → r.failureClass = released → r.status = .failed
  candidate : ∀ r ∈ db.runs.rows,
    ∃ k ∈ db.candidates.rows, k.id = r.candidateId ∧ k.campaignId = r.campaignId
  session : ∀ r ∈ db.runs.rows, ∀ id, r.policySessionId = some id →
    ∃ s ∈ db.sessions.rows, s.id = id ∧ s.campaignId = r.campaignId

namespace LedgerOnly

variable {p : CampaignId} {db db' : Db}

/-- The candidate of a run of another campaign is not the policy's. -/
theorem candidate_other (h : LedgerOnly p db) {r : Run} (hr : r ∈ db.runs.rows)
    (hne : r.campaignId ≠ p) {k : Candidate} (hk : k ∈ db.candidates.rows)
    (hid : k.id = r.candidateId) : k.campaignId ≠ p := by
  rcases h.candidate r hr with ⟨k', hk', hid', hcampaign⟩
  rw [Table.eq_of_key_eq hk hk' (hid.trans hid'.symm), hcampaign]
  exact hne

theorem of_ends (h : LedgerOnly p db) (he : Db.Ends db db') : LedgerOnly p db' where
  policy := by
    rw [he.campaigns]
    exact h.policy
  idle := by
    rw [he.candidates]
    exact h.idle
  unreleased := by
    intro r' hr' hp hclass
    rcases he.exists_run hr' with ⟨r, hr, hrr⟩
    by_contra hnot
    have hfailed := h.unreleased r hr (hrr.campaignId.symm.trans hp) ((hrr.kept hnot).symm.trans hclass)
    have hover : r.live = false := by simp [Run.live, hfailed, RunStatus.terminal]
    exact hnot ((hrr.ended hover).1.trans hfailed)
  candidate := by
    intro r' hr'
    rcases he.exists_run hr' with ⟨r, hr, hrr⟩
    rw [he.candidates, hrr.candidateId, hrr.campaignId]
    exact h.candidate r hr
  session := by
    intro r' hr' id hid
    rcases he.exists_run hr' with ⟨r, hr, hrr⟩
    rw [he.sessions, hrr.campaignId]
    exact h.session r hr id (hrr.policySessionId.symm.trans hid)

/-- Writing candidates, in the columns that stay. -/
theorem of_candidates (h : LedgerOnly p db) (hruns : db'.runs = db.runs)
    (hcampaigns : db'.campaigns = db.campaigns) (hsessions : db'.sessions = db.sessions)
    (hkept : ∀ k ∈ db.candidates.rows,
      ∃ k' ∈ db'.candidates.rows, k'.id = k.id ∧ k'.campaignId = k.campaignId)
    (hidle : ∀ k ∈ db'.candidates.rows, k.campaignId = p → k.status ≠ .valid ∧ k.status ≠ .pending) :
    LedgerOnly p db' where
  policy := by
    rw [hcampaigns]
    exact h.policy
  idle := hidle
  unreleased := by
    rw [hruns]
    exact h.unreleased
  candidate := by
    rw [hruns]
    intro r hr
    rcases h.candidate r hr with ⟨k, hk, hid, hcampaign⟩
    rcases hkept k hk with ⟨k', hk', hid', hcampaign'⟩
    exact ⟨k', hk', hid'.trans hid, hcampaign'.trans hcampaign⟩
  session := by
    rw [hruns, hsessions]
    exact h.session

theorem setCandidate (h : LedgerOnly p db) {id : CandidateId} {f : Candidate → Candidate}
    {hf : ∀ k, (f k).id = k.id} (hcampaign : ∀ k, (f k).campaignId = k.campaignId)
    (hstatus : ∀ k ∈ db.candidates.rows, k.id = id → k.campaignId = p →
      (f k).status ≠ .valid ∧ (f k).status ≠ .pending) : LedgerOnly p (db.setCandidate id f hf) := by
  refine h.of_candidates rfl rfl rfl ?_ ?_
  · intro k hk
    refine ⟨_, Db.mem_setCandidate.mpr ⟨k, hk, rfl⟩, ?_, ?_⟩
    · split_ifs
      · exact hf k
      · rfl
    · split_ifs
      · exact hcampaign k
      · rfl
  · intro k' hk' hp
    rcases Db.mem_setCandidate.mp hk' with ⟨k, hk, rfl⟩
    split_ifs at hp ⊢ with hid
    · exact hstatus k hk hid ((hcampaign k).symm.trans hp)
    · exact h.idle k hk hp

/-- A candidate of another campaign may be queued again. -/
theorem requeue (h : LedgerOnly p db) {r : Run} (hr : r ∈ db.runs.rows) (hne : r.campaignId ≠ p) :
    LedgerOnly p (db.requeue r.candidateId) :=
  h.setCandidate (fun _ => rfl) fun _ hk hid hp => absurd hp (h.candidate_other hr hne hk hid)

/-- A run of another campaign may be called released. -/
theorem release (h : LedgerOnly p db) {id : RunId} {f : Run → Run} {hf : ∀ r, (f r).id = r.id}
    (hcampaign : ∀ r, (f r).campaignId = r.campaignId)
    (hcandidate : ∀ r, (f r).candidateId = r.candidateId)
    (hsession : ∀ r, (f r).policySessionId = r.policySessionId)
    (hne : ∀ r ∈ db.runs.rows, r.id = id → r.campaignId ≠ p) : LedgerOnly p (db.setRun id f hf) where
  policy := h.policy
  idle := h.idle
  unreleased := by
    intro r' hr' hp hclass
    rcases Db.mem_setRun.mp hr' with ⟨r, hr, rfl⟩
    split_ifs at hp hclass ⊢ with hid
    · exact absurd ((hcampaign r).symm.trans hp) (hne r hr hid)
    · exact h.unreleased r hr hp hclass
  candidate := by
    intro r' hr'
    rcases Db.mem_setRun.mp hr' with ⟨r, hr, rfl⟩
    rcases h.candidate r hr with ⟨k, hk, hkid, hkc⟩
    refine ⟨k, hk, ?_⟩
    split_ifs
    · rw [hcandidate, hcampaign]
      exact ⟨hkid, hkc⟩
    · exact ⟨hkid, hkc⟩
  session := by
    intro r' hr' sid hsid
    rcases Db.mem_setRun.mp hr' with ⟨r, hr, rfl⟩
    split_ifs at hsid ⊢
    · rw [hcampaign]
      exact h.session r hr sid ((hsession r).symm.trans hsid)
    · exact h.session r hr sid hsid

/-- A candidate is added: not for the scheduler, unless to another campaign. -/
theorem insertCandidate (h : LedgerOnly p db) {mk : Nat → Candidate} (hmk : ∀ n, (mk n).id = n)
    (hidle : ∀ n, (mk n).campaignId = p → (mk n).status ≠ .valid ∧ (mk n).status ≠ .pending) :
    LedgerOnly p { db with candidates := db.candidates.insert mk hmk } := by
  refine h.of_candidates rfl rfl rfl ?_ ?_
  · intro k hk
    exact ⟨k, List.mem_append_left _ hk, rfl, rfl⟩
  · intro k hk hp
    rcases (@Table.mem_insert _ _ _ _ hmk _).mp hk with hk | rfl
    · exact h.idle k hk hp
    · exact hidle _ hp

/-- A run is added, to the campaign of its candidate and of its session, and not as released. -/
theorem insertRun (h : LedgerOnly p db) {mk : Nat → Run} (hmk : ∀ n, (mk n).id = n)
    (hclass : ∀ n, (mk n).failureClass ≠ released)
    (hcandidate : ∀ n, ∃ k ∈ db.candidates.rows,
      k.id = (mk n).candidateId ∧ k.campaignId = (mk n).campaignId)
    (hsession : ∀ n id, (mk n).policySessionId = some id →
      ∃ s ∈ db.sessions.rows, s.id = id ∧ s.campaignId = (mk n).campaignId) :
    LedgerOnly p { db with runs := db.runs.insert mk hmk } where
  policy := h.policy
  idle := h.idle
  unreleased := by
    intro r hr hp hreleased
    rcases (@Table.mem_insert _ _ _ _ hmk _).mp hr with hr | rfl
    · exact h.unreleased r hr hp hreleased
    · exact absurd hreleased (hclass _)
  candidate := by
    intro r hr
    rcases (@Table.mem_insert _ _ _ _ hmk _).mp hr with hr | rfl
    · exact h.candidate r hr
    · exact hcandidate _
  session := by
    intro r hr id hid
    rcases (@Table.mem_insert _ _ _ _ hmk _).mp hr with hr | rfl
    · exact h.session r hr id hid
    · exact hsession _ id hid

/-- A session's run comes with a candidate of its own, EXHAUSTED from birth. -/
theorem addForSession (h : LedgerOnly p db) {s : PolicySession} (hs : s ∈ db.sessions.rows)
    {mkCandidate : Nat → Candidate} {mkRun : Nat → Run} (hmk : ∀ n, (mkCandidate n).id = n)
    (hrun : ∀ n, (mkRun n).id = n)
    (hborn : ∀ n, (mkCandidate n).status = .exhausted ∧ (mkCandidate n).campaignId = s.campaignId)
    (hrow : ∀ n, (mkRun n).candidateId = db.candidates.nextKey ∧ (mkRun n).campaignId = s.campaignId ∧
      (mkRun n).policySessionId = some s.id ∧ (mkRun n).failureClass = "") :
    LedgerOnly p { db with
      candidates := db.candidates.insert mkCandidate hmk
      runs := db.runs.insert mkRun hrun } := by
  have hadded := h.insertCandidate hmk fun n _ => by simp [(hborn n).1]
  refine hadded.insertRun hrun (fun n => by rw [(hrow n).2.2.2]; decide) ?_ ?_
  · intro n
    refine ⟨mkCandidate db.candidates.nextKey, List.mem_append_right _ (List.mem_singleton_self _), ?_, ?_⟩
    · rw [hmk, (hrow n).1]
    · rw [(hborn _).2, (hrow n).2.1]
  · intro n id hid
    refine ⟨s, hs, ?_, (hrow n).2.1.symm⟩
    rw [(hrow n).2.2.1] at hid
    exact Option.some.inj hid

end LedgerOnly

/-! ## One step -/

section Worker

variable {p : CampaignId} {db : Db} (drivers : RunId → TeardownReplies)

/-- `_fail` of a live run: a validation run of the campaign must not fail for an infrastructure
reason. -/
theorem fail_ledger {now : Time} {id : RunId} {r : Run} {failureClass error : String}
    (h : LedgerOnly p db) (hget : db.runs.get? id = some r) (hlive : r.live = true)
    (hspared : r.campaignId = p → r.kind = .experiment →
      infrastructureFailures.contains failureClass = false) :
    LedgerOnly p (fail drivers now db id failureClass error).state := by
  have hget' := get?_setFailureClass failureClass hget
  have hcan := (canTransition_of_live hlive).1
  have hends := failing_ends drivers now failureClass error hget hlive
  rw [fail, Ran.andThen_of_returned (finish_legal drivers now error hget' hcan rfl).1, Ran.done_state]
  have h' := h.of_ends hends
  unfold requeueIfInfrastructure
  split
  · exact h'
  · rename_i r' hr'
    rcases Table.get?_eq_some_iff.mp hr' with ⟨hmem, hid⟩
    have hclass := (finish_outcome drivers now error hget' hcan rfl hmem hid).2
    rcases hends.exists_run hmem with ⟨q, hq, hqr⟩
    have hqe : q = r := by
      rw [Table.get?_eq_some_iff.mpr ⟨hq, hqr.id.symm.trans hid⟩] at hget
      exact Option.some.inj hget
    subst hqe
    dsimp only
    split_ifs with hkind hinfra hcount
    · exact h'
    · exact h'
    · exact h'
    · rw [not_not] at hkind
      refine h'.requeue hmem ?_
      intro hp
      have hnot := hspared (hqr.campaignId.symm.trans hp) (hqr.kind.symm.trans hkind)
      rw [hclass] at hinfra
      simp only [hnot, Bool.not_false, not_true] at hinfra

theorem releaseQueued_ledger {clock : RunId → Time} {finds : RunId → QueueFinds} {id : RunId}
    (h : LedgerOnly p db) (hlive : db.isLive id = true)
    (hspared : ∀ r ∈ db.runs.rows, r.id = id → r.campaignId = p → (finds id).withdraws r = false) :
    LedgerOnly p (releaseQueued drivers clock finds id db).state := by
  rcases isLive_iff.mp hlive with ⟨r, hr, rfl, hl⟩
  have hget : db.runs.get? r.id = some r := Table.get?_key hr
  unfold releaseQueued
  rw [hget]
  dsimp only
  split_ifs with hw
  · have hne : r.campaignId ≠ p := fun hp => by simp [hspared r hr rfl hp] at hw
    have hends := finish_ends drivers (clock r.id) (db.setFailureClass r.id released) r.id .killed
      withdrawnError
    have hreleased : LedgerOnly p (db.setFailureClass r.id released) := by
      refine h.release (fun _ => rfl) (fun _ => rfl) (fun _ => rfl) ?_
      intro q hq hid
      rw [Table.eq_of_key_eq hq hr hid]
      exact hne
    rw [releaseToQueue, Ran.andThen_of_returned (finish_legal drivers (clock r.id) _
      (get?_setFailureClass released hget) (canTransition_of_live hl).2 rfl).1, Ran.done_state]
    refine (hreleased.of_ends hends).setCandidate (fun _ => rfl) ?_
    intro k hk hid hp
    rw [hends.candidates] at hk
    exact absurd hp (h.candidate_other hr hne hk hid)
  · exact h

theorem processStop_ledger {now : Time} {e : StopRequest} (h : LedgerOnly p db)
    (hspared : ∀ r ∈ db.runs.rows, r.id = e.runId → r.campaignId = p → r.live = true →
      e.forceStop = true → r.kind = .policyLaunch ∨ r.kind.isExternal = true) :
    LedgerOnly p (processStop drivers now e db).state := by
  unfold processStop
  cases hget : db.runs.get? e.runId with
  | none => exact h
  | some r =>
      rcases Table.get?_eq_some_iff.mp hget with ⟨hr, hid⟩
      -- a stop of a run that has ended does nothing
      dsimp only
      by_cases hterm : r.status.terminal = true
      · rw [if_pos hterm]
        exact h
      · rw [if_neg hterm]
        have hlive : r.live = true := by simpa [Run.live] using hterm
        have hends := finish_ends drivers now db e.runId .killed userStopError
        rw [Ran.andThen_of_returned
          (finish_legal drivers now _ hget (canTransition_of_live hlive).2 rfl).1]
        split_ifs with hforce
        · simp only [Bool.and_eq_true, bne_iff_ne, ne_eq, Bool.not_eq_true'] at hforce
          -- a forced stop gives the candidate back, and a spared campaign's run is not forced
          have hne : r.campaignId ≠ p := by
            intro hp
            rcases hspared r hr hid hp hlive hforce.1.1 with hk | hk
            · exact hforce.1.2 hk
            · rw [hforce.2] at hk
              cases hk
          rw [Ran.done_state]
          unfold Db.giveBack
          refine LedgerOnly.setCandidate (LedgerOnly.release (h.of_ends hends) ?_ ?_ ?_ ?_) ?_ ?_
          · exact fun _ => rfl
          · exact fun _ => rfl
          · exact fun _ => rfl
          · intro q hq hqid
            rcases hends.exists_run hq with ⟨q₀, hq₀, hqq⟩
            rw [hqq.campaignId, Table.eq_of_key_eq hq₀ hr (hqq.id.symm.trans hqid)]
            exact hne
          · exact fun _ => rfl
          · intro k hk hkid hp
            exact absurd hp (h.candidate_other hr hne (hends.candidates ▸ hk) hkid)
        · exact h.of_ends hends

theorem advanceOne_ledger {now : Time} {o : Observed} {id : RunId} (h : LedgerOnly p db)
    (hlive : db.isLive id = true)
    (hspared : ∀ r ∈ db.runs.rows, r.id = id → r.campaignId = p → r.kind = .experiment →
      r.live = true → ∀ c, o.failureOf r = some c → infrastructureFailures.contains c = false) :
    LedgerOnly p (advanceOne drivers now o db id).state := by
  rcases isLive_iff.mp hlive with ⟨r, hr, rfl, hl⟩
  have hget : db.runs.get? r.id = some r := Table.get?_key hr
  have hadvances := advanceOne_advances drivers now hget (o := o)
  generalize advanceOne drivers now o db r.id = x at hadvances ⊢
  cases hadvances with
  | stay => exact h
  | move target _ _ => exact h.of_ends (transition_ends db r.id target)
  | succeed _ => exact h.of_ends (finish_ends drivers now db r.id _ _)
  | fail failureClass error hclass _ =>
      refine fail_ledger drivers h hget hl ?_
      intro hp hkind
      rcases hclass with hnot | hclass
      · rw [hkind] at hnot
        cases hnot
      · exact hspared r hr rfl hp hkind hl failureClass hclass

theorem reconcileRun_ledger {clock : RunId → Time} {attached : RunId → Bool} {id : RunId}
    (h : LedgerOnly p db) (hlive : db.isLive id = true)
    (hspared : ∀ r ∈ db.runs.rows, r.id = id → r.campaignId = p → r.kind = .experiment →
      r.live = true → attached id = true ∨ r.status = .pending ∨ r.status = .benching) :
    LedgerOnly p (reconcileRun drivers clock attached id db).state := by
  rcases isLive_iff.mp hlive with ⟨r, hr, rfl, hl⟩
  have hget : db.runs.get? r.id = some r := Table.get?_key hr
  unfold reconcileRun
  rw [hget]
  dsimp only
  split_ifs with hskip hgone
  · exact h
  · refine fail_ledger drivers h hget hl ?_
    intro hp hkind
    simp only [Bool.or_eq_true, beq_iff_eq, not_or] at hskip
    simp only [Bool.and_eq_true, Bool.not_eq_true', bne_iff_ne, ne_eq] at hgone
    rcases hspared r hr rfl hp hkind hl with hattached | hpending | hbenching
    · rw [hgone.1] at hattached
      cases hattached
    · exact absurd hpending hskip.1
    · exact absurd hbenching hgone.2
  · exact h

end Worker

section Queue

variable {p : CampaignId} {db : Db}

theorem retireInPlace_ledger (h : LedgerOnly p db) (pending : List Candidate) :
    LedgerOnly p (retireInPlace db pending) := by
  unfold retireInPlace
  induction pending.filter Candidate.inPlaceBaseline generalizing db with
  | nil => exact h
  | cons k l ih => exact ih (h.setCandidate (fun _ => rfl) fun _ _ _ _ => by simp)

/-- A run is placed for a candidate of the campaign it is placed for. -/
theorem createRun_ledger (h : LedgerOnly p db) {c : Campaign} {k : Candidate}
    (hk : k ∈ db.candidates.rows) (hcampaign : k.campaignId = c.id)
    (plan : List (MachineId × List Nat)) (servicePort distPort : Nat) :
    LedgerOnly p (createRun db c k.id plan servicePort distPort) := by
  unfold createRun
  cases plan with
  | nil => exact h
  | cons master workers =>
      have hreserved : LedgerOnly p (reserveMachines db (master :: workers)) := by
        refine h.of_ends (Db.Ends.of_rows (reserveMachines_runs db _)
          (reserveMachines_candidates db _) ?_ ?_)
        · exact (reserveMachines_settles db _).campaigns
        · exact (reserveMachines_settles db _).sessions
      have hretired : LedgerOnly p ((reserveMachines db (master :: workers)).setCandidate k.id fun c =>
          { c with status := .exhausted }) :=
        hreserved.setCandidate (fun _ => rfl) fun _ _ _ _ => by simp
      refine hretired.insertRun (fun _ => rfl) (fun _ => ?_) (fun _ => ?_) ?_
      · show "" ≠ released
        decide
      · refine ⟨{ k with status := .exhausted }, Db.mem_setCandidate.mpr ⟨k, ?_, by simp⟩, rfl, hcampaign⟩
        rw [reserveMachines_candidates]
        exact hk
      · intro n id hid
        cases hid

theorem startOne_ledger (h : LedgerOnly p db) (held : Reservations) (blocked : List MachineId)
    (stageAllowed : Bool → Bool) (c : Campaign) :
    LedgerOnly p (startOne held blocked stageAllowed db c).db := by
  have hretired := retireInPlace_ledger h (db.validCandidates c)
  rcases startOne_spec held blocked stageAllowed db c with ⟨-, hdb⟩ |
    ⟨-, plan, port, dist, k, hk, hbase, -, -, hdb⟩
  · rw [hdb]
    exact hretired
  · rw [hdb]
    rcases List.mem_filter.mp hk with ⟨hmem, hcond⟩
    simp only [Bool.and_eq_true, beq_iff_eq] at hcond
    refine createRun_ledger hretired (mem_retireInPlace ?_ hmem hbase) hcond.1 plan port dist
    intro q hq
    exact (List.mem_filter.mp hq).1

theorem queueConfigs_ledger (h : LedgerOnly p db) {c : CampaignId} (hne : c ≠ p) (verify : Bool)
    (configs : List QueuedConfig) : LedgerOnly p (db.queueConfigs c verify configs) := by
  unfold Db.queueConfigs
  induction configs generalizing db with
  | nil => exact h
  | cons q l ih => exact ih (h.insertCandidate (fun _ => rfl) fun _ hp => absurd hp hne)

/-- `_schedule` serves no campaign with a policy. -/
theorem ne_of_unserved (h : LedgerOnly p db) {id : CampaignId} {c : Campaign}
    (hget : db.campaigns.get? id = some c) (hnone : c.policyId.isSome = false) : id ≠ p := by
  rintro rfl
  have hpolicy := h.policy
  rw [hget, Option.any_some, hnone] at hpolicy
  cases hpolicy

/-- A campaign's row may be written, as long as the policy's stays set. -/
theorem setCampaign_ledger (h : LedgerOnly p db) {id : CampaignId} {f : Campaign → Campaign}
    {hf : ∀ c, (f c).id = c.id} (hpolicy : ∀ c, (f c).policyId = c.policyId) :
    LedgerOnly p (db.setCampaign id f hf) where
  policy := by
    have hset := h.policy
    rw [Db.setCampaign, Table.get?_modify]
    cases hget : db.campaigns.get? p with
    | none => simp [hget] at hset
    | some c =>
        rw [hget] at hset
        by_cases hid : p = id
        · simpa [hid, hpolicy] using hset
        · simpa [hid] using hset
  idle := h.idle
  unreleased := h.unreleased
  candidate := h.candidate
  session := h.session

theorem campaignTurn_ledger (h : LedgerOnly p db) (held : Reservations) (blocked : List MachineId)
    (f : TurnFinds) (id : CampaignId) : LedgerOnly p (campaignTurn held blocked f id db) := by
  unfold campaignTurn
  cases hget : db.campaigns.get? id with
  | none => exact h
  | some c =>
      dsimp only
      have hid : c.id = id := (Table.get?_eq_some_iff.mp hget).2
      have hstarted := startOne_ledger h held blocked f.stageAllowed c
      split_ifs with hskip
      · exact h
      · exact hstarted
      · simp only [Bool.or_eq_true, not_or] at hskip
        have hne : c.id ≠ p := by
          rw [hid]
          exact ne_of_unserved h hget (Bool.eq_false_iff.mpr hskip.2)
        unfold maybeFinishCampaign
        dsimp only
        split_ifs
        all_goals first
          | exact hstarted
          | exact queueConfigs_ledger hstarted hne _ _
          | exact setCampaign_ledger hstarted fun _ => rfl

theorem planCandidate_ledger (h : LedgerOnly p db) (id : CampaignId) (verify : Bool)
    (q : QueuedConfig) (valid : Bool) : LedgerOnly p (planCandidate id verify q valid db) := by
  unfold planCandidate
  cases hget : db.campaigns.get? id with
  | none => exact h
  | some c =>
      dsimp only
      by_cases hpolicy : c.policyId.isSome = true
      · rw [if_pos hpolicy]
        exact h
      · rw [if_neg hpolicy]
        exact h.insertCandidate (fun _ => rfl) fun _ hp =>
          absurd hp (ne_of_unserved h hget (Bool.eq_false_iff.mpr hpolicy))

end Queue

section Sessions

variable {p : CampaignId} {db : Db}

theorem launchValidationRun_ledger (h : LedgerOnly p db) (session : SessionId)
    (config : LaunchConfig) : LedgerOnly p ((launchValidationRun session config db).getD db) := by
  unfold launchValidationRun
  cases hs : db.sessions.get? session with
  | none => exact h
  | some s =>
      cases hc : db.campaigns.get? s.campaignId with
      | none =>
          simp only [hc, Option.getD_none]
          exact h
      | some c =>
          simp only [hc]
          cases validationCards s config.cards (db.blockersOf s) with
          | none => exact h
          | some cards =>
              exact h.addForSession (Table.get?_eq_some_iff.mp hs).1 (fun _ => rfl) (fun _ => rfl)
                (fun _ => ⟨rfl, rfl⟩) fun _ => ⟨rfl, rfl, rfl, rfl⟩

theorem requestLaunch_ledger (h : LedgerOnly p db) (session : SessionId) (body : LaunchIn) :
    LedgerOnly p (requestLaunch session body db) := by
  rcases requestLaunch_adds session body db with hsame | ⟨s, config, cards, port, hs, -, -, -, -, hadd⟩
  · rw [hsame]
    exact h
  · rw [hadd]
    exact h.addForSession (Table.get?_eq_some_iff.mp hs).1 (fun _ => rfl) (fun _ => rfl)
      (fun _ => ⟨rfl, rfl⟩) fun _ => ⟨rfl, rfl, rfl, rfl⟩

/-- A benchmark goes on its launch's candidate, and both are of the session's campaign. -/
theorem benchLaunch_ledger (h : LedgerOnly p db) (session : SessionId) (body : LaunchBenchmarkIn) :
    LedgerOnly p (benchLaunch session body db) := by
  rcases benchLaunch_cases session body db with hsame |
    ⟨s, parent, hs, hget, hown, -, -, -, hadd⟩
  · rw [hsame]
    exact h
  · rw [hadd]
    rcases Table.get?_eq_some_iff.mp hs with ⟨hs, hsid⟩
    rcases Table.get?_eq_some_iff.mp hget with ⟨hparent, -⟩
    have hcampaign : s.campaignId = parent.campaignId := by
      rcases h.session parent hparent session hown with ⟨s', hs', hid', hc'⟩
      rw [← hc', Table.eq_of_key_eq hs hs' (hsid.trans hid'.symm)]
    refine h.insertRun (fun _ => rfl) (fun _ => ?_) (fun _ => ?_) ?_
    · show "" ≠ released
      decide
    · rcases h.candidate parent hparent with ⟨k, hk, hid, hc⟩
      exact ⟨k, hk, hid, hc.trans hcampaign.symm⟩
    · intro n id hid
      exact ⟨s, hs, Option.some.inj hid, rfl⟩

theorem benchExternal_ledger (h : LedgerOnly p db) (session : SessionId)
    (body : ExternalBenchmarkIn) : LedgerOnly p (benchExternal session body db) := by
  rcases benchExternal_cases session body db with hsame | ⟨s, config, hs, -, -, -, -, -, hadd⟩
  · rw [hsame]
    exact h
  · rw [hadd]
    exact h.addForSession (Table.get?_eq_some_iff.mp hs).1 (fun _ => rfl) (fun _ => rfl)
      (fun _ => ⟨rfl, rfl⟩) fun _ => ⟨rfl, rfl, rfl, rfl⟩

theorem serveContender_ledger (h : LedgerOnly p db) (session : SessionId)
    (config : Option LaunchConfig) (port : Nat) :
    LedgerOnly p (serveContender session config port db) := by
  unfold serveContender
  cases hs : db.sessions.get? session with
  | none => exact h
  | some s =>
      dsimp only
      split_ifs
      · exact h.addForSession (Table.get?_eq_some_iff.mp hs).1 (fun _ => rfl) (fun _ => rfl)
          (fun _ => ⟨rfl, rfl⟩) fun _ => ⟨rfl, rfl, rfl, rfl⟩
      · exact h

/-- A retry queues candidates of its own campaign only. -/
theorem retryFailed_ledger (h : LedgerOnly p db) (baseline : Candidate → Bool)
    (campaign : CampaignId) (hspared : campaign = p → db.retried baseline p = []) :
    LedgerOnly p (retryFailed baseline campaign db) := by
  unfold retryFailed
  split_ifs
  · exact h
  · have hcandidates : LedgerOnly p { db with
        candidates := db.candidates.update fun k =>
          { k with status := if k.campaignId == campaign && db.retriable baseline k then .valid
              else k.status } } := by
      refine h.of_candidates rfl rfl rfl ?_ ?_
      · intro k hk
        exact ⟨_, List.mem_map.mpr ⟨k, hk, rfl⟩, rfl, rfl⟩
      · intro k' hk' hp
        rcases List.mem_map.mp hk' with ⟨k, hk, rfl⟩
        have hkp : k.campaignId = p := hp
        have hnot : (k.campaignId == campaign && db.retriable baseline k) = false := by
          by_cases hc : campaign = p
          · have hnone := List.filter_eq_nil_iff.mp (hspared hc) k hk
            rw [hc]
            simpa using hnone
          · simp [hkp, Ne.symm hc]
        simp only [hnot]
        exact h.idle k hk hkp
    exact setCampaign_ledger hcandidates fun _ => rfl

end Sessions

namespace LedgerStep

theorem apply_ledger {p : CampaignId} {db : Db} (s : LedgerStep) (h : LedgerOnly p db)
    (hpolicy : s.KeepsPolicy p db) (hspared : s.Spares p db) : LedgerOnly p (s.apply db) := by
  cases s with
  | withdraw drivers clock finds run =>
      simp only [apply]
      split_ifs with hguard
      · simp only [Bool.and_eq_true] at hguard
        refine releaseQueued_ledger drivers h hguard.1 ?_
        intro r hr hid hp
        refine hspared r hr hid hp hguard.2 ?_
        rw [← isLive_of_get? (Table.get?_eq_some_iff.mpr ⟨hr, hid⟩)]
        exact hguard.1
      · exact h
  | reconcile drivers clock attached run =>
      simp only [apply]
      split_ifs with hlive
      · exact reconcileRun_ledger drivers h hlive hspared
      · exact h
  | stop drivers now request =>
      exact processStop_ledger drivers h hspared
  | advance drivers now observed run =>
      simp only [apply]
      split_ifs with hlive
      · exact advanceOne_ledger drivers h hlive hspared
      · exact h
  | kill drivers now run reason => exact h.of_ends (finish_ends drivers now db run _ _)
  | reap drivers clock now run => exact h.of_ends (reapTeardown_ends drivers clock now db run)
  | turn held blocked finds campaign => exact campaignTurn_ledger h held blocked finds campaign
  | plan campaign verify config valid => exact planCandidate_ledger h campaign verify config valid
  | validate session config => exact launchValidationRun_ledger h session config
  | launch session body => exact requestLaunch_ledger h session body
  | benchLaunch session body => exact benchLaunch_ledger h session body
  | benchExternal session body => exact benchExternal_ledger h session body
  | serve session config port => exact serveContender_ledger h session config port
  | retryFailed baseline campaign => exact retryFailed_ledger h baseline campaign hspared
  -- the outside changes no run; each session of a run is still there, with its campaign
  | outside machines campaigns sessions stopRequests =>
      refine ⟨hpolicy.1, h.idle, h.unreleased, h.candidate, ?_⟩
      intro r hr id hid
      rcases h.session r hr id hid with ⟨s, hs, hsid, hsc⟩
      rcases hpolicy.2 s hs with ⟨s', hs', hid', hc'⟩
      exact ⟨s', hs', hid'.trans hsid, hc'.trans hsc⟩

end LedgerStep

/-! ## The worker's loops are runs of these steps -/

namespace LedgerStep

/-- `db'` is reached from `db` by some steps. -/
def Reaches (db db' : Db) : Prop := ∃ steps, runFrom apply db steps = db'

theorem Reaches.refl (db : Db) : Reaches db db := ⟨[], rfl⟩

theorem Reaches.step {db db' : Db} (h : Reaches db db') (s : LedgerStep) : Reaches db (s.apply db') := by
  rcases h with ⟨steps, rfl⟩
  exact ⟨steps ++ [s], runFrom_append db steps [s]⟩

/-- Machines, sessions and the rest are written by others. -/
theorem Reaches.outside {db db' db'' : Db} (h : Reaches db db') (hruns : db''.runs = db'.runs)
    (hcandidates : db''.candidates = db'.candidates)
    (htransitions : db''.transitions = db'.transitions) : Reaches db db'' := by
  have heq : db'' = (LedgerStep.outside db''.machines db''.campaigns db''.sessions
      db''.stopRequests).apply db' := by
    simp only [apply, ← hruns, ← hcandidates, ← htransitions]
  rw [heq]
  exact h.step _

theorem Reaches.kill {db db' : Db} (h : Reaches db db') (drivers : RunId → TeardownReplies)
    (now : Time) (run : RunId) (reason : String) :
    Reaches db (finish drivers now db' run .killed reason).state :=
  h.step (.kill drivers now run reason)

/-- A run that is over is not ours, and nothing is asked about it. -/
theorem over_of_finishable {db : Db} {id : RunId} (hfin : Finishable db id)
    (hover : ¬ db.isLive id = true) {r : Run} (hget : db.runs.get? id = some r) :
    r.kind.notOurs = true ∧ r.status.terminal = true := by
  rcases Table.get?_eq_some_iff.mp hget with ⟨hr, hid⟩
  rw [isLive_of_get? hget] at hover
  refine ⟨(hfin r hr hid).resolve_left hover, ?_⟩
  simpa [Run.live] using hover

theorem Reaches.advance {db db' : Db} (h : Reaches db db') {drivers : RunId → TeardownReplies}
    {now : Time} {o : Observed} {id : RunId} (hfin : Finishable db' id) :
    Reaches db (advanceOne drivers now o db' id).state := by
  have heq : (LedgerStep.advance drivers now o id).apply db' =
      (advanceOne drivers now o db' id).state := by
    simp only [apply]
    split_ifs with hlive
    · rfl
    · unfold advanceOne
      split
      · rfl
      · rename_i r hget
        rcases over_of_finishable hfin hlive hget with ⟨hkind, hterm⟩
        simp [hkind, hterm]
  rw [← heq]
  exact h.step _

theorem Reaches.reconcile {db db' : Db} (h : Reaches db db') {drivers : RunId → TeardownReplies}
    {clock : RunId → Time} {attached : RunId → Bool} {id : RunId} (hfin : Finishable db' id) :
    Reaches db (reconcileRun drivers clock attached id db').state := by
  have heq : (LedgerStep.reconcile drivers clock attached id).apply db' =
      (reconcileRun drivers clock attached id db').state := by
    simp only [apply]
    split_ifs with hlive
    · rfl
    · unfold reconcileRun
      split
      · rfl
      · rename_i r hget
        simp [(over_of_finishable hfin hlive hget).1]
  rw [← heq]
  exact h.step _

theorem Reaches.withdraw {db db' : Db} (h : Reaches db db') {drivers : RunId → TeardownReplies}
    {clock : RunId → Time} {finds : RunId → QueueFinds} {id : RunId} (hfin : Finishable db' id)
    (hpaused : db'.runs.get? id ≠ none → db'.pausedRun id = true) :
    Reaches db (releaseQueued drivers clock finds id db').state := by
  have heq : (LedgerStep.withdraw drivers clock finds id).apply db' =
      (releaseQueued drivers clock finds id db').state := by
    simp only [apply]
    cases hget : db'.runs.get? id with
    | none => simp [releaseQueued, hget]
    | some r =>
        rw [hpaused (by simp [hget]), Bool.and_true]
        split_ifs with hlive
        · rfl
        · simp [releaseQueued, hget, QueueFinds.withdraws, (over_of_finishable hfin hlive hget).1]
  rw [← heq]
  exact h.step _

end LedgerStep

open LedgerStep in
/-- The campaign a loop of `_release_queued_while_paused` is at stays paused, and its runs stay its. -/
theorem releaseQueuedWhilePaused_reaches (drivers : RunId → TeardownReplies) (clock : RunId → Time)
    (finds : RunId → QueueFinds) (campaigns : RowOrder CampaignId) (order : RowOrder RunId) (db : Db) :
    Reaches db (releaseQueuedWhilePaused drivers clock finds campaigns order db).state := by
  refine (Ran.forEach_preserves (I := fun db' => Reaches db db' ∧ db'.campaigns = db.campaigns) ?_
    ⟨Reaches.refl db, rfl⟩).1
  rintro c hc db' ⟨hreach, hcampaigns⟩
  -- the campaign is paused in the database the loop started from
  have hpausedRow : ∃ k, db.campaigns.get? c = some k ∧ k.status = .paused := by
    rcases List.mem_map.mp ((campaigns.perm _).mem_iff.mp hc) with ⟨k, hk, rfl⟩
    rcases List.mem_filter.mp hk with ⟨hk, hstatus⟩
    exact ⟨k, Table.get?_key hk, by simpa using hstatus⟩
  have hinner : ∀ r ∈ db'.liveRunsOfCampaign c, r.campaignId = c ∧ r.live = true := by
    intro r hr
    have hcond := (List.mem_filter.mp hr).2
    simpa only [Bool.and_eq_true, beq_iff_eq] using hcond
  -- the inner loop withdraws the runs of this campaign, and they stay its
  refine (forEach_moves_preserves
    (I := fun db'' => (Reaches db db'' ∧ db''.campaigns = db.campaigns) ∧
      ∀ r ∈ db''.runs.rows, r.id ∈ order.arrange ((db'.liveRunsOfCampaign c).map Run.id) →
        r.campaignId = c)
    (fun _ _ => releaseQueued_moves drivers) ?_ (nodup_arranged List.filter_sublist order)
    (finishable_of_live List.filter_sublist (fun r hr => (hinner r hr).2) order)
    ⟨⟨hreach, hcampaigns⟩, ?_⟩).1
  · rintro id hid db'' hfin ⟨⟨hreach'', hcampaigns''⟩, hown⟩
    have hmoves := @releaseQueued_moves drivers clock finds _ _ hfin
    refine ⟨⟨hreach''.withdraw hfin ?_, hmoves.settles.campaigns.trans hcampaigns''⟩, ?_⟩
    · intro hsome
      rcases Option.ne_none_iff_exists'.mp hsome with ⟨r, hget⟩
      rcases Table.get?_eq_some_iff.mp hget with ⟨hr, hrid⟩
      rcases hpausedRow with ⟨k, hk, hstatus⟩
      simp [Db.pausedRun, hget, Db.campaignOf, hcampaigns'', hown r hr (hrid ▸ hid), hk, hstatus]
    · intro r' hr' hmem
      rcases hmoves.settles.exists_run hr' with ⟨r, hr, hrr⟩
      rw [hrr.campaignId]
      exact hown r hr (hrr.id ▸ hmem)
  · intro r hr hmem
    rcases List.mem_map.mp ((order.perm _).mem_iff.mp hmem) with ⟨q, hq, hqid⟩
    rw [← Table.eq_of_key_eq (List.mem_filter.mp hq).1 hr hqid]
    exact (hinner q hq).1

open LedgerStep in
theorem advanceLease_reaches (drivers : RunId → TeardownReplies) (now : Time)
    (sessions : RowOrder PolicySession) (order : RowOrder RunId) (machine : MachineId) (db : Db) :
    Reaches db (advanceLease drivers now sessions order machine db).state := by
  have hexpire : Reaches db (expireLease now machine db) := by
    unfold expireLease
    split
    · exact Reaches.refl db
    · split_ifs
      · exact (Reaches.refl db).outside rfl rfl rfl
      · exact Reaches.refl db
  unfold advanceLease
  dsimp only
  split
  · exact hexpire
  · split_ifs
    · exact hexpire
    · unfold advanceDrain
      split
      · unfold drainSession
        split_ifs <;> exact hexpire.outside rfl rfl rfl
      · dsimp only
        split_ifs
        · exact hexpire
        · exact Ran.forEach_preserves (I := Reaches db)
            (fun id _ _ h => h.kill drivers now id "lease ended") hexpire
        · exact hexpire.outside rfl rfl rfl

open LedgerStep in
/-- Every step of the worker is a sequence of the steps above. -/
theorem WorkerStep.run_reaches (s : WorkerStep) (db : Db) : Reaches db (s.run db).state := by
  -- the loops go through rows that are live, and each turn is one of the steps
  cases s with
  | releaseQueuedWhilePaused drivers clock finds campaigns order =>
      exact releaseQueuedWhilePaused_reaches drivers clock finds campaigns order db
  | reconcile drivers clock attached order =>
      exact forEach_moves_preserves (I := Reaches db) (fun _ _ => reconcileRun_moves drivers)
        (fun _ _ _ hfin h => h.reconcile hfin) (nodup_arranged List.filter_sublist order)
        (finishable_of_live List.filter_sublist (fun _ hr => (Db.mem_liveRuns.mp hr).2) order)
        (Reaches.refl db)
  | processStopRequests drivers now order =>
      exact Ran.forEach_preserves (I := Reaches db) (fun e _ _ h => h.step (.stop drivers now e))
        (Reaches.refl db)
  | enforceWindows drivers clock why order =>
      refine Ran.forEach_preserves (I := Reaches db) ?_ (Reaches.refl db)
      intro id _ db' h
      split_ifs
      · exact h.kill drivers _ id _
      · exact h
  | advanceLease drivers now sessions order machine =>
      exact advanceLease_reaches drivers now sessions order machine db
  | advanceRuns drivers clock observed order =>
      exact forEach_moves_preserves (I := Reaches db) (fun _ _ => advanceOne_moves drivers)
        (fun _ _ _ hfin h => h.advance hfin) (nodup_arranged List.filter_sublist order)
        (finishable_of_live List.filter_sublist (fun _ hr => (Db.mem_liveRuns.mp hr).2) order)
        (Reaches.refl db)
  | killSessionRuns drivers now order session reason =>
      exact Ran.forEach_preserves (I := Reaches db) (fun id _ _ h => h.kill drivers now id reason)
        (Reaches.refl db)
  | reapTeardowns drivers clock now =>
      have hfold : ∀ (l : List RunId) (db' : Db), Reaches db db' →
          Reaches db (l.foldl (reapTeardown drivers clock now) db') := by
        intro l
        induction l with
        | nil => exact fun _ h => h
        | cons id l ih => exact fun _ h => ih _ (h.step (.reap drivers clock now id))
      exact hfold _ db (Reaches.refl db)
  | campaignTurn held blocked finds campaign =>
      exact (Reaches.refl db).step (.turn held blocked finds campaign)
  | planCandidate campaign verify config valid =>
      exact (Reaches.refl db).step (.plan campaign verify config valid)
  | launchValidationRun session config => exact (Reaches.refl db).step (.validate session config)
  | outside machines campaigns sessions stopRequests =>
      exact (Reaches.refl db).step (.outside machines campaigns sessions stopRequests)

/-! ## Runs -/

/-- In every run that takes none of the four ways, a candidate of the policy's campaign is never VALID
or PENDING, so whatever is VALID is another campaign's, and no run of it was withdrawn. -/
theorem policy_candidates_idle {p : CampaignId} {db : Db} (h : LedgerOnly p db)
    (steps : List LedgerStep)
    (hsteps : Along LedgerStep.apply (fun db s => s.KeepsPolicy p db ∧ s.Spares p db) db steps) :
    (∀ k ∈ (runFrom LedgerStep.apply db steps).candidates.rows,
      k.campaignId = p → k.status ≠ .valid ∧ k.status ≠ .pending) ∧
      ∀ r ∈ (runFrom LedgerStep.apply db steps).runs.rows,
        r.campaignId = p → ¬ (r.status = .killed ∧ r.failureClass = released) := by
  have hend : LedgerOnly p (runFrom LedgerStep.apply db steps) :=
    invariant_runFrom (fun _ s hs hcond => s.apply_ledger hs hcond.1 hcond.2) h hsteps
  refine ⟨hend.idle, ?_⟩
  rintro r hr hp ⟨hkilled, hclass⟩
  have hfailed := hend.unreleased r hr hp hclass
  rw [hkilled] at hfailed
  cases hfailed

/-- A policy campaign with its session on the whole of one machine. -/
def nightOf (status : SessionStatus) : Db where
  machines := .single { id := 1, name := "node-1", state := .reserved, leaseState := .active }
  campaigns := .single { id := 1, status := .active, policyId := some 1 }
  sessions := .single { id := 1, campaignId := 1, machineId := some 1, status := status,
                        gpuIndices := List.range 8, ports := [28200] }

theorem nightOf_ledgerOnly (status : SessionStatus) : LedgerOnly 1 (nightOf status) where
  policy := rfl
  idle := by simp [nightOf]
  unreleased := by simp [nightOf]
  candidate := by simp [nightOf]
  session := by simp [nightOf]

/-- A config on one card. -/
def oneCard : LaunchConfig := { cards := 1, podCards := 1, worldSize := 1 }

/-- An engine that runs out of memory as it starts. -/
def outOfMemory : Observed := { allWell with launch := .refused "oom" "CUDA out of memory" }

/-- The policy launches an engine on card 0. -/
def launchesOne : LedgerStep := .launch 1 { gpuIndices := [0], config := some oneCard }

/-- The campaign is paused; `requests` are the stops asked for. -/
def pauses (status : SessionStatus) (requests : List StopRequest) : LedgerStep :=
  .outside (nightOf status).machines (.single { id := 1, status := .paused, policyId := some 1 })
    (nightOf status).sessions requests

/-- The four ways: a validation run whose image is missing, a launch withdrawn from the cluster's queue
by a pause, a validation run met by a stop of the campaign, and a retry after a launch failed. -/
theorem policy_candidates_queued :
    (LedgerOnly 1 (nightOf .validating) ∧ LedgerOnly 1 (nightOf .searching)) ∧
      ∀ steps ∈ [
        ((nightOf .validating), [.validate 1 oneCard,
          .advance (fun _ => cleanTeardown) 5 imageMissing 1]),
        ((nightOf .searching), [launchesOne, pauses .searching [],
          .withdraw (fun _ => cleanTeardown) (fun _ => 5) (fun _ => ⟨false, true⟩) 1]),
        ((nightOf .validating), [.validate 1 oneCard, pauses .validating [⟨1, true⟩],
          .stop (fun _ => cleanTeardown) 5 ⟨1, true⟩]),
        ((nightOf .searching), [launchesOne, .advance (fun _ => cleanTeardown) 5 outOfMemory 1,
          .retryFailed (fun _ => false) 1])],
        (runFrom LedgerStep.apply steps.1 steps.2).candidates.rows.map
          (fun k => (k.campaignId, k.status)) = [(1, CandidateStatus.valid)] := by
  refine ⟨⟨nightOf_ledgerOnly _, nightOf_ledgerOnly _⟩, ?_⟩
  simp only [List.forall_mem_cons, List.not_mem_nil, false_implies, implies_true, and_true]
  refine ⟨by decide, by decide, by decide, by decide⟩

/-- A validation run that runs out of memory is final: its candidate stays in the ledger. -/
theorem policy_candidates_idle_outOfMemory :
    let steps := [.validate 1 oneCard, .advance (fun _ => cleanTeardown) 5 outOfMemory 1]
    let db := runFrom LedgerStep.apply (nightOf .validating) steps
    db.runs.rows.map (fun r => (r.status, r.failureClass)) = [(.failed, "oom")] ∧
      ∀ k ∈ db.candidates.rows, k.campaignId = 1 → k.status ≠ .valid ∧ k.status ≠ .pending := by
  refine ⟨by decide, (policy_candidates_idle (nightOf_ledgerOnly _) _ ?_).1⟩
  refine ⟨⟨trivial, trivial⟩, ⟨trivial, ?_⟩, trivial⟩
  have hclass : ∀ r ∈ (LedgerStep.apply (nightOf .validating) (.validate 1 oneCard)).runs.rows,
      outOfMemory.failureOf r = some "oom" := by decide
  intro r hr _ _ _ _ c hc
  rw [hclass r hr] at hc
  rw [← Option.some.inj hc]
  decide

end AutoTune
