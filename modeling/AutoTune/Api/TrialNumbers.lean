import AutoTune.Api.IdempotencyKeys
import AutoTune.Evaluation.Rescore
import AutoTune.Lib.Numbering
import AutoTune.Lib.Trace
import Mathlib.Data.List.Sort

/-!
# The numbers of a session's trials

`POST /trials` and the worker number a trial by the session's trials they count, and add it in a later statement. A
request commits at once; the worker commits everything a tick has recorded at its end. Each statement reads what is
committed by then, the worker also what it has added itself. Nothing locks the session and no constraint makes a
number unique.
-/

namespace AutoTune

open Lib

variable {F : Type}

/-- What `_record_policy_trial` reads of a run of a session. -/
structure PlatformRun (F : Type) where
  id : RunId
  campaignId : CampaignId
  policySessionId : SessionId
  config : JsonDict F := []
  configHash : String := ""
  metrics : JsonDict F := []
  objectiveValue : Option F := none
  feasible : Bool := true

/-- A trial the worker has added and not yet committed: how many committed trials of its session were counted, and
how many of the tick's own. -/
structure UncommittedTrial (F : Type) where
  row : PolicyTrial F
  counted : Nat
  own : Nat

/-- The committed trials in the order of their commits, the open requests of a session and the worker's tick. -/
structure TrialLog (F : Type) where
  rows : List (PolicyTrial F) := []
  nextId : TrialId := 1
  requests : Nat → Option (OpenTrial F) := fun _ => none
  recording : Option (PlatformRun F) := none
  pending : List (UncommittedTrial F) := []

/-- What can happen next. -/
inductive TrialStep (F : Type) where
  | lookUp (k : Nat)
  | count (k : Nat)
  | commit (k : Nat)
  | drop (k : Nat)
  | lookUpRun (run : PlatformRun F)
  | countRun
  | commitTick
  | rollBack
  | elsewhere (row : PolicyTrial F)

/-- The row of a trial the platform measured. -/
def platformTrial (run : PlatformRun F) (count : Nat) (id : TrialId) : PolicyTrial F where
  id := id
  sessionId := run.policySessionId
  campaignId := run.campaignId
  seq := count + 1
  config := run.config
  configHash := run.configHash
  source := .platform
  runId := some run.id
  reportedMetrics := run.metrics
  reportedObjectiveValue := run.objectiveValue
  reportedFeasible := some run.feasible
  idempotencyKey := some (platformKey run.id)

namespace TrialLog

/-- How many committed trials a session has. -/
def countOf (d : TrialLog F) (session : SessionId) : Nat := d.rows.countP fun t => t.sessionId == session

/-- How many trials of a session the tick has added. -/
def ownOf (d : TrialLog F) (session : SessionId) : Nat := d.pending.countP fun p => p.row.sessionId == session

/-- The lookup of `_record_policy_trial`, in any session and in the tick's own rows too. -/
def recorded (d : TrialLog F) (run : PlatformRun F) : Bool :=
  (d.rows ++ d.pending.map UncommittedTrial.row).any fun t => t.idempotencyKey == some (platformKey run.id)

section Steps

variable (session : PolicySession) (bodies : Nat → TrialIn F)

/-- The lookup of `report_trial`: a known key is answered with its trial. -/
def lookUpOf (d : TrialLog F) (k : Nat) : TrialLog F :=
  match d.requests k, keyOf (bodies k).idempotencyKey with
  | some _, _ => d
  | none, none => { d with requests := Function.update d.requests k (some { body := bodies k }) }
  | none, some key =>
      match scalarOneOrNone (d.rows.filter fun t => t.sessionId == session.id && t.idempotencyKey == some key) with
      | .ok none => { d with requests := Function.update d.requests k (some { body := bodies k }) }
      | .ok (some _) | .error _ => d

/-- The count of `report_trial`. -/
def countTrial (d : TrialLog F) (k : Nat) : TrialLog F :=
  match d.requests k with
  | none => d
  | some t => { d with requests := Function.update d.requests k (some { t with counted := some (d.countOf session.id) }) }

/-- The insert and the commit of `report_trial`. -/
def commitTrial (d : TrialLog F) (k : Nat) : TrialLog F :=
  match d.requests k with
  | some { body := body, counted := some count } =>
      { d with
        rows := d.rows ++ [reportedTrial session body count d.nextId]
        nextId := d.nextId + 1
        requests := Function.update d.requests k none }
  | _ => d

/-- The count and the insert of `_record_policy_trial`. -/
def countRunOf (d : TrialLog F) : TrialLog F :=
  match d.recording with
  | none => d
  | some run =>
      let counted := d.countOf run.policySessionId
      let own := d.ownOf run.policySessionId
      { d with
        pending := d.pending ++ [⟨platformTrial run (counted + own) d.nextId, counted, own⟩]
        nextId := d.nextId + 1
        recording := none }

/-- One statement of the interleaving. -/
def step (d : TrialLog F) : TrialStep F → TrialLog F
  | .lookUp k => d.lookUpOf session bodies k
  | .count k => d.countTrial session k
  | .commit k => d.commitTrial session k
  | .drop k => { d with requests := Function.update d.requests k none }
  | .lookUpRun run => if d.recorded run then d else { d with recording := some run }
  | .countRun => d.countRunOf
  | .commitTick => { d with rows := d.rows ++ d.pending.map UncommittedTrial.row, pending := [], recording := none }
  | .rollBack => { d with pending := [], recording := none }
  | .elsewhere row => if row.sessionId = session.id then d else { d with rows := d.rows ++ [row] }

/-- The trials of the session, in the order of their commits. -/
def sessionRows (d : TrialLog F) : List (PolicyTrial F) := d.rows.filter fun t => t.sessionId == session.id

/-- What the tick has added to the session. -/
def sessionPending (d : TrialLog F) : List (UncommittedTrial F) :=
  d.pending.filter fun p => p.row.sessionId == session.id

/-- `list_trials`. -/
def listTrials (d : TrialLog F) : List (PolicyTrial F) :=
  (d.sessionRows session).insertionSort fun a b => a.seq ≤ b.seq

/-- What a step commits to the session. -/
def landing (d : TrialLog F) : TrialStep F → List (UncommittedTrial F)
  | .commit k =>
      match d.requests k with
      | some { body := body, counted := some count } => [⟨reportedTrial session body count d.nextId, count, 0⟩]
      | _ => []
  | .commitTick => d.sessionPending session
  | _ => []

/-- Since what the step commits was counted, no trial of the session was committed. -/
def CommitsAlone (d : TrialLog F) (s : TrialStep F) : Prop :=
  ∀ p ∈ d.landing session s, p.counted = (d.sessionRows session).length

end Steps

end TrialLog

/-- In every state of a run the session's trials are numbered `1..n`, and what a reader is shown by number only
grows at its end. -/
structure TrialsInOrder (session : PolicySession) (bodies : Nat → TrialIn F) (steps : List (TrialStep F)) : Prop where
  numbered : ∀ before after, steps = before ++ after →
    Numbered (((runFrom (TrialLog.step session bodies) {} before).sessionRows session).map PolicyTrial.seq)
  streamed : ∀ before between after, steps = before ++ between ++ after →
    (runFrom (TrialLog.step session bodies) {} before).listTrials session <+:
      (runFrom (TrialLog.step session bodies) {} (before ++ between)).listTrials session

namespace TrialLog

variable {session : PolicySession} {bodies : Nat → TrialIn F}

/-! ## What a step commits -/

theorem lookUpOf_rows (d : TrialLog F) (k : Nat) :
    (d.lookUpOf session bodies k).rows = d.rows ∧ (d.lookUpOf session bodies k).pending = d.pending := by
  unfold lookUpOf
  split
  · exact ⟨rfl, rfl⟩
  · exact ⟨rfl, rfl⟩
  · split <;> exact ⟨rfl, rfl⟩

theorem countTrial_rows (d : TrialLog F) (k : Nat) :
    (d.countTrial session k).rows = d.rows ∧ (d.countTrial session k).pending = d.pending := by
  unfold countTrial
  split <;> exact ⟨rfl, rfl⟩

theorem countRunOf_rows (d : TrialLog F) : d.countRunOf.rows = d.rows ∧ d.countRunOf.requests = d.requests := by
  unfold countRunOf
  split <;> exact ⟨rfl, rfl⟩

/-- A step appends what it commits to the session's trials. -/
theorem sessionRows_step (d : TrialLog F) (s : TrialStep F) :
    (d.step session bodies s).sessionRows session =
      d.sessionRows session ++ (d.landing session s).map UncommittedTrial.row := by
  cases s with
  | lookUp k => simp only [step, sessionRows, landing, (lookUpOf_rows d k).1, List.map_nil, List.append_nil]
  | count k => simp only [step, sessionRows, landing, (countTrial_rows d k).1, List.map_nil, List.append_nil]
  | commit k =>
      simp only [step, commitTrial, landing]
      split
      · simp [sessionRows, reportedTrial]
      · simp
  | drop k => simp only [step, sessionRows, landing, List.map_nil, List.append_nil]
  | lookUpRun run =>
      simp only [step, landing, List.map_nil, List.append_nil]
      split <;> rfl
  | countRun => simp only [step, sessionRows, landing, (countRunOf_rows d).1, List.map_nil, List.append_nil]
  | commitTick =>
      simp only [step, sessionRows, landing, sessionPending, List.filter_append, List.filter_map]
      rfl
  | rollBack => simp only [step, sessionRows, landing, List.map_nil, List.append_nil]
  | elsewhere row =>
      simp only [step, landing, List.map_nil, List.append_nil]
      split_ifs with hsession
      · rfl
      · simp [sessionRows, hsession]

/-- A later reader is shown what an earlier one was, and more. -/
theorem sessionRows_extended (bodies : Nat → TrialIn F) (d : TrialLog F) (steps : List (TrialStep F)) :
    d.sessionRows session <+: (runFrom (step session bodies) d steps).sessionRows session := by
  induction steps generalizing d with
  | nil => exact List.prefix_refl _
  | cons s steps ih =>
      have hstep : d.sessionRows session <+: (d.step session bodies s).sessionRows session := by
        rw [sessionRows_step]
        exact List.prefix_append _ _
      exact hstep.trans (ih _)

/-! ## What was counted -/

/-- What a list of counted trials says: each has the number that was counted, none was counted at more trials than
there are, and a tick's own are counted one after another. -/
structure CountedAt (n : Nat) (l : List (UncommittedTrial F)) : Prop where
  seq : ∀ p ∈ l, p.row.seq = p.counted + p.own + 1
  counted : ∀ p ∈ l, p.counted ≤ n
  own : l.map UncommittedTrial.own = List.range l.length

/-- Nothing open was counted at more trials than the session has. -/
structure Counted (session : PolicySession) (d : TrialLog F) : Prop where
  requests : ∀ k t, d.requests k = some t → ∀ count ∈ t.counted, count ≤ (d.sessionRows session).length
  pending : CountedAt (d.sessionRows session).length (d.sessionPending session)

theorem CountedAt.mono {n m : Nat} {l : List (UncommittedTrial F)} (h : CountedAt n l) (hle : n ≤ m) : CountedAt m l :=
  ⟨h.seq, fun p hp => (h.counted p hp).trans hle, h.own⟩

theorem countedAt_nil (n : Nat) : CountedAt n ([] : List (UncommittedTrial F)) :=
  ⟨fun _ h => absurd h List.not_mem_nil, fun _ h => absurd h List.not_mem_nil, rfl⟩

theorem CountedAt.snoc {n : Nat} {l : List (UncommittedTrial F)} (h : CountedAt n l) {p : UncommittedTrial F}
    (hseq : p.row.seq = p.counted + p.own + 1) (hcounted : p.counted ≤ n) (hown : p.own = l.length) :
    CountedAt n (l ++ [p]) := by
  refine ⟨fun q hq => ?_, fun q hq => ?_, ?_⟩
  · rcases List.mem_append.mp hq with hq | hq
    · exact h.seq q hq
    · rw [List.mem_singleton.mp hq]
      exact hseq
  · rcases List.mem_append.mp hq with hq | hq
    · exact h.counted q hq
    · rw [List.mem_singleton.mp hq]
      exact hcounted
  · rw [List.map_append, h.own, List.map_singleton, hown, List.length_append, List.length_singleton, List.range_succ]

theorem counted_start : Counted session ({} : TrialLog F) :=
  ⟨fun _ _ h => absurd h.symm (Option.some_ne_none _), countedAt_nil _⟩

theorem countOf_session (d : TrialLog F) : d.countOf session.id = (d.sessionRows session).length :=
  List.countP_eq_length_filter ..

theorem ownOf_session (d : TrialLog F) : d.ownOf session.id = (d.sessionPending session).length :=
  List.countP_eq_length_filter ..

/-- What a step commits was counted too. -/
theorem Counted.landing {d : TrialLog F} (h : Counted session d) (s : TrialStep F) :
    CountedAt (d.sessionRows session).length (d.landing session s) := by
  cases s with
  | commit k =>
      simp only [TrialLog.landing]
      split
      · rename_i body count hopen
        exact (countedAt_nil _).snoc rfl (h.requests k _ hopen count rfl) rfl
      · exact countedAt_nil _
  | commitTick => exact h.pending
  | _ => exact countedAt_nil _

/-- Open requests after one of them has moved on. -/
theorem requests_update {d : TrialLog F} {n : Nat}
    (h : ∀ k t, d.requests k = some t → ∀ count ∈ t.counted, count ≤ n) (k : Nat) {opened : Option (OpenTrial F)}
    (hopened : ∀ t, opened = some t → ∀ count ∈ t.counted, count ≤ n) :
    ∀ j t, Function.update d.requests k opened j = some t → ∀ count ∈ t.counted, count ≤ n := by
  intro j t ht
  by_cases hj : j = k
  · subst hj
    rw [Function.update_self] at ht
    exact hopened t ht
  · rw [Function.update_of_ne hj] at ht
    exact h j t ht

theorem Counted.requests_step {d : TrialLog F} (h : Counted session d) (s : TrialStep F) :
    ∀ k t, (d.step session bodies s).requests k = some t → ∀ count ∈ t.counted,
      count ≤ (d.sessionRows session).length := by
  -- a request that has just been opened has counted nothing
  have hopened : ∀ (body : TrialIn F) (t : OpenTrial F), some { body := body } = some t → ∀ count ∈ t.counted,
      count ≤ (d.sessionRows session).length := by
    intro body t ht count hcount
    cases ht
    cases hcount
  cases s with
  | lookUp j =>
      simp only [TrialLog.step, lookUpOf]
      split
      · exact h.requests
      · exact requests_update h.requests j (hopened _)
      · split
        · exact requests_update h.requests j (hopened _)
        · exact h.requests
        · exact h.requests
  | count j =>
      simp only [TrialLog.step, countTrial]
      split
      · exact h.requests
      · refine requests_update h.requests j fun t ht count hcount => ?_
        -- what a request counts are rows that are there
        cases ht
        cases hcount
        exact (countOf_session d).le
  | commit j =>
      simp only [TrialLog.step, commitTrial]
      split
      · exact requests_update h.requests j fun _ ht => absurd ht.symm (Option.some_ne_none _)
      · exact h.requests
  | drop j => exact requests_update h.requests j fun _ ht => absurd ht.symm (Option.some_ne_none _)
  | lookUpRun run =>
      simp only [TrialLog.step]
      split <;> exact h.requests
  | countRun =>
      simp only [TrialLog.step, (countRunOf_rows d).2]
      exact h.requests
  | commitTick => exact h.requests
  | rollBack => exact h.requests
  | elsewhere row =>
      simp only [TrialLog.step]
      split <;> exact h.requests

theorem Counted.pending_step {d : TrialLog F} (h : Counted session d) (s : TrialStep F) :
    CountedAt (d.sessionRows session).length ((d.step session bodies s).sessionPending session) := by
  cases s with
  | lookUp j =>
      simp only [TrialLog.step, sessionPending, (lookUpOf_rows d j).2]
      exact h.pending
  | count j =>
      simp only [TrialLog.step, sessionPending, (countTrial_rows d j).2]
      exact h.pending
  | commit j =>
      simp only [TrialLog.step, commitTrial]
      split <;> exact h.pending
  | drop j => exact h.pending
  | lookUpRun run =>
      simp only [TrialLog.step]
      split <;> exact h.pending
  | countRun =>
      simp only [TrialLog.step, countRunOf]
      split
      · exact h.pending
      · rename_i run hrun
        simp only [sessionPending, List.filter_append]
        by_cases hsession : run.policySessionId = session.id
        · -- one more of the session's own, counted behind the others
          rw [List.filter_cons_of_pos (by simpa [platformTrial] using hsession), List.filter_nil]
          refine h.pending.snoc rfl ?_ ?_
          · rw [hsession]
            exact (countOf_session d).le
          · rw [hsession]
            exact ownOf_session d
        · rw [List.filter_cons_of_neg (by simpa [platformTrial] using hsession), List.filter_nil, List.append_nil]
          exact h.pending
  | commitTick => exact countedAt_nil _
  | rollBack => exact countedAt_nil _
  | elsewhere row =>
      simp only [TrialLog.step]
      split <;> exact h.pending

theorem Counted.step {d : TrialLog F} (h : Counted session d) (s : TrialStep F) :
    Counted session (d.step session bodies s) := by
  have hgrow : (d.sessionRows session).length ≤ ((d.step session bodies s).sessionRows session).length :=
    (sessionRows_extended bodies d [s]).length_le
  exact ⟨fun k t ht count hcount => (h.requests_step s k t ht count hcount).trans hgrow,
    (h.pending_step s).mono hgrow⟩

/-! ## When the numbers are a sequence -/

/-- The places behind a session's trials. -/
theorem CountedAt.places {n : Nat} {l : List (UncommittedTrial F)} (h : CountedAt n l) (m : Nat) :
    l.map (fun p => m + p.own + 1) = List.range' (m + 1) l.length := by
  calc
    l.map (fun p => m + p.own + 1) = (l.map UncommittedTrial.own).map (fun i => m + 1 + i) := by
        rw [List.map_map]
        refine List.map_congr_left fun p _ => ?_
        simp only [Function.comp_apply]
        omega
    _ = List.range' (m + 1) l.length := by rw [h.own, List.range'_eq_map_range]

theorem CountedAt.seqs {n : Nat} {l : List (UncommittedTrial F)} (h : CountedAt n l) :
    (l.map UncommittedTrial.row).map PolicyTrial.seq = l.map (fun p => p.counted + p.own + 1) := by
  rw [List.map_map]
  exact List.map_congr_left fun p hp => h.seq p hp

/-- The session's trials are numbered in the order of their commits. -/
def Sequential (session : PolicySession) (d : TrialLog F) : Prop :=
  (d.sessionRows session).map PolicyTrial.seq = List.range' 1 (d.sessionRows session).length

theorem sequential_start : Sequential session ({} : TrialLog F) := rfl

theorem Sequential.numbered {d : TrialLog F} (h : Sequential session d) :
    Numbered ((d.sessionRows session).map PolicyTrial.seq) := by
  rw [h]
  exact numbered_range' _

/-- A commit that nothing of the session came before goes on with the next number. -/
theorem Sequential.step {d : TrialLog F} (h : Sequential session d) (hcounted : Counted session d) {s : TrialStep F}
    (halone : d.CommitsAlone session s) : Sequential session (d.step session bodies s) := by
  have hlanding := hcounted.landing s
  unfold Sequential
  rw [sessionRows_step, List.map_append, h, hlanding.seqs, List.length_append, List.length_map]
  have hplaces : (d.landing session s).map (fun p => p.counted + p.own + 1) =
      List.range' ((d.sessionRows session).length + 1) (d.landing session s).length := by
    rw [← hlanding.places]
    exact List.map_congr_left fun p hp => by rw [halone p hp]
  rw [hplaces, Nat.add_comm _ 1, List.range'_append_1]

/-- If the numbers are still `1..n` after a step, nothing of the session came before what it commits. -/
theorem commitsAlone_of_numbered {d : TrialLog F} (hcounted : Counted session d) {s : TrialStep F}
    (h : Numbered ((d.sessionRows session).map PolicyTrial.seq))
    (hstep : Numbered (((d.step session bodies s).sessionRows session).map PolicyTrial.seq)) :
    d.CommitsAlone session s := by
  have hlanding := hcounted.landing s
  rw [sessionRows_step, List.map_append, hlanding.seqs] at hstep
  have hplaced := h.placed _ (fun p => (d.sessionRows session).length + p.own + 1) hstep
    (by rw [List.length_map, hlanding.places]) fun p hp => by
      have := hlanding.counted p hp
      omega
  intro p hp
  have := hplaced p hp
  omega

theorem listTrials_of_sequential {d : TrialLog F} (h : Sequential session d) :
    d.listTrials session = d.sessionRows session := by
  refine List.Pairwise.insertionSort_eq ?_
  have hsorted : ((d.sessionRows session).map PolicyTrial.seq).Pairwise (· ≤ ·) := by
    rw [h]
    exact List.pairwise_le_range'
  exact List.pairwise_map.mp hsorted

end TrialLog

open TrialLog in
/-- The numbers of a session's trials are a sequence in every state of a run exactly when between the count and the
commit of each of them no other trial of the session is committed. -/
theorem trials_in_order_iff (session : PolicySession) (bodies : Nat → TrialIn F) (steps : List (TrialStep F)) :
    TrialsInOrder session bodies steps ↔
      Along (TrialLog.step session bodies) (CommitsAlone session) {} steps := by
  constructor
  · intro h
    -- after each step of the run the numbers are still right
    have hfrom : ∀ (l : List (TrialStep F)) (d : TrialLog F), Counted session d →
        (∀ before after, l = before ++ after →
          Numbered (((runFrom (TrialLog.step session bodies) d before).sessionRows session).map PolicyTrial.seq)) →
        Along (TrialLog.step session bodies) (CommitsAlone session) d l := by
      intro l
      induction l with
      | nil =>
          intro d _ _
          trivial
      | cons s l ih =>
          intro d hcounted hall
          refine ⟨commitsAlone_of_numbered hcounted (hall [] (s :: l) rfl) (hall [s] l rfl), ?_⟩
          refine ih _ (hcounted.step s) fun before after hsplit => ?_
          exact hall (s :: before) after (by rw [hsplit, List.cons_append])
    exact hfrom steps {} counted_start h.numbered
  · intro h
    have hreached : ∀ before after, steps = before ++ after →
        Sequential session (runFrom (TrialLog.step session bodies) {} before) := by
      intro before after hsplit
      rw [hsplit] at h
      have hinvariant := invariant_runFrom (I := fun d => Sequential session d ∧ Counted session d)
        (fun d s hd halone => ⟨hd.1.step hd.2 halone, hd.2.step s⟩) ⟨sequential_start, counted_start⟩ (along_append.mp h).1
      exact hinvariant.1
    refine ⟨fun before after hsplit => (hreached before after hsplit).numbered, ?_⟩
    intro before between after hsplit
    rw [listTrials_of_sequential (hreached before (between ++ after) (by rw [hsplit, List.append_assoc])),
      listTrials_of_sequential (hreached (before ++ between) after hsplit), runFrom_append]
    exact sessionRows_extended bodies _ _

/-- Two clients count the same trials before either commits its own. -/
def racingReports : List (TrialStep ℚ) := [.lookUp 0, .lookUp 1, .count 0, .count 1, .commit 0, .commit 1]

/-- Both trials get the number 1. -/
theorem racingReports_sameNumber : ¬ TrialsInOrder { id := 7, campaignId := 3 } (fun _ => {}) racingReports := by
  intro h
  have hnumbers : ((runFrom (TrialLog.step { id := 7, campaignId := 3 } fun _ => {}) {}
      racingReports).sessionRows { id := 7, campaignId := 3 }).map PolicyTrial.seq = [1, 1] := by decide
  have hperm := h.numbered racingReports [] (List.append_nil _).symm
  rw [hnumbers] at hperm
  have hnodup := hperm.nodup_iff.mpr List.nodup_range'
  simp at hnodup

end AutoTune
