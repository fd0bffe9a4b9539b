import AutoTune.Policy.LedgerRows
import AutoTune.Policy.Nights
import AutoTune.Supervisor.GangPromise
import AutoTune.Supervisor.ReservedMachines

/-!
# No machine is left RESERVED

A policy session holds its machine from the moment the queue gives it one until `_terminate`. With the
session engine beside the worker's loops, every step keeps each RESERVED machine held, except the
janitor's when it gives up a gang of which only some members are stuck.
-/

namespace AutoTune

open Lib

/-! ## Sessions -/

section Sessions

variable {db : Db}

/-- Whatever becomes of a session, only its own machine can lose its holder. -/
theorem Db.Held.leaveSession (h : db.Held) {id : SessionId} {s : PolicySession}
    {f : PolicySession → PolicySession} {hf : ∀ s, (f s).id = s.id}
    (hget : db.sessions.get? id = some s) : (db.setSession id f hf).HeldBut s.machineId.toList := by
  intro m hm hres hfree
  refine (h m hm hres).imp_left fun hheld hvacant => hheld ?_
  rw [vacant_iff] at hvacant ⊢
  refine ⟨hvacant.1, fun t ht hlive hon => ?_⟩
  by_cases hid : t.id = id
  · rw [Table.get?_eq_some_iff.mpr ⟨ht, hid⟩] at hget
    rw [Option.some.inj hget] at hon
    exact hfree (by simp [hon])
  · exact hvacant.2 t (Db.mem_setSession.mpr ⟨t, ht, by rw [if_neg hid]⟩) hlive hon

/-- A session that ends offers its machine back. -/
theorem terminate_held (h : db.Held) (id : SessionId) (status : SessionStatus)
    (error failureClass : String) : (terminate id status error failureClass db).Held := by
  unfold terminate
  cases hget : db.sessions.get? id with
  | none => exact h
  | some s =>
      dsimp only
      have hleft : (db.setSession id fun s => s.ended status error failureClass).HeldBut
          s.machineId.toList := h.leaveSession hget
      refine Db.Held.keeps ?_ (.of_eq rfl rfl rfl)
      cases hm : s.machineId with
      | none =>
          rw [hm] at hleft
          exact heldBut_nil.mp hleft
      | some m =>
          rw [hm] at hleft
          exact heldBut_nil.mp hleft.offer

/-- A session stays on its machine in every status but the terminal ones. -/
theorem setStatus_keeps (id : SessionId) {status : SessionStatus} (hlive : status.terminal = false) :
    db.KeepsHolders (db.setStatus id status) := by
  refine .setSession fun s _ _ _ m hon => ⟨?_, hon⟩
  simp [PolicySession.live, hlive]

theorem blame_keeps (id : SessionId) (failureClass error : String) :
    db.KeepsHolders (db.setSession id fun s => s.blame failureClass error) :=
  .setSession fun _ _ _ hlive _ hon => ⟨hlive, hon⟩

theorem endSearch_keeps (id : SessionId) (reason : String) :
    db.KeepsHolders (db.endSearch id reason) :=
  .setSession fun _ _ _ hlive _ hon => ⟨hlive, hon⟩

theorem beginFinalizing_keeps (id : SessionId) (now : Time) (reason : String) :
    db.KeepsHolders (beginFinalizing id now reason db) :=
  .setSession fun _ _ _ _ _ hon => ⟨rfl, hon⟩

/-- A machine is reserved for somebody who is on it. -/
theorem reserve_held (h : db.Held) {m : MachineId} (hheld : ¬ db.Vacant m) : (db.reserve m).Held := by
  intro m' hm' hres
  rcases Db.mem_setMachine.mp hm' with ⟨m₀, hm₀, rfl⟩
  split_ifs at hres ⊢ with hid
  · exact Or.inl (hid ▸ hheld)
  · exact h m₀ hm₀ hres

section

variable (drivers : RunId → TeardownReplies) (now : Time) (order : RowOrder RunId)

theorem killSessionRuns_held (h : db.Held) (id : SessionId) (reason : String) :
    (killSessionRuns drivers now order id reason db).state.Held :=
  killRuns_held drivers now reason _ h

theorem failTowardValidation_held (h : db.Held) (f : SessionFinds) (id : SessionId)
    (failureClass error : String) :
    (failTowardValidation drivers now order f id failureClass error db).state.Held := by
  refine Ran.andThen_preserves (I := Db.Held)
    (killSessionRuns_held drivers now order (h.keeps (blame_keeps id _ _)) id _) ?_
  exact fun db' h' => h'.keeps (setStatus_keeps id rfl)

/-- The container starts on the machine its session was given. -/
theorem advancePending_held (h : db.Held) {s : PolicySession} (f : SessionFinds)
    (hget : db.sessions.get? s.id = some s) : (advancePending f s db).Held := by
  unfold advancePending
  split
  · exact terminate_held h s.id _ _ _
  split
  · exact terminate_held h s.id _ _ _
  split
  · exact h
  rename_i m hm
  split
  · exact terminate_held h s.id _ _ _
  split
  · exact terminate_held h s.id _ _ _
  split
  · exact h
  · exact terminate_held h s.id _ _ _
  · exact terminate_held h s.id _ _ _
  · refine reserve_held (h.keeps (setStatus_keeps s.id rfl)) ?_
    refine not_vacant_iff.mpr (Or.inr ⟨{ s with status := .starting }, ?_, rfl, hm⟩)
    exact Db.mem_setSession.mpr
      ⟨s, (Table.get?_eq_some_iff.mp hget).1, by rw [if_pos rfl]⟩

theorem advanceStarting_held (h : db.Held) (f : SessionFinds) (s : PolicySession) :
    (advanceStarting drivers now order f s db).state.Held := by
  unfold advanceStarting
  split
  · exact h.keeps (setStatus_keeps s.id rfl)
  split
  · exact failTowardValidation_held drivers now order h f s.id _ _
  split
  · exact failTowardValidation_held drivers now order h f s.id _ _
  split
  · exact failTowardValidation_held drivers now order h f s.id _ _
  · exact h

theorem advanceSearching_held (h : db.Held) (f : SessionFinds) (s : PolicySession) :
    (advanceSearching drivers now order f s db).state.Held := by
  unfold advanceSearching
  split
  · exact failTowardValidation_held drivers now order (h.keeps (endSearch_keeps s.id _)) f s.id _ _
  split
  · exact failTowardValidation_held drivers now order (h.keeps (endSearch_keeps s.id _)) f s.id _ _
  · exact h.keeps (beginFinalizing_keeps s.id now _)
  · exact (h.keeps (blame_keeps s.id _ _)).keeps (beginFinalizing_keeps s.id now _)
  · split
    · exact h.keeps (beginFinalizing_keeps s.id now _)
    · split
      · exact h.keeps (beginFinalizing_keeps s.id now _)
      · exact h

theorem advanceFinalizing_held (h : db.Held) (f : SessionFinds) (s : PolicySession) :
    (advanceFinalizing drivers now order f s db).state.Held := by
  unfold advanceFinalizing
  split
  · exact h
  · refine Ran.andThen_preserves (I := Db.Held) (killSessionRuns_held drivers now order h s.id _) ?_
    intro db' h'
    dsimp only
    split
    · exact (h'.keeps (blame_keeps s.id _ _)).keeps (setStatus_keeps s.id rfl)
    · exact h'.keeps (setStatus_keeps s.id rfl)

theorem launchValidations_held (h : db.Held) (session : SessionId) (configs : List LaunchConfig) :
    (launchValidations session configs db).1.Held := by
  induction configs generalizing db with
  | nil => exact h
  | cons config configs ih =>
      unfold launchValidations
      cases hrun : launchValidationRun session config db with
      | none => exact h
      | some db' =>
          have hk := launchValidationRun_keeps session config db
          rw [hrun, Option.getD_some] at hk
          exact ih (h.keeps hk)

theorem handleSession_held (h : db.Held) (f : SessionFinds) {s : PolicySession}
    (hget : db.sessions.get? s.id = some s) :
    (handleSession drivers now order f s db).state.Held := by
  unfold handleSession
  split
  · exact advancePending_held h f hget
  · exact advanceStarting_held drivers now order h f s
  · exact advanceSearching_held drivers now order h f s
  · exact advanceFinalizing_held drivers now order h f s
  · have hlaunched := launchValidations_held h s.id f.validations
    simp only [Ran.done_state, advanceValidating]
    split
    · exact hlaunched
    · exact terminate_held hlaunched s.id _ _ _
  · exact h

theorem endSession_held (h : db.Held) (s : PolicySession) (status : SessionStatus)
    (reason error : String) : (endSession drivers now order s status reason error db).state.Held :=
  Ran.andThen_preserves (I := Db.Held) (killSessionRuns_held drivers now order h s.id reason)
    fun _ h' => terminate_held h' s.id status error ""

/-- A visit of the engine keeps every RESERVED machine held, whether or not it raises. -/
theorem advanceSession_held (h : db.Held) (f : SessionFinds) (id : SessionId) :
    (advanceSession drivers now order f id db).state.Held := by
  unfold advanceSession
  cases hget : db.sessions.get? id with
  | none => exact h
  | some s =>
      have hid : s.id = id := (Table.get?_eq_some_iff.mp hget).2
      dsimp only
      split
      · exact terminate_held h id _ _ _
      split
      · exact endSession_held drivers now order h s _ _ _
      split
      · exact endSession_held drivers now order h s _ _ _
      · exact handleSession_held drivers now order h f (hid ▸ hget)

end

theorem ensureSessions_keeps (db : Db) : db.KeepsHolders (ensureSessions db) := by
  refine Db.KeepsHolders.foldl ?_ _ db
  intro db c
  unfold ensureSession
  split
  · exact .refl db
  · split_ifs
    · exact .refl db
    · exact .of_added rfl (List.append_nil _).symm rfl

/-- A session that waits is on no machine yet. -/
theorem tryReserve_keeps (held : Reservations) (blocked : List MachineId) (needs : PolicyNeeds)
    (session : SessionId) (db : Db) :
    db.KeepsHolders (tryReserve held blocked needs session db).1 := by
  rcases tryReserve_cases held blocked needs session db with
    hsame | ⟨s, c, m, cards, ports, hget, hwait, -, -, hdb⟩
  · rw [hsame]
    exact .refl db
  · rw [hdb]
    refine .setSession fun t ht hid _ m' hon => ?_
    rw [Table.get?_eq_some_iff.mpr ⟨ht, hid⟩] at hget
    rw [Option.some.inj hget, (waitingFor_spec hwait).2.1] at hon
    cases hon

end Sessions

/-! ## Requests -/

theorem requestLaunch_keeps (session : SessionId) (body : LaunchIn) (db : Db) :
    db.KeepsHolders (requestLaunch session body db) := by
  rcases requestLaunch_cases session body db with
    hsame | ⟨s, config, cards, port, r, -, -, -, -, hr, -, -⟩
  · rw [hsame]
    exact .refl db
  · exact .of_added hr.machines hr.rows (by rw [hr.sessions, List.append_nil])

theorem benchLaunch_keeps (session : SessionId) (body : LaunchBenchmarkIn) (db : Db) :
    db.KeepsHolders (benchLaunch session body db) := by
  rcases benchLaunch_cases session body db with hsame | ⟨s, parent, -, -, -, -, -, -, hadd⟩
  · rw [hsame]
    exact .refl db
  · rw [hadd]
    exact .of_added rfl rfl (List.append_nil _).symm

theorem benchExternal_keeps (session : SessionId) (body : ExternalBenchmarkIn) (db : Db) :
    db.KeepsHolders (benchExternal session body db) := by
  rcases benchExternal_cases session body db with hsame | ⟨s, config, -, -, -, -, -, -, hadd⟩
  · rw [hsame]
    exact .refl db
  · rw [hadd]
    exact .of_added rfl rfl (List.append_nil _).symm

theorem serveContender_keeps (session : SessionId) (config : Option LaunchConfig) (port : Nat)
    (db : Db) : db.KeepsHolders (serveContender session config port db) := by
  unfold serveContender
  split
  · exact .refl db
  · split_ifs
    · exact .of_added rfl rfl (List.append_nil _).symm
    · exact .refl db

theorem validateConfigs_keeps (campaign : CampaignId) (machine : String) (now until_ : Time) (db : Db) :
    db.KeepsHolders ((validateConfigs campaign machine now until_ db).getD db) := by
  unfold validateConfigs
  cases db.validateTarget campaign machine with
  | none => exact .refl db
  | some target => exact .of_added rfl (List.append_nil _).symm rfl

/-! ## Runs -/

/-- `result` differs from `db` in nothing a hold is read from: no row becomes RESERVED or leaves its
quarantine, no run that holds lets go or moves, no live session ends or moves. -/
def Db.holdersKept (db result : Db) : Bool :=
  (result.machines.rows.all fun m => m.state != .reserved ||
    (db.machines.get? m.id).any fun old =>
      old.state == .reserved && (!old.needsAttention || m.needsAttention)) &&
  (db.runs.rows.all fun r => !r.holding ||
    (result.runs.get? r.id).any fun r' => r'.holding && r'.nodes == r.nodes) &&
  (db.sessions.rows.all fun s => !s.live ||
    (result.sessions.get? s.id).any fun s' => s'.live && s'.machineId == s.machineId)

/-- What a tick does, the requests between ticks, and whatever else is written: no other code reserves
a machine, ends a quarantine or deletes a run or a session. -/
inductive TickStep where
  | worker (step : WorkerStep)
  | ensureSessions
  | visit (now : Time) (v : Visit) (session : SessionId)
  | tryReserve (held : Reservations) (blocked : List MachineId) (needs : PolicyNeeds)
      (session : SessionId)
  | lease (call : LeaseCall)
  | launch (session : SessionId) (body : LaunchIn)
  | benchLaunch (session : SessionId) (body : LaunchBenchmarkIn)
  | benchExternal (session : SessionId) (body : ExternalBenchmarkIn)
  | serve (session : SessionId) (config : Option LaunchConfig) (port : Nat)
  | validate (campaign : CampaignId) (machine : String) (now until_ : Time)
  | outside (result : Db)

/-- Is this step the worker's own, and not what others write between its steps? -/
def WorkerStep.isOwn : WorkerStep → Bool
  | .outside .. => false
  | _ => true

namespace TickStep

def apply (db : Db) : TickStep → Db
  | .worker step => if step.isOwn then step.apply db else db
  | .ensureSessions => AutoTune.ensureSessions db
  | .visit now v session => (advanceSession v.drivers now v.order v.finds session db).state
  | .tryReserve held blocked needs session => (AutoTune.tryReserve held blocked needs session db).1
  | .lease call => call.apply db
  | .launch session body => requestLaunch session body db
  | .benchLaunch session body => AutoTune.benchLaunch session body db
  | .benchExternal session body => AutoTune.benchExternal session body db
  | .serve session config port => serveContender session config port db
  | .validate campaign machine now until_ => (validateConfigs campaign machine now until_ db).getD db
  | .outside result => if db.holdersKept result then result else db

/-- Whatever the janitor gives up in this step, it leaves nobody behind. -/
def Spares (db : Db) : TickStep → Prop
  | .worker (.reapTeardowns drivers clock now) =>
      Along (reapTeardown drivers clock now) (Db.GiveUpSpares drivers clock now) db db.pendingIds
  | _ => True

end TickStep

theorem keepsHolders_of_holdersKept {db result : Db} (h : db.holdersKept result = true) :
    db.KeepsHolders result := by
  simp only [Db.holdersKept, Bool.and_eq_true, List.all_eq_true] at h
  rcases h with ⟨⟨hmachines, hruns⟩, hsessions⟩
  constructor
  · intro m hvacant
    rw [vacant_iff] at hvacant ⊢
    refine ⟨fun r hr hholds => ?_, fun s hs hlive hon => ?_⟩
    · have hkept := hruns r hr
      rw [hholds, Bool.not_true, Bool.false_or, Option.any_eq_true] at hkept
      rcases hkept with ⟨r', hget, hsame⟩
      rw [Bool.and_eq_true, beq_iff_eq] at hsame
      have hoff := hvacant.1 r' (Table.get?_eq_some_iff.mp hget).1 hsame.1
      rwa [Run.onMachine, hsame.2] at hoff
    · have hkept := hsessions s hs
      rw [hlive, Bool.not_true, Bool.false_or, Option.any_eq_true] at hkept
      rcases hkept with ⟨s', hget, hsame⟩
      rw [Bool.and_eq_true, beq_iff_eq] at hsame
      exact hvacant.2 s' (Table.get?_eq_some_iff.mp hget).1 hsame.1 (hsame.2.trans hon)
  · intro m' hm' hres
    have hkept := hmachines m' hm'
    rw [hres] at hkept
    rw [bne_self_eq_false, Bool.false_or, Option.any_eq_true] at hkept
    rcases hkept with ⟨m, hget, hold⟩
    rcases Table.get?_eq_some_iff.mp hget with ⟨hm, hid⟩
    simp only [Bool.and_eq_true, Bool.or_eq_true, beq_iff_eq, Bool.not_eq_true'] at hold
    refine ⟨m, hm, hid, hold.1, fun hat => hold.2.resolve_left ?_⟩
    simp [hat]

/-- The worker's own steps keep machines held, but for what the janitor gives up. -/
theorem WorkerStep.run_held (s : WorkerStep) {db : Db} (h : db.Held) (hown : s.isOwn = true)
    (hspares : TickStep.Spares db (.worker s)) : (s.run db).state.Held := by
  cases s with
  | releaseQueuedWhilePaused drivers clock finds campaigns order =>
      exact releaseQueuedWhilePaused_held drivers h clock finds campaigns order
  | reconcile drivers clock attached order => exact reconcile_held drivers h clock attached order
  | processStopRequests drivers now order => exact processStopRequests_held drivers h now order
  | enforceWindows drivers clock why order => exact enforceWindows_held drivers h clock why order
  | advanceLease drivers now sessions order machine =>
      exact advanceLease_held drivers h now sessions order machine
  | advanceRuns drivers clock observed order => exact advanceRuns_held drivers h clock observed order
  | killSessionRuns drivers now order session reason =>
      exact killSessionRuns_held drivers now order h session reason
  | reapTeardowns drivers clock now => exact reapTeardowns_held drivers clock now h hspares
  | campaignTurn held blocked finds campaign => exact campaignTurn_held h held blocked finds campaign
  | planCandidate campaign verify config valid =>
      exact h.keeps (planCandidate_keeps campaign verify config valid db)
  | launchValidationRun session config => exact h.keeps (launchValidationRun_keeps session config db)
  | outside machines campaigns sessions stopRequests => cases hown

theorem TickStep.apply_held (a : TickStep) {db : Db} (h : db.Held) (hspares : a.Spares db) :
    (a.apply db).Held := by
  cases a with
  | worker step =>
      simp only [apply]
      split_ifs with hown
      · exact step.apply_preserves h (step.run_held h hown hspares)
      · exact h
  | ensureSessions => exact h.keeps (ensureSessions_keeps db)
  | visit now v session => exact advanceSession_held v.drivers now v.order h v.finds session
  | tryReserve held blocked needs session =>
      exact h.keeps (tryReserve_keeps held blocked needs session db)
  | lease call => exact h.keeps (leaseCall_keeps db call)
  | launch session body => exact h.keeps (requestLaunch_keeps session body db)
  | benchLaunch session body => exact h.keeps (benchLaunch_keeps session body db)
  | benchExternal session body => exact h.keeps (benchExternal_keeps session body db)
  | serve session config port => exact h.keeps (serveContender_keeps session config port db)
  | validate campaign machine now until_ =>
      exact h.keeps (validateConfigs_keeps campaign machine now until_ db)
  | outside result =>
      simp only [apply]
      split_ifs with hkept
      · exact h.keeps (keepsHolders_of_holdersKept hkept)
      · exact h

/-- An iteration of the janitor leaves no machine RESERVED for nothing exactly when the run it gives up
leaves nobody behind; in a run of ticks in which each does so there is no such machine at any moment. -/
theorem reserved_held (db : Db) (h : db.Held) :
    (∀ (drivers : RunId → ReapReplies) (clock : TeardownClock) (now : Time) (id : RunId),
      (reapTeardown drivers clock now db id).Held ↔ Db.GiveUpSpares drivers clock now db id) ∧
      ∀ steps : List TickStep, Along TickStep.apply (fun db a => a.Spares db) db steps →
        ∀ k, (runFrom TickStep.apply db (steps.take k)).Held := by
  refine ⟨fun drivers clock now id => reapTeardown_held_iff drivers clock now h id, ?_⟩
  intro steps hspares k
  have hfirst : Along TickStep.apply (fun db a => a.Spares db) db (steps.take k) := by
    rw [← List.take_append_drop k steps, along_append] at hspares
    exact hspares.1
  exact invariant_runFrom (fun _ a hdb hone => a.apply_held hdb hone) h hfirst

/-- A gang measures on both machines of a pair, and an operator asks to stop it. -/
def pairMeasured : Db where
  machines := pairTearingDown.machines
  campaigns := .single { id := 1, status := .active, nodeGroup := "pair" }
  runs := .single
    { id := 1, campaignId := 1, candidateId := 1, machineId := some 1, status := .benching,
      gpuIndices := List.range 8, workers := [⟨some 2, List.range 8⟩] }
  stopRequests := [⟨1, false⟩]

/-- The container of this node stays through every forced removal. -/
def stuckOn (name : String) : ReapReplies where
  attach := .value true
  releaseLeftovers := .value true
  unfinished := .value [name]
  teardown := .value ()

/-- The stop at 10 s, then the janitor's pass at `now`, which gives up after 900 s. -/
def stopAndReap (replies : ReapReplies) (now : Time) : List TickStep :=
  [.worker (.processStopRequests (fun _ => stubbornTeardown) 10 (RowOrder.byKey _)),
   .worker (.reapTeardowns (fun _ => replies) ⟨60, 900⟩ now)]

/-- The master's container would not go: the master is quarantined, the worker stays RESERVED. -/
theorem giveUp_forgets_worker :
    pairMeasured.Held ∧ ¬ (runFrom TickStep.apply pairMeasured
      (stopAndReap (stuckOn "alpha") 1000)).Held := by
  refine ⟨by decide, ?_⟩
  decide

/-- Once the containers are gone, late, both machines of the pair are offered back. -/
theorem reserved_held_late :
    let steps := stopAndReap (stuckOn "alpha") 100 ++
      stopAndReap { stuckOn "alpha" with attach := .value false } 200
    (runFrom TickStep.apply pairMeasured steps).machines.rows.map Machine.state =
        [.available, .available] ∧
      ∀ k, (runFrom TickStep.apply pairMeasured (steps.take k)).Held := by
  refine ⟨by decide, (reserved_held pairMeasured (by decide)).2 _ ⟨trivial, ?_, trivial, ?_, trivial⟩⟩
  · unfold TickStep.Spares
    decide
  · unfold TickStep.Spares
    decide

end AutoTune
