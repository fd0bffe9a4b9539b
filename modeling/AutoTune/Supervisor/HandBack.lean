import AutoTune.Supervisor.Steps
import AutoTune.Supervisor.Writes

/-!
# When a machine is handed back

A machine is handed back when its lease becomes RELEASED. Three kinds of occupant may stand on it: a
live run, a live policy session and a container that is still tearing down. The drain waits for the
first two; the third it does not ask about.
-/

namespace AutoTune

open Lib

/-- Nothing of ours is on the machine: no live run, no live session, no container tearing down. -/
def Db.Vacant (db : Db) (m : MachineId) : Prop :=
  db.liveRunsOn m = [] ∧ db.liveSessionsOn m = [] ∧ db.teardownPendingOn m = []

instance (db : Db) (m : MachineId) : Decidable (db.Vacant m) := by
  unfold Db.Vacant
  infer_instance

/-- Every machine released in `db'` was released in `db`. -/
def NoneReleased (db db' : Db) : Prop :=
  ∀ m' ∈ db'.machines.rows, m'.leaseState = .released →
    ∃ m ∈ db.machines.rows, m.id = m'.id ∧ m.leaseState = .released

namespace NoneReleased

theorem refl (db : Db) : NoneReleased db db := fun m hm h => ⟨m, hm, rfl, h⟩

theorem of_machines {db db' : Db} (h : db'.machines = db.machines) : NoneReleased db db' := by
  intro m' hm' hrel
  exact ⟨m', by rwa [h] at hm', rfl, hrel⟩

theorem trans {a b c : Db} (h : NoneReleased a b) (h' : NoneReleased b c) : NoneReleased a c := by
  intro m₃ hm₃ hrel
  rcases h' m₃ hm₃ hrel with ⟨m₂, hm₂, hid₂, hrel₂⟩
  rcases h m₂ hm₂ hrel₂ with ⟨m₁, hm₁, hid₁, hrel₁⟩
  exact ⟨m₁, hm₁, hid₁.trans hid₂, hrel₁⟩

/-- Updating a machine row hands nothing back unless the update itself writes RELEASED. -/
theorem setMachine (db : Db) (id : MachineId) (f : Machine → Machine) (hf : ∀ m, (f m).id = m.id)
    (hrel : ∀ m, (f m).leaseState = .released → m.leaseState = .released) :
    NoneReleased db (db.setMachine id f hf) := by
  intro m' hm' h
  rcases Db.mem_setMachine.mp hm' with ⟨m, hm, rfl⟩
  refine ⟨m, hm, ?_⟩
  split_ifs at h ⊢
  · exact ⟨(hf m).symm, hrel m h⟩
  · exact ⟨rfl, h⟩

theorem of_write {db db' : Db} (h : Write db db') : NoneReleased db db' := by
  cases h with
  | rebook id f hf hr => exact of_machines rfl
  | move id r target hget hcan => exact of_machines rfl
  | candidate id f hf => exact of_machines rfl
  | free id => exact setMachine db id _ _ fun m h => h
  | quarantine id =>
      unfold quarantineMachine
      refine setMachine db id _ _ fun m h => ?_
      exact h

theorem of_writes {db db' : Db} (h : Writes db db') : NoneReleased db db' :=
  h.preserves (I := NoneReleased db) (fun _ _ hw ha => ha.trans (of_write hw)) (refl db)

/-- No lease request hands a machine back. -/
theorem of_leaseCall (db : Db) (call : LeaseCall) : NoneReleased db (call.apply db) := by
  cases call with
  | lease body =>
      simp only [LeaseCall.apply, leaseMachine]
      split
      · intro m' hm' h
        rcases Table.mem_insert.mp hm' with hm' | rfl
        · exact ⟨m', hm', rfl, h⟩
        · exact absurd h (by simp [Machine.leased])
      · split_ifs
        · exact refl db
        · exact setMachine db _ _ _ (by simp [Machine.leased])
  | endLease name mode deadline =>
      simp only [LeaseCall.apply, AutoTune.endLease]
      split
      · exact refl db
      · split_ifs
        · exact setMachine db _ _ _ (by simp)
        · exact refl db
  | setState id away =>
      simp only [LeaseCall.apply, setMachineState]
      split
      · exact refl db
      · rename_i m _
        by_cases hres : m.state = .reserved
        · simpa [hres] using refl db
        · rw [if_neg hres]
          exact setMachine db id _ _ fun m h => h

end NoneReleased

/-! ## The drain -/

/-- Does `_advance_leases` drain this machine now: it is draining already, or its lease has lapsed
and no pause froze it. -/
def Db.drainsAt (db : Db) (now : Time) (id : MachineId) : Bool :=
  (db.machines.get? id).any fun m =>
    m.leaseState == .draining || leaseExpired m now && !db.frozenByPause m

/-- What an expiry writes is the machine row, and not RELEASED. -/
theorem expireLease_frame (now : Time) (id : MachineId) (db : Db) :
    (expireLease now id db).runs = db.runs ∧ (expireLease now id db).sessions = db.sessions ∧
      NoneReleased db (expireLease now id db) := by
  unfold expireLease
  split
  · exact ⟨rfl, rfl, NoneReleased.refl db⟩
  · split_ifs
    · exact ⟨rfl, rfl, NoneReleased.setMachine db id _ _ (by simp)⟩
    · exact ⟨rfl, rfl, NoneReleased.refl db⟩

/-- After the expiry check, the machine is draining exactly when it is to be drained now. -/
theorem draining_expireLease (now : Time) (id : MachineId) (db : Db) :
    ((expireLease now id db).machines.get? id).any (fun m => m.leaseState == .draining) =
      db.drainsAt now id := by
  unfold expireLease Db.drainsAt
  cases hget : db.machines.get? id with
  | none => simp [hget]
  | some m =>
      dsimp only
      by_cases hexp : (leaseExpired m now && !db.frozenByPause m) = true
      · rw [if_pos hexp]
        simp [beginDrain, Db.setMachine, Table.get?_modify_self, hget, hexp]
      · rw [if_neg hexp]
        simp [hget, hexp]

section Drain

variable (drivers : RunId → TeardownReplies) (now : Time) (sessions : RowOrder PolicySession)
  (order : RowOrder RunId)

theorem arrange_eq_nil {α : Type} (o : RowOrder α) {l : List α} : o.arrange l = [] ↔ l = [] := by
  constructor
  · intro h
    have hperm := o.perm l
    rw [h] at hperm
    exact hperm.nil_eq.symm
  · rintro rfl
    exact (o.perm []).eq_nil

/-- An idle draining machine goes back, whatever is still tearing down on it. -/
theorem advanceLease_releases {id : MachineId} {db : Db} (hdrain : db.drainsAt now id = true)
    (hs : db.liveSessionsOn id = []) (hr : db.liveRunsOn id = []) :
    advanceLease drivers now sessions order id db =
      Ran.done (releaseLease (expireLease now id db) id now) := by
  rcases expireLease_frame now id db with ⟨hruns, hsessions, -⟩
  rw [← draining_expireLease] at hdrain
  unfold advanceLease
  cases hget : (expireLease now id db).machines.get? id with
  | none => simp [hget] at hdrain
  | some m =>
      have hm : m.id = id := (Table.get?_eq_some_iff.mp hget).2
      have hd : m.leaseState = .draining := by simpa [hget] using hdrain
      have hs' : sessions.arrange ((expireLease now id db).liveSessionsOn id) = [] := by
        rw [arrange_eq_nil, liveSessionsOn_congr hsessions]
        exact hs
      have hr' : (expireLease now id db).liveRunsOn id = [] := by
        rw [liveRunsOn_congr hruns]
        exact hr
      simp [hget, hd, advanceDrain, hm, hs', hr']

/-- In every other case the step hands nothing back. -/
theorem advanceLease_keeps {id : MachineId} {db : Db}
    (h : ¬ (db.drainsAt now id = true ∧ db.liveSessionsOn id = [] ∧ db.liveRunsOn id = [])) :
    NoneReleased db (advanceLease drivers now sessions order id db).state := by
  rcases expireLease_frame now id db with ⟨hruns, hsessions, hnone⟩
  unfold advanceLease
  cases hget : (expireLease now id db).machines.get? id with
  | none => simpa [hget] using hnone
  | some m =>
      have hm : m.id = id := (Table.get?_eq_some_iff.mp hget).2
      by_cases hd : m.leaseState = .draining
      · have hdrain : db.drainsAt now id = true := by
          rw [← draining_expireLease]
          simp [hget, hd]
        simp only [hget, hd, ne_eq, not_true_eq_false, if_false]
        unfold advanceDrain
        cases hs : sessions.arrange ((expireLease now id db).liveSessionsOn m.id) with
        | cons s rest =>
            -- a live session: only its row is written
            refine hnone.trans (NoneReleased.of_machines ?_)
            simp only [Ran.done_state, drainSession]
            split_ifs <;> rfl
        | nil =>
            rw [arrange_eq_nil, liveSessionsOn_congr hsessions, hm] at hs
            have hlive : db.liveRunsOn id ≠ [] := fun hr => h ⟨hdrain, hs, hr⟩
            have hlive' : (((expireLease now id db).liveRunsOn m.id).map Run.id).isEmpty = false := by
              rw [liveRunsOn_congr hruns, hm]
              simpa using hlive
            simp only [hlive', Bool.not_false, if_true]
            split_ifs
            · exact hnone
            · exact hnone.trans (NoneReleased.of_writes (killRuns_writes drivers now _ _ _))
      · simpa [hget, hd] using hnone

end Drain

/-! ## Runs -/

namespace SupervisorStep

/-- `m'` goes back in this step: RELEASED after it and not before. -/
def HandsBack (db : Db) (s : SupervisorStep) (m' : Machine) : Prop :=
  m' ∈ (s.apply db).machines.rows ∧ m'.leaseState = .released ∧
    ∀ m ∈ db.machines.rows, m.id = m'.id → m.leaseState ≠ .released

/-- Whatever goes back in this step is AWAY and vacant. -/
def HandsBackVacant (db : Db) (s : SupervisorStep) : Prop :=
  ∀ m', HandsBack db s m' → m'.state = .away ∧ (s.apply db).Vacant m'.id

/-- An idle machine the step drains has no container still tearing down. -/
def Settled (db : Db) : SupervisorStep → Prop
  | .advanceLease _ now _ _ id =>
      db.drainsAt now id = true → db.liveSessionsOn id = [] → db.liveRunsOn id = [] →
        db.teardownPendingOn id = []
  | _ => True

theorem vacant_of_noneReleased {db : Db} {s : SupervisorStep}
    (h : NoneReleased db (s.apply db)) : HandsBackVacant db s := by
  rintro m' ⟨hm', hrel, hbefore⟩
  rcases h m' hm' hrel with ⟨m, hm, hid, hm_rel⟩
  exact absurd hm_rel (hbefore m hm hid)

/-- Only a lease step hands machines back. -/
theorem noneReleased_of_not_lease {db : Db} {s : SupervisorStep}
    (hs : ∀ drivers now sessions order id, s ≠ .advanceLease drivers now sessions order id) :
    NoneReleased db (s.apply db) := by
  refine s.apply_preserves (I := NoneReleased db) (NoneReleased.refl db) ?_
  cases s with
  | enforceWindows drivers clock why order =>
      exact .of_writes (enforceWindows_writes drivers clock why order db)
  | advanceLease drivers now sessions order id => exact absurd rfl (hs _ _ _ _ _)
  | processStopRequests drivers now order =>
      exact .of_writes (processStopRequests_writes drivers now order db)
  | advanceRuns drivers clock observed order =>
      exact .of_writes (advanceRuns_writes drivers clock observed order db)
  | killSessionRuns drivers now order session reason =>
      exact .of_writes (killSessionRuns_writes drivers now order session reason db)
  | reapTeardowns drivers clock now => exact .of_writes (reapTeardowns_writes drivers clock now db)
  | schedule row =>
      simp only [run, Ran.done_state]
      split_ifs
      · exact .of_machines rfl
      · exact .refl db
  | lease call => exact .of_leaseCall db call
  | outside machines campaigns candidates sessions stopRequests =>
      simp only [run, Ran.done_state]
      split_ifs with hkept
      · intro m' hm' hrel
        have hrow := List.all_eq_true.mp hkept m' hm'
        cases hget : db.machines.get? m'.id with
        | none => simp [hget, hrel] at hrow
        | some m =>
            rcases Table.get?_eq_some_iff.mp hget with ⟨hm, hid⟩
            refine ⟨m, hm, hid, ?_⟩
            simpa [hget, hrel] using hrow
      · exact .refl db

/-- The machine a lease step hands back, and the store it leaves. -/
theorem apply_releases (drivers : RunId → TeardownReplies) {now : Time}
    (sessions : RowOrder PolicySession) (order : RowOrder RunId) {id : MachineId} {db : Db}
    (hdrain : db.drainsAt now id = true) (hs : db.liveSessionsOn id = [])
    (hr : db.liveRunsOn id = []) :
    (SupervisorStep.advanceLease drivers now sessions order id).apply db =
      releaseLease (expireLease now id db) id now := by
  have h := advanceLease_releases drivers now sessions order hdrain hs hr
  simp [apply, run, h]

/-- A step hands machines back vacant exactly when the idle machine it drains has settled. -/
theorem handsBackVacant_iff (db : Db) (s : SupervisorStep) : HandsBackVacant db s ↔ Settled db s := by
  cases s with
  | advanceLease drivers now sessions order id =>
      by_cases hidle : db.drainsAt now id = true ∧ db.liveSessionsOn id = [] ∧ db.liveRunsOn id = []
      · rcases hidle with ⟨hdrain, hs, hr⟩
        rcases expireLease_frame now id db with ⟨hruns, hsessions, hnone⟩
        have happly := apply_releases drivers sessions order hdrain hs hr
        have hpending : (releaseLease (expireLease now id db) id now).teardownPendingOn id =
            db.teardownPendingOn id := teardownPendingOn_congr hruns id
        constructor
        · intro h _ _ _
          -- the drained machine is not RELEASED before the step, so it does go back
          have hrow : ∃ m ∈ (expireLease now id db).machines.rows, m.id = id := by
            rw [← draining_expireLease] at hdrain
            cases hget : (expireLease now id db).machines.get? id with
            | none => simp [hget] at hdrain
            | some m => exact ⟨m, Table.get?_eq_some_iff.mp hget⟩
          rcases hrow with ⟨m, hm, hid⟩
          let m' : Machine :=
            { m with leaseState := .released, leaseReleasedAt := some now, state := .away }
          have hback : HandsBack db (.advanceLease drivers now sessions order id) m' := by
            refine ⟨?_, rfl, ?_⟩
            · rw [happly]
              exact Db.mem_setMachine.mpr ⟨m, hm, by simp [hid, m']⟩
            · intro m₀ hm₀ hid₀ hrel
              have hget : db.machines.get? id = some m₀ :=
                Table.get?_eq_some_iff.mpr ⟨hm₀, hid₀.trans hid⟩
              simp [Db.drainsAt, hget, hrel, leaseExpired] at hdrain
          have hvacant := (h m' hback).2.2.2
          rw [happly] at hvacant
          rw [← hpending, ← hid]
          rw [← hid] at hvacant
          exact hvacant
        · intro h m' hback
          rcases hback with ⟨hm', hrel, hbefore⟩
          rw [happly] at hm' ⊢
          rcases Db.mem_setMachine.mp hm' with ⟨m, hm, rfl⟩
          by_cases hid : m.id = id
          · subst hid
            rw [if_pos rfl]
            refine ⟨rfl, ?_, ?_, ?_⟩
            · exact (liveRunsOn_congr hruns m.id).trans hr
            · exact (liveSessionsOn_congr hsessions m.id).trans hs
            · exact hpending.trans (h hdrain hs hr)
          · -- another machine's row is as it was
            simp only [hid, if_false] at hrel hbefore
            rcases hnone m hm hrel with ⟨m₀, hm₀, hid₀, hrel₀⟩
            exact absurd hrel₀ (hbefore m₀ hm₀ hid₀)
      · have hkeep : NoneReleased db
            ((SupervisorStep.advanceLease drivers now sessions order id).apply db) :=
          apply_preserves (I := NoneReleased db) _ (NoneReleased.refl db)
            (advanceLease_keeps drivers now sessions order hidle)
        refine iff_of_true (vacant_of_noneReleased hkeep) ?_
        intro hdrain hs hr
        exact absurd ⟨hdrain, hs, hr⟩ hidle
  | _ => exact iff_of_true (vacant_of_noneReleased (noneReleased_of_not_lease (by simp))) trivial

end SupervisorStep

/-- A step hands machines back vacant exactly when no idle machine it drains has a container still
tearing down; in every run of such steps every machine that goes back is vacant and AWAY. -/
theorem hand_back_vacant (db : Db) :
    (∀ s : SupervisorStep, s.HandsBackVacant db ↔ s.Settled db) ∧
      ∀ steps : List SupervisorStep,
        Along SupervisorStep.apply (fun db s => s.Settled db) db steps →
          Along SupervisorStep.apply (fun db s => s.HandsBackVacant db) db steps := by
  refine ⟨fun s => s.handsBackVacant_iff db, ?_⟩
  intro steps hsettled
  exact along_of_invariant (I := fun _ => True)
    (fun db s _ h => ⟨trivial, (s.handsBackVacant_iff db).mpr h⟩) trivial hsettled

/-- A leased machine with one measurement on it. -/
def leasedBusy : Db where
  machines := .single { id := 1, name := "node-1", state := .reserved, leaseState := .active }
  campaigns := .single { id := 1, status := .active }
  runs := .single { id := 1, campaignId := 1, candidateId := 1, machineId := some 1, status := .benching,
                    gpuIndices := List.range 8 }

/-- The container takes the SIGTERM and stays. -/
def stubbornTeardown : TeardownReplies where
  attach := .value true
  requestStop := .value ()
  isGone := .value false
  releaseLeftovers := .value true

/-- One pass of `_advance_leases` over the only machine. -/
def leaseTick (drivers : TeardownReplies) (now : Time) : SupervisorStep :=
  .advanceLease (fun _ => drivers) now (RowOrder.byKey _) (RowOrder.byKey _) 1

/-- An eager end kills the run; the next tick hands the machine back under its container. -/
theorem eagerEnd_handsBackDying :
    ¬ Along SupervisorStep.apply (fun db s => s.HandsBackVacant db) leasedBusy
      [.lease (.endLease "node-1" .eager none), leaseTick stubbornTeardown 5,
        leaseTick stubbornTeardown 15] := by
  rintro ⟨-, -, h, -⟩
  have hsettled := (SupervisorStep.handsBackVacant_iff _ _).mp h
  revert hsettled
  unfold SupervisorStep.Settled leaseTick
  decide

/-- With a container that goes at once, the same three steps hand a vacant machine back. -/
theorem hand_back_vacant_cleanTeardown :
    let gone : TeardownReplies := { stubbornTeardown with isGone := .value true }
    let steps := [.lease (.endLease "node-1" .eager none), leaseTick gone 5, leaseTick gone 15]
    (runFrom SupervisorStep.apply leasedBusy steps).machines.rows.map Machine.leaseState =
        [.released] ∧
      Along SupervisorStep.apply (fun db s => s.HandsBackVacant db) leasedBusy steps := by
  refine ⟨by decide, (hand_back_vacant leasedBusy).2 _ ⟨trivial, ?_, ?_, trivial⟩⟩
  · unfold SupervisorStep.Settled leaseTick
    decide
  · unfold SupervisorStep.Settled leaseTick
    decide

end AutoTune
