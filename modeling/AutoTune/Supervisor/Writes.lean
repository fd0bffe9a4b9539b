import AutoTune.Supervisor.Loops
import AutoTune.Supervisor.Janitor
import Mathlib.Logic.Relation

/-!
# What the run procedures write

Ending or advancing a run writes five kinds of thing: bookkeeping columns of a run, a legal status,
a machine's RESERVED flag, a quarantine mark and a candidate's status. `Writes` says a procedure did
nothing else, so that an invariant is checked once per kind of write and not once per procedure.
-/

namespace AutoTune

open Lib

/-- `r'` is `r` with other bookkeeping: teardown flags, error, failure class and finish time. -/
def Run.Rebooked (r r' : Run) : Prop :=
  r' = { r with
    teardownPending := r'.teardownPending
    teardownAttempts := r'.teardownAttempts
    finishedAt := r'.finishedAt
    failureClass := r'.failureClass
    error := r'.error }

/-- One write of a run procedure. -/
inductive Write (db : Db) : Db → Prop where
  | rebook (id : RunId) (f : Run → Run) (hf : ∀ r, (f r).id = r.id)
      (h : ∀ r, Run.Rebooked r (f r)) : Write db (db.setRun id f hf)
  | move (id : RunId) (r : Run) (target : RunStatus) (hget : db.runs.get? id = some r)
      (hcan : canTransition r.status target = true) : Write db (db.moveRun id r.status target)
  | free (id : MachineId) : Write db (db.setMachine id fun m => { m with state := .available })
  | quarantine (id : MachineId) : Write db (quarantineMachine db id)
  | candidate (id : CandidateId) (f : Candidate → Candidate) (hf : ∀ c, (f c).id = c.id) :
      Write db (db.setCandidate id f hf)

/-- A sequence of such writes. -/
def Writes : Db → Db → Prop := Relation.ReflTransGen Write

namespace Writes

theorem refl (db : Db) : Writes db db := Relation.ReflTransGen.refl

theorem trans {a b c : Db} (h : Writes a b) (h' : Writes b c) : Writes a c :=
  Relation.ReflTransGen.trans h h'

theorem single {a b : Db} (h : Write a b) : Writes a b := Relation.ReflTransGen.single h

/-- What one write keeps, a sequence of writes keeps. -/
theorem preserves {I : Db → Prop} (hI : ∀ a b, Write a b → I a → I b) {a b : Db} (h : Writes a b)
    (ha : I a) : I b := by
  induction h with
  | refl => exact ha
  | tail _ hw ih => exact hI _ _ hw ih

theorem foldl {ι : Type} {f : Db → ι → Db} (hf : ∀ db i, Writes db (f db i)) (l : List ι) (db : Db) :
    Writes db (l.foldl f db) := by
  induction l generalizing db with
  | nil => exact refl db
  | cons i l ih => exact (hf db i).trans (ih (f db i))

end Writes

/-! ## The procedures -/

theorem releaseMachineIfIdle_writes (db : Db) (id : MachineId) :
    Writes db (releaseMachineIfIdle db id) := by
  unfold releaseMachineIfIdle
  split
  · exact Writes.refl db
  · split_ifs
    all_goals first
      | exact Writes.refl db
      | exact Writes.single (.free id)

theorem releaseRunMachines_writes (db : Db) (r : Run) : Writes db (releaseRunMachines db r) :=
  Writes.foldl releaseMachineIfIdle_writes _ db

theorem transition_writes (db : Db) (id : RunId) (target : RunStatus) :
    Writes db (transition db id target).state := by
  unfold transition
  cases hget : db.runs.get? id with
  | none => exact Writes.refl db
  | some r =>
      by_cases hcan : canTransition r.status target = true
      · simpa [hcan] using Writes.single (.move id r target hget hcan)
      · simpa [hcan] using Writes.refl db

section Finish

variable (drivers : RunId → TeardownReplies) (now : Time)

theorem stampFinished_writes (db : Db) (id : RunId) (error : String) (cleaned : Bool) :
    Writes db (db.stampFinished id now error cleaned) :=
  Writes.single (.rebook id _ _ fun _ => rfl)

theorem setFailureClass_writes (db : Db) (id : RunId) (failureClass : String) :
    Writes db (db.setFailureClass id failureClass) :=
  Writes.single (.rebook id _ _ fun _ => rfl)

theorem finishRow_writes (db : Db) (id : RunId) (status : RunStatus) (error : String) :
    Writes db (finishRow drivers now db id status error).state := by
  unfold finishRow
  split
  · exact Writes.refl db
  · refine Ran.andThen_preserves (I := Writes db) ?_ ?_
    · exact (stampFinished_writes now db id error _).trans (transition_writes _ id status)
    · intro db' hdb'
      rw [Ran.done_state]
      split_ifs
      · exact hdb'.trans (releaseRunMachines_writes db' _)
      · exact hdb'

theorem stopBenchmark_writes (launch : Run) (bench : RunId) (db : Db) :
    Writes db (stopBenchmark drivers now launch bench db).state := by
  unfold stopBenchmark
  split_ifs
  · exact (setFailureClass_writes db bench _).trans (finishRow_writes drivers now _ bench _ _)
  · exact finishRow_writes drivers now db bench _ _

theorem finish_writes (db : Db) (id : RunId) (status : RunStatus) (error : String) :
    Writes db (finish drivers now db id status error).state := by
  refine Ran.andThen_preserves (I := Writes db) (finishRow_writes drivers now db id status error) ?_
  intro db' hdb'
  split
  · exact hdb'
  · split_ifs
    · unfold stopBenchmarksOf
      split
      · exact hdb'
      · exact Ran.forEach_preserves (I := Writes db)
          (fun bench _ db'' h => h.trans (stopBenchmark_writes drivers now _ bench db'')) hdb'
    · exact hdb'

theorem requeueIfInfrastructure_writes (db : Db) (id : RunId) :
    Writes db (requeueIfInfrastructure db id) := by
  unfold requeueIfInfrastructure
  split
  · exact Writes.refl db
  · dsimp only
    split_ifs
    all_goals first
      | exact Writes.refl db
      | exact Writes.single (.candidate _ _ _)

theorem fail_writes (db : Db) (id : RunId) (failureClass error : String) :
    Writes db (fail drivers now db id failureClass error).state := by
  refine Ran.andThen_preserves (I := Writes db) ?_ ?_
  · exact (setFailureClass_writes db id failureClass).trans (finish_writes drivers now _ id _ error)
  · intro db' hdb'
    exact hdb'.trans (requeueIfInfrastructure_writes db' id)

end Finish

section Reap

variable (replies : RunId → ReapReplies) (clock : TeardownClock) (now : Time)

theorem confirmTeardown_writes (db : Db) (id : RunId) : Writes db (confirmTeardown db id) := by
  unfold confirmTeardown
  split
  · exact Writes.refl db
  · refine Writes.trans ?_ (releaseRunMachines_writes _ _)
    exact Writes.single (.rebook id _ _ fun _ => rfl)

theorem quarantineAll_writes (l : List MachineId) (db : Db) :
    Writes db (l.foldl quarantineMachine db) :=
  Writes.foldl (fun _ m => Writes.single (.quarantine m)) l db

theorem reapTeardown_writes (db : Db) (id : RunId) :
    Writes db (reapTeardown replies clock now db id) := by
  unfold reapTeardown
  split
  · exact Writes.refl db
  · split
    · exact Writes.refl db
    · split_ifs
      · exact confirmTeardown_writes db id
      · exact Writes.refl db
    · split_ifs
      · exact (quarantineAll_writes _ db).trans (Writes.single (.rebook id _ _ fun _ => rfl))
      · split
        · exact Writes.refl db
        · exact Writes.single (.rebook id _ _ fun _ => rfl)
      · exact Writes.refl db

theorem reapTeardowns_writes (db : Db) : Writes db (reapTeardowns replies clock now db) :=
  Writes.foldl (reapTeardown_writes replies clock now) _ db

end Reap

section Advance

variable (drivers : RunId → TeardownReplies) (now : Time) (o : Observed)

theorem advanceOne_writes (db : Db) (id : RunId) :
    Writes db (advanceOne drivers now o db id).state := by
  cases hget : db.runs.get? id with
  | none =>
      simp only [advanceOne, hget]
      exact Writes.refl db
  | some r =>
      have hadvances := advanceOne_advances drivers now hget (o := o)
      generalize advanceOne drivers now o db id = x at hadvances ⊢
      cases hadvances with
      | stay => exact Writes.refl db
      | move target _ _ => exact transition_writes db r.id target
      | succeed _ => exact finish_writes drivers now db r.id _ _
      | fail failureClass error _ _ => exact fail_writes drivers now db r.id failureClass error

end Advance

/-! ## The loops -/

section Loops

variable (drivers : RunId → TeardownReplies)

theorem killRuns_writes (now : Time) (reason : String) (l : List RunId) (db : Db) :
    Writes db (Ran.forEach (fun id db => finish drivers now db id .killed reason) l db).state :=
  Ran.forEach_preserves (I := Writes db)
    (fun id _ _ h => h.trans (finish_writes drivers now _ id _ _)) (Writes.refl db)

theorem killSessionRuns_writes (now : Time) (order : RowOrder RunId) (session : SessionId)
    (reason : String) (db : Db) :
    Writes db (killSessionRuns drivers now order session reason db).state :=
  killRuns_writes drivers now reason _ db

theorem enforceWindows_writes (clock : RunId → Time) (why : RunId → String) (order : RowOrder RunId)
    (db : Db) : Writes db (enforceWindows drivers clock why order db).state := by
  refine Ran.forEach_preserves (I := Writes db) ?_ (Writes.refl db)
  intro id _ db' h
  split_ifs
  · exact h.trans (finish_writes drivers _ db' id _ _)
  · exact h

theorem giveBack_writes (db : Db) (r : Run) : Writes db (db.giveBack r) := by
  refine Writes.trans ?_ (Writes.single (.candidate _ _ _))
  exact Writes.single (.rebook r.id _ _ fun _ => rfl)

theorem processStop_writes (now : Time) (e : StopRequest) (db : Db) :
    Writes db (processStop drivers now e db).state := by
  unfold processStop
  cases db.runs.get? e.runId with
  | none => exact Writes.refl db
  | some r =>
      dsimp only
      by_cases hterm : r.status.terminal = true
      · simpa [hterm] using Writes.refl db
      · rw [if_neg hterm]
        refine Ran.andThen_preserves (I := Writes db) (finish_writes drivers now db e.runId _ _) ?_
        intro db' h
        split_ifs
        · exact h.trans (giveBack_writes db' r)
        · exact h

theorem processStopRequests_writes (now : Time) (order : RowOrder StopRequest) (db : Db) :
    Writes db (processStopRequests drivers now order db).state :=
  Ran.forEach_preserves (I := Writes db)
    (fun e _ _ h => h.trans (processStop_writes drivers now e _)) (Writes.refl db)

theorem advanceRuns_writes (clock : RunId → Time) (observed : RunId → Observed)
    (order : RowOrder RunId) (db : Db) :
    Writes db (advanceRuns drivers clock observed order db).state :=
  Ran.forEach_preserves (I := Writes db)
    (fun id _ _ h => h.trans (advanceOne_writes drivers _ _ _ id)) (Writes.refl db)

end Loops

end AutoTune
