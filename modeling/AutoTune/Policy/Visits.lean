import AutoTune.Policy.Verdicts
import AutoTune.Supervisor.FinishTimes

/-!
# What a visit does to a session's runs and to its reason

A visit that does not validate ends runs now or leaves them alone. It ends a search for idleness in one
branch only, and it never takes a session back to FINALIZING.
-/

namespace AutoTune

open Lib

section

variable (drivers : RunId → TeardownReplies) (now : Time) (order : RowOrder RunId)

/-! ## The runs -/

theorem terminate_runs (id : SessionId) (status : SessionStatus) (error failureClass : String) (db : Db) :
    (terminate id status error failureClass db).runs = db.runs := by
  unfold terminate
  split
  · rfl
  · rename_i s _
    dsimp only
    cases s.machineId with
    | none => rfl
    | some m => exact releaseMachineIfIdle_runs _ m

theorem failTowardValidation_stamped (f : SessionFinds) (id : SessionId) (failureClass error : String)
    (db : Db) : Db.StampedAt now db (failTowardValidation drivers now order f id failureClass error db).state := by
  refine Ran.andThen_preserves (I := Db.StampedAt now db) ?_ fun db' h => h
  intro r hr
  exact killSessionRuns_stamped order id _ (db.setSession id fun s =>
    s.blame failureClass (f.withDeathLog failureClass error)) r hr

theorem endSession_stamped (s : PolicySession) (status : SessionStatus) (reason error : String) (db : Db) :
    Db.StampedAt now db (endSession drivers now order s status reason error db).state := by
  refine Ran.andThen_preserves (I := Db.StampedAt now db) (killSessionRuns_stamped order s.id reason db) ?_
  intro db' h r hr
  rw [Ran.done_state, terminate_runs] at hr
  exact h r hr

theorem advancePending_runs (f : SessionFinds) (s : PolicySession) (db : Db) :
    (advancePending f s db).runs = db.runs := by
  unfold advancePending
  split
  · exact terminate_runs _ _ _ _ db
  split
  · exact terminate_runs _ _ _ _ db
  split
  · rfl
  split
  · exact terminate_runs _ _ _ _ db
  split
  · exact terminate_runs _ _ _ _ db
  split
  · rfl
  · exact terminate_runs _ _ _ _ db
  · exact terminate_runs _ _ _ _ db
  · rfl

theorem advanceStarting_stamped (f : SessionFinds) (s : PolicySession) (db : Db) :
    Db.StampedAt now db (advanceStarting drivers now order f s db).state := by
  have hfail := fun failureClass error =>
    failTowardValidation_stamped drivers now order f s.id failureClass error db
  unfold advanceStarting
  split
  · exact Db.StampedAt.of_runs rfl
  split
  · exact hfail _ _
  split
  · exact hfail _ _
  split
  · exact hfail _ _
  · exact Db.StampedAt.of_runs rfl

theorem advanceSearching_stamped (f : SessionFinds) (s : PolicySession) (db : Db) :
    Db.StampedAt now db (advanceSearching drivers now order f s db).state := by
  have hfail : ∀ reason failureClass error, Db.StampedAt now db
      (failTowardValidation drivers now order f s.id failureClass error (db.endSearch s.id reason)).state :=
    fun reason failureClass error => by
      intro r hr
      exact failTowardValidation_stamped drivers now order f s.id _ _ (db.endSearch s.id reason) r hr
  unfold advanceSearching
  split
  · exact hfail _ _ _
  split
  · exact hfail _ _ _
  · exact Db.StampedAt.of_runs rfl
  · exact Db.StampedAt.of_runs rfl
  · split
    · exact Db.StampedAt.of_runs rfl
    split
    · exact Db.StampedAt.of_runs rfl
    · exact Db.StampedAt.of_runs rfl

theorem advanceFinalizing_stamped (f : SessionFinds) (s : PolicySession) (db : Db) :
    Db.StampedAt now db (advanceFinalizing drivers now order f s db).state := by
  unfold advanceFinalizing
  split
  · exact Db.StampedAt.of_runs rfl
  refine Ran.andThen_preserves (I := Db.StampedAt now db)
    (killSessionRuns_stamped order s.id "session finalizing" db) fun db' h => ?_
  dsimp only [Ran.done_state]
  split <;> exact h

/-- A visit of a session that does not validate ends runs now, or leaves them alone. -/
theorem advanceSession_stamped (f : SessionFinds) {id : SessionId} {db : Db}
    (hvalidating : ∀ s, db.sessions.get? id = some s → s.status ≠ .validating) :
    Db.StampedAt now db (advanceSession drivers now order f id db).state := by
  unfold advanceSession
  cases hget : db.sessions.get? id with
  | none => exact Db.StampedAt.of_runs rfl
  | some s =>
      dsimp only
      split
      · exact Db.StampedAt.of_runs (terminate_runs _ _ _ _ db)
      split
      · exact endSession_stamped drivers now order s _ _ _ db
      split
      · exact endSession_stamped drivers now order s _ _ _ db
      · unfold handleSession
        cases hs : s.status with
        | pending => exact Db.StampedAt.of_runs (advancePending_runs f s db)
        | starting => exact advanceStarting_stamped drivers now order f s db
        | searching => exact advanceSearching_stamped drivers now order f s db
        | finalizing => exact advanceFinalizing_stamped drivers now order f s db
        | validating => exact absurd hs (hvalidating s hget)
        | _ => exact Db.StampedAt.of_runs rfl

/-! ## The reason -/

/-- No session's search was ended for idleness. -/
def NotIdled (db db' : Db) : Prop :=
  List.Forall₂ (fun s s' => s'.id = s.id ∧ (s'.searchEndReason = "policy_idle" →
    s.searchEndReason = "policy_idle")) db.sessions.rows db'.sessions.rows

namespace NotIdled

variable {db db' db'' : Db}

theorem of_eq (h : db'.sessions = db.sessions) : NotIdled db db' := by
  unfold NotIdled
  rw [h]
  exact List.forall₂_same.mpr fun s _ => ⟨rfl, fun h => h⟩

theorem trans (h : NotIdled db db') (h' : NotIdled db' db'') : NotIdled db db'' := by
  refine forall₂_trans ?_ h h'
  rintro s s' s'' ⟨hid, hs⟩ ⟨hid', hs'⟩
  exact ⟨hid'.trans hid, fun h => hs (hs' h)⟩

theorem setSession {id : SessionId} {f : PolicySession → PolicySession} {hf : ∀ s, (f s).id = s.id}
    (h : ∀ s, (f s).searchEndReason = "policy_idle" → s.searchEndReason = "policy_idle") :
    NotIdled db (db.setSession id f hf) := by
  simp only [NotIdled, Db.setSession, Table.rows_modify]
  refine List.forall₂_map_right_iff.mpr (List.forall₂_same.mpr ?_)
  intro s _
  by_cases hid : s.id = id
  · rw [if_pos hid]
    exact ⟨hf s, h s⟩
  · rw [if_neg hid]
    exact ⟨rfl, fun h => h⟩

theorem terminate (id : SessionId) (status : SessionStatus) (error failureClass : String) (db : Db) :
    NotIdled db (terminate id status error failureClass db) := by
  unfold AutoTune.terminate
  split
  · exact of_eq rfl
  · rename_i s _
    dsimp only
    have hrow : NotIdled db (db.setSession id fun s => s.ended status error failureClass) :=
      setSession fun _ h => h
    refine hrow.trans (of_eq ?_)
    cases s.machineId with
    | none => rfl
    | some m => exact (releaseMachineIfIdle_writes _ m).sessions

/-- A search that ends for another reason. -/
theorem beginFinalizing (id : SessionId) {reason : String} (hreason : reason ≠ "policy_idle") (db : Db) :
    NotIdled db (beginFinalizing id now reason db) := by
  refine setSession fun s h => ?_
  dsimp only at h
  split at h
  · exact absurd h hreason
  · exact h

/-- What a session that is looked up has as its reason. -/
theorem reason (h : NotIdled db db') {id : SessionId} {s' : PolicySession}
    (hget : db'.sessions.get? id = some s') (hidle : s'.searchEndReason = "policy_idle") :
    ∃ s, db.sessions.get? id = some s ∧ s.searchEndReason = "policy_idle" := by
  rcases Table.get?_eq_some_iff.mp hget with ⟨hrow, hid⟩
  rcases exists_mem_of_forall₂ h hrow with ⟨s, hs, hsid, hreason⟩
  exact ⟨s, Table.get?_eq_some_iff.mpr ⟨hs, hsid.symm.trans hid⟩, hreason hidle⟩

end NotIdled

theorem failTowardValidation_notIdled (f : SessionFinds) (id : SessionId) (failureClass error : String)
    (db : Db) : NotIdled db (failTowardValidation drivers now order f id failureClass error db).state := by
  have hblame : NotIdled db (db.setSession id fun s =>
      s.blame failureClass (f.withDeathLog failureClass error)) := NotIdled.setSession fun _ h => h
  refine Ran.andThen_preserves (I := NotIdled db) ?_ fun db' h => ?_
  · exact hblame.trans (NotIdled.of_eq (killSessionRuns_sessions drivers now order id _ _))
  · exact h.trans (NotIdled.setSession fun _ h => h)

theorem endSession_notIdled (s : PolicySession) (status : SessionStatus) (reason error : String) (db : Db) :
    NotIdled db (endSession drivers now order s status reason error db).state := by
  refine Ran.andThen_preserves (I := NotIdled db) ?_ fun db' h => ?_
  · exact NotIdled.of_eq (killSessionRuns_sessions drivers now order s.id _ db)
  · exact h.trans (NotIdled.terminate s.id _ _ _ db')

theorem advancePending_notIdled (f : SessionFinds) (s : PolicySession) (db : Db) :
    NotIdled db (advancePending f s db) := by
  have hfail := fun error failureClass => NotIdled.terminate s.id .failed error failureClass db
  unfold advancePending
  split
  · exact hfail _ _
  split
  · exact hfail _ _
  split
  · exact NotIdled.of_eq rfl
  split
  · exact hfail _ _
  split
  · exact hfail _ _
  split
  · exact NotIdled.of_eq rfl
  · exact hfail _ _
  · exact hfail _ _
  · have hstart : NotIdled db (db.setStatus s.id .starting) := NotIdled.setSession fun _ h => h
    exact hstart.trans (NotIdled.of_eq rfl)

theorem advanceStarting_notIdled (f : SessionFinds) (s : PolicySession) (db : Db) :
    NotIdled db (advanceStarting drivers now order f s db).state := by
  have hfail := fun failureClass error =>
    failTowardValidation_notIdled drivers now order f s.id failureClass error db
  unfold advanceStarting
  split
  · exact NotIdled.setSession fun _ h => h
  split
  · exact hfail _ _
  split
  · exact hfail _ _
  split
  · exact hfail _ _
  · exact NotIdled.of_eq rfl

theorem advanceFinalizing_notIdled (f : SessionFinds) (s : PolicySession) (db : Db) :
    NotIdled db (advanceFinalizing drivers now order f s db).state := by
  unfold advanceFinalizing
  split
  · exact NotIdled.of_eq rfl
  refine Ran.andThen_preserves (I := NotIdled db)
    (NotIdled.of_eq (killSessionRuns_sessions drivers now order s.id _ db)) fun db' h => ?_
  dsimp only [Ran.done_state]
  split
  · have hblame : NotIdled db' (db'.setSession s.id fun s =>
        s.blame "container_died" "policy container died before finalizing") :=
      NotIdled.setSession fun _ h => h
    exact (h.trans hblame).trans (NotIdled.setSession fun _ h => h)
  · exact h.trans (NotIdled.setSession fun _ h => h)

theorem advanceValidating_notIdled (f : SessionFinds) (s : PolicySession) (db : Db) :
    NotIdled db (advanceValidating f s db) := by
  have hlaunch : NotIdled db (launchValidations s.id f.validations db).1 :=
    NotIdled.of_eq (launchValidations_sessions s.id f.validations db)
  unfold advanceValidating
  dsimp only
  split
  · exact hlaunch
  · exact hlaunch.trans (NotIdled.terminate s.id _ _ _ _)

/-- Nothing before the watchdog ends a search for idleness. -/
theorem advanceSearching_idle (f : SessionFinds) (s : PolicySession) (db : Db) :
    NotIdled db (advanceSearching drivers now order f s db).state ∨
      (f.workload.dead = false ∧ f.silent = none ∧ f.said = .working ∧
        (s.finalizedAt.isSome || s.finalizeRequestedAt.isSome || f.searchOver) = false ∧ f.idle = true ∧
        (advanceSearching drivers now order f s db).state = beginFinalizing s.id now "policy_idle" db) := by
  have hfail : ∀ reason failureClass error, reason ≠ "policy_idle" → NotIdled db
      (failTowardValidation drivers now order f s.id failureClass error (db.endSearch s.id reason)).state := by
    intro reason failureClass error hreason
    have hend : NotIdled db (db.endSearch s.id reason) := NotIdled.setSession fun _ h => absurd h hreason
    exact hend.trans (failTowardValidation_notIdled drivers now order f s.id _ _ _)
  unfold advanceSearching
  split
  · exact Or.inl (hfail _ _ _ (by decide))
  rename_i hdead
  split
  · exact Or.inl (hfail _ _ _ (by decide))
  · exact Or.inl (NotIdled.beginFinalizing now s.id (by decide) db)
  · have hblame : NotIdled db (db.setSession s.id fun s =>
        s.blame "policy_gave_up" "policy reported an internal error") := NotIdled.setSession fun _ h => h
    exact Or.inl (hblame.trans (NotIdled.beginFinalizing now s.id (by decide) _))
  · rename_i hsilent hsaid
    split
    · refine Or.inl (NotIdled.beginFinalizing now s.id ?_ db)
      split <;> decide
    rename_i hgoing
    split
    · rename_i hidle
      exact Or.inr ⟨by simpa using hdead, hsilent, hsaid, by simpa using hgoing, hidle, rfl⟩
    · exact Or.inl (NotIdled.of_eq rfl)

/-! ## The way to FINALIZING -/

/-- A session past its search does not begin to finalize again. -/
theorem advanceSession_finalizing (f : SessionFinds) {id : SessionId} {db : Db} {s : PolicySession}
    (hget : db.sessions.get? id = some s) (hover : s.status.explored = true)
    (hnot : s.status ≠ .finalizing) :
    StatusMoves id (· ≠ .finalizing) db (advanceSession drivers now order f id db).state := by
  have hid : s.id = id := (Table.get?_eq_some_iff.mp hget).2
  subst hid
  unfold advanceSession
  rw [hget]
  dsimp only
  split
  · exact (StatusMoves.terminate _ _ _).mono fun _ h => by simp [h]
  split
  · exact (endSession_moves drivers now order _ _ db).mono fun _ h => by simp [h]
  split
  · refine (endSession_moves drivers now order _ _ db).mono ?_
    rintro st rfl
    split <;> simp
  unfold handleSession
  cases hs : s.status with
  | pending => simp [hs, SessionStatus.explored] at hover
  | starting => simp [hs, SessionStatus.explored] at hover
  | searching => simp [hs, SessionStatus.explored] at hover
  | finalizing => exact absurd hs hnot
  | validating =>
      refine (advanceValidating_moves f s db).mono ?_
      rintro st hterminal rfl
      cases hterminal
  | _ => exact StatusMoves.of_eq rfl

end

end AutoTune
