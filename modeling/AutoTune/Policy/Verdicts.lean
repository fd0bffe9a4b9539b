import AutoTune.Policy.Contenders
import AutoTune.Policy.Nights

/-!
# No verdict goes missing silently

A session that ended has answered every claim made in it, or says why it did not. Validation keeps
that; a session that is cut short before its contenders are resolved does not.
-/

namespace AutoTune

open Lib

/-! ## What a verdict is -/

/-- Nobody has answered the claim yet. -/
def Contender.open_ (k : Contender) : Bool := k.status == .registered || k.status == .serving

/-- The claim is answered, withdrawn, or skipped with a reason. -/
def Contender.accounted (k : Contender) : Bool :=
  match k.status with
  | .superseded | .validated | .failed => true
  | .skipped => k.skipReason != ""
  | .registered | .serving => false

/-- A claim that was skipped says why. -/
def Contender.Reasoned (k : Contender) : Prop := k.status = .skipped → k.skipReason ≠ ""

theorem Contender.accounted_iff {k : Contender} (h : k.Reasoned) :
    k.accounted = true ↔ k.open_ = false := by
  unfold Contender.accounted Contender.open_
  cases hs : k.status with
  | skipped => simp [h hs]
  | _ => simp

/-! ## The steps -/

/-- What everything else does to sessions: none ends or changes its status, a new one is PENDING. -/
structure SessionsKept (db db' : Db) : Prop where
  kept : ∀ s ∈ db.sessions.rows, ∃ s' ∈ db'.sessions.rows, s'.id = s.id ∧ s'.status = s.status
  only : ∀ s' ∈ db'.sessions.rows, (∃ s ∈ db.sessions.rows, s.id = s'.id ∧ s'.status = s.status) ∨
    (s'.status = .pending ∧ ∀ s ∈ db.sessions.rows, s.id ≠ s'.id)

theorem SessionsKept.of_sessions {db db' : Db} (h : db'.sessions = db.sessions) : SessionsKept db db' where
  kept := fun s hs => ⟨s, h ▸ hs, rfl, rfl⟩
  only := fun s hs => Or.inl ⟨s, h ▸ hs, rfl, rfl⟩

/-- The supervisor's writes to runs, machines and candidates. -/
theorem SessionsKept.of_writes {db db' : Db} (h : Writes db db') : SessionsKept db db' :=
  of_sessions h.sessions

/-- Opening the session of a window. -/
theorem SessionsKept.ensureSession (db : Db) (c : Campaign) : SessionsKept db (ensureSession db c) := by
  unfold AutoTune.ensureSession
  split
  · exact of_sessions rfl
  split
  · exact of_sessions rfl
  · rename_i window _ _
    refine ⟨fun s hs => ⟨s, List.mem_append_left _ hs, rfl, rfl⟩, fun s hs => ?_⟩
    rcases List.mem_append.mp hs with hs | hs
    · exact Or.inl ⟨s, hs, rfl, rfl⟩
    · rw [List.mem_singleton.mp hs]
      exact Or.inr ⟨rfl, fun t ht => Nat.ne_of_lt (Table.key_lt_nextKey ht)⟩

/-- A step of the worker, of a request of the policy, or of anything else. -/
inductive ContestAction where
  | advance (drivers : RunId → TeardownReplies) (now : Time) (order : RowOrder RunId)
      (f : SessionFinds) (v : ValidationFinds) (session : SessionId)
  | putCheck (session : SessionId)
  | putCommit (session : SessionId) (claims : List Claim)
  | serveCheck (session : SessionId) (contender : ContenderId)
  | serveCommit (session : SessionId) (contender : ContenderId) (port : Nat)
  | validate (campaign : CampaignId) (machine : String) (now until_ : Time) (claims : List Claim)
  | other (db : Db)

namespace Contest

/-- What a step writes. A check only remembers that it passed. -/
def act : ContestAction → Contest → Contest
  | .advance drivers now order f v session, t => advanceContest v now drivers order f session t
  | .putCheck session, t => { t with requests := .put session :: t.requests }
  | .putCommit session claims, t =>
      { putContenders session claims t with requests := t.requests.erase (.put session) }
  | .serveCheck session contender, t => { t with requests := .serve session contender :: t.requests }
  | .serveCommit session contender port, t =>
      { contenderServing session contender port t with
        requests := t.requests.erase (.serve session contender) }
  | .validate campaign machine now until_ claims, t =>
      match validateConfigs campaign machine now until_ t.db with
      | none => t
      | some db =>
          { t with db := db, contenders := addContenders t.db.sessions.nextKey claims t.contenders }
  | .other db, t => { t with db := db }

/-- When a step can happen: the worker advances live sessions, a check passes on the state it reads, a
commit follows its check, however long after. -/
def Allowed (t : Contest) : ContestAction → Prop
  | .advance _ _ _ _ _ session => ∃ s ∈ t.db.sessions.rows, s.id = session ∧ s.live = true
  | .putCheck session => ∃ s ∈ t.db.sessions.rows, s.id = session ∧
      (s.status = .starting ∨ s.status = .searching)
  | .putCommit session _ => .put session ∈ t.requests
  | .serveCheck session contender => ∃ s ∈ t.db.sessions.rows, s.id = session ∧
      s.status = .validating ∧ s.servingContenderId = some contender
  | .serveCommit session contender _ => .serve session contender ∈ t.requests
  | .validate .. => True
  | .other db => SessionsKept t.db db

/-- What keeps a step from losing a verdict: a session that is cut short, or whose campaign is gone, has
no open contender; a commit still finds its session live. -/
def Clean (t : Contest) : ContestAction → Prop
  | .advance _ now _ _ _ session => ∀ s ∈ t.db.sessions.rows, s.id = session →
      (∀ c, t.db.campaigns.get? s.campaignId = some c → cutShort now t.db s c = true) →
      ∀ k ∈ t.contenders.rows, k.sessionId = session → k.open_ = false
  | .putCommit session _ => ∀ s ∈ t.db.sessions.rows, s.id = session → s.live = true
  | .serveCommit session _ _ => ∀ s ∈ t.db.sessions.rows, s.id = session → s.live = true
  | _ => True

/-- A run of steps that can happen, each under a condition. -/
def Runs (ok : Contest → ContestAction → Prop) : Contest → Contest → Prop :=
  Relation.ReflTransGen fun t t' => ∃ a, t.Allowed a ∧ ok t a ∧ t' = t.act a

end Contest

/-! ## Statuses of sessions -/

/-- At most one session changes its status, to one of these. -/
def StatusMoves (id : SessionId) (P : SessionStatus → Prop) (db db' : Db) : Prop :=
  List.Forall₂ (fun s s' => s'.id = s.id ∧ (s'.status = s.status ∨ s.id = id ∧ P s'.status))
    db.sessions.rows db'.sessions.rows

namespace StatusMoves

variable {id : SessionId} {P Q : SessionStatus → Prop} {db db' db'' : Db}

theorem of_eq (h : db'.sessions = db.sessions) : StatusMoves id P db db' := by
  unfold StatusMoves
  rw [h]
  exact List.forall₂_same.mpr fun s _ => ⟨rfl, Or.inl rfl⟩

theorem trans (h : StatusMoves id P db db') (h' : StatusMoves id P db' db'') :
    StatusMoves id P db db'' := by
  refine forall₂_trans ?_ h h'
  rintro s s' s'' ⟨hid, hs⟩ ⟨hid', hs'⟩
  refine ⟨hid'.trans hid, ?_⟩
  rcases hs' with hs' | ⟨hs', hp⟩
  · rw [hs']
    exact hs
  · exact Or.inr ⟨hid ▸ hs', hp⟩

theorem mono (h : StatusMoves id P db db') (hpq : ∀ st, P st → Q st) : StatusMoves id Q db db' := by
  refine List.Forall₂.imp ?_ h
  rintro s s' ⟨hid, hs | ⟨hs, hp⟩⟩
  · exact ⟨hid, Or.inl hs⟩
  · exact ⟨hid, Or.inr ⟨hs, hpq _ hp⟩⟩

theorem setSession {f : PolicySession → PolicySession} {hf : ∀ s, (f s).id = s.id}
    (h : ∀ s, (f s).status = s.status ∨ P (f s).status) : StatusMoves id P db (db.setSession id f hf) := by
  simp only [StatusMoves, Db.setSession, Table.rows_modify]
  refine List.forall₂_map_right_iff.mpr (List.forall₂_same.mpr ?_)
  intro s _
  by_cases hid : s.id = id
  · rw [if_pos hid]
    refine ⟨hf s, ?_⟩
    rcases h s with hs | hp
    · exact Or.inl hs
    · exact Or.inr ⟨hid, hp⟩
  · rw [if_neg hid]
    exact ⟨rfl, Or.inl rfl⟩

theorem setStatus {status : SessionStatus} (h : P status) : StatusMoves id P db (db.setStatus id status) :=
  setSession fun _ => Or.inr h

theorem blame (failureClass error : String) :
    StatusMoves id P db (db.setSession id fun s => s.blame failureClass error) :=
  setSession fun _ => Or.inl rfl

theorem terminate {status : SessionStatus} (error failureClass : String) (db : Db) :
    StatusMoves id (· = status) db (terminate id status error failureClass db) := by
  unfold AutoTune.terminate
  split
  · exact of_eq rfl
  · rename_i s hget
    dsimp only
    have hrow : StatusMoves id (· = status) db (db.setSession id fun s => s.ended status error failureClass) :=
      setSession fun _ => Or.inr rfl
    refine hrow.trans (of_eq ?_)
    cases s.machineId with
    | none => rfl
    | some m => exact (releaseMachineIfIdle_writes _ m).sessions

end StatusMoves

section

variable (drivers : RunId → TeardownReplies) (now : Time) (order : RowOrder RunId)

theorem failTowardValidation_moves (f : SessionFinds) (id : SessionId) (failureClass error : String)
    (db : Db) : StatusMoves id (· = .validating) db
      (failTowardValidation drivers now order f id failureClass error db).state := by
  have hblame : StatusMoves id (· = .validating) db (db.setSession id fun s =>
      s.blame failureClass (f.withDeathLog failureClass error)) := StatusMoves.blame _ _
  refine Ran.andThen_preserves (I := StatusMoves id (· = .validating) db) ?_ ?_
  · exact hblame.trans (StatusMoves.of_eq (killSessionRuns_sessions drivers now order id _ _))
  · intro db' h
    exact h.trans (StatusMoves.setStatus rfl)

/-- The statuses between a session's start and its end. -/
def SessionStatus.underWay : SessionStatus → Prop
  | .starting | .searching | .finalizing | .validating => True
  | _ => False

theorem advanceStarting_moves (f : SessionFinds) (s : PolicySession) (db : Db) :
    StatusMoves s.id SessionStatus.underWay db (advanceStarting drivers now order f s db).state := by
  have hfail : ∀ failureClass error, StatusMoves s.id SessionStatus.underWay db
      (failTowardValidation drivers now order f s.id failureClass error db).state := fun _ _ =>
    (failTowardValidation_moves drivers now order f s.id _ _ db).mono fun _ h => h ▸ trivial
  unfold advanceStarting
  split
  · exact StatusMoves.setStatus trivial
  split
  · exact hfail _ _
  split
  · exact hfail _ _
  split
  · exact hfail _ _
  · exact StatusMoves.of_eq rfl

theorem beginFinalizing_moves (id : SessionId) (reason : String) (db : Db) :
    StatusMoves id SessionStatus.underWay db (beginFinalizing id now reason db) :=
  StatusMoves.setSession fun _ => Or.inr trivial

theorem advanceSearching_moves (f : SessionFinds) (s : PolicySession) (db : Db) :
    StatusMoves s.id SessionStatus.underWay db (advanceSearching drivers now order f s db).state := by
  have hend : ∀ reason, StatusMoves s.id SessionStatus.underWay db (db.endSearch s.id reason) := fun _ =>
    StatusMoves.setSession fun _ => Or.inl rfl
  have hfail : ∀ reason failureClass error, StatusMoves s.id SessionStatus.underWay db
      (failTowardValidation drivers now order f s.id failureClass error
        (db.endSearch s.id reason)).state := fun reason _ _ =>
    (hend reason).trans
      ((failTowardValidation_moves drivers now order f s.id _ _ _).mono fun _ h => h ▸ trivial)
  unfold advanceSearching
  split
  · exact hfail _ _ _
  split
  · exact hfail _ _ _
  · exact beginFinalizing_moves now s.id _ db
  · exact (StatusMoves.blame _ _).trans (beginFinalizing_moves now s.id _ _)
  · split
    · exact beginFinalizing_moves now s.id _ db
    split
    · exact beginFinalizing_moves now s.id _ db
    · exact StatusMoves.of_eq rfl

theorem advanceFinalizing_moves (f : SessionFinds) (s : PolicySession) (db : Db) :
    StatusMoves s.id (· = .validating) db (advanceFinalizing drivers now order f s db).state := by
  unfold advanceFinalizing
  split
  · exact StatusMoves.of_eq rfl
  refine Ran.andThen_preserves (I := StatusMoves s.id (· = .validating) db) ?_ ?_
  · exact StatusMoves.of_eq (killSessionRuns_sessions drivers now order s.id _ db)
  · intro db' h
    dsimp only [Ran.done_state]
    split
    · exact (h.trans (StatusMoves.blame _ _)).trans (StatusMoves.setStatus rfl)
    · exact h.trans (StatusMoves.setStatus rfl)

theorem advancePending_moves (f : SessionFinds) (s : PolicySession) (db : Db) :
    StatusMoves s.id (· ≠ .pending) db (advancePending f s db) := by
  have hfail : ∀ error failureClass, StatusMoves s.id (· ≠ .pending) db
      (terminate s.id .failed error failureClass db) := fun error failureClass =>
    (StatusMoves.terminate error failureClass db).mono fun _ h => by simp [h]
  unfold advancePending
  split
  · exact hfail _ _
  split
  · exact hfail _ _
  split
  · exact StatusMoves.of_eq rfl
  split
  · exact hfail _ _
  split
  · exact hfail _ _
  split
  · exact StatusMoves.of_eq rfl
  · exact hfail _ _
  · exact hfail _ _
  · have hstart : StatusMoves s.id (· ≠ .pending) db (db.setStatus s.id .starting) :=
      StatusMoves.setStatus (by simp)
    exact hstart.trans (StatusMoves.of_eq rfl)

theorem launchValidationRun_sessions {session : SessionId} {config : LaunchConfig} {db db' : Db}
    (h : launchValidationRun session config db = some db') : db'.sessions = db.sessions := by
  rcases launchValidationRun_cases h with ⟨s, c, r, -, -, -, hrun, -⟩
  exact hrun.sessions

theorem launchValidations_sessions (session : SessionId) (configs : List LaunchConfig) (db : Db) :
    (launchValidations session configs db).1.sessions = db.sessions := by
  induction configs generalizing db with
  | nil => rfl
  | cons config configs ih =>
      unfold launchValidations
      split
      · rfl
      · rename_i db' h
        exact (ih db').trans (launchValidationRun_sessions h)

theorem advanceValidating_moves (f : SessionFinds) (s : PolicySession) (db : Db) :
    StatusMoves s.id (fun st => st.terminal = true) db (advanceValidating f s db) := by
  have hlaunch : StatusMoves s.id (fun st => st.terminal = true) db
      (launchValidations s.id f.validations db).1 :=
    StatusMoves.of_eq (launchValidations_sessions s.id f.validations db)
  unfold advanceValidating
  dsimp only
  split
  · exact hlaunch
  · refine hlaunch.trans ((StatusMoves.terminate _ _ _).mono ?_)
    rintro st rfl
    split <;> rfl

/-- A session under way that is not validating stays under way. -/
theorem handleSession_moves {s : PolicySession} (f : SessionFinds) (db : Db)
    (hpending : s.status ≠ .pending) (hvalidating : s.status ≠ .validating) :
    StatusMoves s.id SessionStatus.underWay db (handleSession drivers now order f s db).state := by
  unfold handleSession
  cases hs : s.status with
  | pending => exact absurd hs hpending
  | validating => exact absurd hs hvalidating
  | starting => exact advanceStarting_moves drivers now order f s db
  | searching => exact advanceSearching_moves drivers now order f s db
  | finalizing => exact (advanceFinalizing_moves drivers now order f s db).mono fun _ h => h ▸ trivial
  | _ => exact StatusMoves.of_eq rfl

theorem endSession_moves {s : PolicySession} {status : SessionStatus} (reason error : String) (db : Db) :
    StatusMoves s.id (· = status) db (endSession drivers now order s status reason error db).state := by
  refine Ran.andThen_preserves (I := StatusMoves s.id (· = status) db) ?_ ?_
  · exact StatusMoves.of_eq (killSessionRuns_sessions drivers now order s.id _ db)
  · intro db' h
    exact h.trans (StatusMoves.terminate _ _ _)

theorem SessionStatus.underWay.ne_pending {st : SessionStatus} (h : st.underWay) : st ≠ .pending := by
  rintro rfl
  exact h

/-- No session becomes PENDING again. -/
theorem advanceSession_moves (f : SessionFinds) (id : SessionId) (db : Db) :
    StatusMoves id (· ≠ .pending) db (advanceSession drivers now order f id db).state := by
  unfold advanceSession
  split
  · exact StatusMoves.of_eq rfl
  rename_i s hget
  have hid : s.id = id := (Table.get?_eq_some_iff.mp hget).2
  subst hid
  split
  · exact (StatusMoves.terminate _ _ _).mono fun _ h => by simp [h]
  split
  · exact (endSession_moves drivers now order _ _ db).mono fun _ h => by simp [h]
  split
  · refine (endSession_moves drivers now order _ _ db).mono ?_
    rintro st rfl
    split <;> simp
  by_cases hpending : s.status = .pending
  · simp only [handleSession, hpending]
    exact advancePending_moves f s db
  by_cases hvalidating : s.status = .validating
  · simp only [handleSession, hvalidating]
    refine (advanceValidating_moves f s db).mono ?_
    rintro st hterminal rfl
    cases hterminal
  · exact (handleSession_moves drivers now order f db hpending hvalidating).mono fun _ h => h.ne_pending

/-- The statuses after STARTING and SEARCHING. -/
def SessionStatus.explored : SessionStatus → Bool
  | .pending | .starting | .searching => false
  | _ => true

/-- A session that explores no longer never explores again. -/
theorem advanceSession_explored (f : SessionFinds) {id : SessionId} {db : Db} {s : PolicySession}
    (hget : db.sessions.get? id = some s) (hover : s.status.explored = true) :
    StatusMoves id (fun st => st.explored = true) db (advanceSession drivers now order f id db).state := by
  have hid : s.id = id := (Table.get?_eq_some_iff.mp hget).2
  subst hid
  unfold advanceSession
  rw [hget]
  dsimp only
  split
  · exact (StatusMoves.terminate _ _ _).mono fun _ h => by simp [h, SessionStatus.explored]
  split
  · exact (endSession_moves drivers now order _ _ db).mono fun _ h => by simp [h, SessionStatus.explored]
  split
  · refine (endSession_moves drivers now order _ _ db).mono ?_
    rintro st rfl
    split <;> rfl
  unfold handleSession
  cases hs : s.status with
  | pending => simp [hs, SessionStatus.explored] at hover
  | starting => simp [hs, SessionStatus.explored] at hover
  | searching => simp [hs, SessionStatus.explored] at hover
  | finalizing =>
      exact (advanceFinalizing_moves drivers now order f s db).mono fun _ h => by
        simp [h, SessionStatus.explored]
  | validating =>
      refine (advanceValidating_moves f s db).mono ?_
      intro st hterminal
      cases st <;> first | rfl | cases hterminal
  | _ => exact StatusMoves.of_eq rfl

/-- A session that is neither PENDING nor VALIDATING and is not cut short stays under way. -/
theorem advanceSession_underWay (f : SessionFinds) {db : Db} {s : PolicySession} {c : Campaign}
    (hget : db.sessions.get? s.id = some s) (hc : db.campaigns.get? s.campaignId = some c)
    (hcut : cutShort now db s c = false) (hpending : s.status ≠ .pending)
    (hvalidating : s.status ≠ .validating) :
    StatusMoves s.id SessionStatus.underWay db (advanceSession drivers now order f s.id db).state := by
  simp only [cutShort, Bool.or_eq_false_iff] at hcut
  unfold advanceSession
  simp only [hget, hc, hcut.1, hcut.2, Bool.false_eq_true, if_false]
  exact handleSession_moves drivers now order f db hpending hvalidating

end

/-! ## What validation does to contenders -/

/-- A contender during its session's validation: it keeps its id and session, is never registered again,
and is not skipped without a reason. -/
structure ContenderMoves (session : SessionId) (k k' : Contender) : Prop where
  id : k'.id = k.id
  sessionId : k'.sessionId = k.sessionId
  others : k.sessionId ≠ session → k' = k
  reasoned : k.Reasoned → k'.Reasoned
  registered : k'.status = .registered → k.status = .registered

/-- The contenders of one session move; sessions keep their statuses. -/
structure ContestMoves (session : SessionId) (t t' : Contest) : Prop where
  contenders : List.Forall₂ (ContenderMoves session) t.contenders.rows t'.contenders.rows
  sessions : List.Forall₂ (fun s s' => s'.id = s.id ∧ s'.status = s.status)
    t.db.sessions.rows t'.db.sessions.rows
  requests : t'.requests = t.requests

/-- A contender of this session, if there is one of this id. -/
def Contest.InSession (t : Contest) (session : SessionId) (id : ContenderId) : Prop :=
  ∀ k ∈ t.contenders.rows, k.id = id → k.sessionId = session

namespace ContestMoves

variable {session : SessionId} {t t' t'' : Contest}

theorem refl (t : Contest) : ContestMoves session t t where
  contenders := List.forall₂_same.mpr fun _ _ => ⟨rfl, rfl, fun _ => rfl, fun h => h, fun h => h⟩
  sessions := List.forall₂_same.mpr fun _ _ => ⟨rfl, rfl⟩
  requests := rfl

theorem trans (h : ContestMoves session t t') (h' : ContestMoves session t' t'') :
    ContestMoves session t t'' where
  contenders := by
    refine forall₂_trans ?_ h.contenders h'.contenders
    rintro k k' k'' hk hk'
    refine ⟨hk'.id.trans hk.id, hk'.sessionId.trans hk.sessionId, ?_, fun hr => hk'.reasoned (hk.reasoned hr),
      fun hr => hk.registered (hk'.registered hr)⟩
    intro hother
    have hsame := hk.others hother
    rw [hk'.others (by rwa [hsame]), hsame]
  sessions := forall₂_trans (fun _ _ _ h h' => ⟨h'.1.trans h.1, h'.2.trans h.2⟩) h.sessions h'.sessions
  requests := h'.requests.trans h.requests

theorem inSession (h : ContestMoves session t t') {id : ContenderId} (hin : t.InSession session id) :
    t'.InSession session id := by
  intro k' hk' hid
  rcases exists_mem_of_forall₂ h.contenders hk' with ⟨k, hk, hmove⟩
  rw [hmove.sessionId]
  exact hin k hk (hmove.id.symm.trans hid)

/-- A contender of the session gets an answer or is served. -/
theorem setContender {id : ContenderId} {f : Contender → Contender} {hf : ∀ k, (f k).id = k.id}
    (hin : t.InSession session id) (hsession : ∀ k, (f k).sessionId = k.sessionId)
    (hreasoned : ∀ k, k.Reasoned → (f k).Reasoned) (hregistered : ∀ k, (f k).status ≠ .registered) :
    ContestMoves session t (t.setContender id f hf) where
  contenders := by
    simp only [Contest.setContender, Table.rows_modify]
    refine List.forall₂_map_right_iff.mpr (List.forall₂_same.mpr ?_)
    intro k hk
    by_cases hid : k.id = id
    · rw [if_pos hid]
      exact ⟨hf k, hsession k, fun h => absurd (hin k hk hid) h, hreasoned k,
        fun h => absurd h (hregistered k)⟩
    · rw [if_neg hid]
      exact ⟨rfl, rfl, fun _ => rfl, fun h => h, fun h => h⟩
  sessions := List.forall₂_same.mpr fun _ _ => ⟨rfl, rfl⟩
  requests := rfl

theorem skip {id : ContenderId} {reason : String} (hin : t.InSession session id) (hreason : reason ≠ "") :
    ContestMoves session t (t.setContender id (Contender.skip reason)) :=
  setContender hin (fun _ => rfl) (fun _ _ _ => hreason) fun _ => by simp [Contender.skip]

theorem measureBy {id : ContenderId} (run : RunId) (hin : t.InSession session id) :
    ContestMoves session t (t.setContender id (Contender.measureBy run)) :=
  setContender hin (fun _ => rfl) (fun _ _ h => by cases h) fun _ => by simp [Contender.measureBy]

theorem commandAt {id : ContenderId} (now : Time) (hin : t.InSession session id) :
    ContestMoves session t (t.setContender id (Contender.commandAt now)) :=
  setContender hin (fun _ => rfl) (fun _ _ h => by cases h) fun _ => by simp [Contender.commandAt]

theorem command (id : SessionId) (contender : Option ContenderId) :
    ContestMoves session t (t.command id contender) where
  contenders := List.forall₂_same.mpr fun _ _ => ⟨rfl, rfl, fun _ => rfl, fun h => h, fun h => h⟩
  sessions := by
    simp only [Contest.command, Db.setSession, Table.rows_modify]
    refine List.forall₂_map_right_iff.mpr (List.forall₂_same.mpr ?_)
    intro s _
    by_cases hid : s.id = id
    · rw [if_pos hid]
      exact ⟨rfl, rfl⟩
    · rw [if_neg hid]
      exact ⟨rfl, rfl⟩
  requests := rfl

theorem withDb {db : Db} (h : db.sessions = t.db.sessions) :
    ContestMoves session t { t with db := db } where
  contenders := List.forall₂_same.mpr fun _ _ => ⟨rfl, rfl, fun _ => rfl, fun h => h, fun h => h⟩
  sessions := by
    rw [h]
    exact List.forall₂_same.mpr fun _ _ => ⟨rfl, rfl⟩
  requests := rfl

end ContestMoves

section

variable (v : ValidationFinds) (now : Time)

theorem landed_reasoned (run : Run) (k : Contender) : (landed v run k).Reasoned := by
  intro hskipped
  simp only [landed] at hskipped ⊢
  by_cases hs : run.status = .succeeded
  · simp [hs] at hskipped
  · by_cases hw : v.waiting run.id = true
    · simp [hs, hw]
    · simp [hs, hw] at hskipped

theorem landed_not_registered (run : Run) (k : Contender) : (landed v run k).status ≠ .registered := by
  simp only [landed]
  split
  · simp
  split <;> simp

theorem release_moves (session : SessionId) (id : ContenderId) (t : Contest) :
    ContestMoves session t (t.release session id) := by
  unfold Contest.release
  split
  · split
    · exact ContestMoves.command session none
    · exact ContestMoves.refl t
  · exact ContestMoves.refl t

theorem resolveContender_moves {session : SessionId} {t : Contest} {k : Contender}
    (hin : t.InSession session k.id) : ContestMoves session t (resolveContender v now session t k) := by
  unfold resolveContender
  split
  · dsimp only
    split
    · exact (ContestMoves.skip hin (by decide)).trans (ContestMoves.command session none)
    · exact ContestMoves.refl t
  · split
    · exact ContestMoves.refl t
    · refine ContestMoves.trans ?_ (release_moves session _ _)
      exact ContestMoves.setContender hin (fun _ => rfl) (fun k _ => landed_reasoned v _ k)
        (landed_not_registered v _)

theorem foldl_moves {session : SessionId} {step : Contest → Contender → Contest}
    (hstep : ∀ t k, t.InSession session k.id → ContestMoves session t (step t k)) {l : List Contender}
    {t : Contest} (hin : ∀ k ∈ l, t.InSession session k.id) : ContestMoves session t (l.foldl step t) := by
  induction l generalizing t with
  | nil => exact ContestMoves.refl t
  | cons k l ih =>
      have hk := hstep t k (hin k List.mem_cons_self)
      exact hk.trans (ih fun j hj => hk.inSession (hin j (List.mem_cons_of_mem _ hj)))

theorem launchContenders_moves {s : PolicySession} {c : Campaign} {l : List Contender} {t : Contest}
    (hin : ∀ k ∈ l, t.InSession s.id k.id) : ContestMoves s.id t (launchContenders v now s c l t).1 := by
  induction l generalizing t with
  | nil => exact ContestMoves.refl t
  | cons k l ih =>
      have hk := hin k List.mem_cons_self
      have hrest := fun j hj => hin j (List.mem_cons_of_mem k hj)
      unfold launchContenders
      split
      · split
        · exact ContestMoves.refl t
        · rename_i db hlaunch
          have hdb : ContestMoves s.id t { t with db := db } :=
            ContestMoves.withDb (launchValidationRun_sessions hlaunch)
          have hmove := hdb.trans (ContestMoves.measureBy t.db.runs.nextKey (hdb.inSession hk))
          exact hmove.trans (ih fun j hj => hmove.inSession (hrest j hj))
      · split
        · split
          · exact (ContestMoves.commandAt now hk).trans (ContestMoves.command s.id _)
          · exact ContestMoves.refl t
        · have hmove : ContestMoves s.id t (t.setContender k.id
              (Contender.skip "the platform cannot launch this spec and the policy is gone")) :=
            ContestMoves.skip hk (by decide)
          exact hmove.trans (ih fun j hj => hmove.inSession (hrest j hj))

theorem exists_of_mem_setContender {t : Contest} {id : ContenderId} {f : Contender → Contender}
    {hf : ∀ k, (f k).id = k.id} {k' : Contender} (hk' : k' ∈ (t.setContender id f hf).contenders.rows)
    (hid : k'.id = id) : ∃ k, k' = f k := by
  rcases Contest.mem_setContender.mp hk' with ⟨k, _, rfl⟩
  by_cases hk : k.id = id
  · exact ⟨k, if_pos hk⟩
  · rw [if_neg hk] at hid
    exact absurd hid hk

/-- Whoever was written is registered no more, whatever follows. -/
theorem not_registered_after {session : SessionId} {t t' : Contest} {id : ContenderId}
    {f : Contender → Contender} {hf : ∀ k, (f k).id = k.id} (hregistered : ∀ k, (f k).status ≠ .registered)
    (h : ContestMoves session (t.setContender id f hf) t') {k' : Contender}
    (hk' : k' ∈ t'.contenders.rows) (hreg : k'.status = .registered) : id ≠ k'.id := by
  intro hid
  rcases exists_mem_of_forall₂ h.contenders hk' with ⟨k, hk, hmove⟩
  rcases exists_of_mem_setContender hk (hmove.id.symm.trans hid.symm) with ⟨k₀, rfl⟩
  exact hregistered k₀ (hmove.registered hreg)

/-- With nothing left waiting, nobody of the queue is registered. -/
theorem launchContenders_answers {s : PolicySession} {c : Campaign} {l : List Contender} {t : Contest}
    (hin : ∀ k ∈ l, t.InSession s.id k.id) (hdone : (launchContenders v now s c l t).2 = false)
    {k' : Contender} (hk' : k' ∈ (launchContenders v now s c l t).1.contenders.rows)
    (hreg : k'.status = .registered) : ∀ k ∈ l, k.id ≠ k'.id := by
  induction l generalizing t with
  | nil => simp
  | cons k l ih =>
      have hk := hin k List.mem_cons_self
      have hrest := fun j hj => hin j (List.mem_cons_of_mem k hj)
      -- the head was written, the rest is answered by induction
      have hcons : ∀ {t₁ : Contest} {f : Contender → Contender} {hf : ∀ k, (f k).id = k.id},
          (∀ k, (f k).status ≠ .registered) → t₁.InSession s.id k.id →
          (∀ j ∈ l, (t₁.setContender k.id f hf).InSession s.id j.id) →
          (launchContenders v now s c l (t₁.setContender k.id f hf)).2 = false →
          k' ∈ (launchContenders v now s c l (t₁.setContender k.id f hf)).1.contenders.rows →
          ∀ j ∈ k :: l, j.id ≠ k'.id := by
        intro t₁ f hf hf' _ hin₁ hdone₁ hk₁ j hj
        rcases List.mem_cons.mp hj with rfl | hj
        · exact not_registered_after hf' (launchContenders_moves v now hin₁) hk₁ hreg
        · exact ih hin₁ hdone₁ hk₁ j hj
      unfold launchContenders at hdone hk'
      split at hdone
      · rename_i config hconfig
        simp only [hconfig] at hk'
        split at hdone
        · cases hdone
        · rename_i db hlaunch
          simp only [hlaunch] at hk'
          have hdb : ContestMoves s.id t { t with db := db } :=
            ContestMoves.withDb (launchValidationRun_sessions hlaunch)
          have hmove := ContestMoves.measureBy t.db.runs.nextKey (hdb.inSession hk)
          exact hcons (fun _ => by simp [Contender.measureBy]) (hdb.inSession hk)
            (fun j hj => hmove.inSession (hdb.inSession (hrest j hj))) hdone hk'
      · rename_i hconfig
        simp only [hconfig] at hk'
        split at hdone
        · split at hdone <;> cases hdone
        · rename_i halive
          rw [if_neg halive] at hk'
          have hmove : ContestMoves s.id t (t.setContender k.id
              (Contender.skip "the platform cannot launch this spec and the policy is gone")) :=
            ContestMoves.skip hk (by decide)
          exact hcons (fun _ => by simp [Contender.skip]) hk (fun j hj => hmove.inSession (hrest j hj))
            hdone hk'

theorem launchPending_moves {s : PolicySession} {c : Campaign} {pending : List Contender}
    {wantReference : Bool} {t : Contest} (hin : ∀ k ∈ pending, t.InSession s.id k.id) :
    ContestMoves s.id t (launchPending v now s c pending wantReference t).1 := by
  unfold launchPending
  dsimp only
  split
  · exact ContestMoves.refl t
  split
  · exact foldl_moves (fun t k hk => ContestMoves.skip hk (by decide)) hin
  split
  · exact launchContenders_moves v now hin
  · split
    · exact ContestMoves.refl t
    · rename_i db hlaunch
      have hdb : ContestMoves s.id t { t with db := db } :=
        ContestMoves.withDb (launchValidationRun_sessions hlaunch)
      exact hdb.trans (launchContenders_moves v now fun k hk => hdb.inSession (hin k hk))

/-- Out of clock, everybody of the queue is skipped. -/
theorem skipAll_answers {session : SessionId} {reason : String} (hreason : reason ≠ "")
    {l : List Contender} {t : Contest} (hin : ∀ k ∈ l, t.InSession session k.id) {k' : Contender}
    (hk' : k' ∈ (l.foldl (fun t k => t.setContender k.id (Contender.skip reason)) t).contenders.rows)
    (hreg : k'.status = .registered) : ∀ k ∈ l, k.id ≠ k'.id := by
  induction l generalizing t with
  | nil => simp
  | cons k l ih =>
      have hmove : ContestMoves session t (t.setContender k.id (Contender.skip reason)) :=
        ContestMoves.skip (hin k List.mem_cons_self) hreason
      have hrest := fun j hj => hmove.inSession (hin j (List.mem_cons_of_mem k hj))
      intro j hj
      rcases List.mem_cons.mp hj with rfl | hj
      · have hafter := foldl_moves (fun t k hk => ContestMoves.skip hk hreason) hrest
        exact not_registered_after (fun _ => by simp [Contender.skip]) hafter hk' hreg
      · exact ih hrest hk' j hj

theorem launchPending_answers {s : PolicySession} {c : Campaign} {pending : List Contender}
    {wantReference : Bool} {t : Contest} (hin : ∀ k ∈ pending, t.InSession s.id k.id)
    (hdone : (launchPending v now s c pending wantReference t).2 = false) {k' : Contender}
    (hk' : k' ∈ (launchPending v now s c pending wantReference t).1.contenders.rows)
    (hreg : k'.status = .registered) : ∀ k ∈ pending, k.id ≠ k'.id := by
  unfold launchPending at hdone hk'
  dsimp only at hdone hk'
  split at hdone
  · cases hdone
  rename_i hblocked
  rw [if_neg hblocked] at hk'
  split at hdone
  · rename_i hclock
    rw [if_pos hclock] at hk'
    exact skipAll_answers (by decide) hin hk' hreg
  rename_i hclock
  rw [if_neg hclock] at hk'
  split at hdone
  · rename_i hreference
    simp only [hreference] at hk'
    exact launchContenders_answers v now hin hdone hk' hreg
  · rename_i config hreference
    simp only [hreference] at hk'
    split at hdone
    · cases hdone
    · rename_i db hlaunch
      simp only [hlaunch] at hk'
      have hdb : ContestMoves s.id t { t with db := db } :=
        ContestMoves.withDb (launchValidationRun_sessions hlaunch)
      exact launchContenders_answers v now (fun k hk => hdb.inSession (hin k hk)) hdone hk' hreg

theorem mem_ranked {t : Contest} {session : SessionId} {k : Contender} :
    k ∈ t.ranked session ↔ k ∈ t.contenders.rows ∧ k.sessionId = session := by
  unfold Contest.ranked
  rw [List.mem_insertionSort, List.mem_filter]
  simp

theorem inSession_of_mem_ranked {t : Contest} {session : SessionId} {k : Contender}
    (h : k ∈ t.ranked session) : t.InSession session k.id := by
  intro j hj hid
  rw [Table.eq_of_key_eq hj (mem_ranked.mp h).1 hid]
  exact (mem_ranked.mp h).2

/-- A visit of a session that validates: its contenders move, and it ends only with none of them
open. -/
theorem advanceContenders_cases (s : PolicySession) (c : Campaign) (t : Contest) :
    ∃ t', ContestMoves s.id t t' ∧ (advanceContenders v now s c t = t' ∨
      ((∀ k ∈ t'.contenders.rows, k.sessionId = s.id → k.open_ = false) ∧
        ∃ status error, status ≠ .pending ∧ advanceContenders v now s c t =
          { t' with db := terminate s.id status error "" t'.db })) := by
  unfold advanceContenders
  extract_lets t₁ contenders wantReference pending launched measuring referenceLive
  have hresolve : ContestMoves s.id t t₁ := by
    refine foldl_moves (fun t k hk => resolveContender_moves v now hk) fun k hk => ?_
    exact inSession_of_mem_ranked (List.mem_of_mem_filter hk)
  have hpending : ∀ k ∈ pending, t₁.InSession s.id k.id := fun k hk =>
    inSession_of_mem_ranked (List.mem_of_mem_filter hk)
  have hlaunched : ContestMoves s.id t₁ launched.1 := by
    simp only [launched]
    split
    · exact launchPending_moves v now hpending
    · exact ContestMoves.refl t₁
  refine ⟨launched.1, hresolve.trans hlaunched, ?_⟩
  split
  · exact Or.inl rfl
  rename_i hover
  simp only [Bool.or_eq_true, not_or, Bool.not_eq_true] at hover
  refine Or.inr ⟨?_, _, _, by split <;> simp, rfl⟩
  intro k' hk' hsession
  have hserving : k'.status ≠ .serving := by
    have := List.any_eq_false.mp hover.1.2 k' (mem_ranked.mpr ⟨hk', hsession⟩)
    simpa using this
  have hregistered : k'.status ≠ .registered := by
    intro hreg
    rcases exists_mem_of_forall₂ hlaunched.contenders hk' with ⟨k, hk, hmove⟩
    have hk₁ : k ∈ pending := by
      refine List.mem_filter.mpr ⟨mem_ranked.mpr ⟨hk, hmove.sessionId.symm.trans hsession⟩, ?_⟩
      simpa using hmove.registered hreg
    have hnonempty : (!pending.isEmpty || wantReference) = true := by
      cases hp : pending with
      | nil => simp [hp] at hk₁
      | cons _ _ => rfl
    have hdone := hover.1.1
    simp only [launched, hnonempty, if_true] at hdone hk'
    exact launchPending_answers v now hpending hdone hk' hreg k hk₁ hmove.id.symm
  simp [Contender.open_, hserving, hregistered]

end

/-! ## Between steps -/

/-- Contenders belong to sessions that have started, and an ended session has answered them all. -/
structure Accounted (t : Contest) : Prop where
  known : ∀ k ∈ t.contenders.rows, ∃ s ∈ t.db.sessions.rows, s.id = k.sessionId ∧ s.status ≠ .pending
  asked : ∀ id, .put id ∈ t.requests → ∃ s ∈ t.db.sessions.rows, s.id = id ∧ s.status ≠ .pending
  reasoned : ∀ k ∈ t.contenders.rows, k.Reasoned
  verdicts : ∀ k ∈ t.contenders.rows, ∀ s ∈ t.db.sessions.rows, s.id = k.sessionId → s.live = false →
    k.accounted = true

theorem exists_mem_of_forall₂_left {α : Type} {R : α → α → Prop} {l l' : List α}
    (h : List.Forall₂ R l l') {a : α} (ha : a ∈ l) : ∃ b ∈ l', R a b :=
  have hflip : List.Forall₂ (fun b a => R a b) l' l := h.flip
  exists_mem_of_forall₂ hflip ha

namespace Accounted

variable {t t' : Contest}

/-- Contenders and requests stay, one session changes its status, and where it ends it leaves no open
contender. -/
theorem statusMoves {id : SessionId} {db : Db} (h : Accounted t)
    (hmoves : StatusMoves id (· ≠ .pending) t.db db)
    (hends : ∀ s ∈ t.db.sessions.rows, ∀ s' ∈ db.sessions.rows, s.id = id → s'.id = id →
      s.live = true → s'.live = false → ∀ k ∈ t.contenders.rows, k.sessionId = id → k.open_ = false) :
    Accounted { t with db := db } where
  known := by
    intro k hk
    rcases h.known k hk with ⟨s, hs, hid, hpending⟩
    rcases exists_mem_of_forall₂_left hmoves hs with ⟨s', hs', hid', hstatus⟩
    refine ⟨s', hs', hid'.trans hid, ?_⟩
    rcases hstatus with hstatus | ⟨-, hstatus⟩
    · rwa [hstatus]
    · exact hstatus
  asked := by
    intro id' hreq
    rcases h.asked id' hreq with ⟨s, hs, hid, hpending⟩
    rcases exists_mem_of_forall₂_left hmoves hs with ⟨s', hs', hid', hstatus⟩
    refine ⟨s', hs', hid'.trans hid, ?_⟩
    rcases hstatus with hstatus | ⟨-, hstatus⟩
    · rwa [hstatus]
    · exact hstatus
  reasoned := h.reasoned
  verdicts := by
    intro k hk s' hs' hid hended
    rcases exists_mem_of_forall₂ hmoves hs' with ⟨s, hs, hids, hstatus⟩
    by_cases hlive : s.live = true
    · rcases hstatus with hstatus | ⟨hsid, -⟩
      · have : s'.live = s.live := by simp [PolicySession.live, hstatus]
        simp [this, hlive] at hended
      · have hopen := hends s hs s' hs' hsid (hids.trans hsid) hlive hended k hk
          (hid.symm.trans (hids.trans hsid))
        exact (Contender.accounted_iff (h.reasoned k hk)).mpr hopen
    · exact h.verdicts k hk s hs (hids.symm.trans hid) (by simpa using hlive)

/-- The contenders of a live session move. -/
theorem contestMoves {session : SessionId} (h : Accounted t) (hmoves : ContestMoves session t t')
    (hlive : ∀ s ∈ t.db.sessions.rows, s.id = session → s.live = true) : Accounted t' where
  known := by
    intro k' hk'
    rcases exists_mem_of_forall₂ hmoves.contenders hk' with ⟨k, hk, hmove⟩
    rcases h.known k hk with ⟨s, hs, hid, hpending⟩
    rcases exists_mem_of_forall₂_left hmoves.sessions hs with ⟨s', hs', hid', hstatus⟩
    exact ⟨s', hs', (hid'.trans hid).trans hmove.sessionId.symm, hstatus ▸ hpending⟩
  asked := by
    intro id hreq
    rw [hmoves.requests] at hreq
    rcases h.asked id hreq with ⟨s, hs, hid, hpending⟩
    rcases exists_mem_of_forall₂_left hmoves.sessions hs with ⟨s', hs', hid', hstatus⟩
    exact ⟨s', hs', hid'.trans hid, hstatus ▸ hpending⟩
  reasoned := by
    intro k' hk'
    rcases exists_mem_of_forall₂ hmoves.contenders hk' with ⟨k, hk, hmove⟩
    exact hmove.reasoned (h.reasoned k hk)
  verdicts := by
    intro k' hk' s' hs' hid hended
    rcases exists_mem_of_forall₂ hmoves.contenders hk' with ⟨k, hk, hmove⟩
    rcases exists_mem_of_forall₂ hmoves.sessions hs' with ⟨s, hs, hids, hstatus⟩
    have hended' : s.live = false := by simpa [PolicySession.live, hstatus] using hended
    have hother : k.sessionId ≠ session := by
      intro hk
      have := hlive s hs (hids.symm.trans (hid.trans (hmove.sessionId.trans hk)))
      simp [this] at hended'
    rw [hmove.others hother] at hid ⊢
    exact h.verdicts k hk s hs (hids.symm.trans hid) hended'

/-! ## Each step -/

/-- A visit that is not a validation. Contenders of a PENDING session do not exist; a session under way
ends here only when it is cut short. -/
theorem advanceElsewhere {drivers : RunId → TeardownReplies} {now : Time} {order : RowOrder RunId}
    {f : SessionFinds} {v : ValidationFinds} {id : SessionId} (h : Accounted t)
    (hclean : t.Clean (.advance drivers now order f v id))
    (hhandler : ∀ s c, t.db.sessions.get? id = some s → t.db.campaigns.get? s.campaignId = some c →
      ¬ (s.status = .validating ∧ cutShort now t.db s c = false)) :
    Accounted { t with db := (advanceSession drivers now order f id t.db).state } := by
  refine h.statusMoves (advanceSession_moves drivers now order f id t.db) ?_
  intro s hs s' hs' hid hid' hlive hended k hk hsession
  by_cases hshort : ∀ c, t.db.campaigns.get? s.campaignId = some c → cutShort now t.db s c = true
  · exact hclean s hs hid hshort k hk hsession
  · -- its handler is asked, and is not the one of validation
    push Not at hshort
    rcases hshort with ⟨c, hc, hcut⟩
    have hcut' : cutShort now t.db s c = false := by simpa using hcut
    subst hid
    have hget := Table.get?_key hs
    have hpending : s.status ≠ .pending := by
      rcases h.known k hk with ⟨s₀, hs₀, hid₀, hpending⟩
      rwa [← Table.eq_of_key_eq hs₀ hs (hid₀.trans hsession)]
    have hvalidating : s.status ≠ .validating := fun hv => hhandler s c hget hc ⟨hv, hcut'⟩
    have hmoves := advanceSession_underWay drivers now order f hget hc hcut' hpending hvalidating
    rcases exists_mem_of_forall₂ hmoves hs' with ⟨s₁, hs₁, hids, hstatus⟩
    have hsame : s₁ = s := Table.eq_of_key_eq hs₁ hs (hids.symm.trans hid')
    subst hsame
    rcases hstatus with hstatus | ⟨-, hway⟩
    · have : s'.live = s₁.live := by simp [PolicySession.live, hstatus]
      simp [this, hlive] at hended
    · simp only [PolicySession.live, Bool.not_eq_false'] at hended
      cases hs' : s'.status <;> simp [hs', SessionStatus.underWay, SessionStatus.terminal] at hway hended

/-- Validation ends a session with every contender answered. -/
theorem advanceContenders {v : ValidationFinds} {now : Time} {s : PolicySession} {c : Campaign}
    (h : Accounted t) (hs : s ∈ t.db.sessions.rows) (hlive : s.live = true) :
    Accounted (advanceContenders v now s c t) := by
  rcases advanceContenders_cases v now s c t with ⟨t', hmoves, heq | ⟨hopen, status, error, hst, heq⟩⟩
  · rw [heq]
    refine h.contestMoves hmoves fun s' hs' hid => ?_
    rwa [Table.eq_of_key_eq hs' hs hid]
  · rw [heq]
    have h' : Accounted t' := by
      refine h.contestMoves hmoves fun s' hs' hid => ?_
      rwa [Table.eq_of_key_eq hs' hs hid]
    have hterm : StatusMoves s.id (· ≠ .pending) t'.db (terminate s.id status error "" t'.db) :=
      (StatusMoves.terminate error "" t'.db).mono fun _ hst' => hst' ▸ hst
    exact h'.statusMoves hterm fun _ _ _ _ _ _ _ _ k hk hsession => hopen k hk hsession

theorem advance {drivers : RunId → TeardownReplies} {now : Time} {order : RowOrder RunId}
    {f : SessionFinds} {v : ValidationFinds} {id : SessionId} (h : Accounted t)
    (hallowed : t.Allowed (.advance drivers now order f v id))
    (hclean : t.Clean (.advance drivers now order f v id)) :
    Accounted (t.act (.advance drivers now order f v id)) := by
  rcases hallowed with ⟨s, hs, hid, hlive⟩
  have hget : t.db.sessions.get? id = some s := by rw [← hid]; exact Table.get?_key hs
  simp only [Contest.act, advanceContest, hget]
  cases hc : t.db.campaigns.get? s.campaignId with
  | none =>
      refine h.advanceElsewhere hclean fun s' c hs' hc' => ?_
      rw [hget] at hs'
      cases hs'
      simp [hc] at hc'
  | some c =>
      dsimp only
      split
      · exact h.advanceContenders hs hlive
      · rename_i hhandler
        refine h.advanceElsewhere hclean fun s' c' hs' hc' => ?_
        rw [hget] at hs'
        cases hs'
        rw [hc] at hc'
        cases hc'
        exact hhandler

/-! ### Requests of the policy -/

theorem mem_addContenders {session : SessionId} {claims : List Claim} {rows : Table Contender.id}
    {k : Contender} (h : k ∈ (addContenders session claims rows).rows) :
    k ∈ rows.rows ∨ (k.sessionId = session ∧ k.status = .registered) := by
  induction claims generalizing rows with
  | nil => exact Or.inl h
  | cons claim claims ih =>
      rcases ih h with hk | hk
      · rcases Table.mem_insert.mp hk with hk | rfl
        · exact Or.inl hk
        · exact Or.inr ⟨rfl, rfl⟩
      · exact Or.inr hk

/-- Contenders of a live session are written, or appear, and no others. -/
theorem writeLive {session : SessionId} {rows : Table Contender.id} (h : Accounted t)
    (hlive : ∀ s ∈ t.db.sessions.rows, s.id = session → s.live = true)
    (hknown : ∃ s ∈ t.db.sessions.rows, s.id = session ∧ s.status ≠ .pending)
    (hrows : ∀ k ∈ rows.rows, k ∈ t.contenders.rows ∨ (k.sessionId = session ∧ k.Reasoned)) :
    Accounted { t with contenders := rows } where
  known := by
    intro k hk
    rcases hrows k hk with hk | ⟨hk, -⟩
    · exact h.known k hk
    · rw [hk]
      exact hknown
  asked := h.asked
  reasoned := by
    intro k hk
    rcases hrows k hk with hk | ⟨-, hk⟩
    · exact h.reasoned k hk
    · exact hk
  verdicts := by
    intro k hk s hs hid hended
    rcases hrows k hk with hk | ⟨hk, -⟩
    · exact h.verdicts k hk s hs hid hended
    · have := hlive s hs (hid.trans hk)
      simp [this] at hended

theorem withRequests {requests : List ContenderRequest} (h : Accounted t)
    (hasked : ∀ id, .put id ∈ requests → ∃ s ∈ t.db.sessions.rows, s.id = id ∧ s.status ≠ .pending) :
    Accounted { t with requests := requests } where
  known := h.known
  asked := hasked
  reasoned := h.reasoned
  verdicts := h.verdicts

theorem putContenders {session : SessionId} {claims : List Claim} (h : Accounted t)
    (hlive : ∀ s ∈ t.db.sessions.rows, s.id = session → s.live = true)
    (hknown : ∃ s ∈ t.db.sessions.rows, s.id = session ∧ s.status ≠ .pending) :
    Accounted (putContenders session claims t) := by
  unfold AutoTune.putContenders
  dsimp only
  split
  · refine h.writeLive hlive hknown fun k' hk' => ?_
    rcases List.mem_map.mp hk' with ⟨k, hk, rfl⟩
    by_cases hreg : k.registeredFor session = true
    · simp only [Contender.registeredFor, Bool.and_eq_true, beq_iff_eq] at hreg
      exact Or.inr ⟨hreg.1, fun hs => by simp [Contender.refreshed, hreg.2] at hs⟩
    · refine Or.inl ?_
      have : k.refreshed session claims = k := by
        simp only [Contender.refreshed, hreg, if_false, Bool.false_eq_true]
        split <;> rfl
      rwa [this]
  · refine h.writeLive hlive hknown fun k' hk' => ?_
    rcases mem_addContenders hk' with hk' | ⟨hsession, hreg⟩
    · rcases List.mem_map.mp hk' with ⟨k, hk, rfl⟩
      by_cases hreg : k.registeredFor session = true
      · refine Or.inr ⟨?_, fun hs => by simp [Contender.supersededBy, hreg] at hs⟩
        simp only [Contender.registeredFor, Bool.and_eq_true, beq_iff_eq] at hreg
        exact hreg.1
      · refine Or.inl ?_
        have : k.supersededBy session = k := by simp [Contender.supersededBy, hreg]
        rwa [this]
    · exact Or.inr ⟨hsession, fun hs => by simp [hreg] at hs⟩

theorem contenderServing {session : SessionId} {contender : ContenderId} {port : Nat} (h : Accounted t)
    (hlive : ∀ s ∈ t.db.sessions.rows, s.id = session → s.live = true) :
    Accounted (contenderServing session contender port t) := by
  unfold AutoTune.contenderServing
  split
  · rename_i s k hs hk
    split
    · rename_i hcond
      have hrow := Table.get?_eq_some_iff.mp hk
      have hin : t.InSession session contender := by
        intro j hj hid
        rw [Table.eq_of_key_eq hj hrow.1 (hid.trans hrow.2.symm)]
        exact hcond.1
      have hdb : ContestMoves session t
          { t with db := addServing s k.claim.launchSpec.config port t.db } :=
        ContestMoves.withDb rfl
      exact h.contestMoves (hdb.trans (ContestMoves.measureBy _ (hdb.inSession hin))) hlive
    · exact h
  · exact h

theorem validateConfigs_sessions {campaign : CampaignId} {machine : String} {now until_ : Time}
    {db db' : Db} (h : validateConfigs campaign machine now until_ db = some db') :
    ∃ s, db'.sessions.rows = db.sessions.rows ++ [s] ∧ s.id = db.sessions.nextKey ∧
      s.status = .validating := by
  simp only [validateConfigs, Option.map_eq_some_iff] at h
  rcases h with ⟨⟨c, m⟩, -, rfl⟩
  exact ⟨validationSession c m now db.sessions.nextKey, rfl, rfl, rfl⟩

/-- A session opened to validate what an operator named. -/
theorem validate {campaign : CampaignId} {machine : String} {now until_ : Time} {claims : List Claim}
    (h : Accounted t) : Accounted (t.act (.validate campaign machine now until_ claims)) := by
  simp only [Contest.act]
  cases hv : validateConfigs campaign machine now until_ t.db with
  | none => exact h
  | some db =>
      rcases validateConfigs_sessions hv with ⟨new, hrows, hnew, hstatus⟩
      have hsub : ∀ s ∈ t.db.sessions.rows, s ∈ db.sessions.rows := by
        intro s hs
        rw [hrows]
        exact List.mem_append_left _ hs
      have hmem : new ∈ db.sessions.rows := by simp [hrows]
      refine ⟨?_, ?_, ?_, ?_⟩
      · intro k hk
        rcases mem_addContenders hk with hk | ⟨hk, -⟩
        · rcases h.known k hk with ⟨s, hs, hid, hpending⟩
          exact ⟨s, hsub s hs, hid, hpending⟩
        · exact ⟨new, hmem, hnew.trans hk.symm, by simp [hstatus]⟩
      · intro id hreq
        rcases h.asked id hreq with ⟨s, hs, hid, hpending⟩
        exact ⟨s, hsub s hs, hid, hpending⟩
      · intro k hk
        rcases mem_addContenders hk with hk | ⟨-, hk⟩
        · exact h.reasoned k hk
        · exact fun hs => by simp [hk] at hs
      · intro k hk s hs hid hended
        have hs' : s ∈ t.db.sessions.rows ++ [new] := hrows ▸ hs
        rcases List.mem_append.mp hs' with hs | hs
        · rcases mem_addContenders hk with hk | ⟨hk, -⟩
          · exact h.verdicts k hk s hs hid hended
          · exact absurd (hid.trans hk) (Nat.ne_of_lt (Table.key_lt_nextKey hs))
        · rw [List.mem_singleton.mp hs] at hended
          simp [PolicySession.live, hstatus, SessionStatus.terminal] at hended

theorem other {db : Db} (h : Accounted t) (hkept : SessionsKept t.db db) :
    Accounted { t with db := db } where
  known := by
    intro k hk
    rcases h.known k hk with ⟨s, hs, hid, hpending⟩
    rcases hkept.kept s hs with ⟨s', hs', hid', hstatus⟩
    exact ⟨s', hs', hid'.trans hid, hstatus ▸ hpending⟩
  asked := by
    intro id hreq
    rcases h.asked id hreq with ⟨s, hs, hid, hpending⟩
    rcases hkept.kept s hs with ⟨s', hs', hid', hstatus⟩
    exact ⟨s', hs', hid'.trans hid, hstatus ▸ hpending⟩
  reasoned := h.reasoned
  verdicts := by
    intro k hk s' hs' hid hended
    rcases hkept.only s' hs' with ⟨s, hs, hids, hstatus⟩ | ⟨hpending, hfresh⟩
    · have hended' : s.live = false := by simpa [PolicySession.live, hstatus] using hended
      exact h.verdicts k hk s hs (hids.trans hid) hended'
    · rcases h.known k hk with ⟨s, hs, hids, -⟩
      exact absurd (hids.trans hid.symm) (hfresh s hs)

theorem step {a : ContestAction} (h : Accounted t) (hallowed : t.Allowed a) (hclean : t.Clean a) :
    Accounted (t.act a) := by
  cases a with
  | advance drivers now order f v id => exact h.advance hallowed hclean
  | putCheck session =>
      refine h.withRequests fun id hreq => ?_
      rcases List.mem_cons.mp hreq with hreq | hreq
      · cases hreq
        rcases hallowed with ⟨s, hs, hid, hstatus⟩
        refine ⟨s, hs, hid, ?_⟩
        rcases hstatus with hstatus | hstatus <;> simp [hstatus]
      · exact h.asked id hreq
  | putCommit session claims =>
      have hput : Accounted (AutoTune.putContenders session claims t) :=
        h.putContenders hclean (h.asked session hallowed)
      refine hput.withRequests fun id hreq => hput.asked id ?_
      rw [putContenders_requests]
      exact List.mem_of_mem_erase hreq
  | serveCheck session contender =>
      refine h.withRequests fun id hreq => ?_
      rcases List.mem_cons.mp hreq with hreq | hreq
      · cases hreq
      · exact h.asked id hreq
  | serveCommit session contender port =>
      have hserve : Accounted (AutoTune.contenderServing session contender port t) :=
        h.contenderServing hclean
      refine hserve.withRequests fun id hreq => hserve.asked id ?_
      rw [contenderServing_requests]
      exact List.mem_of_mem_erase hreq
  | validate campaign machine now until_ claims => exact h.validate
  | other db => exact h.other hallowed

end Accounted

/-- Nothing was claimed yet, and no request is under way. -/
def Contest.Fresh (t : Contest) : Prop := t.contenders.rows = [] ∧ t.requests = []

theorem Contest.Fresh.accounted {t : Contest} (h : t.Fresh) : Accounted t where
  known := by simp [h.1]
  asked := by simp [h.2]
  reasoned := by simp [h.1]
  verdicts := by simp [h.1]

/-- In a run whose steps are all clean, a session that ended has answered every contender, or skipped it
for a reason it states. -/
theorem no_silent_verdict {t t' : Contest} (hstart : t.Fresh) (hrun : Contest.Runs Contest.Clean t t') :
    ∀ s ∈ t'.db.sessions.rows, s.status = .done ∨ s.status = .failed ∨ s.status = .aborted →
      ∀ k ∈ t'.contenders.rows, k.sessionId = s.id →
        k.status = .superseded ∨ k.status = .validated ∨ k.status = .failed ∨
          (k.status = .skipped ∧ k.skipReason ≠ "") := by
  have h : Accounted t' := by
    induction hrun with
    | refl => exact hstart.accounted
    | tail _ hstep ih =>
        rcases hstep with ⟨a, hallowed, hclean, rfl⟩
        exact ih.step hallowed hclean
  intro s hs hstatus k hk hsession
  have hended : s.live = false := by
    rcases hstatus with hstatus | hstatus | hstatus <;>
      simp [PolicySession.live, hstatus, SessionStatus.terminal]
  have hverdict := h.verdicts k hk s hs hsession.symm hended
  unfold Contender.accounted at hverdict
  split at hverdict
  · exact Or.inl (by assumption)
  · exact Or.inr (Or.inl (by assumption))
  · exact Or.inr (Or.inr (Or.inl (by assumption)))
  · exact Or.inr (Or.inr (Or.inr ⟨by assumption, by simpa using hverdict⟩))
  · cases hverdict
  · cases hverdict

/-! ## Two nights -/

/-- A campaign whose window closes at 10. -/
def nightCampaign : Campaign where
  id := 1
  status := .active
  policyId := some 1
  windowStart := some 0
  windowEnd := some 10

/-- A leased machine of eight cards. -/
def nightMachine : Machine where
  id := 1
  name := "box"
  state := .available
  leaseState := .active

/-- Its policy is searching. -/
def searchingNight : Contest where
  db := {
    machines := .single nightMachine
    campaigns := .single nightCampaign
    sessions := .single { id := 1, campaignId := 1, machineId := some 1, status := .searching } }

/-- A claim on a config that the platform cannot launch. -/
def bestSoFar : Claim where
  rank := 1
  configHash := "c1"
  launchSpec := { }

/-- The policy declares its best, then the window closes on it. -/
def cutOff : Contest :=
  ((searchingNight.act (.putCheck 1)).act (.putCommit 1 [bestSoFar])).act
    (.advance (fun _ => cleanTeardown) 10 (RowOrder.byKey RunId) { } { } 1)

/-- The session is DONE, and its contender REGISTERED for ever. -/
theorem cut_off_silently :
    searchingNight.Fresh ∧ Contest.Runs (fun _ _ => True) searchingNight cutOff ∧
      ∃ s ∈ cutOff.db.sessions.rows, s.status = .done ∧
        ∃ k ∈ cutOff.contenders.rows, k.sessionId = s.id ∧ k.status = .registered := by
  refine ⟨⟨rfl, rfl⟩, ?_, by decide⟩
  refine ((Relation.ReflTransGen.refl.tail ⟨.putCheck 1, ?_, trivial, rfl⟩).tail
    ⟨.putCommit 1 [bestSoFar], ?_, trivial, rfl⟩).tail
    ⟨.advance (fun _ => cleanTeardown) 10 (RowOrder.byKey RunId) { } { } 1, ?_, trivial, rfl⟩
  · exact ⟨_, List.mem_cons_self, rfl, rfl⟩
  · exact ⟨_, List.mem_cons_self, rfl, Or.inr rfl⟩
  · exact List.mem_cons_self

/-- Nobody has a session yet. -/
def quietNight : Contest where
  db := {
    machines := .single nightMachine
    campaigns := .single nightCampaign }

/-- An operator has a config validated until 10, and by 5 a measurement would not end in time. -/
def outOfClock : Contest :=
  (quietNight.act (.validate 1 "box" 0 10 [bestSoFar])).act
    (.advance (fun _ => cleanTeardown) 5 (RowOrder.byKey RunId) { } { measureTime := 6 } 1)

/-- The session is DONE, and the contender says that it was skipped for want of time. -/
theorem out_of_clock_with_reason :
    ∃ k ∈ outOfClock.contenders.rows, k.status = .skipped ∧
      (k.status = .superseded ∨ k.status = .validated ∨ k.status = .failed ∨
        (k.status = .skipped ∧ k.skipReason ≠ "")) := by
  have hrun : Contest.Runs Contest.Clean quietNight outOfClock := by
    refine (Relation.ReflTransGen.refl.tail ⟨.validate 1 "box" 0 10 [bestSoFar], trivial, trivial,
      rfl⟩).tail ⟨.advance (fun _ => cleanTeardown) 5 (RowOrder.byKey RunId) { } { measureTime := 6 } 1, ?_, ?_, rfl⟩
    · exact ⟨_, List.mem_cons_self, rfl, rfl⟩
    · -- the window is open, so the session is not cut short
      intro s hs hid hshort
      have hnight : s = validationSession nightCampaign nightMachine 0 1 := by
        simpa using (show s ∈ [validationSession nightCampaign nightMachine 0 1] from hs)
      subst hnight
      exact absurd (hshort nightCampaign rfl) (by decide)
  refine ⟨_, List.mem_cons_self, rfl, ?_⟩
  exact no_silent_verdict ⟨rfl, rfl⟩ hrun _ List.mem_cons_self (Or.inl rfl) _ List.mem_cons_self rfl

end AutoTune
