import AutoTune.Lib.Trace
import AutoTune.Policy.SessionExclusivity
import AutoTune.Policy.Sessions
import AutoTune.Supervisor.TransitionSafety

/-!
# One session a night

Sessions are opened per campaign and window, and closed by a deadline rule that does not apply to a
session that is still PENDING. Between two ticks every live session belongs to the window its
campaign is in; from that and one session per window follows that a campaign has at most one.
-/

namespace AutoTune

open Lib

/-! ## What the steps of a tick leave alone -/

/-- The same session of the same window; one that ended stays ended. -/
structure SameNight (s s' : PolicySession) : Prop where
  id : s'.id = s.id
  campaign : s'.campaignId = s.campaignId
  window : s'.windowStart = s.windowStart
  live : s'.live = true → s.live = true

/-- The same campaign in the same window, perhaps done. -/
structure SameClock (c c' : Campaign) : Prop where
  id : c'.id = c.id
  windowStart : c'.windowStart = c.windowStart
  windowEnd : c'.windowEnd = c.windowEnd
  overrideUntil : c'.overrideUntil = c.overrideUntil
  schedule : c'.schedule = c.schedule
  status : c'.status = c.status ∨ c'.status = .done

instance (s s' : PolicySession) : Decidable (SameNight s s') :=
  decidable_of_iff (s'.id = s.id ∧ s'.campaignId = s.campaignId ∧ s'.windowStart = s.windowStart ∧
      (s'.live = true → s.live = true))
    ⟨fun ⟨h₁, h₂, h₃, h₄⟩ => ⟨h₁, h₂, h₃, h₄⟩, fun ⟨h₁, h₂, h₃, h₄⟩ => ⟨h₁, h₂, h₃, h₄⟩⟩

instance (c c' : Campaign) : Decidable (SameClock c c') :=
  decidable_of_iff (c'.id = c.id ∧ c'.windowStart = c.windowStart ∧ c'.windowEnd = c.windowEnd ∧
      c'.overrideUntil = c.overrideUntil ∧ c'.schedule = c.schedule ∧
      (c'.status = c.status ∨ c'.status = .done))
    ⟨fun ⟨h₁, h₂, h₃, h₄, h₅, h₆⟩ => ⟨h₁, h₂, h₃, h₄, h₅, h₆⟩,
      fun ⟨h₁, h₂, h₃, h₄, h₅, h₆⟩ => ⟨h₁, h₂, h₃, h₄, h₅, h₆⟩⟩

theorem SameNight.refl (s : PolicySession) : SameNight s s := ⟨rfl, rfl, rfl, fun h => h⟩

theorem SameClock.refl (c : Campaign) : SameClock c c := ⟨rfl, rfl, rfl, rfl, rfl, Or.inl rfl⟩

theorem SameNight.trans {s s' s'' : PolicySession} (h : SameNight s s') (h' : SameNight s' s'') :
    SameNight s s'' where
  id := h'.id.trans h.id
  campaign := h'.campaign.trans h.campaign
  window := h'.window.trans h.window
  live := fun hl => h.live (h'.live hl)

theorem SameClock.trans {c c' c'' : Campaign} (h : SameClock c c') (h' : SameClock c' c'') :
    SameClock c c'' where
  id := h'.id.trans h.id
  windowStart := h'.windowStart.trans h.windowStart
  windowEnd := h'.windowEnd.trans h.windowEnd
  overrideUntil := h'.overrideUntil.trans h.overrideUntil
  schedule := h'.schedule.trans h.schedule
  status := by
    rcases h'.status with hs | hs
    · rw [hs]
      exact h.status
    · exact Or.inr hs

/-- No session is opened or brought back, no window moved. -/
structure Db.Nightly (db db' : Db) : Prop where
  sessions : List.Forall₂ SameNight db.sessions.rows db'.sessions.rows
  campaigns : List.Forall₂ SameClock db.campaigns.rows db'.campaigns.rows

instance (db db' : Db) : Decidable (Db.Nightly db db') :=
  decidable_of_iff (List.Forall₂ SameNight db.sessions.rows db'.sessions.rows ∧
      List.Forall₂ SameClock db.campaigns.rows db'.campaigns.rows)
    ⟨fun ⟨h₁, h₂⟩ => ⟨h₁, h₂⟩, fun ⟨h₁, h₂⟩ => ⟨h₁, h₂⟩⟩

namespace Db.Nightly

variable {db db' db'' : Db}

theorem of_eq (hs : db'.sessions = db.sessions) (hc : db'.campaigns = db.campaigns) :
    Db.Nightly db db' := by
  refine ⟨?_, ?_⟩
  · rw [hs]
    exact List.forall₂_same.mpr fun s _ => SameNight.refl s
  · rw [hc]
    exact List.forall₂_same.mpr fun c _ => SameClock.refl c

theorem refl (db : Db) : Db.Nightly db db := of_eq rfl rfl

theorem trans (h : Db.Nightly db db') (h' : Db.Nightly db' db'') : Db.Nightly db db'' where
  sessions := forall₂_trans (fun _ _ _ h h' => h.trans h') h.sessions h'.sessions
  campaigns := forall₂_trans (fun _ _ _ h h' => h.trans h') h.campaigns h'.campaigns

/-- The campaign of a session, looked up later, is the one of before. -/
theorem campaign (h : Db.Nightly db db') {id : CampaignId} {c' : Campaign}
    (hc' : db'.campaigns.get? id = some c') :
    ∃ c, db.campaigns.get? id = some c ∧ SameClock c c' := by
  rcases Table.get?_eq_some_iff.mp hc' with ⟨hrow, hid⟩
  rcases exists_mem_of_forall₂ h.campaigns hrow with ⟨c, hc, hcc⟩
  exact ⟨c, Table.get?_eq_some_iff.mpr ⟨hc, hcc.id.symm.trans hid⟩, hcc⟩

theorem modifySession {id : SessionId} {f : PolicySession → PolicySession}
    {hf : ∀ s, (f s).id = s.id} (h : ∀ s ∈ db.sessions.rows, s.id = id → SameNight s (f s)) :
    Db.Nightly db (db.setSession id f hf) where
  sessions := by
    simp only [Db.setSession, Table.rows_modify]
    refine List.forall₂_map_right_iff.mpr (List.forall₂_same.mpr ?_)
    intro s hs
    by_cases hid : s.id = id
    · simpa [hid] using h s hs hid
    · simpa [hid] using SameNight.refl s
  campaigns := List.forall₂_same.mpr fun c _ => SameClock.refl c

theorem modifyCampaign {id : CampaignId} {f : Campaign → Campaign} {hf : ∀ c, (f c).id = c.id}
    (h : ∀ c, SameClock c (f c)) : Db.Nightly db (db.setCampaign id f hf) where
  sessions := List.forall₂_same.mpr fun s _ => SameNight.refl s
  campaigns := by
    simp only [Db.setCampaign, Table.rows_modify]
    refine List.forall₂_map_right_iff.mpr (List.forall₂_same.mpr ?_)
    intro c _
    by_cases hid : c.id = id
    · simpa [hid] using h c
    · simpa [hid] using SameClock.refl c

end Db.Nightly

/-! ## Orderly nights -/

/-- The window of an ACTIVE scheduled campaign: one its schedule opened by now, or, under an override,
one that ends with it. -/
def Campaign.OpenedBy (zone : Zone) (now : Time) (c : Campaign) : Prop :=
  c.status = .active → ∀ sch, c.schedule = some sch →
    match c.overrideUntil with
    | some o => ∃ e, c.windowEnd = some e ∧ e ≤ o
    | none => ∃ t ≤ now, ∃ w, currentWindow zone sch t = some w ∧
        c.windowStart = some w.1 ∧ c.windowEnd = some w.2

/-- One session per window, and every live one in the window its campaign is in; a campaign that
stands down with a live session does so when its window is over. -/
structure Orderly (zone : Zone) (now : Time) (db : Db) : Prop where
  unique : ∀ s ∈ db.sessions.rows, ∀ s' ∈ db.sessions.rows, s.campaignId = s'.campaignId →
    s.windowStart = s'.windowStart → s.id = s'.id
  current : ∀ s ∈ db.sessions.rows, s.live = true →
    ∃ c, db.campaigns.get? s.campaignId = some c ∧ s.windowStart = c.windowStart
  awake : ∀ s ∈ db.sessions.rows, s.live = true → ∀ c, db.campaigns.get? s.campaignId = some c →
    c.status = .scheduled → ∃ e, c.windowEnd = some e ∧ e ≤ now
  opened : ∀ c ∈ db.campaigns.rows, c.OpenedBy zone now

/-- A campaign has at most one live session. -/
def AtMostOneLive (db : Db) : Prop :=
  ∀ s ∈ db.sessions.rows, ∀ s' ∈ db.sessions.rows, s.live = true → s'.live = true →
    s.campaignId = s'.campaignId → s.id = s'.id

/-- No window of these sessions is over and its session still live. -/
def WindowsShut (now : Time) (ids : List SessionId) (db : Db) : Prop :=
  ∀ s ∈ db.sessions.rows, s.live = true → s.id ∈ ids → ∀ c, db.campaigns.get? s.campaignId = some c →
    ∀ e, c.windowEnd = some e → now < e

theorem Orderly.atMostOne {zone : Zone} {now : Time} {db : Db} (h : Orderly zone now db) :
    AtMostOneLive db := by
  intro s hs s' hs' hl hl' hc
  rcases h.current s hs hl with ⟨c, hget, hw⟩
  rcases h.current s' hs' hl' with ⟨c', hget', hw'⟩
  rw [← hc, hget] at hget'
  have : c = c' := Option.some.inj hget'
  exact h.unique s hs s' hs' hc (by rw [hw, hw', this])

theorem SameClock.openedBy {zone : Zone} {now : Time} {c c' : Campaign} (h : SameClock c c')
    (hc : c.OpenedBy zone now) : c'.OpenedBy zone now := by
  intro hactive sch hsch
  have hsame : c'.status = c.status := by
    rcases h.status with hs | hs
    · exact hs
    · rw [hactive] at hs
      cases hs
  have := hc (hsame ▸ hactive) sch (h.schedule ▸ hsch)
  rw [h.overrideUntil, h.windowStart, h.windowEnd]
  exact this

/-- Steps that open nothing keep nights orderly. -/
theorem Orderly.nightly {zone : Zone} {now : Time} {db db' : Db} (h : Orderly zone now db)
    (hn : Db.Nightly db db') : Orderly zone now db' where
  unique := by
    intro s₁ h₁ s₂ h₂ hc hw
    rcases exists_mem_of_forall₂ hn.sessions h₁ with ⟨t₁, ht₁, hs₁⟩
    rcases exists_mem_of_forall₂ hn.sessions h₂ with ⟨t₂, ht₂, hs₂⟩
    rw [hs₁.id, hs₂.id]
    refine h.unique t₁ ht₁ t₂ ht₂ ?_ ?_
    · rw [← hs₁.campaign, ← hs₂.campaign, hc]
    · rw [← hs₁.window, ← hs₂.window, hw]
  current := by
    intro s hs hl
    rcases exists_mem_of_forall₂ hn.sessions hs with ⟨t, ht, hts⟩
    rcases h.current t ht (hts.live hl) with ⟨c, hget, hw⟩
    rcases Table.get?_eq_some_iff.mp hget with ⟨hc, hid⟩
    -- the campaign's row is still there
    have hflip : List.Forall₂ (fun c' c => SameClock c c') db'.campaigns.rows db.campaigns.rows :=
      hn.campaigns.flip
    rcases exists_mem_of_forall₂ hflip hc with ⟨c', hc', hcc⟩
    refine ⟨c', Table.get?_eq_some_iff.mpr ⟨hc', ?_⟩, ?_⟩
    · rw [hcc.id, hid, hts.campaign]
    · rw [hts.window, hw, hcc.windowStart]
  awake := by
    intro s hs hl c' hget' hsched
    rcases exists_mem_of_forall₂ hn.sessions hs with ⟨t, ht, hts⟩
    rcases hn.campaign hget' with ⟨c, hget, hcc⟩
    have hsame : c.status = .scheduled := by
      rcases hcc.status with hst | hst
      · rw [← hst, hsched]
      · rw [hsched] at hst
        cases hst
    rcases h.awake t ht (hts.live hl) c (hts.campaign ▸ hget) hsame with ⟨e, he, hle⟩
    exact ⟨e, by rw [hcc.windowEnd, he], hle⟩
  opened := by
    intro c' hc'
    rcases exists_mem_of_forall₂ hn.campaigns hc' with ⟨c, hc, hcc⟩
    exact hcc.openedBy (h.opened c hc)

theorem WindowsShut.nightly {now : Time} {ids : List SessionId} {db db' : Db}
    (h : WindowsShut now ids db) (hn : Db.Nightly db db') : WindowsShut now ids db' := by
  intro s hs hl hid c' hget' e he
  rcases exists_mem_of_forall₂ hn.sessions hs with ⟨t, ht, hts⟩
  rcases hn.campaign hget' with ⟨c, hget, hcc⟩
  exact h t ht (hts.live hl) (hts.id ▸ hid) c (hts.campaign ▸ hget) e (hcc.windowEnd ▸ he)

/-! ## A visit -/

theorem Writes.sessions {db db' : Db} (h : Writes db db') : db'.sessions = db.sessions := by
  refine h.preserves (I := fun d => d.sessions = db.sessions) ?_ rfl
  intro a b hw ha
  cases hw <;> exact ha

theorem Writes.campaigns {db db' : Db} (h : Writes db db') : db'.campaigns = db.campaigns := by
  refine h.preserves (I := fun d => d.campaigns = db.campaigns) ?_ rfl
  intro a b hw ha
  cases hw <;> exact ha

/-- The row under `id`, if there is one, is a live session. -/
def LiveRow (db : Db) (id : SessionId) : Prop :=
  ∀ s ∈ db.sessions.rows, s.id = id → s.live = true

theorem LiveRow.of_eq {db db' : Db} {id : SessionId} (h : LiveRow db id)
    (hs : db'.sessions = db.sessions) : LiveRow db' id := by
  intro s hmem
  rw [hs] at hmem
  exact h s hmem

theorem LiveRow.of_get? {db : Db} {s : PolicySession} (hget : db.sessions.get? s.id = some s)
    (hlive : s.live = true) : LiveRow db s.id := by
  intro t ht hid
  have : t = s := Table.eq_of_key_eq ht (Table.get?_eq_some_iff.mp hget).1 hid
  rw [this, hlive]

theorem LiveRow.modify {db : Db} {id : SessionId} {f : PolicySession → PolicySession}
    {hf : ∀ s, (f s).id = s.id} (h : LiveRow db id) (hlive : ∀ s, (f s).live = s.live) :
    LiveRow (db.setSession id f hf) id := by
  intro s' hs' hid
  rcases Db.mem_setSession.mp hs' with ⟨s, hs, rfl⟩
  by_cases hsid : s.id = id
  · rw [if_pos hsid, hlive]
    exact h s hs hsid
  · rw [if_neg hsid] at hid
    exact absurd hid hsid

/-- A live session may get any status. -/
theorem Db.Nightly.setStatus {db : Db} {id : SessionId} (h : LiveRow db id) (status : SessionStatus) :
    Db.Nightly db (db.setStatus id status) :=
  modifySession fun s hs hid => ⟨rfl, rfl, rfl, fun _ => h s hs hid⟩

theorem Db.Nightly.blame {db : Db} (id : SessionId) (failureClass error : String) :
    Db.Nightly db (db.setSession id fun s => s.blame failureClass error) :=
  modifySession fun _ _ _ => ⟨rfl, rfl, rfl, fun h => h⟩

theorem Campaign.endedWith_sameClock (c : Campaign) (reason : String) :
    SameClock c (c.endedWith reason) := by
  unfold Campaign.endedWith
  split_ifs
  · exact ⟨rfl, rfl, rfl, rfl, rfl, Or.inr rfl⟩
  · exact SameClock.refl c

theorem releaseMachineIfIdle_nightly (db : Db) (m : MachineId) :
    Db.Nightly db (releaseMachineIfIdle db m) :=
  have hw := releaseMachineIfIdle_writes db m
  Db.Nightly.of_eq hw.sessions hw.campaigns

theorem terminate_nightly {status : SessionStatus} (hst : status.terminal = true) (id : SessionId)
    (error failureClass : String) (db : Db) : Db.Nightly db (terminate id status error failureClass db) := by
  unfold terminate
  split
  · exact Db.Nightly.refl db
  · rename_i s hget
    dsimp only
    have hrow : Db.Nightly db (db.setSession id fun s => s.ended status error failureClass) := by
      refine Db.Nightly.modifySession fun t _ _ => ⟨rfl, rfl, rfl, ?_⟩
      intro h
      simp [PolicySession.live, PolicySession.ended, hst] at h
    refine (hrow.trans ?_).trans (Db.Nightly.modifyCampaign fun c => c.endedWith_sameClock _)
    cases s.machineId with
    | none => exact Db.Nightly.refl _
    | some m => exact releaseMachineIfIdle_nightly _ m

/-- After `_terminate` the session has the status it was given. -/
theorem terminate_ends {status : SessionStatus} (hst : status.terminal = true) (id : SessionId)
    (error failureClass : String) (db : Db) {s' : PolicySession}
    (hs' : s' ∈ (terminate id status error failureClass db).sessions.rows) (hid : s'.id = id) :
    s'.live = false := by
  unfold terminate at hs'
  cases hget : db.sessions.get? id with
  | none =>
      rw [hget] at hs'
      exact absurd hid (Table.get?_eq_none_iff.mp hget s' hs')
  | some s =>
      rw [hget] at hs'
      dsimp only at hs'
      -- giving the machine back leaves the sessions as they are
      have hsessions : (s.machineId.elim (db.setSession id fun s => s.ended status error failureClass)
          (releaseMachineIfIdle (db.setSession id fun s => s.ended status error failureClass))).sessions =
          (db.setSession id fun s => s.ended status error failureClass).sessions := by
        cases s.machineId with
        | none => rfl
        | some m => exact (releaseMachineIfIdle_writes _ m).sessions
      change s' ∈ (s.machineId.elim (db.setSession id fun s => s.ended status error failureClass)
          (releaseMachineIfIdle (db.setSession id fun s =>
            s.ended status error failureClass))).sessions.rows at hs'
      rw [hsessions] at hs'
      rcases Db.mem_setSession.mp hs' with ⟨t, _, rfl⟩
      by_cases ht : t.id = id
      · simp [ht, PolicySession.live, PolicySession.ended, hst]
      · rw [if_neg ht] at hid
        exact absurd hid ht

section

variable (drivers : RunId → TeardownReplies) (now : Time) (order : RowOrder RunId)

theorem killSessionRuns_sessions (id : SessionId) (reason : String) (db : Db) :
    (killSessionRuns drivers now order id reason db).state.sessions = db.sessions :=
  (killSessionRuns_writes drivers now order id reason db).sessions

theorem killSessionRuns_nightly (id : SessionId) (reason : String) (db : Db) :
    Db.Nightly db (killSessionRuns drivers now order id reason db).state :=
  have hw := killSessionRuns_writes drivers now order id reason db
  Db.Nightly.of_eq hw.sessions hw.campaigns

theorem failTowardValidation_nightly {id : SessionId} {db : Db} (h : LiveRow db id) (f : SessionFinds)
    (failureClass error : String) :
    Db.Nightly db (failTowardValidation drivers now order f id failureClass error db).state := by
  have hblame : Db.Nightly db (db.setSession id fun s =>
      s.blame failureClass (f.withDeathLog failureClass error)) := Db.Nightly.blame id _ _
  have hrow : LiveRow (db.setSession id fun s =>
      s.blame failureClass (f.withDeathLog failureClass error)) id := h.modify fun _ => rfl
  have hkill := killSessionRuns_nightly drivers now order id ("policy " ++ failureClass)
    (db.setSession id fun s => s.blame failureClass (f.withDeathLog failureClass error))
  unfold failTowardValidation Ran.andThen
  split
  · refine (hblame.trans hkill).trans (Db.Nightly.setStatus ?_ .validating)
    exact hrow.of_eq (killSessionRuns_sessions drivers now order id _ _)
  · exact hblame.trans hkill

theorem advancePending_nightly {s : PolicySession} {db : Db} (h : LiveRow db s.id)
    (f : SessionFinds) : Db.Nightly db (advancePending f s db) := by
  have hfailed := fun error failureClass =>
    terminate_nightly (show SessionStatus.failed.terminal = true from rfl) s.id error failureClass db
  unfold advancePending
  split
  · exact hfailed _ _
  split
  · exact hfailed _ _
  split
  · exact Db.Nightly.refl db
  split
  · exact hfailed _ _
  split
  · exact hfailed _ _
  split
  · exact Db.Nightly.refl db
  · exact hfailed _ _
  · exact hfailed _ _
  · exact (Db.Nightly.setStatus h .starting).trans (Db.Nightly.of_eq rfl rfl)

theorem beginFinalizing_nightly {id : SessionId} {db : Db} (h : LiveRow db id) (reason : String) :
    Db.Nightly db (beginFinalizing id now reason db) :=
  Db.Nightly.modifySession fun s hs hid => ⟨rfl, rfl, rfl, fun _ => h s hs hid⟩

theorem advanceStarting_nightly {s : PolicySession} {db : Db} (h : LiveRow db s.id)
    (f : SessionFinds) : Db.Nightly db (advanceStarting drivers now order f s db).state := by
  have hfail := failTowardValidation_nightly drivers now order h f
  unfold advanceStarting
  split
  · exact Db.Nightly.setStatus h .searching
  split
  · exact hfail _ _
  split
  · exact hfail _ _
  split
  · exact hfail _ _
  · exact Db.Nightly.refl db

theorem advanceSearching_nightly {s : PolicySession} {db : Db} (h : LiveRow db s.id)
    (f : SessionFinds) : Db.Nightly db (advanceSearching drivers now order f s db).state := by
  have hend : ∀ reason, Db.Nightly db (db.endSearch s.id reason) ∧ LiveRow (db.endSearch s.id reason) s.id :=
    fun reason => ⟨Db.Nightly.modifySession fun _ _ _ => ⟨rfl, rfl, rfl, fun h => h⟩,
      h.modify fun _ => rfl⟩
  have hfail := fun reason failureClass error => (hend reason).1.trans
    (failTowardValidation_nightly drivers now order (hend reason).2 f failureClass error)
  unfold advanceSearching
  split
  · exact hfail _ _ _
  split
  · exact hfail _ _ _
  · exact beginFinalizing_nightly now h _
  · have hrow : LiveRow (db.setSession s.id fun s =>
        s.blame "policy_gave_up" "policy reported an internal error") s.id := h.modify fun _ => rfl
    exact (Db.Nightly.blame s.id _ _).trans (beginFinalizing_nightly now hrow _)
  · split
    · exact beginFinalizing_nightly now h _
    · split
      · exact beginFinalizing_nightly now h _
      · exact Db.Nightly.refl db

theorem advanceFinalizing_nightly {s : PolicySession} {db : Db} (h : LiveRow db s.id)
    (f : SessionFinds) : Db.Nightly db (advanceFinalizing drivers now order f s db).state := by
  have hkill := killSessionRuns_nightly drivers now order s.id "session finalizing" db
  have hrow := h.of_eq (killSessionRuns_sessions drivers now order s.id "session finalizing" db)
  unfold advanceFinalizing Ran.andThen
  split
  · exact Db.Nightly.refl db
  split
  · dsimp only
    split
    · refine (hkill.trans (Db.Nightly.blame s.id _ _)).trans (Db.Nightly.setStatus ?_ .validating)
      exact hrow.modify fun _ => rfl
    · exact hkill.trans (Db.Nightly.setStatus hrow .validating)
  · exact hkill

theorem launchValidations_nightly (session : SessionId) (configs : List LaunchConfig) (db : Db) :
    Db.Nightly db (launchValidations session configs db).1 := by
  induction configs generalizing db with
  | nil => exact Db.Nightly.refl db
  | cons config configs ih =>
      unfold launchValidations
      cases hrun : launchValidationRun session config db with
      | none => exact Db.Nightly.refl db
      | some db' =>
          rcases launchValidationRun_cases hrun with ⟨s, c, r, _, _, _, hr, _⟩
          exact (Db.Nightly.of_eq hr.sessions hr.campaigns).trans (ih db')

/-- What a session ends as: FAILED when a failure was recorded. -/
theorem verdict_terminal (failureClass : String) :
    (if failureClass = "" then SessionStatus.done else .failed).terminal = true := by
  split_ifs <;> rfl

theorem handleSession_nightly {s : PolicySession} {db : Db} (hget : db.sessions.get? s.id = some s)
    (f : SessionFinds) : Db.Nightly db (handleSession drivers now order f s db).state := by
  have hrow : s.status.terminal = false → LiveRow db s.id := fun hst =>
    LiveRow.of_get? hget (by simp [PolicySession.live, hst])
  unfold handleSession
  split
  · rename_i hst
    exact advancePending_nightly (hrow (by rw [hst]; rfl)) f
  · rename_i hst
    exact advanceStarting_nightly drivers now order (hrow (by rw [hst]; rfl)) f
  · rename_i hst
    exact advanceSearching_nightly drivers now order (hrow (by rw [hst]; rfl)) f
  · rename_i hst
    exact advanceFinalizing_nightly drivers now order (hrow (by rw [hst]; rfl)) f
  · have hlaunched := launchValidations_nightly s.id f.validations db
    simp only [Ran.done_state, advanceValidating]
    split
    · exact hlaunched
    · exact hlaunched.trans (terminate_nightly (verdict_terminal s.failureClass) s.id _ _ _)
  · exact Db.Nightly.refl db

theorem endSession_nightly {status : SessionStatus} (hst : status.terminal = true) (s : PolicySession)
    (reason error : String) (db : Db) :
    Db.Nightly db (endSession drivers now order s status reason error db).state := by
  have hkill := killSessionRuns_nightly drivers now order s.id reason db
  unfold endSession Ran.andThen
  split
  · exact hkill.trans (terminate_nightly hst s.id error "" _)
  · exact hkill

/-- When the runs of the session end without an exception, so does the session. -/
theorem endSession_ends {status : SessionStatus} (hst : status.terminal = true) (s : PolicySession)
    (reason error : String) {db : Db}
    (hreturns : (killSessionRuns drivers now order s.id reason db).raised = none) {s' : PolicySession}
    (hs' : s' ∈ (endSession drivers now order s status reason error db).state.sessions.rows)
    (hid : s'.id = s.id) : s'.live = false := by
  unfold endSession at hs'
  rw [Ran.andThen_of_returned hreturns] at hs'
  exact terminate_ends hst s.id error "" _ hs' hid

/-- A visit opens nothing and moves no window. -/
theorem advanceSession_nightly (f : SessionFinds) (id : SessionId) (db : Db) :
    Db.Nightly db (advanceSession drivers now order f id db).state := by
  unfold advanceSession
  cases hget : db.sessions.get? id with
  | none => exact Db.Nightly.refl db
  | some s =>
      have hid : s.id = id := (Table.get?_eq_some_iff.mp hget).2
      dsimp only
      split
      · exact terminate_nightly (show SessionStatus.aborted.terminal = true from rfl) id _ _ db
      split
      · exact endSession_nightly drivers now order (show SessionStatus.aborted.terminal = true from rfl)
          s _ _ db
      split
      · exact endSession_nightly drivers now order (verdict_terminal s.failureClass) s _ _ db
      · exact handleSession_nightly drivers now order (hid ▸ hget) f


/-- A window that is over at `now` puts the hard deadline in the past. -/
theorem hardDeadline_over {c : Campaign} {e : Time} (hend : c.windowEnd = some e) (hle : e ≤ now)
    (m : Option Machine) : (hardDeadline c m).any (fun h => decide (h ≤ now)) = true := by
  unfold hardDeadline
  rw [hend]
  cases m.bind Machine.leaseDueAt with
  | none => simpa using hle
  | some d => simpa using Or.inl hle

/-- A visit ends a session whose window is over, if it is not PENDING and its runs end in order. -/
theorem advanceSession_shuts (f : SessionFinds) (id : SessionId) {db : Db}
    (hmeets : ∀ s c, db.sessions.get? id = some s → db.campaigns.get? s.campaignId = some c →
      (c.windowEnd.any fun e => decide (e ≤ now)) = true →
      (s.abortRequestedAt = none → s.status ≠ .pending) ∧
        LaunchesLast db (order.arrange ((db.liveRunsOfSession id).map Run.id))) :
    ∀ s' ∈ (advanceSession drivers now order f id db).state.sessions.rows, s'.live = true →
      s'.id = id → ∀ c', (advanceSession drivers now order f id db).state.campaigns.get? s'.campaignId =
        some c' → ∀ e, c'.windowEnd = some e → now < e := by
  intro s' hs' hlive hid c' hget' e he
  have hn := advanceSession_nightly drivers now order f id db
  rcases exists_mem_of_forall₂ hn.sessions hs' with ⟨s, hs, hss⟩
  rcases hn.campaign hget' with ⟨c, hget, hcc⟩
  have hsid : s.id = id := hss.id.symm.trans hid
  have hrow : db.sessions.get? id = some s := Table.get?_eq_some_iff.mpr ⟨hs, hsid⟩
  rw [hss.campaign] at hget
  rw [hcc.windowEnd] at he
  by_contra hover
  have hle : e ≤ now := not_lt.mp hover
  rcases hmeets s c hrow hget (by simp [he, hle]) with ⟨hpending, hlast⟩
  have hreturns := fun reason => (killSessionRuns_returns_iff drivers now order id reason db).mpr hlast
  have hslive : s.live = true := hss.live hlive
  subst hsid
  -- the visit takes one of the two branches that end the session
  unfold advanceSession at hs'
  rw [hrow] at hs'
  dsimp only at hs'
  rw [hget] at hs'
  dsimp only at hs'
  by_cases habort : (s.abortRequestedAt.isSome && s.live) = true
  · rw [if_pos habort] at hs'
    have := endSession_ends drivers now order (show SessionStatus.aborted.terminal = true from rfl) s _ _
      (hreturns _) hs' hid
    simp [hlive] at this
  · have hnoabort : s.abortRequestedAt = none := by simpa [hslive] using habort
    have hhard := hardDeadline_over now he hle (s.machineId.bind db.machines.get?)
    rw [if_neg habort, if_pos (by simp [hhard, hpending hnoabort])] at hs'
    have := endSession_ends drivers now order (verdict_terminal s.failureClass) s _ _ (hreturns _) hs' hid
    simp [hlive] at this

end

/-! ## The clock -/

section

variable {zone : Zone} {clock now : Time} {c : Campaign}

/-- The clock opens a window at `now`, leaves an override alone, or leaves no campaign ACTIVE. -/
theorem Campaign.advance_openedBy (h : c.OpenedBy zone clock) :
    (c.advance zone now).OpenedBy zone now := by
  -- an idle campaign is left alone, an override too; a schedule opens its window or stands down
  unfold Campaign.advance
  split
  · rename_i hidle
    intro hactive
    exact absurd hactive hidle.2
  split
  · rename_i _ hover
    intro hactive sch hsch
    have := h hactive sch hsch
    cases ho : c.overrideUntil with
    | none => simp [ho] at hover
    | some o => simpa [ho] using this
  split
  · rename_i hnone
    intro _ sch hsch
    simp [hnone] at hsch
  · rename_i sch hsch
    unfold Campaign.followSchedule
    split
    · rename_i w hw
      intro _ sch' hsch'
      have hsame : sch' = sch := by
        rw [hsch] at hsch'
        exact (Option.some.inj hsch').symm
      rw [hsame]
      exact ⟨now, le_refl now, w, hw, rfl, rfl⟩
    · split
      · -- standing down is DONE or SCHEDULED
        intro hactive
        simp only [Schedule.standDown] at hactive
        split_ifs at hactive
      · rename_i hne
        intro hactive
        exact absurd hactive hne

/-- A campaign awake stays in its window, unless the tick falls into another one; it stands down only
when the window is over. -/
theorem Campaign.advance_stays (hopen : c.OpenedBy zone clock) (hle : clock ≤ now)
    (hsteady : ∀ sch, c.schedule = some sch → zone.Steady sch) (hawake : c.status ≠ .scheduled)
    (hjump : c.status = .active → (c.overrideUntil.any fun o => decide (now < o)) = false →
      ∀ sch w, c.schedule = some sch → currentWindow zone sch now = some w →
        c.windowStart = some w.1) :
    (c.advance zone now).windowStart = c.windowStart ∧
      ((c.advance zone now).status = .scheduled →
        ∃ e, (c.advance zone now).windowEnd = some e ∧ e ≤ now) := by
  unfold Campaign.advance
  split
  · exact ⟨rfl, fun h => absurd h hawake⟩
  rename_i hstatus
  have hactive : c.status = .active := by
    by_contra hne
    exact hstatus ⟨hawake, hne⟩
  split
  · exact ⟨rfl, fun h => absurd h hawake⟩
  rename_i hover
  split
  · exact ⟨rfl, fun h => absurd h hawake⟩
  rename_i sch hsch
  unfold Campaign.followSchedule
  split
  · rename_i w hw
    refine ⟨(hjump hactive (Bool.eq_false_iff.mpr hover) sch w hsch hw).symm, ?_⟩
    intro h
    cases h
  · rename_i hnone
    rw [if_pos hactive]
    refine ⟨rfl, fun _ => ?_⟩
    -- no window is current, so the one it was opened in has ended
    have hopened := hopen hactive sch hsch
    cases ho : c.overrideUntil with
    | some o =>
        simp only [ho] at hopened
        rcases hopened with ⟨e, he, heo⟩
        have hexpired : o ≤ now := by simpa [ho] using hover
        exact ⟨e, he, le_trans heo hexpired⟩
    | none =>
        simp only [ho] at hopened
        rcases hopened with ⟨t, ht, w, hw, -, hend⟩
        refine ⟨w.2, hend, ?_⟩
        by_contra hlt
        have := hsteady sch hsch t now w hw (le_trans ht hle) (not_le.mp hlt)
        rw [hnone] at this
        cases this

end

/-- Every session id of the store. -/
def Db.sessionIds (db : Db) : List SessionId := db.sessions.rows.map PolicySession.id

/-- No tick falls from one window of a campaign into another while a session of the first is live. -/
def NoJump (zone : Zone) (now : Time) (db : Db) : Prop :=
  ∀ s ∈ db.sessions.rows, s.live = true → ∀ c, db.campaigns.get? s.campaignId = some c →
    c.status = .active → (c.overrideUntil.any fun o => decide (now < o)) = false →
    ∀ sch w, c.schedule = some sch → currentWindow zone sch now = some w → c.windowStart = some w.1

theorem get?_advanceCampaignSchedules {zone : Zone} {now : Time} {db : Db} {id : CampaignId}
    {c' : Campaign} (h : (advanceCampaignSchedules zone now db).campaigns.get? id = some c') :
    ∃ c, db.campaigns.get? id = some c ∧ c' = c.advance zone now := by
  rcases Table.get?_eq_some_iff.mp h with ⟨hrow, hid⟩
  rcases List.mem_map.mp hrow with ⟨c, hc, rfl⟩
  exact ⟨c, Table.get?_eq_some_iff.mpr ⟨hc, (c.advance_id zone now).symm.trans hid⟩, rfl⟩

/-- The clock keeps nights orderly when it does not jump. -/
theorem advanceCampaignSchedules_orderly {zone : Zone} {clock now : Time} {db : Db}
    (h : Orderly zone clock db) (hshut : WindowsShut clock db.sessionIds db) (hle : clock ≤ now)
    (hsteady : ∀ c ∈ db.campaigns.rows, ∀ sch, c.schedule = some sch → zone.Steady sch)
    (hjump : NoJump zone now db) : Orderly zone now (advanceCampaignSchedules zone now db) := by
  -- a campaign with a live session is awake, so what the clock does to it is known
  have hstays : ∀ s ∈ db.sessions.rows, s.live = true → ∀ c, db.campaigns.get? s.campaignId = some c →
      (c.advance zone now).windowStart = c.windowStart ∧
        ((c.advance zone now).status = .scheduled →
          ∃ e, (c.advance zone now).windowEnd = some e ∧ e ≤ now) := by
    intro s hs hl c hget
    have hc := (Table.get?_eq_some_iff.mp hget).1
    refine Campaign.advance_stays (h.opened c hc) hle (hsteady c hc) ?_ (hjump s hs hl c hget)
    intro hsched
    rcases h.awake s hs hl c hget hsched with ⟨e, he, hover⟩
    exact absurd hover (not_le.mpr (hshut s hs hl (List.mem_map_of_mem hs) c hget e he))
  constructor
  · exact h.unique
  · intro s hs hl
    rcases h.current s hs hl with ⟨c, hget, hw⟩
    rcases Table.get?_eq_some_iff.mp hget with ⟨hc, hid⟩
    refine ⟨c.advance zone now, Table.get?_eq_some_iff.mpr ⟨List.mem_map_of_mem hc, ?_⟩, ?_⟩
    · rw [c.advance_id, hid]
    · rw [(hstays s hs hl c hget).1, hw]
  · intro s hs hl c' hget' hsched
    rcases get?_advanceCampaignSchedules hget' with ⟨c, hget, rfl⟩
    exact (hstays s hs hl c hget).2 hsched
  · intro c' hc'
    rcases List.mem_map.mp hc' with ⟨c, hc, rfl⟩
    exact Campaign.advance_openedBy (h.opened c hc)

/-! ## Opening -/

theorem ensureSession_campaigns (db : Db) (c : Campaign) :
    (ensureSession db c).campaigns = db.campaigns := by
  unfold ensureSession
  split
  · rfl
  · split_ifs <;> rfl

/-- A session is opened for a window that has none. -/
theorem ensureSession_orderly {zone : Zone} {now : Time} {db : Db} {c : Campaign}
    (h : Orderly zone now db) (hc : c ∈ db.campaigns.rows) (hactive : c.status = .active) :
    Orderly zone now (ensureSession db c) := by
  unfold ensureSession
  split
  · exact h
  rename_i window hwindow
  split
  · exact h
  rename_i hfresh
  have hget : db.campaigns.get? c.id = some c := Table.get?_key hc
  have hnew : ∀ s ∈ db.sessions.rows, s.campaignId = c.id → s.windowStart ≠ some window := by
    simpa using hfresh
  -- the new session is the only one of its window, and it is live in the window that is open
  constructor
  · intro s hs s' hs' hcamp hw
    rcases List.mem_append.mp hs with hs | hs <;> rcases List.mem_append.mp hs' with hs' | hs'
    · exact h.unique s hs s' hs' hcamp hw
    · rw [List.mem_singleton.mp hs'] at hcamp hw
      exact absurd hw (hnew s hs hcamp)
    · rw [List.mem_singleton.mp hs] at hcamp hw
      exact absurd hw.symm (hnew s' hs' hcamp.symm)
    · rw [List.mem_singleton.mp hs, List.mem_singleton.mp hs']
  · intro s hs hl
    rcases List.mem_append.mp hs with hs | hs
    · exact h.current s hs hl
    · rw [List.mem_singleton.mp hs]
      exact ⟨c, hget, hwindow.symm⟩
  · intro s hs hl c' hget' hsched
    rcases List.mem_append.mp hs with hs | hs
    · exact h.awake s hs hl c' hget' hsched
    · rw [List.mem_singleton.mp hs] at hget'
      have : c = c' := Option.some.inj (hget.symm.trans hget')
      rw [← this, hactive] at hsched
      cases hsched
  · exact h.opened

theorem ensureSessions_campaigns (db : Db) : (ensureSessions db).campaigns = db.campaigns := by
  unfold ensureSessions
  induction db.campaigns.rows.filter fun c => c.status == .active && c.policyId.isSome
      generalizing db with
  | nil => rfl
  | cons c l ih => rw [List.foldl_cons, ih, ensureSession_campaigns]

theorem ensureSessions_orderly {zone : Zone} {now : Time} {db : Db} (h : Orderly zone now db) :
    Orderly zone now (ensureSessions db) := by
  unfold ensureSessions
  have hall : ∀ c ∈ db.campaigns.rows.filter fun c => c.status == .active && c.policyId.isSome,
      c ∈ db.campaigns.rows ∧ c.status = .active := by
    intro c hc
    have hcond := (List.mem_filter.mp hc).2
    simp only [Bool.and_eq_true, beq_iff_eq] at hcond
    exact ⟨(List.mem_filter.mp hc).1, hcond.1⟩
  -- the loop adds sessions and leaves the campaigns it was read from alone
  have hloop : ∀ (l : List Campaign) (d : Db), Orderly zone now d → d.campaigns = db.campaigns →
      (∀ c ∈ l, c ∈ db.campaigns.rows ∧ c.status = .active) →
      Orderly zone now (l.foldl ensureSession d) := by
    intro l
    induction l with
    | nil =>
        intro d hd _ _
        exact hd
    | cons c l ih =>
        intro d hd heq hl
        rcases hl c List.mem_cons_self with ⟨hc, hactive⟩
        refine ih _ (ensureSession_orderly hd (heq ▸ hc) hactive) ?_ ?_
        · rw [ensureSession_campaigns, heq]
        · intro c' hc'
          exact hl c' (List.mem_cons_of_mem c hc')
  exact hloop _ db h rfl hall

/-! ## Ticks -/

/-- What a visit of the loop over the live sessions is given; `late` is how much later than the
tick's own reading the clock stands. -/
structure Visit where
  late : Nat := 0
  drivers : RunId → TeardownReplies
  order : RowOrder RunId
  finds : SessionFinds

/-- What else a tick does: sessions get machines from the queue, and the rest of the worker and the
API write columns no night is read from. -/
inductive QueueStep where
  | reserve (held : Reservations) (blocked : List MachineId) (needs : PolicyNeeds)
      (session : SessionId)
  | elsewhere (result : Db)

def QueueStep.apply (db : Db) : QueueStep → Db
  | .reserve held blocked needs session => (tryReserve held blocked needs session db).1
  | .elsewhere result => if Db.Nightly db result then result else db

/-- The steps of a tick, as far as sessions and windows go. -/
inductive NightStep where
  | schedules (now : Time)
  | ensure
  | visit (now : Time) (v : Visit) (id : SessionId)
  | queue (q : QueueStep)

/-- A tick: its clock, what happens between the clocks and the sessions, the order and the findings of
the loop over the live sessions, and what happens after it. -/
structure Tick where
  now : Time
  before : List QueueStep := []
  order : RowOrder SessionId
  visits : SessionId → Visit
  after : List QueueStep := []

section

variable (zone : Zone)

def NightStep.apply (db : Db) : NightStep → Db
  | .schedules now => advanceCampaignSchedules zone now db
  | .ensure => ensureSessions db
  | .visit now v id => (advanceSession v.drivers now v.order v.finds id db).state
  | .queue q => q.apply db

/-- The tick up to its loop over the live sessions. -/
def Tick.opening (t : Tick) : List NightStep :=
  .schedules t.now :: (t.before.map NightStep.queue ++ [.ensure])

/-- The visits of the loop: every session live when it starts. -/
def Tick.loop (db : Db) (t : Tick) : List NightStep :=
  (t.order.arrange db.liveSessionIds).map fun id =>
    .visit (t.now + ((t.visits id).late : Int)) (t.visits id) id

/-- The steps of the tick from this store. -/
def Tick.steps (db : Db) (t : Tick) : List NightStep :=
  t.opening ++ (t.loop (runFrom (NightStep.apply zone) db t.opening) ++
    t.after.map NightStep.queue)

/-- What a step needs: no tick jumps between two windows of a campaign with a live session, and a
session visited after its window is not PENDING and has its benchmarks listed before their launches. -/
def NightStep.Meets (db : Db) : NightStep → Prop
  | .schedules now => NoJump zone now db
  | .visit now v id => ∀ s c, db.sessions.get? id = some s → db.campaigns.get? s.campaignId = some c →
      (c.windowEnd.any fun e => decide (e ≤ now)) = true →
      (s.abortRequestedAt = none → s.status ≠ .pending) ∧
        LaunchesLast db (v.order.arrange ((db.liveRunsOfSession id).map Run.id))
  | _ => True

theorem QueueStep.apply_nightly (db : Db) (q : QueueStep) : Db.Nightly db (q.apply db) := by
  cases q with
  | reserve held blocked needs session =>
      simp only [QueueStep.apply]
      rcases tryReserve_cases held blocked needs session db with hsame | ⟨s, c, m, cards, ports, -, -, -, -, hdb⟩
      · rw [hsame]
        exact Db.Nightly.refl db
      · rw [hdb]
        exact Db.Nightly.modifySession fun _ _ _ => ⟨rfl, rfl, rfl, fun h => h⟩
  | elsewhere result =>
      simp only [QueueStep.apply]
      split_ifs with h
      · exact h
      · exact Db.Nightly.refl db

/-- Past the clock, every step keeps nights orderly. -/
theorem NightStep.apply_orderly {now : Time} {db : Db} (h : Orderly zone now db) (a : NightStep)
    (ha : ∀ t, a ≠ .schedules t) : Orderly zone now (a.apply zone db) := by
  cases a with
  | schedules t => exact absurd rfl (ha t)
  | ensure => exact ensureSessions_orderly h
  | visit t v id => exact h.nightly (advanceSession_nightly v.drivers t v.order v.finds id db)
  | queue q => exact h.nightly (q.apply_nightly db)

theorem orderly_runFrom {now : Time} {db : Db} (h : Orderly zone now db) (l : List NightStep)
    (hl : ∀ a ∈ l, ∀ t, a ≠ .schedules t) : Orderly zone now (runFrom (NightStep.apply zone) db l) := by
  induction l generalizing db with
  | nil => exact h
  | cons a l ih =>
      exact ih (NightStep.apply_orderly zone h a (hl a List.mem_cons_self))
        fun b hb => hl b (List.mem_cons_of_mem a hb)

/-- The loop shuts the windows of every session it visits. -/
theorem loop_shuts {now : Time} (visits : SessionId → Visit) (ids seen : List SessionId) {db : Db}
    (hshut : WindowsShut now seen db)
    (hmeets : Along (NightStep.apply zone) (fun db a => a.Meets zone db) db
      (ids.map fun id => .visit (now + ((visits id).late : Int)) (visits id) id)) :
    WindowsShut now (seen ++ ids) (runFrom (NightStep.apply zone) db
      (ids.map fun id => .visit (now + ((visits id).late : Int)) (visits id) id)) := by
  induction ids generalizing db seen with
  | nil => simpa using hshut
  | cons id ids ih =>
      rw [List.map_cons, along_cons] at hmeets
      rw [List.map_cons, runFrom_cons]
      have hnight := advanceSession_nightly (visits id).drivers (now + ((visits id).late : Int))
        (visits id).order (visits id).finds id db
      have hnext : WindowsShut now (seen ++ [id]) (NightStep.apply zone db
          (.visit (now + ((visits id).late : Int)) (visits id) id)) := by
        intro s hs hl hid c hget e he
        rcases List.mem_append.mp hid with hseen | hnew
        · exact hshut.nightly hnight s hs hl hseen c hget e he
        · have hvisited : s.id = id := by simpa using hnew
          have hlt := advanceSession_shuts (visits id).drivers (now + ((visits id).late : Int))
            (visits id).order (visits id).finds id hmeets.1 s hs hl hvisited c hget e he
          exact lt_of_le_of_lt (Int.le_add_of_nonneg_right (Int.natCast_nonneg _)) hlt
      simpa using ih (seen ++ [id]) hnext hmeets.2

/-! ## Nights -/

/-- The store between two ticks, and the clock of the last one. -/
structure Night where
  db : Db
  clock : Time

def Tick.apply (n : Night) (t : Tick) : Night :=
  ⟨runFrom (NightStep.apply zone) n.db (t.steps zone n.db), t.now⟩

/-- Ticks come in the order of time, and each of their steps meets its condition. -/
def Tick.Meets (n : Night) (t : Tick) : Prop :=
  n.clock ≤ t.now ∧ Along (NightStep.apply zone) (fun db a => a.Meets zone db) n.db (t.steps zone n.db)

/-- At every moment of the tick a campaign has at most one live session, and after it every live session
is of the window its campaign is in, which is not over. -/
def Tick.Keeps (n : Night) (t : Tick) : Prop :=
  (∀ k, AtMostOneLive (runFrom (NightStep.apply zone) n.db ((t.steps zone n.db).take k))) ∧
    ∀ s ∈ (t.apply zone n).db.sessions.rows, s.live = true →
      ∃ c, (t.apply zone n).db.campaigns.get? s.campaignId = some c ∧ s.windowStart = c.windowStart ∧
        ∀ e, c.windowEnd = some e → t.now < e

theorem Tick.Keeps.atMostOneLive {n : Night} {t : Tick} (h : t.Keeps zone n) :
    AtMostOneLive (t.apply zone n).db := by
  have hlast := h.1 (t.steps zone n.db).length
  rwa [List.take_length] at hlast

/-- Between ticks: orderly nights, every live session's window still open, and timezones whose windows
stay open until they end. -/
structure Rested (n : Night) : Prop where
  orderly : Orderly zone n.clock n.db
  shut : WindowsShut n.clock n.db.sessionIds n.db
  steady : ∀ c ∈ n.db.campaigns.rows, ∀ sch, c.schedule = some sch → zone.Steady sch

/-- Which schedules there are does not change. -/
theorem NightStep.apply_schedules (db : Db) (a : NightStep) :
    ∀ c' ∈ (a.apply zone db).campaigns.rows, ∃ c ∈ db.campaigns.rows, c'.schedule = c.schedule := by
  have hnightly : ∀ {db'}, Db.Nightly db db' → ∀ c' ∈ db'.campaigns.rows,
      ∃ c ∈ db.campaigns.rows, c'.schedule = c.schedule := by
    intro db' hn c' hc'
    rcases exists_mem_of_forall₂ hn.campaigns hc' with ⟨c, hc, hcc⟩
    exact ⟨c, hc, hcc.schedule⟩
  cases a with
  | schedules now =>
      intro c' hc'
      rcases List.mem_map.mp hc' with ⟨c, hc, rfl⟩
      exact ⟨c, hc, Campaign.advance_schedule zone now c⟩
  | ensure =>
      intro c' hc'
      refine ⟨c', ?_, rfl⟩
      simpa only [NightStep.apply, ensureSessions_campaigns] using hc'
  | visit now v id => exact hnightly (advanceSession_nightly v.drivers now v.order v.finds id db)
  | queue q => exact hnightly (q.apply_nightly db)

theorem steady_runFrom {db : Db}
    (h : ∀ c ∈ db.campaigns.rows, ∀ sch, c.schedule = some sch → zone.Steady sch)
    (l : List NightStep) : ∀ c ∈ (runFrom (NightStep.apply zone) db l).campaigns.rows,
      ∀ sch, c.schedule = some sch → zone.Steady sch := by
  refine invariant_of_step
    (I := fun db : Db => ∀ c ∈ db.campaigns.rows, ∀ sch, c.schedule = some sch → zone.Steady sch)
    ?_ h l
  intro db a hdb c' hc' sch hsch
  rcases a.apply_schedules zone db c' hc' with ⟨c, hc, hsame⟩
  exact hdb c hc sch (hsame ▸ hsch)

theorem nightly_runFrom {db : Db} {l : List NightStep}
    (hl : ∀ a ∈ l, ∀ db, Db.Nightly db (a.apply zone db)) :
    Db.Nightly db (runFrom (NightStep.apply zone) db l) := by
  induction l generalizing db with
  | nil => exact Db.Nightly.refl db
  | cons a l ih =>
      exact (hl a List.mem_cons_self db).trans (ih fun b hb => hl b (List.mem_cons_of_mem a hb))

theorem visit_nightly {ids : List SessionId} {now : SessionId → Time} {visits : SessionId → Visit} :
    ∀ a ∈ ids.map (fun id => NightStep.visit (now id) (visits id) id), ∀ db,
      Db.Nightly db (a.apply zone db) := by
  intro a ha db
  rcases List.mem_map.mp ha with ⟨id, -, rfl⟩
  exact advanceSession_nightly (visits id).drivers (now id) (visits id).order (visits id).finds id db

theorem queue_nightly {qs : List QueueStep} :
    ∀ a ∈ qs.map NightStep.queue, ∀ db, Db.Nightly db (a.apply zone db) := by
  intro a ha db
  rcases List.mem_map.mp ha with ⟨q, -, rfl⟩
  exact q.apply_nightly db

/-- The clock is read at the start of a tick only. -/
theorem Tick.steps_tail (db : Db) (t : Tick) :
    ∃ rest, t.steps zone db = .schedules t.now :: rest ∧ ∀ a ∈ rest, ∀ u, a ≠ .schedules u := by
  refine ⟨_, rfl, ?_⟩
  intro a ha u hu
  subst hu
  simp [Tick.loop] at ha

/-- The loop leaves no live session with its window over. -/
theorem Tick.shuts {n : Night} {t : Tick}
    (hmeets : Along (NightStep.apply zone) (fun db a => a.Meets zone db) n.db (t.steps zone n.db)) :
    WindowsShut t.now (t.apply zone n).db.sessionIds (t.apply zone n).db := by
  rw [Tick.steps, along_append, along_append] at hmeets
  rcases hmeets with ⟨-, hloop, -⟩
  have hshut := loop_shuts zone t.visits
    (t.order.arrange (runFrom (NightStep.apply zone) n.db t.opening).liveSessionIds) [] (by
      intro s _ _ hid
      simp at hid) hloop
  have hvisits : Db.Nightly (runFrom (NightStep.apply zone) n.db t.opening)
      (runFrom (NightStep.apply zone) (runFrom (NightStep.apply zone) n.db t.opening)
        (t.loop (runFrom (NightStep.apply zone) n.db t.opening))) :=
    nightly_runFrom zone (visit_nightly zone)
  have hend : (t.apply zone n).db = runFrom (NightStep.apply zone)
      (runFrom (NightStep.apply zone) (runFrom (NightStep.apply zone) n.db t.opening)
        (t.loop (runFrom (NightStep.apply zone) n.db t.opening)))
      (t.after.map NightStep.queue) := by
    simp only [Tick.apply, Tick.steps, runFrom_append]
  have hafter : Db.Nightly _ (t.apply zone n).db := hend ▸ nightly_runFrom zone (queue_nightly zone)
  intro s hs hl _
  -- a session that is live in the end was live when the loop started, so it was visited
  rcases exists_mem_of_forall₂ (hvisits.trans hafter).sessions hs with ⟨s₀, hs₀, hss⟩
  have hvisited : s.id ∈ [] ++ t.order.arrange
      (runFrom (NightStep.apply zone) n.db t.opening).liveSessionIds := by
    rw [List.nil_append, (t.order.perm _).mem_iff, hss.id]
    exact List.mem_map_of_mem (List.mem_filter.mpr ⟨hs₀, hss.live hl⟩)
  exact (hshut.nightly hafter) s hs hl hvisited

/-- One tick, from any store between ticks. -/
theorem Tick.apply_rested {n : Night} {t : Tick} (h : Rested zone n) (hmeets : t.Meets zone n) :
    Rested zone (t.apply zone n) ∧ t.Keeps zone n := by
  rcases t.steps_tail zone n.db with ⟨rest, hsteps, hrest⟩
  have hjump : NoJump zone t.now n.db := by
    have := hmeets.2
    rw [hsteps] at this
    exact this.1
  have hclock : Orderly zone t.now (advanceCampaignSchedules zone t.now n.db) :=
    advanceCampaignSchedules_orderly h.orderly h.shut hmeets.1 h.steady hjump
  have hend : Orderly zone t.now (t.apply zone n).db := by
    simp only [Tick.apply, hsteps]
    exact orderly_runFrom zone hclock rest hrest
  have hshut := Tick.shuts zone hmeets.2
  refine ⟨⟨hend, hshut, steady_runFrom zone h.steady _⟩, ?_, ?_⟩
  · intro k
    rw [hsteps]
    cases k with
    | zero => exact h.orderly.atMostOne
    | succ k =>
        exact (orderly_runFrom zone hclock (rest.take k)
          fun a ha => hrest a (List.mem_of_mem_take ha)).atMostOne
  · intro s hs hl
    rcases hend.current s hs hl with ⟨c, hget, hw⟩
    exact ⟨c, hget, hw, hshut s hs hl (List.mem_map_of_mem hs) c hget⟩

/-- In every sequence of ticks whose steps meet the condition, over any number of windows, a campaign
has at most one live session at every moment, and after a tick no session of a window that has ended
is live. -/
theorem one_session_a_night (n : Night) (h : Rested zone n) (ticks : List Tick)
    (hmeets : Along (Tick.apply zone) (fun n t => t.Meets zone n) n ticks) :
    Along (Tick.apply zone) (fun n t => t.Keeps zone n) n ticks :=
  along_of_invariant (I := Rested zone) (fun _ _ h hm => Tick.apply_rested zone h hm) h hmeets

end

/-! ## Two nights -/

/-- UTC: days of 86400 seconds. -/
def utc : Zone where
  localDay _ t := t / 86400
  instant _ day minute := day * 86400 + minute * 60

/-- Midnight to ten. -/
def untilTen : Schedule := { start := 0, stop := 600, timezone := "UTC" }

/-- Which of the three days around `t` has its first ten hours contain `t`. -/
theorem days_around (t : Int) :
    ¬ t < (t / 86400 - 1) * 86400 + 36000 ∧ t / 86400 * 86400 ≤ t ∧ ¬ (t / 86400 + 1) * 86400 ≤ t ∧
      (t < t / 86400 * 86400 + 36000 ↔ t % 86400 < 36000) := by
  omega

theorem currentWindow_untilTen (t : Int) :
    currentWindow utc untilTen t =
      if t % 86400 < 36000 then some (t / 86400 * 86400, t / 86400 * 86400 + 36000) else none := by
  rcases days_around t with ⟨hyesterday, htoday, htomorrow, hin⟩
  by_cases h : t % 86400 < 36000
  · simp [currentWindow, candidateDays, occurrence, untilTen, utc, Schedule.crossesMidnight,
      Schedule.repeats, hyesterday, htoday, hin.mpr h, h]
  · have hout : ¬ t < t / 86400 * 86400 + 36000 := fun hlt => h (hin.mp hlt)
    simp [currentWindow, candidateDays, occurrence, untilTen, utc, Schedule.crossesMidnight,
      hyesterday, htomorrow, hout, h]

/-- Until the window ends it is the same day, and before ten. -/
theorem same_night (t t' : Int) (hle : t ≤ t') (hlt : t' < t / 86400 * 86400 + 36000) :
    t' / 86400 = t / 86400 ∧ t' % 86400 < 36000 := by
  omega

theorem untilTen_steady : utc.Steady untilTen := by
  intro t t' w h hle hlt
  rw [currentWindow_untilTen] at h ⊢
  split_ifs at h with hin
  have hw : (t / 86400 * 86400, t / 86400 * 86400 + 36000) = w := Option.some.inj h
  subst hw
  rcases same_night t t' hle hlt with ⟨hday, hin'⟩
  rw [if_pos hin', hday]

/-- A nightly campaign with a policy, and the sessions it has. -/
def nightly (sessions : Table PolicySession.id) : Db where
  campaigns := .single { id := 1, status := .active, policyId := some 1, shareMachine := false,
                         schedule := some untilTen, windowStart := some 0, windowEnd := some 36000 }
  sessions := sessions

/-- A tick in which nothing is found outside. -/
def quietTick (now : Time) : Tick where
  now := now
  order := RowOrder.byKey SessionId
  visits _ := { drivers := fun _ => ⟨.value true, .value (), .value true, .value true⟩
                order := RowOrder.byKey RunId
                finds := {} }

/-- The first night, ten seconds in, with one session of this status. -/
def firstNight (status : SessionStatus) : Night where
  db := nightly (.single { pendingSession 1 0 1 with status := status })
  clock := 10

theorem firstNight_rested (status : SessionStatus) : Rested utc (firstNight status) where
  -- one campaign, one session, one window: each part is a look at the only row
  orderly := by
    constructor
    · intro s hs s' hs' _ _
      simp only [firstNight, nightly, List.mem_singleton] at hs hs'
      rw [hs, hs']
    · intro s hs _
      simp only [firstNight, nightly, List.mem_singleton] at hs
      subst hs
      exact ⟨_, rfl, rfl⟩
    · intro s hs _ c hget hsched
      have hrow := (Table.get?_eq_some_iff.mp hget).1
      simp only [firstNight, nightly, List.mem_singleton] at hrow
      rw [hrow] at hsched
      cases hsched
    · intro c hc hactive sch hsch
      simp only [firstNight, nightly, List.mem_singleton] at hc
      subst hc
      have hs : untilTen = sch := Option.some.inj hsch
      subst hs
      exact ⟨10, le_refl _, (0, 36000), by rw [currentWindow_untilTen]; decide, rfl, rfl⟩
  shut := by
    intro s _ _ _ c hget e he
    have hrow := (Table.get?_eq_some_iff.mp hget).1
    simp only [firstNight, nightly, List.mem_singleton] at hrow
    subst hrow
    have : (36000 : Time) = e := Option.some.inj he
    subst this
    show (10 : Int) < 36000
    decide
  steady := by
    intro c hc sch hsch
    simp only [firstNight, nightly, List.mem_singleton] at hc
    subst hc
    have hs : untilTen = sch := Option.some.inj hsch
    subst hs
    exact untilTen_steady


/-- The first night's session never gets a machine: after its window it is still PENDING, and the next
night opens a second one beside it. -/
theorem pending_outlives_its_night :
    Rested utc (firstNight .pending) ∧
      (runFrom (Tick.apply utc) (firstNight .pending)
        [quietTick 40000, quietTick 86410]).db.sessions.rows.map
          (fun s => (s.id, s.campaignId, s.windowStart, s.status)) =
        [(1, 1, some 0, .pending), (2, 1, some 86400, .pending)] ∧
      ¬ Along (Tick.apply utc) (fun n t => t.Keeps utc n) (firstNight .pending)
        [quietTick 40000, quietTick 86410] := by
  have hrows : (runFrom (Tick.apply utc) (firstNight .pending)
      [quietTick 40000, quietTick 86410]).db.sessions.rows.map
        (fun s => (s.id, s.campaignId, s.windowStart, s.status)) =
      [(1, 1, some 0, .pending), (2, 1, some 86400, .pending)] := by decide
  refine ⟨firstNight_rested .pending, hrows, ?_⟩
  intro hkeeps
  rw [along_cons, along_cons] at hkeeps
  have hone := hkeeps.2.1.atMostOneLive
  rw [runFrom_cons, runFrom_cons, runFrom_nil] at hrows
  -- both rows of the table are live, and of one campaign
  rcases List.map_eq_cons_iff.mp hrows with ⟨s₁, rest, hlist, he₁, hrest⟩
  rcases List.map_eq_cons_iff.mp hrest with ⟨s₂, rest', hlist', he₂, -⟩
  simp only [Prod.mk.injEq] at he₁ he₂
  have hsame := hone s₁ (by rw [hlist]; simp) s₂ (by rw [hlist, hlist']; simp)
    (by simp [PolicySession.live, he₁, SessionStatus.terminal])
    (by simp [PolicySession.live, he₂, SessionStatus.terminal]) (by rw [he₁.2.1, he₂.2.1])
  rw [he₁.1, he₂.1] at hsame
  cases hsame

/-- A quiet tick that finds one live session meets its condition if the clock and that visit do. -/
theorem quietTick_meets {n : Night} {now : Time} {id : SessionId} (hclock : n.clock ≤ now)
    (hjump : NoJump utc now n.db)
    (hlive : (ensureSessions (advanceCampaignSchedules utc now n.db)).liveSessionIds = [id])
    (hvisit : ∀ v, NightStep.Meets utc (ensureSessions (advanceCampaignSchedules utc now n.db))
      (.visit (now + ((0 : Nat) : Int)) v id)) : (quietTick now).Meets utc n := by
  have hone : (quietTick now).order.arrange [id] = [id] :=
    List.perm_singleton.mp ((quietTick now).order.perm [id])
  have hloop : (quietTick now).loop (ensureSessions (advanceCampaignSchedules utc now n.db)) =
      [.visit (now + ((0 : Nat) : Int)) ((quietTick now).visits id) id] := by
    simp only [Tick.loop, hlive, hone, List.map_cons, List.map_nil]
    rfl
  refine ⟨hclock, ?_⟩
  rw [Tick.steps, along_append, along_append]
  refine ⟨⟨hjump, trivial, trivial⟩, ?_, trivial⟩
  have hopening : runFrom (NightStep.apply utc) n.db (quietTick now).opening =
      ensureSessions (advanceCampaignSchedules utc now n.db) := rfl
  rw [hopening, hloop, along_cons]
  exact ⟨hvisit _, trivial⟩

/-- With a session that is searching, the end of its window ends it, and the next night has its own. -/
theorem one_session_a_night_for_two :
    (runFrom (Tick.apply utc) (firstNight .searching)
        [quietTick 40000, quietTick 86410]).db.sessions.rows.map
          (fun s => (s.id, s.campaignId, s.windowStart, s.status)) =
        [(1, 1, some 0, .done), (2, 1, some 86400, .pending)] ∧
      Along (Tick.apply utc) (fun n t => t.Keeps utc n) (firstNight .searching)
        [quietTick 40000, quietTick 86410] := by
  refine ⟨by decide, one_session_a_night utc _ (firstNight_rested .searching) _ ?_⟩
  rw [along_cons, along_cons]
  refine ⟨@quietTick_meets _ _ 1 (by decide) ?_ (by decide) ?_,
    @quietTick_meets _ _ 2 (by decide) ?_ (by decide) ?_, trivial⟩
  · -- between two windows
    intro s _ _ c hget _ _ sch w hsch hw
    have hrow := (Table.get?_eq_some_iff.mp hget).1
    simp only [firstNight, nightly, List.mem_singleton] at hrow
    subst hrow
    have hs : untilTen = sch := Option.some.inj hsch
    subst hs
    rw [currentWindow_untilTen, if_neg (by decide)] at hw
    cases hw
  · intro v s c hs _ _
    have hsearching : ((ensureSessions (advanceCampaignSchedules utc 40000
        (firstNight .searching).db)).sessions.get? 1).map PolicySession.status = some .searching := by
      decide
    have hnone : (ensureSessions (advanceCampaignSchedules utc 40000
        (firstNight .searching).db)).liveRunsOfSession 1 = [] := by decide
    rw [hs] at hsearching
    refine ⟨fun _ hpending => ?_, ?_⟩
    · rw [Option.map_some, hpending] at hsearching
      cases hsearching
    · rw [hnone, List.map_nil, List.perm_nil.mp (v.order.perm [])]
      exact List.Pairwise.nil
  · intro s hs hl
    have hdone : (Tick.apply utc (firstNight .searching) (quietTick 40000)).db.sessions.rows.all
        (fun s => !s.live) = true := by decide
    have := List.all_eq_true.mp hdone s hs
    rw [hl] at this
    cases this
  · intro v s c hs hc hover
    have hopen : (ensureSessions (advanceCampaignSchedules utc 86410
        (Tick.apply utc (firstNight .searching) (quietTick 40000)).db)).campaigns.rows.all
          (fun c => !(c.windowEnd.any fun e => decide (e ≤ 86410 + ((0 : Nat) : Int)))) = true := by
      decide
    have := List.all_eq_true.mp hopen c (Table.get?_eq_some_iff.mp hc).1
    rw [hover] at this
    cases this

end AutoTune
