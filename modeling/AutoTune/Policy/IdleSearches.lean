import AutoTune.Policy.IdleWatchdog
import Mathlib.Data.List.ReduceOption
import Mathlib.Tactic.Linarith

/-!
# Searches that end as idle

While a session explores, its strikes lie a window apart, after every request that ended and a window
after every run. A visit that strikes keeps this, and a request that is committed begins it anew; so the
last strike finds all windows but one without a request and without a run.
-/

namespace AutoTune

open Lib

/-! ## One visit -/

/-- A session is ended for idleness by its watchdog only. -/
theorem advanceSession_idle (drivers : RunId → TeardownReplies) (now : Time) (order : RowOrder RunId)
    (f : SessionFinds) (id : SessionId) (db : Db) :
    NotIdled db (advanceSession drivers now order f id db).state ∨
      (reachesWatchdog id f now db = true ∧ f.idle = true ∧
        (advanceSession drivers now order f id db).state = beginFinalizing id now "policy_idle" db) := by
  unfold advanceSession reachesWatchdog
  cases hget : db.sessions.get? id with
  | none => exact Or.inl (NotIdled.of_eq rfl)
  | some s =>
      have hid : s.id = id := (Table.get?_eq_some_iff.mp hget).2
      subst hid
      dsimp only
      cases hc : db.campaigns.get? s.campaignId with
      | none => exact Or.inl (NotIdled.terminate s.id _ _ _ db)
      | some c =>
          dsimp only
          -- an abort, a cut-off window and every handler but one end the session for another reason or not at all
          split
          · exact Or.inl (endSession_notIdled drivers now order s _ _ _ db)
          rename_i habort
          split
          · exact Or.inl (endSession_notIdled drivers now order s _ _ _ db)
          rename_i hcut
          rw [Bool.not_eq_true] at habort hcut
          unfold handleSession
          cases hs : s.status with
          | pending => exact Or.inl (advancePending_notIdled f s db)
          | starting => exact Or.inl (advanceStarting_notIdled drivers now order f s db)
          | searching =>
              rcases advanceSearching_idle drivers now order f s db with hnot | ⟨hdead, hsilent, hsaid, hgoing,
                hidle, hstate⟩
              · exact Or.inl hnot
              -- the searching handler gave no earlier answer, so the watchdog was reached
              · refine Or.inr ⟨?_, hidle, hstate⟩
                rw [habort]
                rw [hs] at hcut
                rw [hcut, hdead, hsilent, hsaid, hgoing]
                rfl
          | finalizing => exact Or.inl (advanceFinalizing_notIdled drivers now order f s db)
          | validating => exact Or.inl (advanceValidating_notIdled f s db)
          | _ => exact Or.inl (NotIdled.of_eq rfl)

/-- A strike is given a window after the last run and the last strike. -/
theorem earnsStrike_spec {b : Beats} {timeout : Nat} {lastRun : Option Time} {moment : Time}
    (h : b.earnsStrike timeout lastRun moment = true) :
    (∀ t, lastRun = some t → t + timeout ≤ moment) ∧
      ∀ t, b.lastIdleStrikeAt = some t → t + timeout ≤ moment := by
  simp only [Beats.earnsStrike, Bool.and_eq_true, decide_eq_true_eq] at h
  refine ⟨?_, ?_⟩
  · rintro t rfl
    have hle : t ≤ b.idleReference timeout (some t) moment := by
      unfold Beats.idleReference
      cases b.lastActivityAt <;> cases b.startedAt <;> simp
    linarith [h.1]
  · intro t ht
    rw [ht] at h
    have hlast := h.2
    simp only [Option.getD_some] at hlast
    linarith

section

variable {knobs : PolicySettings} {settings : ClockDefaults} {id : SessionId}

namespace Vigil

variable {w : Vigil}

/-- The end of a run is no later than the last one. -/
theorem le_lastRunAt {r : Run} (hr : r ∈ w.db.runs.rows) (hsession : r.policySessionId = some id) {f : Time}
    (hf : r.finishedAt = some f) : ∃ t, w.lastRunAt id = some t ∧ f ≤ t := by
  have hmem : f ∈ (w.db.runs.rows.filter fun r => r.policySessionId == some id).filterMap fun r =>
      r.finishedAt.or (w.begun r.id) :=
    List.mem_filterMap.mpr ⟨r, List.mem_filter.mpr ⟨hr, by simp [hsession]⟩, by rw [hf]; rfl⟩
  cases hmax : w.lastRunAt id with
  | none =>
      rw [lastRunAt, List.max?_eq_none_iff] at hmax
      rw [hmax] at hmem
      exact absurd hmem List.not_mem_nil
  | some t => exact ⟨t, rfl, (List.max?_eq_some_iff.mp hmax).2 f hmem⟩

/-- What the watchdog leaves: nothing new, or one strike more. -/
theorem watched_cases (w : Vigil) (f : SessionFinds) (now : Time) :
    w.strikes knobs settings id f now = false ∧ w.watched knobs settings id f now = (w.beats, false) ∨
    w.strikes knobs settings id f now = true ∧ w.watched knobs settings id f now =
      ({ w.beats with idleStrikes := w.beats.idleStrikes + 1, lastIdleStrikeAt := some now },
        decide (knobs.searchIdleStrikes ≤ w.beats.idleStrikes + 1)) := by
  unfold strikes watched idleWatchdog
  cases reachesWatchdog id (w.finds f) now w.db with
  | false => exact Or.inl ⟨rfl, rfl⟩
  | true =>
      cases (w.db.liveRunsOfSession id).isEmpty with
      | false => exact Or.inl ⟨rfl, rfl⟩
      | true =>
          cases w.beats.earnsStrike (idleTimeout knobs settings) (w.lastRunAt id) now with
          | false => exact Or.inl ⟨rfl, rfl⟩
          | true => exact Or.inr ⟨rfl, rfl⟩

/-! ## While the session explores -/

/-- The strikes of a session that explores: they began after every request that ended and a window after
every run, and came a window apart. -/
structure Struck (knobs : PolicySettings) (settings : ClockDefaults) (id : SessionId) (w : Vigil)
    (last : Time) : Prop where
  struckAt : w.beats.lastIdleStrikeAt = some last
  past : last ≤ w.clock
  closed : ∀ a ∈ w.closed, a + ((w.beats.idleStrikes - 1) * idleTimeout knobs settings : Nat) ≤ last
  runs : ∀ r ∈ w.db.runs.rows, r.policySessionId = some id → r.live = false ∧
    ∃ f, r.finishedAt = some f ∧ f + (w.beats.idleStrikes * idleTimeout knobs settings : Nat) ≤ last

/-- What holds of a session until its search ends. -/
structure Exploring (knobs : PolicySettings) (settings : ClockDefaults) (id : SessionId) (w : Vigil) :
    Prop where
  reason : ∀ s, w.db.sessions.get? id = some s → s.searchEndReason ≠ "policy_idle"
  opened : ∀ a ∈ w.opened, a.markedAt ≤ w.clock ∧ (a.read.idleStrikes = 0 → w.beats.idleStrikes = 0)
  closed : ∀ a ∈ w.closed, a ≤ w.clock
  ended : ∀ r ∈ w.db.runs.rows, r.policySessionId = some id → r.live = false →
    ∃ f, r.finishedAt = some f ∧ f ≤ w.clock
  struck : w.beats.idleStrikes ≠ 0 → ∃ last, Struck knobs settings id w last

/-- The invariant: a session that has not ended its search keeps to it. -/
def Kept (knobs : PolicySettings) (settings : ClockDefaults) (id : SessionId) (w : Vigil) : Prop :=
  ∀ s, w.db.sessions.get? id = some s → s.status.explored = false → Exploring knobs settings id w

/-- Runs that end at `now` change nothing for a session that is struck. -/
theorem Exploring.stamped (h : Exploring knobs settings id w) {now : Time} (hnow : w.clock ≤ now)
    {w' : Vigil} (hstamp : Db.StampedAt now w.db w'.db) (hbeats : w'.beats.idleStrikes = w.beats.idleStrikes)
    (hlast : w'.beats.lastIdleStrikeAt = w.beats.lastIdleStrikeAt) (hopened : w'.opened = w.opened)
    (hclosed : w'.closed = w.closed) (hclock : w'.clock = now)
    (hreason : ∀ s, w'.db.sessions.get? id = some s → s.searchEndReason ≠ "policy_idle") :
    Exploring knobs settings id w' where
  reason := hreason
  opened := by
    rw [hopened, hbeats, hclock]
    exact fun a ha => ⟨(h.opened a ha).1.trans hnow, (h.opened a ha).2⟩
  closed := by
    rw [hclosed, hclock]
    exact fun a ha => (h.closed a ha).trans hnow
  ended := by
    rw [hclock]
    intro r' hr' hsession hover
    rcases hstamp r' hr' with ⟨r, hr, hrr⟩
    rcases hrr.ended with ⟨hsame, hfinished⟩ | ⟨-, hfinished⟩
    · rcases h.ended r hr (hrr.session.symm.trans hsession) (hsame.symm.trans hover) with ⟨f, hf, hle⟩
      exact ⟨f, hfinished.trans hf, hle.trans hnow⟩
    · exact ⟨now, hfinished, le_rfl⟩
  struck := by
    rw [hbeats]
    intro hstrikes
    rcases h.struck hstrikes with ⟨last, hs⟩
    refine ⟨last, ⟨hlast.trans hs.struckAt, hclock ▸ hs.past.trans hnow, ?_, ?_⟩⟩
    · rw [hclosed, hbeats]
      exact hs.closed
    · rw [hbeats]
      intro r' hr' hsession
      rcases hstamp r' hr' with ⟨r, hr, hrr⟩
      rcases hs.runs r hr (hrr.session.symm.trans hsession) with ⟨hover, f, hf, hle⟩
      exact ⟨(hrr.over hover).1, f, (hrr.over hover).2.trans hf, hle⟩

/-- What stands at a strike: every request that ended is as many windows old as there are strikes, every
run a window more. -/
theorem Exploring.at_strike (h : Exploring knobs settings id w) {f : SessionFinds} {now : Time}
    (hnow : w.clock ≤ now) (hstrike : w.strikes knobs settings id f now = true) :
    (∀ a ∈ w.closed, a + (w.beats.idleStrikes * idleTimeout knobs settings : Nat) ≤ now) ∧
      ∀ r ∈ w.db.runs.rows, r.policySessionId = some id → r.live = false ∧
        ∃ f, r.finishedAt = some f ∧
          f + ((w.beats.idleStrikes + 1) * idleTimeout knobs settings : Nat) ≤ now := by
  simp only [strikes, Bool.and_eq_true] at hstrike
  rcases hstrike with ⟨⟨-, hidle⟩, hearns⟩
  rcases earnsStrike_spec hearns with ⟨hlastRun, hlastStrike⟩
  have hover : ∀ r ∈ w.db.runs.rows, r.policySessionId = some id → r.live = false := by
    intro r hr hsession
    have hnone := List.filter_eq_nil_iff.mp (List.isEmpty_iff.mp hidle) r hr
    simpa [hsession] using hnone
  by_cases hk : w.beats.idleStrikes = 0
  · -- the first strike: a window after the last run
    refine ⟨fun a ha => ?_, fun r hr hsession => ⟨hover r hr hsession, ?_⟩⟩
    · rw [hk, Nat.zero_mul]
      have hold := h.closed a ha
      push_cast
      linarith
    · rcases h.ended r hr hsession (hover r hr hsession) with ⟨e, he, -⟩
      rcases le_lastRunAt hr hsession he with ⟨t, ht, hle⟩
      refine ⟨e, he, ?_⟩
      have hwindow := hlastRun t ht
      rw [hk, Nat.zero_add, Nat.one_mul]
      linarith
  · -- a later one: a window after the strike before
    rcases h.struck hk with ⟨last, hs⟩
    have hwindow := hlastStrike last hs.struckAt
    have hsucc : (w.beats.idleStrikes - 1) * idleTimeout knobs settings + idleTimeout knobs settings =
        w.beats.idleStrikes * idleTimeout knobs settings := by
      rw [← Nat.succ_mul, Nat.succ_eq_add_one, Nat.sub_add_cancel (Nat.pos_of_ne_zero hk)]
    refine ⟨fun a ha => ?_, fun r hr hsession => ⟨hover r hr hsession, ?_⟩⟩
    · have hold := hs.closed a ha
      rw [← hsucc]
      push_cast at hold ⊢
      linarith
    · rcases (hs.runs r hr hsession).2 with ⟨e, he, hle⟩
      refine ⟨e, he, ?_⟩
      rw [Nat.succ_mul]
      push_cast at hle ⊢
      linarith

/-- A strike goes on where the last one was. -/
theorem Exploring.strike (h : Exploring knobs settings id w) {f : SessionFinds} {now : Time}
    (hnow : w.clock ≤ now) (hstrike : w.strikes knobs settings id f now = true) (hnone : w.opened = [])
    {w' : Vigil} (hstamp : Db.StampedAt now w.db w'.db)
    (hbeats : w'.beats.idleStrikes = w.beats.idleStrikes + 1)
    (hlast : w'.beats.lastIdleStrikeAt = some now) (hopened : w'.opened = w.opened)
    (hclosed : w'.closed = w.closed) (hclock : w'.clock = now)
    (hreason : ∀ s, w'.db.sessions.get? id = some s → s.searchEndReason ≠ "policy_idle") :
    Exploring knobs settings id w' := by
  -- everything of the session had ended, and was silent, when this strike was due
  rcases h.at_strike hnow hstrike with ⟨hclosedAll, hrunsAll⟩
  have hruns : ∀ r' ∈ w'.db.runs.rows, r'.policySessionId = some id → r'.live = false ∧
      ∃ f, r'.finishedAt = some f ∧
        f + ((w.beats.idleStrikes + 1) * idleTimeout knobs settings : Nat) ≤ now := by
    intro r' hr' hsession
    rcases hstamp r' hr' with ⟨r, hr, hrr⟩
    rcases hrunsAll r hr (hrr.session.symm.trans hsession) with ⟨hover, e, he, hle⟩
    exact ⟨(hrr.over hover).1, e, (hrr.over hover).2.trans he, hle⟩
  exact
    { reason := hreason
      opened := by
        rw [hopened, hnone]
        exact fun a ha => absurd ha List.not_mem_nil
      closed := by
        rw [hclosed, hclock]
        exact fun a ha => (h.closed a ha).trans hnow
      ended := by
        rw [hclock]
        intro r hr hsession _
        rcases (hruns r hr hsession).2 with ⟨e, he, hle⟩
        have hpos := Int.natCast_nonneg ((w.beats.idleStrikes + 1) * idleTimeout knobs settings)
        exact ⟨e, he, by linarith⟩
      -- the strike that has just been written is the last one
      struck := by
        intro _
        refine ⟨now, hlast, hclock.ge, ?_, ?_⟩
        · rw [hclosed, hbeats, Nat.add_sub_cancel]
          exact hclosedAll
        · rw [hbeats]
          exact hruns }

/-! ## What happens -/

/-- Moves that leave the sessions alone. -/
theorem Kept.of_sessions (h : Kept knobs settings id w) {w' : Vigil}
    (hsessions : w'.db.sessions = w.db.sessions)
    (hstep : Exploring knobs settings id w → Exploring knobs settings id w') :
    Kept knobs settings id w' := by
  intro s hget hexploring
  rw [hsessions] at hget
  exact hstep (h s hget hexploring)

theorem transition_stamped (now : Time) (db : Db) (run : RunId) {target : RunStatus}
    (hlive : target.terminal = false) : Db.StampedAt now db (transition db run target).state := by
  intro r' hr'
  rcases transition_row hr' with hold | ⟨r, hr, hl, rfl⟩
  · exact ⟨r', hold, Run.StampedAt.refl now r'⟩
  · refine ⟨r, hr, rfl, rfl, Or.inl ⟨?_, rfl⟩⟩
    rw [hl]
    simp [Run.live, hlive]

theorem finish_stamped_of_live {drivers : RunId → TeardownReplies} (now : Time) {db : Db} {run : RunId}
    (hlive : db.isLive run = true) (status : RunStatus) (error : String) :
    Db.StampedAt now db (AutoTune.finish drivers now db run status error).state := by
  refine finish_stamped (Db.StampedAt.of_runs rfl) ?_ status error
  intro r hr hid
  rcases isLive_iff.mp hlive with ⟨q, hq, hqid, hl⟩
  have hsame : q = r := Table.eq_of_key_eq hq hr (hqid.trans hid.symm)
  rw [← hsame]
  exact hl

/-- A request leaves the sessions alone, and what it adds is live. -/
theorem answer_adds {request : Delegated} {db db' : Db} (h : request.answer id db = some db') :
    db'.sessions = db.sessions ∧ ∀ r ∈ db'.runs.rows, r ∈ db.runs.rows ∨ r.live = true := by
  have hsame : db' = db → db'.sessions = db.sessions ∧
      ∀ r ∈ db'.runs.rows, r ∈ db.runs.rows ∨ r.live = true := by
    rintro rfl
    exact ⟨rfl, fun r hr => Or.inl hr⟩
  -- the row that is added is live, the others are those before
  have hinsert : ∀ (row : Run) (_ : row.live = true), ∀ r ∈ db.runs.rows ++ [row],
      r ∈ db.runs.rows ∨ r.live = true := by
    intro row hlive r hr
    rcases List.mem_append.mp hr with hold | hnew
    · exact Or.inl hold
    · rw [List.mem_singleton.mp hnew]
      exact Or.inr hlive
  cases request with
  | launch body =>
      dsimp only [Delegated.answer] at h
      split at h
      · cases h
      split at h
      · exact hsame (Option.some.inj h).symm
      split at h
      · exact hsame (Option.some.inj h).symm
      split at h
      · cases h
      · cases h
        exact ⟨rfl, hinsert _ rfl⟩
  | benchLaunch body =>
      dsimp only [Delegated.answer] at h
      split at h
      · split at h
        · exact hsame (Option.some.inj h).symm
        · cases h
          exact ⟨rfl, hinsert _ rfl⟩
      · cases h
  | benchExternal body =>
      dsimp only [Delegated.answer] at h
      split at h
      · cases h
      split at h
      · cases h
      split at h
      · exact hsame (Option.some.inj h).symm
      split at h
      · cases h
      · exact hsame (Option.some.inj h).symm
      · cases h
        exact ⟨rfl, hinsert _ rfl⟩

/-- The visit of a tick, with what it finds of the session's own columns. -/
theorem tick_db (w : Vigil) (f : SessionFinds) (drivers : RunId → TeardownReplies) (order : RowOrder RunId)
    (now : Time) : (w.tick knobs settings id f drivers order now).db = (advanceSession drivers now order
      { w.finds f with idle := (w.watched knobs settings id f now).2 } id w.db).state := rfl

/-- A session that still explores after a visit explored before it. -/
theorem explored_before {drivers : RunId → TeardownReplies} {now : Time} {order : RowOrder RunId}
    {f : SessionFinds} {db : Db} {s' : PolicySession}
    (hget : (advanceSession drivers now order f id db).state.sessions.get? id = some s')
    (hexploring : s'.status.explored = false) :
    ∃ s, db.sessions.get? id = some s ∧ s.status.explored = false := by
  rcases Table.get?_eq_some_iff.mp hget with ⟨hrow, hid⟩
  rcases exists_mem_of_forall₂ (advanceSession_moves drivers now order f id db) hrow with ⟨s, hs, hsid, -⟩
  have hbefore : db.sessions.get? id = some s :=
    Table.get?_eq_some_iff.mpr ⟨hs, hsid.symm.trans hid⟩
  refine ⟨s, hbefore, ?_⟩
  cases hover : s.status.explored with
  | false => rfl
  | true =>
      rcases exists_mem_of_forall₂ (advanceSession_explored drivers now order f hbefore hover) hrow with
        ⟨t, ht, htid, hstatus⟩
      have hsame : t = s := Table.eq_of_key_eq ht hs (htid.symm.trans hsid)
      rw [hsame] at hstatus
      rcases hstatus with hkept | ⟨-, hpast⟩
      · rw [hkept, hover] at hexploring
        cases hexploring
      · rw [hpast] at hexploring
        cases hexploring

theorem tick_kept (h : Kept knobs settings id w) {e : VigilEvent} {f : SessionFinds}
    {drivers : RunId → TeardownReplies} {order : RowOrder RunId}
    (hheard : w.opened = [] ∨ w.strikes knobs settings id f (w.clock + e.elapsed) = false) :
    Kept knobs settings id { w.tick knobs settings id f drivers order (w.clock + e.elapsed) with
      clock := w.clock + e.elapsed } := by
  have hnow : w.clock ≤ w.clock + e.elapsed := by linarith [Int.natCast_nonneg e.elapsed]
  generalize w.clock + e.elapsed = now at *
  intro s' hget hexploring
  rw [tick_db] at hget
  rcases explored_before hget hexploring with ⟨s, hbefore, hexplored⟩
  have hwas := h s hbefore hexplored
  have hstamp : Db.StampedAt now w.db (w.tick knobs settings id f drivers order now).db := by
    rw [tick_db]
    refine advanceSession_stamped drivers now order _ fun t ht hvalidating => ?_
    rw [hbefore] at ht
    rw [Option.some.inj ht, hvalidating] at hexplored
    cases hexplored
  -- a session that was ended for idleness does not explore
  have hreason : ∀ t, (w.tick knobs settings id f drivers order now).db.sessions.get? id = some t →
      t.searchEndReason ≠ "policy_idle" := by
    intro t ht hidle
    rw [tick_db] at ht
    rcases advanceSession_idle drivers now order
      { w.finds f with idle := (w.watched knobs settings id f now).2 } id w.db with hnot | ⟨-, -, hstate⟩
    · rcases hnot.reason ht hidle with ⟨q, hq, hqidle⟩
      exact hwas.reason q hq hqidle
    · rw [hstate] at hget
      have hend : ((w.db.sessions.get? id).map fun s => ({ s with
          finalizeRequestedAt := some (s.finalizeRequestedAt.getD now)
          searchEndReason := if s.searchEndReason = "" then "policy_idle" else s.searchEndReason
          status := .finalizing } : PolicySession)) = some s' := by
        rw [← hget]
        unfold beginFinalizing Db.setSession
        rw [Table.get?_modify_self]
      rw [hbefore] at hend
      rw [← Option.some.inj hend] at hexploring
      cases hexploring
  rcases @watched_cases knobs settings id w f now with ⟨hno, hseen⟩ | ⟨hyes, hseen⟩
  · refine hwas.stamped hnow hstamp ?_ ?_ rfl rfl rfl hreason
    · dsimp only [tick]
      rw [hseen]
      split <;> rfl
    · dsimp only [tick]
      rw [hseen]
      split <;> rfl
  · have hnone : w.opened = [] := by
      rcases hheard with hnone | hno
      · exact hnone
      · rw [hyes] at hno
        cases hno
    refine hwas.strike hnow hyes hnone hstamp ?_ ?_ rfl rfl rfl hreason
    · dsimp only [tick]
      rw [hseen]
      split <;> rfl
    · dsimp only [tick]
      rw [hseen]
      split <;> rfl

/-- An open request ends. -/
theorem close_kept (h : Kept knobs settings id w) {k : Nat} {now : Time} (hnow : w.clock ≤ now)
    (hheard : ∀ a, w.opened[k]? = some a →
      w.beats.idleStrikes = 0 ∨ (a.request.answer id w.db).isSome = true) :
    Kept knobs settings id { w.close id k now with clock := now } := by
  unfold close
  cases hk : w.opened[k]? with
  | none =>
      refine h.of_sessions rfl fun hwas => ?_
      exact hwas.stamped hnow (Db.StampedAt.of_runs rfl) rfl rfl rfl rfl rfl hwas.reason
  | some a =>
      dsimp only
      have ha : a ∈ w.opened := List.mem_of_getElem? hk
      cases hanswer : a.request.answer id w.db with
      | none =>
          refine h.of_sessions rfl fun hwas => ?_
          have hzero : w.beats.idleStrikes = 0 := by
            rcases hheard a hk with hzero | hsome
            · exact hzero
            · rw [hanswer] at hsome
              cases hsome
          exact
            { reason := hwas.reason
              opened := fun o ho =>
                ⟨((hwas.opened o (List.mem_of_mem_eraseIdx ho)).1).trans hnow, fun _ => hzero⟩
              closed := by
                intro t ht
                rcases List.mem_append.mp ht with hold | hnew
                · exact (hwas.closed t hold).trans hnow
                · rw [List.mem_singleton.mp hnew]
                  exact (hwas.opened a ha).1.trans hnow
              ended := fun r hr hsession hover => by
                rcases hwas.ended r hr hsession hover with ⟨f, hf, hle⟩
                exact ⟨f, hf, hle.trans hnow⟩
              struck := fun hstrikes => absurd hzero hstrikes }
      | some db =>
          rcases answer_adds hanswer with ⟨hsessions, hadds⟩
          refine h.of_sessions hsessions fun hwas => ?_
          -- the mark clears the strikes, and where it found none there are none
          have hzero : (w.beats.flush a.read (a.read.markActivity a.markedAt)).idleStrikes = 0 := by
            dsimp only [Beats.flush, Beats.markActivity]
            split
            · rename_i hread
              exact (hwas.opened a ha).2 hread.symm
            · rfl
          exact
            { reason := by
                intro s hget
                change db.sessions.get? id = some s at hget
                rw [hsessions] at hget
                exact hwas.reason s hget
              opened := fun o ho =>
                ⟨((hwas.opened o (List.mem_of_mem_eraseIdx ho)).1).trans hnow, fun _ => hzero⟩
              closed := by
                intro t ht
                rcases List.mem_append.mp ht with hold | hnew
                · exact (hwas.closed t hold).trans hnow
                · rw [List.mem_singleton.mp hnew]
                  exact (hwas.opened a ha).1.trans hnow
              ended := fun r hr hsession hover => by
                rcases hadds r hr with hold | hlive
                · rcases hwas.ended r hold hsession hover with ⟨f, hf, hle⟩
                  exact ⟨f, hf, hle.trans hnow⟩
                · rw [hover] at hlive
                  cases hlive
              struck := fun hstrikes => absurd hzero hstrikes }

/-- A request marks the session's activity. -/
theorem mark_kept (h : Kept knobs settings id w) (request : Delegated) {now : Time} (hnow : w.clock ≤ now) :
    Kept knobs settings id { w.mark id request now with clock := now } := by
  have hstay : Kept knobs settings id { w with clock := now } := h.of_sessions rfl fun hwas =>
    hwas.stamped hnow (Db.StampedAt.of_runs rfl) rfl rfl rfl rfl rfl hwas.reason
  unfold mark
  split
  · exact hstay
  split
  · refine h.of_sessions rfl fun hwas => ?_
    have hthen : Exploring knobs settings id { w with clock := now } :=
      hwas.stamped hnow (Db.StampedAt.of_runs rfl) rfl rfl rfl rfl rfl hwas.reason
    exact
      { reason := hthen.reason
        opened := by
          intro a ha
          rcases List.mem_append.mp ha with hold | hnew
          · exact hthen.opened a hold
          · rw [List.mem_singleton.mp hnew]
            exact ⟨le_rfl, fun hread => hread⟩
        closed := hthen.closed
        ended := hthen.ended
        struck := fun hstrikes => by
          rcases hthen.struck hstrikes with ⟨last, hs⟩
          exact ⟨last, hs.struckAt, hs.past, hs.closed, hs.runs⟩ }
  · exact hstay

/-- Every event that hears the policy keeps the invariant. -/
theorem act_kept (h : Kept knobs settings id w) {e : VigilEvent} (hheard : w.Heard knobs settings id e) :
    Kept knobs settings id (w.act knobs settings id e) := by
  have hnow : w.clock ≤ w.clock + e.elapsed := by linarith [Int.natCast_nonneg e.elapsed]
  have hruns : ∀ db : Db, db.sessions = w.db.sessions → Db.StampedAt (w.clock + e.elapsed) w.db db →
      Kept knobs settings id { w with db := db, clock := w.clock + e.elapsed } := by
    intro db hsessions hstamp
    refine h.of_sessions hsessions fun hwas => hwas.stamped hnow hstamp rfl rfl rfl rfl rfl ?_
    intro s hget
    change db.sessions.get? id = some s at hget
    rw [hsessions] at hget
    exact hwas.reason s hget
  rcases e with ⟨elapsed, move⟩
  dsimp only [act, happen]
  cases move with
  | tick f drivers order => exact tick_kept (e := ⟨elapsed, .tick f drivers order⟩) h hheard
  | move run target =>
      dsimp only
      split
      · exact hruns w.db rfl (Db.StampedAt.of_runs rfl)
      · rename_i hlive
        exact hruns _ (transition_sessions w.db run target)
          (transition_stamped _ w.db run (by simpa using hlive))
  | finish drivers run status error =>
      dsimp only
      split
      · rename_i hgo
        exact hruns _ (finish_writes drivers _ w.db run status error).sessions
          (finish_stamped_of_live _ ((Bool.and_eq_true _ _).mp hgo).1 status error)
      · exact hruns w.db rfl (Db.StampedAt.of_runs rfl)
  | beat said =>
      refine h.of_sessions rfl fun hwas => ?_
      exact hwas.stamped hnow (Db.StampedAt.of_runs rfl) rfl rfl rfl rfl rfl hwas.reason
  | ask request => exact mark_kept h request hnow
  | answer k => exact close_kept h hnow hheard

/-! ## The end of a search -/

/-- Only a visit takes a session into FINALIZING. -/
theorem sessions_kept (w : Vigil) {e : VigilEvent}
    (hvisit : ∀ f drivers order, e.move ≠ .tick f drivers order) :
    (w.act knobs settings id e).db.sessions = w.db.sessions := by
  rcases e with ⟨elapsed, move⟩
  dsimp only [act, happen]
  cases move with
  | tick f drivers order => exact absurd rfl (hvisit f drivers order)
  | move run target =>
      dsimp only
      split
      · rfl
      · exact transition_sessions w.db run target
  | finish drivers run status error =>
      dsimp only
      split
      · exact (finish_writes drivers _ w.db run status error).sessions
      · rfl
  | beat said => rfl
  | ask request =>
      dsimp only [mark]
      split
      · rfl
      · split <;> rfl
  | answer k =>
      dsimp only [close]
      split
      · rfl
      · split
        · rfl
        · rename_i hanswer
          exact (answer_adds hanswer).1

/-- A session that begins to finalize for idleness was searching, and its visit earned it the last strike
and left its runs alone. -/
theorem enters_at_strike (h : Kept knobs settings id w) {e : VigilEvent}
    (henters : w.entersIdle knobs settings id e = true) :
    ∃ f drivers order, e.move = .tick f drivers order ∧ Exploring knobs settings id w ∧
      w.strikes knobs settings id f (w.clock + e.elapsed) = true ∧
      knobs.searchIdleStrikes ≤ w.beats.idleStrikes + 1 ∧
      (w.act knobs settings id e).db.runs = w.db.runs := by
  rw [entersIdle, Bool.and_eq_true, Option.all_eq_true, Option.any_eq_true] at henters
  rcases henters with ⟨hbefore, s', hget, hafter⟩
  simp only [Bool.and_eq_true, beq_iff_eq, bne_iff_ne] at hbefore hafter
  by_cases hvisit : ∀ f drivers order, e.move ≠ .tick f drivers order
  · rw [sessions_kept w hvisit] at hget
    exact absurd hafter.1 (hbefore s' hget)
  · simp only [not_forall, not_not] at hvisit
    rcases hvisit with ⟨f, drivers, order, hmove⟩
    rcases e with ⟨elapsed, move⟩
    change move = _ at hmove
    subst hmove
    change (w.tick knobs settings id f drivers order (w.clock + elapsed)).db.sessions.get? id = some s' at hget
    rw [tick_db] at hget
    refine ⟨f, drivers, order, rfl, ?_⟩
    -- the session is there before the visit, and its search is not over
    rcases Table.get?_eq_some_iff.mp hget with ⟨hrow, hid⟩
    rcases exists_mem_of_forall₂ (advanceSession_moves drivers (w.clock + elapsed) order _ id w.db) hrow with
      ⟨s, hs, hsid, -⟩
    have hwasThere : w.db.sessions.get? id = some s := Table.get?_eq_some_iff.mpr ⟨hs, hsid.symm.trans hid⟩
    have hexploring : s.status.explored = false := by
      cases hover : s.status.explored with
      | false => rfl
      | true =>
          rcases exists_mem_of_forall₂ (advanceSession_finalizing drivers (w.clock + elapsed) order _
            hwasThere hover (hbefore s hwasThere)) hrow with ⟨t, ht, htid, hstatus⟩
          have hsame : t = s := Table.eq_of_key_eq ht hs (htid.symm.trans hsid)
          rw [hsame] at hstatus
          rcases hstatus with hkept | ⟨-, hnot⟩
          · exact absurd (hkept ▸ hafter.1) (hbefore s hwasThere)
          · exact absurd hafter.1 hnot
    have hwas := h s hwasThere hexploring
    rcases advanceSession_idle drivers (w.clock + elapsed) order
      { w.finds f with idle := (w.watched knobs settings id f (w.clock + elapsed)).2 } id w.db with
      hnot | ⟨-, hidle, hstate⟩
    · rcases hnot.reason hget hafter.2 with ⟨q, hq, hqidle⟩
      exact absurd hqidle (hwas.reason q hq)
    · refine ⟨hwas, ?_⟩
      have hruns : (w.act knobs settings id ⟨elapsed, .tick f drivers order⟩).db.runs = w.db.runs := by
        change (w.tick knobs settings id f drivers order (w.clock + elapsed)).db.runs = _
        rw [tick_db, hstate]
        rfl
      rcases @watched_cases knobs settings id w f (w.clock + elapsed) with ⟨-, hseen⟩ | ⟨hyes, hseen⟩
      · rw [hseen] at hidle
        cases hidle
      · rw [hseen] at hidle
        exact ⟨hyes, of_decide_eq_true hidle, hruns⟩

theorem act_ends (h : Kept knobs settings id w) {e : VigilEvent} (hheard : w.Heard knobs settings id e) :
    w.EndsWhenIdle knobs settings id e := by
  intro henters
  rcases enters_at_strike h henters with ⟨f, drivers, order, hmove, hwas, hstrike, hlast, hruns⟩
  have hnow : w.clock ≤ w.clock + e.elapsed := by linarith [Int.natCast_nonneg e.elapsed]
  rcases hwas.at_strike hnow hstrike with ⟨hclosed, hover⟩
  rcases e with ⟨elapsed, move⟩
  change move = _ at hmove
  subst hmove
  have hnone : w.opened = [] := by
    rcases hheard with hnone | hno
    · exact hnone
    · rw [hstrike] at hno
      cases hno
  -- all windows but one are no more than the strikes there were
  have hwindows : (knobs.searchIdleStrikes - 1) * idleTimeout knobs settings ≤
      w.beats.idleStrikes * idleTimeout knobs settings := Nat.mul_le_mul_right _ (by omega)
  have hcast := Int.ofNat_le.mpr hwindows
  refine ⟨?_, ?_, ?_⟩
  · intro a ha
    change a ∈ w.opened at ha
    rw [hnone] at ha
    exact absurd ha List.not_mem_nil
  · intro a ha
    have hold := hclosed a ha
    change a ≤ w.clock + elapsed - _
    linarith
  · intro r hr hsession
    rw [hruns] at hr
    rcases hover r hr hsession with ⟨hdone, t, ht, hle⟩
    refine ⟨hdone, t, ht, ?_⟩
    change t ≤ w.clock + elapsed - _
    rw [Nat.succ_mul] at hle
    push_cast at hle hcast ⊢
    linarith [Int.natCast_nonneg (idleTimeout knobs settings)]

theorem Fresh.kept (h : w.Fresh id) : Kept knobs settings id w := by
  intro s hget _
  exact
    { reason := by
        intro t ht hidle
        rw [(h.pending t ht).2] at hidle
        exact absurd hidle (by decide)
      opened := by
        rw [h.opened]
        exact fun a ha => absurd ha List.not_mem_nil
      closed := by
        rw [h.closed]
        exact fun a ha => absurd ha List.not_mem_nil
      ended := fun r hr hsession => absurd hsession (h.unused r hr)
      struck := fun hstrikes => absurd h.strikes hstrikes }

end Vigil

/-- A search that the watchdog ends was idle: if every request that comes among strikes is committed, and
before the next one, then nothing was asked for and nothing ran in all windows but the first. -/
theorem idle_search_was_idle (knobs : PolicySettings) (settings : ClockDefaults) (id : SessionId)
    (w : Vigil) (l : List VigilEvent) (hfresh : w.Fresh id)
    (hheard : Along (Vigil.act knobs settings id) (Vigil.Heard knobs settings id) w l) :
    Along (Vigil.act knobs settings id) (Vigil.EndsWhenIdle knobs settings id) w l :=
  along_of_invariant (I := Vigil.Kept knobs settings id)
    (fun _ _ hkept hheard => ⟨Vigil.act_kept hkept hheard, Vigil.act_ends hkept hheard⟩) hfresh.kept hheard

end

/-! ## A request that is refused among strikes -/

/-- A session that is about to start, under a window that is open for a day. -/
def newcomer : Vigil where
  db :=
    { machines := Table.single { id := 1, name := "node-24", state := .reserved }
      campaigns := Table.single
        { id := 1, status := .active, policyId := some 1, windowStart := some 0, windowEnd := some 86400 }
      sessions := Table.single { id := 1, campaignId := 1, machineId := some 1 } }

theorem newcomer_fresh : newcomer.Fresh 1 where
  pending := by
    intro s hs
    cases hs
    exact ⟨rfl, rfl⟩
  unused := fun _ hr => absurd hr List.not_mem_nil
  strikes := rfl
  opened := rfl
  closed := rfl

/-- The worker looks in after `elapsed` seconds; nothing it finds ends anything. -/
def lookIn (elapsed : Nat) : VigilEvent := ⟨elapsed, .tick {} (fun _ => cleanTeardown) (RowOrder.byKey _)⟩

/-- The session starts and searches, and is struck once. -/
def struckOnce : List VigilEvent := [lookIn 0, ⟨0, .beat .working⟩, lookIn 0, lookIn 300]

/-- A request that is committed, though its config is refused, begins the windows anew. -/
theorem idle_search_was_idle_heard :
    Along (Vigil.act {} {} 1) (Vigil.EndsWhenIdle {} {} 1) newcomer (struckOnce ++
      [⟨100, .ask (.launch { gpuIndices := [], config := none })⟩, ⟨0, .answer 0⟩, lookIn 300, lookIn 300,
        lookIn 300]) := by
  refine idle_search_was_idle {} {} 1 newcomer _ newcomer_fresh ?_
  refine ⟨Or.inl rfl, trivial, Or.inl rfl, Or.inl rfl, trivial, ?_, Or.inl rfl, Or.inl rfl, Or.inl rfl, trivial⟩
  intro a ha
  cases ha
  exact Or.inr rfl

/-- A benchmark of a launch that is not there is refused among strikes, and the search ends as idle. -/
theorem refused_request_not_heard : newcomer.Fresh 1 ∧
    ¬ Along (Vigil.act {} {} 1) (Vigil.EndsWhenIdle {} {} 1) newcomer (struckOnce ++
      [⟨100, .ask (.benchLaunch { runId := 99 })⟩, ⟨0, .answer 0⟩, lookIn 200, lookIn 300]) := by
  refine ⟨newcomer_fresh, fun hends => ?_⟩
  have hlast := hends.2.2.2.2.2.2.2.1
  have hidle := hlast (by decide)
  exact absurd (hidle.closed 400 (by decide)) (by decide)

end AutoTune
