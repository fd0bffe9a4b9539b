import AutoTune.Supervisor.Liveness
import AutoTune.Supervisor.Writes

/-!
# When runs ended

`_finish` stamps a run before it moves it, and ending a launch stamps its benchmarks. So at any time a run
that is over says when that was, and what ends runs at one moment changes nothing about the others.
-/

namespace AutoTune

open Lib

/-- The run is as live as it was and says the same of its end, or it was live and ends now. -/
structure Run.StampedAt (now : Time) (r r' : Run) : Prop where
  id : r'.id = r.id
  session : r'.policySessionId = r.policySessionId
  ended : (r'.live = r.live ∧ r'.finishedAt = r.finishedAt) ∨ (r.live = true ∧ r'.finishedAt = some now)

/-- Every run is one of before, perhaps ended now. -/
def Db.StampedAt (now : Time) (db db' : Db) : Prop :=
  ∀ r' ∈ db'.runs.rows, ∃ r ∈ db.runs.rows, r.StampedAt now r'

theorem Run.StampedAt.refl (now : Time) (r : Run) : r.StampedAt now r :=
  ⟨rfl, rfl, Or.inl ⟨rfl, rfl⟩⟩

theorem Db.StampedAt.of_runs {now : Time} {db db' : Db} (h : db'.runs = db.runs) :
    Db.StampedAt now db db' := by
  intro r hr
  rw [h] at hr
  exact ⟨r, hr, Run.StampedAt.refl now r⟩

/-- A run that is live was live before. -/
theorem Run.StampedAt.live {now : Time} {r r' : Run} (h : r.StampedAt now r') (hlive : r'.live = true) :
    r.live = true := by
  rcases h.ended with ⟨hsame, -⟩ | ⟨hlive', -⟩
  · rw [← hsame]
    exact hlive
  · exact hlive'

/-- A run that was over is left alone. -/
theorem Run.StampedAt.over {now : Time} {r r' : Run} (h : r.StampedAt now r') (hover : r.live = false) :
    r'.live = false ∧ r'.finishedAt = r.finishedAt := by
  rcases h.ended with ⟨hsame, hfinished⟩ | ⟨hlive, -⟩
  · exact ⟨hsame.trans hover, hfinished⟩
  · rw [hover] at hlive
    cases hlive

/-- Columns other than these may be written at any time. -/
theorem Db.StampedAt.setRun {now : Time} {db₀ db : Db} (h : Db.StampedAt now db₀ db) {id : RunId}
    {f : Run → Run} {hf : ∀ r, (f r).id = r.id} (hkeep : ∀ r, (f r).policySessionId = r.policySessionId ∧
      (f r).live = r.live ∧ (f r).finishedAt = r.finishedAt) :
    Db.StampedAt now db₀ (db.setRun id f hf) := by
  intro r' hr'
  rcases List.mem_map.mp hr' with ⟨r₁, hr₁, rfl⟩
  rcases h r₁ hr₁ with ⟨r, hr, hstamp⟩
  refine ⟨r, hr, ?_⟩
  split
  · rcases hkeep r₁ with ⟨hsession, hlive, hfinished⟩
    refine ⟨(hf r₁).trans hstamp.id, hsession.trans hstamp.session, ?_⟩
    rw [hlive, hfinished]
    exact hstamp.ended
  · exact hstamp

section

variable {drivers : RunId → TeardownReplies} {now : Time}

/-- Ending a run that was live at the start. -/
theorem finishRow_stamped {db₀ db : Db} (h : Db.StampedAt now db₀ db) {id : RunId}
    (hlive : ∀ r ∈ db₀.runs.rows, r.id = id → r.live = true) (status : RunStatus) (error : String) :
    Db.StampedAt now db₀ (finishRow drivers now db id status error).state := by
  unfold finishRow
  cases hget : db.runs.get? id with
  | none => exact h
  | some q =>
      dsimp only
      have hstamped : Db.StampedAt now db₀ (transition (db.stampFinished id now error
          (q.kind.notOurs || beginTeardown (drivers id))) id status).state := by
        intro r₂ hr₂
        -- the row before it was moved: the one of before, or that one with the stamp
        have hrow : ∃ r ∈ db.runs.rows, r₂.id = r.id ∧ r₂.policySessionId = r.policySessionId ∧
            (r₂ = r ∨ r.id = id ∧ r₂.finishedAt = some now) := by
          unfold transition at hr₂
          have hcases : r₂ ∈ (db.stampFinished id now error
              (q.kind.notOurs || beginTeardown (drivers id))).runs.rows ∨
              ∃ source, r₂ ∈ ((db.stampFinished id now error
                (q.kind.notOurs || beginTeardown (drivers id))).moveRun id source status).runs.rows := by
            split at hr₂
            · exact Or.inl hr₂
            · split at hr₂
              · exact Or.inr ⟨_, hr₂⟩
              · exact Or.inl hr₂
          rcases hcases with hold | ⟨source, hmoved⟩
          · rcases List.mem_map.mp hold with ⟨r, hr, rfl⟩
            refine ⟨r, hr, ?_⟩
            split
            · rename_i hid
              exact ⟨rfl, rfl, Or.inr ⟨hid, rfl⟩⟩
            · exact ⟨rfl, rfl, Or.inl rfl⟩
          · rcases Db.mem_moveRun.mp hmoved with ⟨r₁, hr₁, rfl⟩
            rcases List.mem_map.mp hr₁ with ⟨r, hr, rfl⟩
            refine ⟨r, hr, ?_⟩
            by_cases hid : r.id = id
            · simp only [hid, if_true]
              exact ⟨trivial, trivial, Or.inr ⟨trivial, trivial⟩⟩
            · simp only [hid, if_false]
              exact ⟨trivial, trivial, Or.inl trivial⟩
        rcases hrow with ⟨r₁, hr₁, hid, hsession, hsame | ⟨hthis, hfinished⟩⟩
        · rw [hsame]
          exact h r₁ hr₁
        · rcases h r₁ hr₁ with ⟨r, hr, hstamp⟩
          have hwas : r.live = true := hlive r hr (hstamp.id.symm.trans hthis)
          exact ⟨r, hr, hid.trans hstamp.id, hsession.trans hstamp.session, Or.inr ⟨hwas, hfinished⟩⟩
      refine Ran.andThen_preserves (I := Db.StampedAt now db₀) hstamped fun db' h' => ?_
      simp only [Ran.done_state]
      split
      · intro r hr
        rw [releaseRunMachines_runs] at hr
        exact h' r hr
      · exact h'

/-- Ending the live benchmarks of a launch. -/
theorem stopBenchmarksOf_stamped {db₀ db : Db} (h : Db.StampedAt now db₀ db) (launch : RunId) :
    Db.StampedAt now db₀ (stopBenchmarksOf drivers now db launch).state := by
  unfold stopBenchmarksOf
  cases db.runs.get? launch with
  | none => exact h
  | some l =>
      dsimp only
      refine Ran.forEach_preserves ?_ h
      intro bench hbench db' h'
      -- it is live when the loop starts, so it was live before
      have hlive : ∀ r ∈ db₀.runs.rows, r.id = bench → r.live = true := by
        intro r₀ hr₀ hid₀
        rcases mem_liveBenchmarksOf.mp hbench with ⟨r, hr, hid, -, hl⟩
        rcases h r hr with ⟨r₁, hr₁, hstamp⟩
        have hsame : r₁ = r₀ := Table.eq_of_key_eq hr₁ hr₀ ((hstamp.id.symm.trans hid).trans hid₀.symm)
        rw [← hsame]
        exact hstamp.live hl
      unfold stopBenchmark
      split
      · have hclass : Db.StampedAt now db₀ (db'.setFailureClass bench (inheritedClass l)) :=
          h'.setRun fun r => ⟨rfl, rfl, rfl⟩
        exact finishRow_stamped hclass hlive _ _
      · exact finishRow_stamped h' hlive _ _

/-- `_finish` of a run that was live. -/
theorem finish_stamped {db₀ db : Db} (h : Db.StampedAt now db₀ db) {id : RunId}
    (hlive : ∀ r ∈ db₀.runs.rows, r.id = id → r.live = true) (status : RunStatus) (error : String) :
    Db.StampedAt now db₀ (finish drivers now db id status error).state := by
  refine Ran.andThen_preserves (I := Db.StampedAt now db₀) (finishRow_stamped h hlive status error) ?_
  intro db' h'
  cases db'.runs.get? id with
  | none => exact h'
  | some r =>
      dsimp only
      split
      · exact stopBenchmarksOf_stamped h' id
      · exact h'

/-- `_kill_session_runs` ends runs that are live. -/
theorem killSessionRuns_stamped (order : RowOrder RunId) (session : SessionId) (reason : String) (db : Db) :
    Db.StampedAt now db (killSessionRuns drivers now order session reason db).state := by
  refine Ran.forEach_preserves (I := Db.StampedAt now db) ?_ (Db.StampedAt.of_runs rfl)
  intro id hid db' h'
  refine finish_stamped h' ?_ _ _
  intro r hr hrid
  rw [(order.perm _).mem_iff] at hid
  rcases List.mem_map.mp hid with ⟨q, hq, hqid⟩
  rcases List.mem_filter.mp hq with ⟨hrow, hlive⟩
  have hsame : q = r := Table.eq_of_key_eq hrow hr (hqid.trans hrid.symm)
  rw [← hsame]
  exact (Bool.and_eq_true _ _ ▸ hlive).2

end

end AutoTune
