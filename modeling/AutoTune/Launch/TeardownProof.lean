import AutoTune.Lib.Trace
import AutoTune.Launch.Drivers

/-!
# What a confirmed teardown proves

A run's cards are freed when `_begin_teardown` returns True or the janitor confirms. Both trust three
questions of the driver. The answers are proofs of absence as long as three things do not happen: a
look at a container that is there fails to connect, a gang's master is gone before its workers, and
an LLMService object is gone before its pods.
-/

namespace AutoTune

open Lib

/-! ## The supervisor's side -/

/-- The replies on which an iteration of the janitor confirms before its budget is spent. -/
def ReapReplies.confirms (d : ReapReplies) : Bool :=
  d.attach == .value false && d.releaseLeftovers == .value true

/-- Before the budget is spent the janitor confirms on these replies and on no others; otherwise the
run's `teardown_pending` stays as it was. -/
theorem reapTeardown_before_giveup {drivers : RunId → ReapReplies} {clock : TeardownClock}
    {now : Time} {db : Db} {id : RunId} {r : Run} (hget : db.runs.get? id = some r)
    (hbudget : r.elapsed now < clock.giveup) :
    if (drivers id).confirms then reapTeardown drivers clock now db id = confirmTeardown db id
    else ∃ r', (reapTeardown drivers clock now db id).runs.get? id = some r' ∧
      r'.teardownPending = r.teardownPending := by
  have hlate : ¬ clock.giveup ≤ r.elapsed now := Int.not_le.mpr hbudget
  unfold reapTeardown
  cases hattach : (drivers id).attach with
  | raised => simp [ReapReplies.confirms, hget, hattach]
  | value found =>
      cases found with
      | false =>
          by_cases hleft : (drivers id).releaseLeftovers = .value true
          · simp [ReapReplies.confirms, hget, hattach, hleft]
          · simp [ReapReplies.confirms, hget, hattach, hleft, hlate]
      | true =>
          by_cases hgrace : clock.grace ≤ r.elapsed now
          · cases (drivers id).teardown with
            | raised => simp [ReapReplies.confirms, hget, hattach, hlate, hgrace]
            | value _ =>
                simp [ReapReplies.confirms, hget, hattach, hlate, hgrace, Table.get?_modify_self]
          · simp [ReapReplies.confirms, hget, hattach, hlate, hgrace]

/-- How far a run's teardown has come: the calls made, and whether its cards were freed. -/
structure TeardownRun where
  calls : Nat := 0
  freed : Bool := false
deriving DecidableEq, Repr

/-- The end of the run, a tick of the janitor before its budget is spent, or time passing. -/
inductive TeardownStep where
  | begin
  | reap (unfinished : Reply (List String)) (teardown : Reply Unit)
  | wait (calls : Nat)
deriving DecidableEq, Repr

def teardownStep (d : RunDriver) (s : TeardownRun) : TeardownStep → TeardownRun
  | .begin =>
      let asked := d.beginReplies s.calls
      ⟨asked.2, s.freed || beginTeardown asked.1⟩
  | .reap unfinished teardown =>
      let asked := d.reapReplies s.calls unfinished teardown
      ⟨asked.2, s.freed || asked.1.confirms⟩
  | .wait calls => { s with calls := s.calls + calls }

/-- A condition under which a driver's answers prove `gone`. -/
structure RunDriver.Proves (d : RunDriver) (gone : Nat → Prop) (sound : Nat → TeardownStep → Prop) :
    Prop where
  later : ∀ {t t'}, t ≤ t' → gone t → gone t'
  begin_later : ∀ t, t ≤ (d.beginReplies t).2
  reap_later : ∀ t u f, t ≤ (d.reapReplies t u f).2
  begin_gone : ∀ t, sound t .begin → beginTeardown (d.beginReplies t).1 = true →
    gone (d.beginReplies t).2
  reap_gone : ∀ t u f, sound t (.reap u f) → (d.reapReplies t u f).1.confirms = true →
    gone (d.reapReplies t u f).2

/-- Step by step, cards freed means gone. -/
theorem RunDriver.Proves.freed_gone {d : RunDriver} {gone : Nat → Prop}
    {sound : Nat → TeardownStep → Prop} (h : d.Proves gone sound) (steps : List TeardownStep)
    (hsteps : Along (teardownStep d) (fun s a => sound s.calls a) {} steps) :
    (runFrom (teardownStep d) {} steps).freed = true →
      gone (runFrom (teardownStep d) {} steps).calls := by
  refine invariant_runFrom (I := fun s => s.freed = true → gone s.calls) ?_ (by simp) hsteps
  intro s a hs hsound hfreed
  cases a with
  | begin =>
      rcases Bool.or_eq_true _ _ ▸ hfreed with hf | hf
      · exact h.later (h.begin_later s.calls) (hs hf)
      · exact h.begin_gone s.calls hsound hf
  | reap u f =>
      rcases Bool.or_eq_true _ _ ▸ hfreed with hf | hf
      · exact h.later (h.reap_later s.calls u f) (hs hf)
      · exact h.reap_gone s.calls u f hsound hf
  | wait calls => exact h.later (Nat.le_add_right _ _) (hs hfreed)

/-! ## ssh and docker -/

/-- No container of the run's ranks exists. -/
def SshWorld.Gone (w : SshWorld) (nodes t : Nat) : Prop := ∀ rank < nodes, w.container t rank = none

theorem SshWorld.absent_later (w : SshWorld) {t t' rank : Nat} (h : t ≤ t')
    (hnone : w.container t rank = none) : w.container t' rank = none := by
  induction h with
  | refl => exact hnone
  | step _ ih => exact w.gone_stays _ rank ih

namespace SshDocker

variable {w : SshWorld}

/-- A look that says GONE and did connect, or failed on an absent container, proves absence. -/
theorem absent_of_gone {t rank : Nat} (hlink : w.link t = .refused → w.container t rank = none)
    (h : nodeState w t rank = .value .gone) : w.container t rank = none := by
  unfold nodeState containerState at h
  cases hl : w.link t with
  | timedOut => simp [hl] at h
  | refused => exact hlink hl
  | connected =>
      cases hc : w.container t rank with
      | none => rfl
      | some status =>
          cases status with
          | exited => simp [hl, hc] at h
          | running =>
              simp only [hl, hc] at h
              split_ifs at h <;> simp at h

/-- The look `attach` takes: it does not fail on a container that is there, and a master that is gone
is the last of its gang. -/
def AttachSound (w : SshWorld) (nodes t : Nat) : Prop :=
  w.link t ≠ .timedOut → (w.link t = .refused → w.container t 0 = none) ∧
    (w.container t 0 = none → w.Gone nodes t)

/-- The looks `is_gone` takes: none fails on a container that is there. -/
def IsGoneSound (w : SshWorld) : List Nat → Nat → Prop
  | [], _ => True
  | rank :: ranks, t =>
      (w.link t = .refused → w.container t rank = none) ∧
        (nodeState w t rank = .value .gone → IsGoneSound w ranks (t + 1))

theorem attach_none {nodes t : Nat} (hsound : AttachSound w nodes t)
    (h : (attach w t).reply = .value false) : w.Gone nodes t := by
  have hgone : nodeState w t 0 = .value .gone := by
    unfold attach at h
    cases hs : nodeState w t 0 with
    | raised => simp [hs] at h
    | value s => cases s <;> simp_all
  have hlink : w.link t ≠ .timedOut := by
    intro hl
    simp [nodeState, containerState, hl] at hgone
  rcases hsound hlink with ⟨hrefused, hlast⟩
  exact hlast (absent_of_gone hrefused hgone)

theorem isGone_calls (ranks : List Nat) (t : Nat) : t ≤ (isGone w ranks t).calls := by
  induction ranks generalizing t with
  | nil => exact Nat.le_refl t
  | cons rank ranks ih =>
      unfold isGone
      split
      · exact Nat.le_succ t
      · exact Nat.le_trans (Nat.le_succ t) (ih (t + 1))
      · exact Nat.le_succ t

theorem requestStop_calls (ranks : List Nat) (t : Nat) : t ≤ (requestStop w ranks t).calls := by
  induction ranks generalizing t with
  | nil => exact Nat.le_refl t
  | cons rank ranks ih =>
      unfold requestStop
      split_ifs
      · exact Nat.le_succ t
      · exact Nat.le_trans (Nat.le_succ t) (ih (t + 1))

theorem isGone_true {ranks : List Nat} {t : Nat} (hsound : IsGoneSound w ranks t)
    (h : (isGone w ranks t).reply = .value true) :
    ∀ rank ∈ ranks, w.container (isGone w ranks t).calls rank = none := by
  induction ranks generalizing t with
  | nil => simp
  | cons rank ranks ih =>
      have hgone : nodeState w t rank = .value .gone := by
        unfold isGone at h
        cases hs : nodeState w t rank with
        | raised => simp [hs] at h
        | value s => cases s <;> simp_all
      have hrest : isGone w (rank :: ranks) t = isGone w ranks (t + 1) := by
        simp [isGone, hgone]
      rw [hrest] at h ⊢
      intro r hr
      rcases List.mem_cons.mp hr with rfl | hr
      · have habsent := absent_of_gone hsound.1 hgone
        exact w.absent_later (Nat.le_trans (Nat.le_succ t) (isGone_calls ranks (t + 1))) habsent
      · exact ih (hsound.2 hgone) h r hr

end SshDocker

/-- The looks one step takes. -/
def SshDocker.Sound (w : SshWorld) (nodes t : Nat) : TeardownStep → Prop
  | .begin =>
      SshDocker.AttachSound w nodes t ∧
        ((SshDocker.attach w t).reply = .value true →
          SshDocker.IsGoneSound w (List.range nodes)
            (SshDocker.requestStop w (List.range nodes).reverse (t + 1)).calls)
  | .reap _ _ => SshDocker.AttachSound w nodes t
  | .wait _ => True

/-- What a True of `_begin_teardown` rests on: no handle, or a stop and a look that found nothing; in
both cases the leftovers were released last. -/
theorem beginTeardown_true {d : RunDriver} {t : Nat}
    (h : beginTeardown (d.beginReplies t).1 = true) :
    ((d.attach t).reply = .value false ∧
        (d.beginReplies t).2 = (d.releaseLeftovers (d.attach t).calls).calls) ∨
      ((d.attach t).reply = .value true ∧
        (d.isGone (d.requestStop (d.attach t).calls).calls).reply = .value true ∧
        (d.beginReplies t).2 =
          (d.releaseLeftovers (d.isGone (d.requestStop (d.attach t).calls).calls).calls).calls) := by
  unfold beginTeardown RunDriver.beginReplies at h
  unfold RunDriver.beginReplies
  cases ha : (d.attach t).reply with
  | raised => simp [ha] at h
  | value found =>
      cases found with
      | false =>
          left
          simp [ha]
      | true =>
          right
          simp only [ha, Bool.and_eq_true, beq_iff_eq] at h
          rcases h with ⟨⟨hs, hg⟩, -⟩
          simp [ha, hs, hg]

theorem sshDriver_proves (w : SshWorld) (nodes : Nat) :
    (sshDriver w nodes).Proves (w.Gone nodes) (SshDocker.Sound w nodes) where
  later := by
    intro t t' hle hgone rank hrank
    exact w.absent_later hle (hgone rank hrank)
  begin_later := by
    intro t
    have hs := SshDocker.requestStop_calls (w := w) (List.range nodes).reverse (t + 1)
    have hg := SshDocker.isGone_calls (w := w) (List.range nodes)
      (SshDocker.requestStop w (List.range nodes).reverse (t + 1)).calls
    simp only [RunDriver.beginReplies, sshDriver, SshDocker.attach] at hs hg ⊢
    split <;> first | omega | (split <;> omega)
  reap_later := by
    intro t u f
    simp only [RunDriver.reapReplies, sshDriver, SshDocker.attach]
    split <;> omega
  begin_gone := by
    intro t hsound h
    -- no container was attached to, or each of them was seen gone
    rcases beginTeardown_true h with ⟨ha, hcalls⟩ | ⟨ha, hg, hcalls⟩
    · have hgone := SshDocker.attach_none hsound.1 ha
      intro rank hrank
      rw [hcalls]
      exact w.absent_later (Nat.le_succ t) (hgone rank hrank)
    · intro rank hrank
      rw [hcalls]
      exact SshDocker.isGone_true (hsound.2 ha) hg rank (List.mem_range.mpr hrank)
  reap_gone := by
    intro t u f hsound h
    -- the janitor confirms where it could attach to none
    have ha : (SshDocker.attach w t).reply = .value false := by
      simp only [ReapReplies.confirms, Bool.and_eq_true, beq_iff_eq] at h
      exact h.1
    intro rank hrank
    have hgone := SshDocker.attach_none hsound ha rank hrank
    have hcalls : ((sshDriver w nodes).reapReplies t u f).2 = t + 1 := by
      simp [RunDriver.reapReplies, sshDriver, ha]
      rfl
    rw [hcalls]
    exact w.absent_later (Nat.le_succ t) hgone

/-! ## LLMService objects -/

/-- Neither the object nor a pod of the run exists. -/
def K8sWorld.Gone (w : K8sWorld) (t : Nat) : Prop := w.object t = false ∧ w.pods t = false

theorem K8sWorld.gone_later (w : K8sWorld) {t t' : Nat} (h : t ≤ t') (hgone : w.Gone t) :
    w.Gone t' := by
  induction h with
  | refl => exact hgone
  | step _ ih => exact ⟨w.object_stays _ ih.1, w.pods_stay _ ih.1 ih.2⟩

/-- The look `attach` takes: an object that is gone is the last of the run. -/
def LLMService.Sound (w : K8sWorld) (t : Nat) : TeardownStep → Prop
  | .wait _ => True
  | _ => w.answers t = true → w.object t = false → w.pods t = false

namespace LLMService

variable (w : K8sWorld) (settings : K8sSettings)

theorem attach_none {t : Nat}
    (hsound : w.answers t = true → w.object t = false → w.pods t = false)
    (h : (attach w settings t).reply = .value false) : w.Gone t := by
  unfold attach at h
  by_cases hans : w.answers t = true
  · by_cases hobj : w.object t = true
    · -- a handle, or an endpoint that could not be resolved
      simp only [hans, hobj, Bool.not_true, Bool.false_eq_true, if_false] at h
      split_ifs at h <;> simp at h
    · have hobj' : w.object t = false := by simpa using hobj
      exact ⟨hobj', hsound hans hobj'⟩
  · simp [hans] at h

theorem attach_calls (t : Nat) : t ≤ (attach w settings t).calls := by
  unfold attach
  split_ifs <;> simp

theorem requestStop_calls (t : Nat) : t ≤ (requestStop w settings t).calls := by
  unfold requestStop
  split_ifs <;> simp

theorem portReleased_calls (t : Nat) : t ≤ (portReleased w settings t).calls := by
  unfold portReleased
  split_ifs <;> simp

theorem isGone_calls (t : Nat) : t ≤ (isGone w settings t).calls := by
  unfold isGone
  split_ifs
  all_goals first
    | exact Nat.le_add_right t _
    | exact Nat.le_trans (Nat.le_add_right t 2) (portReleased_calls w settings (t + 2))

theorem releaseLeftovers_calls (t : Nat) : t ≤ (releaseLeftovers w settings t).calls := by
  unfold releaseLeftovers
  split_ifs
  · exact Nat.le_refl t
  · exact Nat.le_succ t
  · exact Nat.le_trans (Nat.le_succ t) (portReleased_calls w settings (t + 1))

/-- `is_gone` is a proof by itself: the object first, then the pods. -/
theorem isGone_true {t : Nat} (h : (isGone w settings t).reply = .value true) :
    w.Gone (isGone w settings t).calls := by
  have hboth : w.object t = false ∧ w.pods (t + 1) = false := by
    unfold isGone at h
    by_cases hans : w.answers t = true
    · by_cases hobj : w.object t = true
      · simp [hans, hobj] at h
      · by_cases hpods : w.pods (t + 1) = true
        · simp [hans, hobj, hpods] at h
        · exact ⟨by simpa using hobj, by simpa using hpods⟩
    · simp [hans] at h
  have hgone : w.Gone (t + 1) := ⟨w.object_stays t hboth.1, hboth.2⟩
  have hlater : t + 1 ≤ (isGone w settings t).calls := by
    unfold isGone
    split_ifs
    all_goals first
      | exact Nat.le_refl _
      | exact Nat.le_succ _
      | exact Nat.le_trans (Nat.le_succ _) (portReleased_calls w settings (t + 2))
  exact w.gone_later hlater hgone

end LLMService

theorem llmServiceDriver_proves (w : K8sWorld) (settings : K8sSettings) :
    (llmServiceDriver w settings).Proves w.Gone (LLMService.Sound w) where
  later := fun hle hgone => w.gone_later hle hgone
  begin_later := by
    intro t
    -- every call comes after the one before it
    have ha := LLMService.attach_calls w settings t
    have hs := LLMService.requestStop_calls w settings
      (LLMService.attach w settings t).calls
    have hg := LLMService.isGone_calls w settings
      (LLMService.requestStop w settings (LLMService.attach w settings t).calls).calls
    have hl := fun k => LLMService.releaseLeftovers_calls w settings k
    simp only [RunDriver.beginReplies, llmServiceDriver]
    split
    · exact ha
    · exact Nat.le_trans ha hs
    · exact Nat.le_trans ha (Nat.le_trans hs hg)
    · exact Nat.le_trans ha (Nat.le_trans hs hg)
    · split
      · exact Nat.le_trans ha (Nat.le_trans hs (Nat.le_trans hg (hl _)))
      · exact Nat.le_trans ha (hl _)
  reap_later := by
    intro t u f
    have ha := LLMService.attach_calls w settings t
    simp only [RunDriver.reapReplies, llmServiceDriver]
    split
    · exact Nat.le_trans ha (LLMService.releaseLeftovers_calls w settings _)
    · exact ha
  begin_gone := by
    intro t hsound h
    -- no pods were found, or they were seen gone
    rcases beginTeardown_true h with ⟨ha, hcalls⟩ | ⟨ha, hg, hcalls⟩
    · have hgone := LLMService.attach_none w settings hsound ha
      rw [hcalls]
      exact w.gone_later (Nat.le_trans (LLMService.attach_calls w settings t)
        (LLMService.releaseLeftovers_calls w settings _)) hgone
    · rw [hcalls]
      exact w.gone_later (LLMService.releaseLeftovers_calls w settings _) (LLMService.isGone_true w settings hg)
  reap_gone := by
    intro t u f hsound h
    have ha : (LLMService.attach w settings t).reply = .value false := by
      simp only [ReapReplies.confirms, Bool.and_eq_true, beq_iff_eq] at h
      exact h.1
    have hgone := LLMService.attach_none w settings hsound ha
    have hcalls : ((llmServiceDriver w settings).reapReplies t u f).2 =
        (LLMService.releaseLeftovers w settings (LLMService.attach w settings t).calls).calls := by
      simp [RunDriver.reapReplies, llmServiceDriver, ha]
    rw [hcalls]
    exact w.gone_later (Nat.le_trans (LLMService.attach_calls w settings t)
      (LLMService.releaseLeftovers_calls w settings _)) hgone

/-! ## Runs -/

/-- In every evolution and under every pattern of failing calls: when the looks of all steps are sound,
freed cards mean that no container of any rank, and no object and no pod of the run, exists. -/
theorem confirmed_teardown_gone (steps : List TeardownStep) :
    (∀ (w : SshWorld) (nodes : Nat),
      Along (teardownStep (sshDriver w nodes)) (fun s a => SshDocker.Sound w nodes s.calls a) {} steps →
        (runFrom (teardownStep (sshDriver w nodes)) {} steps).freed = true →
          w.Gone nodes (runFrom (teardownStep (sshDriver w nodes)) {} steps).calls) ∧
      ∀ (w : K8sWorld) (settings : K8sSettings),
        Along (teardownStep (llmServiceDriver w settings)) (fun s a => LLMService.Sound w s.calls a) {}
          steps →
          (runFrom (teardownStep (llmServiceDriver w settings)) {} steps).freed = true →
            w.Gone (runFrom (teardownStep (llmServiceDriver w settings)) {} steps).calls :=
  ⟨fun w nodes h => (sshDriver_proves w nodes).freed_gone steps h,
    fun w settings h => (llmServiceDriver_proves w settings).freed_gone steps h⟩

/-- One container, running, on a machine that cannot be reached. -/
def unreachableBox : SshWorld where
  container := fun _ _ => some .running
  link := fun _ => .refused
  endpoint := fun _ => false
  gone_stays := by simp

/-- A gang of two whose master is gone and whose worker is not. -/
def masterDiedFirst : SshWorld where
  container := fun _ rank => if rank = 0 then none else some .running
  link := fun _ => .connected
  endpoint := fun _ => false
  gone_stays := by simp

/-- An object dropped by its operator, its pods still terminating. -/
def podsOutliveObject : K8sWorld where
  object := fun _ => false
  pods := fun _ => true
  service := fun _ => false
  answers := fun _ => true
  object_stays := by simp
  pods_stay := by simp

/-- A failed connection, a dead master and a dropped object each free the cards under what is still
there, at the end of the run and in the janitor alike. -/
theorem teardown_freed_under_container :
    (∀ step ∈ [TeardownStep.begin, .reap .raised .raised],
      (teardownStep (sshDriver unreachableBox 1) {} step).freed = true ∧
        (teardownStep (sshDriver masterDiedFirst 2) {} step).freed = true ∧
        (teardownStep (llmServiceDriver podsOutliveObject ⟨false, false⟩) {} step).freed = true) ∧
      (∀ t, unreachableBox.container t 0 = some .running) ∧
      (∀ t, masterDiedFirst.container t 1 = some .running) ∧
      ∀ t, podsOutliveObject.pods t = true := by
  refine ⟨by decide, ?_, ?_, ?_⟩
  · intro t
    rfl
  · intro t
    rfl
  · intro t
    rfl

/-- A gang that takes three calls to go, master and worker together. -/
def gangLeaving : SshWorld where
  container := fun t rank => if t < 3 ∧ rank < 2 then some .running else none
  link := fun _ => .connected
  endpoint := fun _ => true
  gone_stays := by
    intro t rank h
    have hno : ¬ (t < 3 ∧ rank < 2) := by
      intro hup
      rw [if_pos hup] at h
      cases h
    have hno' : ¬ (t + 1 < 3 ∧ rank < 2) := by omega
    exact if_neg hno'

/-- An object and its pod that go together after the first call. -/
def objectLeaving : K8sWorld where
  object := fun t => decide (t < 1)
  pods := fun t => decide (t < 1)
  service := fun _ => false
  answers := fun _ => true
  object_stays := by simp
  pods_stay := by simp

/-- The end of the run signals both ranks and finds them gone at once; the janitor finds the object
gone on its first look after the delete. -/
theorem confirmed_teardown_gone_leaving :
    gangLeaving.Gone 2 (runFrom (teardownStep (sshDriver gangLeaving 2)) {} [.begin]).calls ∧
      objectLeaving.Gone (runFrom (teardownStep (llmServiceDriver objectLeaving ⟨true, true⟩)) {}
        [.wait 1, .reap .raised .raised]).calls := by
  refine ⟨(confirmed_teardown_gone _).1 gangLeaving 2 ⟨?_, trivial⟩ (by decide),
    (confirmed_teardown_gone _).2 objectLeaving _ ⟨trivial, ?_, trivial⟩ (by decide)⟩
  · refine ⟨?_, ?_⟩
    · intro _
      exact ⟨by simp [gangLeaving], by simp [gangLeaving]⟩
    · intro _
      refine ⟨by simp [gangLeaving], fun _ => ⟨by simp [gangLeaving], fun _ => trivial⟩⟩
  · intro _ _
    rfl

end AutoTune
