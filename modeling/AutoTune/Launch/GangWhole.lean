import AutoTune.Launch.GangLaunch
import AutoTune.Lib.Numerals

/-!
# A gang is launched whole, or not at all

Every rank has a container of its own, named by the run and the rank, so what one rank's launch does to its machine
concerns no other. A launch that returns left each rank's container running the command that is recorded for it, and
a restarted worker finds the same gang. One that fails takes down what it started, on every machine where a removal
works, whichever call failed and when: a run that still waits holds no card.
-/

namespace AutoTune.SshDocker

open Lib

variable {f : Fates} {settings : Settings} {F : Type} {g : GangSpec F}

/-! ## What a command can change -/

/-- Nothing but one container, and time passes. -/
def Only (place : String × String) (s s' : Fleet) : Prop :=
  (∀ p, p ≠ place → s'.containers p = s.containers p) ∧ s.calls ≤ s'.calls

/-- No container at all. -/
def Same (s s' : Fleet) : Prop := s'.containers = s.containers ∧ s.calls ≤ s'.calls

theorem Only.refl (place : String × String) (s : Fleet) : Only place s s := ⟨fun _ _ => rfl, le_refl _⟩

theorem Only.trans {place : String × String} {s₁ s₂ s₃ : Fleet} (h : Only place s₁ s₂) (h' : Only place s₂ s₃) :
    Only place s₁ s₃ := ⟨fun p hp => (h'.1 p hp).trans (h.1 p hp), le_trans h.2 h'.2⟩

theorem Same.refl (s : Fleet) : Same s s := ⟨rfl, le_refl _⟩

theorem Same.trans {s₁ s₂ s₃ : Fleet} (h : Same s₁ s₂) (h' : Same s₂ s₃) : Same s₁ s₃ :=
  ⟨h'.1.trans h.1, le_trans h.2 h'.2⟩

theorem Same.only {s s' : Fleet} (h : Same s s') (place : String × String) : Only place s s' :=
  ⟨fun p _ => congrFun h.1 p, h.2⟩

theorem put_only (s : Fleet) (place : String × String) (container : Option (List String)) :
    Only place s (s.called.put place container) :=
  ⟨fun p hp => by simp [Fleet.put, Fleet.called, hp], Nat.le_succ _⟩

theorem called_same (s : Fleet) : Same s s.called := ⟨rfl, Nat.le_succ _⟩

theorem create_only (s : Fleet) (place : String × String) (argv : List String) :
    Only place s (s.called.create place argv) := by
  unfold Fleet.create
  split
  · exact (called_same s).only place
  · exact put_only s place (some argv)

/-- A sequence of commands that change no container. -/
theorem same_bind {α β : Type} {m : Proc Fleet LaunchError α} {k : α → Proc Fleet LaunchError β}
    (hm : m.Within Same) (hk : ∀ a, (k a).Within Same) : (m >>= k).Within Same := hm.bind (fun h h' => h.trans h') hk

/-- And of such that change one. -/
theorem only_bind {place : String × String} {α β : Type} {m : Proc Fleet LaunchError α}
    {k : α → Proc Fleet LaunchError β} (hm : m.Within (Only place)) (hk : ∀ a, (k a).Within (Only place)) :
    (m >>= k).Within (Only place) := hm.bind (fun h h' => h.trans h') hk

theorem same_only {α : Type} {m : Proc Fleet LaunchError α} (h : m.Within Same) (place : String × String) :
    m.Within (Only place) := fun s => (h s).only place

theorem ask_same (f : Fates) (host : String) (command : Command) (seconds : Nat) :
    (ask f host command seconds).Within Same := by
  intro s
  unfold ask send
  cases f.link s.calls host command with
  | connected => exact called_same s
  | refused => exact called_same s
  | timedOut =>
      simp only [ite_self]
      exact called_same s

theorem checkPortFree_same (f : Fates) (host : String) (port : Int) : (checkPortFree f host port).Within Same := by
  refine same_bind (ask_same f host .listeners 60) fun reply => ?_
  dsimp only
  split
  · exact Proc.Within.raise Same.refl _
  · split
    · refine same_bind (ask_same f host .kubeProxy 60) fun reply => ?_
      split
      · exact Proc.Within.raise Same.refl _
      · exact Proc.Within.pure Same.refl _
    · exact Proc.Within.pure Same.refl _

theorem containerThere_same (f : Fates) (place : String × String) : (containerThere f place).Within Same :=
  same_bind (ask_same f place.1 .inspect 60) fun _ =>
    same_bind (Proc.Within.current Same.refl) fun _ => Proc.Within.pure Same.refl _

theorem gpusInUse_same (f : Fates) (host : String) (indices : List Int) : (gpusInUse f host indices).Within Same := by
  unfold gpusInUse
  split
  · exact Proc.Within.pure Same.refl _
  · exact same_bind (ask_same f host .gpuMemory 30) fun _ => Proc.Within.pure Same.refl _

theorem dumpRemoteLogs_same (f : Fates) (host : String) : (dumpRemoteLogs f host).Within Same :=
  same_bind (ask_same f host .dumpLogs 120) fun _ => Proc.Within.pure Same.refl _

theorem ensureImage_same (f : Fates) (settings : Settings) (host image : String) :
    (ensureImage f settings host image).Within Same := by
  unfold ensureImage
  split
  · exact Proc.Within.pure Same.refl _
  · refine same_bind (ask_same f host .image 60) fun reply => ?_
    cases (reply.map f.image).getD .other with
    | started => exact Proc.Within.raise Same.refl _
    | pulling seconds =>
        dsimp only
        split
        · exact same_bind (ask_same f host .killPull 60) fun _ => Proc.Within.raise Same.refl _
        · exact Proc.Within.raise Same.refl _
    | failed output => exact Proc.Within.raise Same.refl _
    | present => exact Proc.Within.pure Same.refl _
    | other => exact Proc.Within.pure Same.refl _

theorem removeContainer_only (f : Fates) (place : String × String) (seconds : Nat) :
    (removeContainer f place seconds).Within (Only place) := by
  refine only_bind (fun s => ?_) fun _ => Proc.Within.pure (Only.refl place) _
  have heffect : Only place s (if f.keeps s.calls then s.called else s.called.put place none) := by
    split
    · exact (called_same s).only place
    · exact put_only s place none
  unfold send
  cases f.link s.calls place.1 .remove with
  | connected => exact heffect
  | refused => exact (called_same s).only place
  | timedOut =>
      dsimp only
      split
      · exact heffect
      · exact (called_same s).only place

theorem runContainer_only (f : Fates) (place : String × String) (argv : List String) :
    (runContainer f place argv).Within (Only place) := by
  intro s
  have hcreate := create_only s place argv
  have hcalled : Only place s s.called := (called_same s).only place
  unfold runContainer
  dsimp only
  cases f.link s.calls place.1 .run with
  | connected =>
      dsimp only
      split
      · exact hcreate
      · dsimp only
        split
        · exact hcreate
        · exact hcalled
  | refused => exact hcalled
  | timedOut =>
      dsimp only
      split
      · exact hcreate
      · exact hcalled

theorem teardownOne_only (f : Fates) (handle : DeploymentHandle) :
    (teardownOne f handle).Within (Only (handle.machine.host, handle.containerName)) :=
  only_bind (same_only (dumpRemoteLogs_same f _) _) fun _ => removeContainer_only f _ 120

theorem pollRendezvous_same (f : Fates) (g : GangSpec F) (looks : Nat) : (pollRendezvous f g looks).Within Same := by
  induction looks with
  | zero => exact Proc.Within.raise Same.refl _
  | succ looks ih =>
      refine same_bind (ask_same f g.machine.host .listening 30) fun reply => ?_
      split
      · exact Proc.Within.pure Same.refl _
      · exact ih

theorem waitRendezvous_same (f : Fates) (g : GangSpec F) : (waitRendezvous f g).Within Same := by
  unfold waitRendezvous
  split
  · exact Proc.Within.pure Same.refl _
  · exact same_bind (Proc.Within.current Same.refl) fun _ => pollRendezvous_same f g _

theorem checkCards_same (f : Fates) (g : GangSpec F) : (checkCards f g).Within Same := by
  refine same_bind (containerThere_same f _) fun there => ?_
  split
  · exact Proc.Within.pure Same.refl _
  · refine same_bind (gpusInUse_same f _ _) fun busy => ?_
    split
    · exact Proc.Within.raise Same.refl _
    · exact Proc.Within.pure Same.refl _

variable [PyRuntime F]

theorem startContainer_only (f : Fates) (settings : Settings) (g : GangSpec F) :
    (startContainer f settings g).Within (Only g.place) := by
  unfold startContainer
  split
  · exact Proc.Within.raise (Only.refl _) _
  · exact only_bind (runContainer_only f _ _) fun _ => Proc.Within.pure (Only.refl _) _

/-- What a launch does to its machine concerns its own container. -/
theorem launch_only (f : Fates) (settings : Settings) (g : GangSpec F) :
    (launch f settings g).Within (Only g.place) := by
  refine only_bind (same_only (checkPortFree_same f _ _) _) fun _ => ?_
  refine only_bind (same_only (checkCards_same f g) _) fun _ => ?_
  refine only_bind (same_only (dumpRemoteLogs_same f _) _) fun _ => ?_
  refine only_bind (removeContainer_only f _ _) fun _ => ?_
  refine only_bind (same_only (ensureImage_same f settings _ _) _) fun _ => ?_
  exact startContainer_only f settings g

/-! ## What a launch leaves -/

omit [PyRuntime F] in
theorem runContainer_up {place : String × String} {argv : List String} {s s' : Fleet} {u : Unit}
    (h : runContainer f place argv s = (.ok u, s')) : s'.containers place = some argv := by
  unfold runContainer at h
  dsimp only at h
  cases hlink : f.link s.calls place.1 .run with
  | connected =>
      simp only [hlink] at h
      by_cases hruns : (s.containers place).isNone = true ∧ f.runs s.calls = true
      · rw [if_pos hruns] at h
        cases h
        have hfree : s.containers place = none := by simpa using hruns.1
        simp [Fleet.create, Fleet.called, Fleet.put, hfree]
      · rw [if_neg hruns] at h
        cases h
  | refused =>
      simp only [hlink] at h
      cases h
  | timedOut =>
      simp only [hlink] at h
      cases h

/-- A launch that returns left the container running the command it returns. -/
theorem launch_up {s s' : Fleet} {k : DeploymentHandle × String} (h : launch f settings g s = (.ok k, s')) :
    ∃ argv, renderDockerCommand settings.dockerGpuMode g.spec = .ok argv ∧ k = (g.handle 0, commandText argv) ∧
      s'.containers g.place = some argv := by
  obtain ⟨-, s₁, -, h⟩ := Proc.bind_ok.mp h
  obtain ⟨-, s₂, -, h⟩ := Proc.bind_ok.mp h
  obtain ⟨-, s₃, -, h⟩ := Proc.bind_ok.mp h
  obtain ⟨-, s₄, -, h⟩ := Proc.bind_ok.mp h
  obtain ⟨-, s₅, -, h⟩ := Proc.bind_ok.mp h
  unfold startContainer at h
  cases hargv : renderDockerCommand settings.dockerGpuMode g.spec with
  | error message =>
      simp only [hargv] at h
      cases h
  | ok argv =>
      simp only [hargv] at h
      obtain ⟨u, s₆, hrun, hreturn⟩ := Proc.bind_ok.mp h
      cases hreturn
      exact ⟨argv, rfl, rfl, runContainer_up hrun⟩

/-- Removing a container of a machine works, at this call. -/
def RemovesAt (f : Fates) (host : String) (t : Nat) : Prop :=
  f.link t host .dumpLogs ≠ .timedOut ∧ f.link t host .remove = .connected ∧ f.keeps t = false

omit [PyRuntime F] in
theorem removeContainer_gone {place : String × String} {s : Fleet} (h : RemovesAt f place.1 s.calls) (seconds : Nat) :
    (removeContainer f place seconds s).1 = .ok () ∧ (removeContainer f place seconds s).2.containers place = none := by
  obtain ⟨-, hlink, hkeeps⟩ := h
  simp [removeContainer, Proc.bind_run, Proc.pure_run, send, hlink, hkeeps, Fleet.put]

omit [PyRuntime F] in
theorem dumpRemoteLogs_ok {host : String} {s : Fleet} (h : RemovesAt f host s.calls) :
    dumpRemoteLogs f host s = (.ok (), s.called) := by
  obtain ⟨hlink, -, -⟩ := h
  cases hdump : f.link s.calls host .dumpLogs with
  | timedOut => exact absurd hdump hlink
  | connected => simp [dumpRemoteLogs, Proc.bind_run, Proc.pure_run, ask, send, hdump]
  | refused => simp [dumpRemoteLogs, Proc.bind_run, Proc.pure_run, ask, send, hdump]

omit [PyRuntime F] in
/-- A teardown removes the container where removing works. -/
theorem teardownOne_gone {handle : DeploymentHandle} {s : Fleet}
    (h : ∀ t, s.calls ≤ t → RemovesAt f handle.machine.host t) :
    (teardownOne f handle s).2.containers (handle.machine.host, handle.containerName) = none := by
  have hdump := dumpRemoteLogs_ok (h s.calls (le_refl _))
  have hrest := (@removeContainer_gone f (handle.machine.host, handle.containerName) s.called
    (h (s.calls + 1) (Nat.le_succ _)) 120).2
  unfold teardownOne
  rw [Proc.bind_run, hdump]
  exact hrest

/-! ## A launch that is deferred -/

/-- Nothing but a pull defers a launch. -/
def Final (e : LaunchError) : Prop := e.deferred = false

omit [PyRuntime F] in
theorem send_final (host : String) (command : Command) (seconds : Nat) (effect : Nat → Fleet → Fleet) :
    (send f host command seconds effect).Raises Final := by
  intro s e s' h
  unfold send at h
  cases hlink : f.link s.calls host command with
  | timedOut =>
      simp only [hlink] at h
      cases h
      rfl
  | connected =>
      simp only [hlink] at h
      cases h
  | refused =>
      simp only [hlink] at h
      cases h

omit [PyRuntime F] in
theorem checkPortFree_final (f : Fates) (host : String) (port : Int) : (checkPortFree f host port).Raises Final := by
  refine (send_final host .listeners 60 _).bind fun reply => ?_
  dsimp only
  split
  · exact Proc.Raises.raise rfl
  · split
    · refine (send_final host .kubeProxy 60 _).bind fun reply => ?_
      split
      · exact Proc.Raises.raise rfl
      · exact Proc.Raises.pure _
    · exact Proc.Raises.pure _

omit [PyRuntime F] in
theorem gpusInUse_final (f : Fates) (host : String) (indices : List Int) : (gpusInUse f host indices).Raises Final := by
  unfold gpusInUse
  split
  · exact Proc.Raises.pure _
  · exact (send_final host .gpuMemory 30 _).bind fun _ => Proc.Raises.pure _

omit [PyRuntime F] in
theorem checkCards_final (f : Fates) (g : GangSpec F) : (checkCards f g).Raises Final := by
  refine ((send_final g.place.1 .inspect 60 _).bind fun _ =>
    Proc.Raises.current.bind fun _ => Proc.Raises.pure _).bind fun there => ?_
  split
  · exact Proc.Raises.pure _
  · refine (gpusInUse_final f _ _).bind fun busy => ?_
    split
    · exact Proc.Raises.raise rfl
    · exact Proc.Raises.pure _

omit [PyRuntime F] in
theorem dumpRemoteLogs_final (f : Fates) (host : String) : (dumpRemoteLogs f host).Raises Final :=
  (send_final host .dumpLogs 120 _).bind fun _ => Proc.Raises.pure _

omit [PyRuntime F] in
theorem removeContainer_final (f : Fates) (place : String × String) (seconds : Nat) :
    (removeContainer f place seconds).Raises Final :=
  (send_final place.1 .remove seconds _).bind fun _ => Proc.Raises.pure _

omit [PyRuntime F] in
theorem runContainer_final (f : Fates) (place : String × String) (argv : List String) :
    (runContainer f place argv).Raises Final := by
  intro s e s' h
  unfold runContainer at h
  dsimp only at h
  cases hlink : f.link s.calls place.1 .run with
  | connected =>
      simp only [hlink] at h
      split at h <;> cases h
      rfl
  | refused =>
      simp only [hlink] at h
      cases h
      rfl
  | timedOut =>
      simp only [hlink] at h
      cases h
      rfl

theorem startContainer_final (f : Fates) (settings : Settings) (g : GangSpec F) :
    (startContainer f settings g).Raises Final := by
  unfold startContainer
  split
  · exact Proc.Raises.raise rfl
  · exact (runContainer_final f _ _).bind fun _ => Proc.Raises.pure _

omit [PyRuntime F] in
theorem pollRendezvous_final (f : Fates) (g : GangSpec F) (looks : Nat) : (pollRendezvous f g looks).Raises Final := by
  induction looks with
  | zero => exact Proc.Raises.raise rfl
  | succ looks ih =>
      refine (send_final g.machine.host .listening 30 _).bind fun reply => ?_
      split
      · exact Proc.Raises.pure _
      · exact ih

omit [PyRuntime F] in
theorem waitRendezvous_final (f : Fates) (g : GangSpec F) : (waitRendezvous f g).Raises Final := by
  unfold waitRendezvous
  split
  · exact Proc.Raises.pure _
  · exact Proc.Raises.current.bind fun _ => pollRendezvous_final f g _

/-- A launch that is deferred waits for its image, and its container is removed by then. -/
theorem launch_deferred {s s' : Fleet} {e : LaunchError} (h : launch f settings g s = (.error e, s'))
    (he : e.deferred = true) (hremoves : ∀ t, RemovesAt f g.machine.host t) : s'.containers g.place = none := by
  have hfinal : ¬ Final e := by simp [Final, he]
  rcases Proc.bind_error.mp h with h | ⟨-, s₁, -, h⟩
  · exact absurd (checkPortFree_final f _ _ _ _ _ h) hfinal
  · rcases Proc.bind_error.mp h with h | ⟨-, s₂, -, h⟩
    · exact absurd (checkCards_final f g _ _ _ h) hfinal
    · rcases Proc.bind_error.mp h with h | ⟨-, s₃, -, h⟩
      · exact absurd (dumpRemoteLogs_final f _ _ _ _ h) hfinal
      · rcases Proc.bind_error.mp h with h | ⟨u, s₄, hremove, h⟩
        · exact absurd (removeContainer_final f _ _ _ _ _ h) hfinal
        · rcases Proc.bind_error.mp h with h | ⟨-, s₅, -, h⟩
          · -- the pull is asked for behind the removal
            have hgone := (@removeContainer_gone f g.place s₃ (hremoves s₃.calls) 60).2
            have hsame := ensureImage_same f settings g.machine.host g.spec.image s₄
            rw [hremove] at hgone
            rw [h] at hsame
            exact (congrFun hsame.1 g.place).trans hgone
          · exact absurd (startContainer_final f settings g _ _ _ h) hfinal

/-! ## The gang as a saga -/

omit [PyRuntime F] in
theorem commandText_injective : Function.Injective commandText := by
  intro argv argv' h
  have hjoin : Shlex.join (argv.map String.toList) = Shlex.join (argv'.map String.toList) := by
    simpa [commandText] using congrArg String.toList h
  have hsplit := Shlex.split_join (argv.map String.toList)
  rw [hjoin, Shlex.split_join] at hsplit
  exact (List.map_injective_iff.mpr (fun _ _ htext => String.toList_injective htext) (Except.ok.inj hsplit)).symm

/-- The machine and the container of a node. -/
def GangSpec.nodePlace {F : Type} (g : GangSpec F) (node : NodeAssignment) : String × String := (g.forNode node).place

theorem gangSaga_acts {node : NodeAssignment} {s s' : Fleet} {k : DeploymentHandle × String}
    (h : (gangSaga f settings g).act node s = (.ok k, s')) :
    ∃ argv, renderDockerCommand settings.dockerGpuMode (g.forNode node).spec = .ok argv ∧
      k = ((g.forNode node).handle node.rank, commandText argv) ∧ s'.containers (g.nodePlace node) = some argv := by
  obtain ⟨made, s₁, hlaunch, hreturn⟩ := Proc.bind_ok.mp h
  obtain ⟨argv, hargv, rfl, hup⟩ := launch_up hlaunch
  cases hreturn
  exact ⟨argv, hargv, rfl, hup⟩

theorem gangSaga_act_only (f : Fates) (settings : Settings) (g : GangSpec F) (node : NodeAssignment) :
    ((gangSaga f settings g).act node).Within (Only (g.nodePlace node)) :=
  only_bind (launch_only f settings (g.forNode node)) fun _ => Proc.Within.pure (Only.refl _) _

theorem gangSaga_confirm_same (f : Fates) (settings : Settings) (g : GangSpec F) (node : NodeAssignment)
    (k : DeploymentHandle × String) : ((gangSaga f settings g).confirm node k).Within Same := by
  unfold gangSaga
  dsimp only
  split
  · exact waitRendezvous_same f _
  · exact Proc.Within.pure Same.refl _

theorem gangSaga_confirm_final (f : Fates) (settings : Settings) (g : GangSpec F) (node : NodeAssignment)
    (k : DeploymentHandle × String) : ((gangSaga f settings g).confirm node k).Raises Final := by
  unfold gangSaga
  dsimp only
  split
  · exact waitRendezvous_final f _
  · exact Proc.Raises.pure _

/-- Each node works at its own container. -/
def gangPlaced (f : Fates) (settings : Settings) (g : GangSpec F) :
    PlacedSaga Fleet LaunchError NodeAssignment (DeploymentHandle × String) (String × String)
      (Option (List String)) where
  toSaga := gangSaga f settings g
  place := g.nodePlace
  placeOf k := (k.1.machine.host, k.1.containerName)
  look s := s.containers
  Made node k := ∃ argv, renderDockerCommand settings.dockerGpuMode (g.forNode node).spec = .ok argv ∧
    k = ((g.forNode node).handle node.rank, commandText argv)
  Up k c := ∃ argv, c = some argv ∧ k.2 = commandText argv
  Gone c := c = none
  Clean p s := ∀ t, s.calls ≤ t → RemovesAt f p.1 t
  acts h := by
    obtain ⟨argv, hargv, rfl, hup⟩ := gangSaga_acts h
    exact ⟨rfl, ⟨argv, hargv, rfl⟩, argv, hup, rfl⟩
  act_others node s p hp := (gangSaga_act_only f settings g node s).1 p hp
  confirm_all node k s p := congrFun (gangSaga_confirm_same f settings g node k s).1 p
  undo_others k s p hp := (teardownOne_only f k.1 s).1 p hp
  undo_gone _ _ h := teardownOne_gone h
  undo_clean k s _ h t ht := h t (le_trans (teardownOne_only f k.1 s).2 ht)

/-! ## The plan -/

/-- A launch as it is rebuilt from the rows of a run: a rank a node, the containers named by run and rank, and the
machine of the launch is the master's. -/
structure GangSpec.FromRows {F : Type} (g : GangSpec F) : Prop where
  ranks : (g.nodes.map NodeAssignment.rank).Nodup
  names : ∀ node ∈ g.nodes, node.containerName = rankContainer g.spec.runId node.rank
  master : ∃ node ∈ g.nodes, node.rank = 0 ∧ g.machine = node.machine
  container : g.spec.nodeContainer = ""

omit [PyRuntime F] in
theorem rankContainer_ne (runId rank : Nat) : rankContainer runId rank ≠ "" := by
  intro h
  have hlist := congrArg String.toList h
  simp [rankContainer] at hlist

omit [PyRuntime F] in
/-- A container's name tells the rank. -/
theorem rankContainer_injective (runId : Nat) : Function.Injective (rankContainer runId) := by
  intro rank rank' h
  have hsuffix : (if rank = 0 then "" else "-r" ++ toString rank).toList =
      (if rank' = 0 then "" else "-r" ++ toString rank').toList := by
    simpa [rankContainer] using congrArg String.toList h
  by_cases hzero : rank = 0 <;> by_cases hzero' : rank' = 0
  · rw [hzero, hzero']
  · simp [hzero, hzero'] at hsuffix
  · simp [hzero, hzero'] at hsuffix
  · refine toString_nat_injective (String.toList_injective ?_)
    simpa [hzero, hzero'] using hsuffix

omit [PyRuntime F] in
theorem forNode_containerName (h : g.FromRows) {node : NodeAssignment} (hnode : node ∈ g.nodes) :
    (g.forNode node).spec.containerName = rankContainer g.spec.runId node.rank := by
  have hname := h.names node hnode
  have hne := rankContainer_ne g.spec.runId node.rank
  simp [GangSpec.forNode, LaunchSpec.containerName, hname, hne]

omit [PyRuntime F] in
theorem ordered_perm (h : g.FromRows) : g.ordered.Perm g.nodes := by
  obtain ⟨node, hnode, -⟩ := h.master
  have hne : g.nodes.isEmpty = false := by
    simpa using List.ne_nil_of_mem hnode
  simp [GangSpec.ordered, GangSpec.byRank, hne, List.mergeSort_perm]

omit [PyRuntime F] in
/-- In the order of their ranks. -/
theorem ordered_ranks (h : g.FromRows) : (g.ordered.map NodeAssignment.rank).Pairwise (· < ·) := by
  have hnodup : (g.ordered.map NodeAssignment.rank).Nodup :=
    ((ordered_perm h).map NodeAssignment.rank).nodup_iff.mpr h.ranks
  have hsorted : (g.ordered.map NodeAssignment.rank).Pairwise (· ≤ ·) := by
    have hle : g.ordered.Pairwise fun a b => decide (a.rank ≤ b.rank) = true :=
      List.pairwise_mergeSort (fun a b c hab hbc => by simp at hab hbc ⊢; omega) (fun a b => by simp; omega) _
    exact List.pairwise_map.mpr (hle.imp fun hab => by simpa using hab)
  exact hsorted.imp₂ (fun a b hab hne => lt_of_le_of_ne hab hne) hnodup

omit [PyRuntime F] in
/-- No two ranks have one container. -/
theorem ordered_places (h : g.FromRows) : (g.ordered.map g.nodePlace).Nodup := by
  refine List.Nodup.of_map Prod.snd ?_
  have hnames : (g.ordered.map g.nodePlace).map Prod.snd =
      (g.ordered.map NodeAssignment.rank).map (rankContainer g.spec.runId) := by
    rw [List.map_map, List.map_map]
    refine List.map_congr_left fun node hnode => ?_
    exact forNode_containerName h ((ordered_perm h).mem_iff.mp hnode)
  rw [hnames]
  exact ((ordered_perm h).map NodeAssignment.rank).nodup_iff.mpr h.ranks |>.map (rankContainer_injective _)

/-! ## What a launch of a gang comes to -/

/-- Each rank's container runs the command that is recorded for it. -/
structure Launched (settings : Settings) (g : GangSpec F) (s : Fleet) (d : Deployment) (commands : List String) :
    Prop where
  handles : d.allHandles = g.ordered.map fun node => (g.forNode node).handle node.rank
  ranks : (d.allHandles.map DeploymentHandle.rank).Pairwise (· < ·)
  running : List.Forall₂ (fun node command => ∃ argv,
    renderDockerCommand settings.dockerGpuMode (g.forNode node).spec = .ok argv ∧ command = commandText argv ∧
      s.containers (g.nodePlace node) = some argv) g.ordered commands

/-- A node's handle, its command, and its container. -/
theorem running_of_made {nodes : List NodeAssignment} {made : List (DeploymentHandle × String)} {s : Fleet}
    (hmade : List.Forall₂ (fun node (k : DeploymentHandle × String) => ∃ argv,
      renderDockerCommand settings.dockerGpuMode (g.forNode node).spec = .ok argv ∧
        k = ((g.forNode node).handle node.rank, commandText argv)) nodes made)
    (hup : ∀ k ∈ made, ∃ argv, s.containers (k.1.machine.host, k.1.containerName) = some argv ∧ k.2 = commandText argv) :
    List.Forall₂ (fun node command => ∃ argv,
      renderDockerCommand settings.dockerGpuMode (g.forNode node).spec = .ok argv ∧ command = commandText argv ∧
        s.containers (g.nodePlace node) = some argv) nodes (made.map Prod.snd) := by
  induction hmade with
  | nil => exact .nil
  | cons hhead _ ih =>
      obtain ⟨argv, hargv, rfl⟩ := hhead
      obtain ⟨argv', hcontainer, htext⟩ := hup _ List.mem_cons_self
      obtain rfl : argv = argv' := commandText_injective htext
      exact .cons ⟨argv, hargv, rfl, hcontainer⟩ (ih fun k hk => hup k (List.mem_cons_of_mem _ hk))

theorem launchNodes_ok (hplan : g.FromRows) {s s' : Fleet} {d : Deployment} {commands : List String}
    (h : launchNodes f settings g s = (.ok (d, commands), s')) :
    Launched settings g s' d commands ∧ ∀ p, p ∉ g.ordered.map g.nodePlace → s'.containers p = s.containers p := by
  obtain ⟨made, s₁, hrun, hreturn⟩ := Proc.bind_ok.mp h
  have hprogress := @PlacedSaga.run_ok _ _ _ _ _ _ (gangPlaced f settings g) _ (ordered_places hplan) _ _ _ hrun
  have hmade : List.Forall₂ (fun node (k : DeploymentHandle × String) => ∃ argv,
      renderDockerCommand settings.dockerGpuMode (g.forNode node).spec = .ok argv ∧
        k = ((g.forNode node).handle node.rank, commandText argv)) g.ordered made :=
    hprogress.step.imp fun _ _ hstep => hstep.2
  have hhandles : made.map Prod.fst = g.ordered.map fun node => (g.forNode node).handle node.rank :=
    map_eq_of_forall₂ hmade fun node k hk => by
      obtain ⟨argv, -, rfl⟩ := hk
      rfl
  have hrunning := running_of_made hmade hprogress.up
  cases made with
  | nil => cases hreturn
  | cons master workers =>
      cases hreturn
      refine ⟨⟨hhandles, ?_, hrunning⟩, hprogress.others⟩
      have hranks : (g.ordered.map fun node => (g.forNode node).handle node.rank).map DeploymentHandle.rank =
          g.ordered.map NodeAssignment.rank := by
        rw [List.map_map]
        rfl
      have hall : (Deployment.mk master.1 (workers.map Prod.fst)).allHandles = (master :: workers).map Prod.fst := rfl
      rw [hall, hhandles, hranks]
      exact ordered_ranks hplan

/-- A launch that raises took down what it started, and touched nothing else. -/
theorem launchNodes_error (hplan : g.FromRows) {s s' : Fleet} {e : LaunchError}
    (h : launchNodes f settings g s = (.error e, s')) :
    (∀ p, p ∉ g.ordered.map g.nodePlace → s'.containers p = s.containers p) ∧
      ∃ before node after, g.ordered = before ++ node :: after ∧
        (∀ other ∈ before, (∀ t, RemovesAt f other.machine.host t) → s'.containers (g.nodePlace other) = none) ∧
        (∀ other ∈ after, s'.containers (g.nodePlace other) = s.containers (g.nodePlace other)) ∧
        (e.deferred = true → (∀ t, RemovesAt f node.machine.host t) → s'.containers (g.nodePlace node) = none) := by
  have hplaces := ordered_places hplan
  have hrun : (gangSaga f settings g).run g.ordered s = (.error e, s') := by
    rcases Proc.bind_error.mp h with hrun | ⟨made, s₁, hrun, hreturn⟩
    · exact hrun
    · -- a plan has a node, so there is a handle
      cases made with
      | nil =>
          have hprogress := @PlacedSaga.run_ok _ _ _ _ _ _ (gangPlaced f settings g) _ hplaces _ _ _ hrun
          obtain ⟨node, hnode, -⟩ := hplan.master
          have hempty : g.ordered = [] := List.forall₂_nil_right_iff.mp hprogress.step
          rw [← (ordered_perm hplan).mem_iff, hempty] at hnode
          cases hnode
      | cons master workers => cases hreturn
  obtain ⟨before, node, after, made, failed, hunwound⟩ :=
    @PlacedSaga.run_error _ _ _ _ _ _ (gangPlaced f settings g) _ hplaces _ _ _ hrun
  have hsplit := hunwound.steps_eq
  have hnotAfter : ∀ other ∈ after, g.nodePlace other ∉ (before ++ [node]).map g.nodePlace := by
    intro other hother hmem
    have happend : before ++ node :: after = (before ++ [node]) ++ after := by simp
    rw [hsplit, happend, List.map_append, List.nodup_append'] at hplaces
    exact hplaces.2.2 hmem (List.mem_map_of_mem hother)
  refine ⟨fun p hp => hunwound.others p fun hmem => hp ?_, before, node, after, hsplit, fun other hother hremoves => ?_,
    fun other hother => hunwound.others _ (hnotAfter other hother), fun hdeferred hremoves => ?_⟩
  · obtain ⟨other, hother, rfl⟩ := List.mem_map.mp hmem
    refine List.mem_map_of_mem ?_
    rw [hsplit]
    rcases List.mem_append.mp hother with hother | hother
    · exact List.mem_append_left _ hother
    · exact List.mem_append_right _ (List.mem_singleton.mp hother ▸ List.mem_cons_self)
  · exact hunwound.gone (ordered_places hplan) hother fun t _ => hremoves t
  · rcases hunwound.at_failed (ordered_places hplan) with ⟨⟨s₀, hact⟩, hkept⟩ | ⟨⟨k, s₀, hconfirm⟩, hgone⟩
    · have hlooked : s'.containers (g.nodePlace node) = failed.containers (g.nodePlace node) := hkept
      rw [hlooked]
      rcases Proc.bind_error.mp hact with hlaunch | ⟨made', s₁, -, hreturn⟩
      · exact launch_deferred hlaunch hdeferred hremoves
      · cases hreturn
    · exact hgone fun t _ => hremoves t

/-! ## Finding the gang again -/

omit [PyRuntime F] in
theorem containerThere_some {place : String × String} {s : Fleet} (hthere : (s.containers place).isSome = true)
    (hlink : f.link s.calls place.1 .inspect = .connected) : containerThere f place s = (.ok true, s.called) := by
  have hkept : (s.called.containers place).isSome = true := hthere
  simp [containerThere, Proc.bind_run, Proc.pure_run, ask, send, hlink, Proc.current, hkept]

omit [PyRuntime F] in
/-- The launch's own container and machine are the master's. -/
theorem handle_master (h : g.FromRows) {node : NodeAssignment} (hnode : node ∈ g.nodes) (hrank : node.rank = 0)
    (hmachine : g.machine = node.machine) : (g.forNode node).handle 0 = g.handle 0 := by
  have hname : (g.forNode node).spec.containerName = g.spec.containerName := by
    rw [forNode_containerName h hnode, hrank]
    simp [rankContainer, LaunchSpec.containerName, h.container]
  have hendpoint : (g.forNode node).endpointUrl = g.endpointUrl := by
    simp [GangSpec.endpointUrl, GangSpec.forNode, hmachine]
  have hmachine' : (g.forNode node).machine = g.machine := hmachine.symm
  simp [GangSpec.handle, hname, hendpoint, hmachine']

omit [PyRuntime F] in
/-- A worker that was restarted finds the gang while its master is there. -/
theorem attachNodes_finds (h : g.FromRows) {d : Deployment}
    (hd : d.allHandles = g.ordered.map fun node => (g.forNode node).handle node.rank) {s : Fleet}
    (hthere : (s.containers (d.master.machine.host, d.master.containerName)).isSome = true)
    (hlink : f.link s.calls d.master.machine.host .inspect = .connected) :
    (attachNodes f g s).1 = .ok (some d) := by
  obtain ⟨node, hnode, hrank, hmachine⟩ := h.master
  have hne : g.nodes.isEmpty = false := by
    simpa using List.ne_nil_of_mem hnode
  have hordered : g.ordered = GangSpec.byRank g.nodes := by simp [GangSpec.ordered, hne]
  obtain ⟨master, workers⟩ := d
  by_cases hgang : 1 < g.nodes.length
  · have hhandles : ((GangSpec.byRank g.nodes).map fun node => (g.forNode node).handle node.rank) =
        master :: workers := by
      rw [← hordered]
      exact hd.symm
    have hfound := containerThere_some hthere hlink
    simp [attachNodes, hgang, hhandles, Proc.bind_run, hfound, Proc.pure_run]
  · -- a single node: its handle is the launch's own
    obtain ⟨only, hnodes⟩ : ∃ only, g.nodes = [only] := by
      cases hcases : g.nodes with
      | nil => simp [hcases] at hne
      | cons only rest =>
          cases rest with
          | nil => exact ⟨only, rfl⟩
          | cons other rest => simp [hcases] at hgang
    obtain rfl : node = only := by simpa [hnodes] using hnode
    have hsingle : master :: workers = [g.handle 0] := by
      have hlist : g.ordered = [node] := by simp [hordered, hnodes, GangSpec.byRank]
      have hhandle : (g.forNode node).handle node.rank = g.handle 0 := by
        rw [hrank]
        exact handle_master h hnode hrank hmachine
      rw [hlist, List.map_singleton, hhandle] at hd
      exact hd
    obtain ⟨rfl, rfl⟩ := List.cons.inj hsingle
    have hfound := @containerThere_some f g.place s hthere hlink
    simp [attachNodes, hgang, Proc.bind_run, hfound, Proc.pure_run]

/-! ## A run that waits -/

/-- What is known of a pending run's gang after any number of ticks. -/
structure GangTold (f : Fates) (settings : Settings) (g : GangSpec F) (start : Fleet) (w : GangRun) : Prop where
  others : ∀ p, p ∉ g.ordered.map g.nodePlace → w.fleet.containers p = start.containers p
  pending : w.run = .pending → ∀ node ∈ g.ordered, (∀ t, RemovesAt f node.machine.host t) →
    w.fleet.containers (g.nodePlace node) = none
  launching : ∀ d commands, w.run = .launching d commands → Launched settings g w.fleet d commands
  attached : ∀ d commands, w.run = .launching d commands → ∀ later : Fleet,
    (later.containers (d.master.machine.host, d.master.containerName)).isSome = true →
      f.link later.calls d.master.machine.host .inspect = .connected → (attachNodes f g later).1 = .ok (some d)
  failed : ∀ e, w.run = .failed e → ∃ node ∈ g.ordered, ∀ other ∈ g.ordered, other ≠ node →
    (∀ t, RemovesAt f other.machine.host t) → w.fleet.containers (g.nodePlace other) = none

theorem advancePending_told (hplan : g.FromRows) {start : Fleet} {w : GangRun} (h : GangTold f settings g start w) :
    GangTold f settings g start (advancePending f settings g w) := by
  obtain ⟨run, s⟩ := w
  cases run with
  | launching d commands => exact h
  | failed e => exact h
  | pending =>
      have hclear := h.pending rfl
      rcases hrun : launchNodes f settings g s with ⟨e | ⟨d, commands⟩, s'⟩
      · obtain ⟨hothers, before, node, after, hsplit, hbefore, hafter, hnode⟩ := launchNodes_error hplan hrun
        have hadvance : advancePending f settings g ⟨.pending, s⟩ = ⟨if e.deferred then .pending else .failed e, s'⟩ := by
          simp [advancePending, hrun]
        have hgone : ∀ other ∈ before ++ after, (∀ t, RemovesAt f other.machine.host t) →
            s'.containers (g.nodePlace other) = none := by
          intro other hother hremoves
          rcases List.mem_append.mp hother with hother | hother
          · exact hbefore other hother hremoves
          · rw [hafter other hother]
            exact hclear other (by rw [hsplit]; simp [hother]) hremoves
        have hnotLaunching : ∀ d commands, (if e.deferred then RunState.pending else .failed e) ≠
            .launching d commands := by
          intro d commands
          split <;> exact RunState.noConfusion
        rw [hadvance]
        refine ⟨fun p hp => (hothers p hp).trans (h.others p hp), fun hpending other hother hremoves => ?_,
          fun d commands hlaunching => ?_, fun d commands hlaunching => ?_, fun e' hfailed => ?_⟩
        · have hdeferred : e.deferred = true := by
            by_contra hfinal
            simp [hfinal] at hpending
          rw [hsplit, List.mem_append, List.mem_cons] at hother
          rcases hother with hother | rfl | hother
          · exact hgone other (List.mem_append_left _ hother) hremoves
          · exact hnode hdeferred hremoves
          · exact hgone other (List.mem_append_right _ hother) hremoves
        · exact absurd hlaunching (hnotLaunching d commands)
        · exact absurd hlaunching (hnotLaunching d commands)
        · refine ⟨node, by rw [hsplit]; simp, fun other hother hne hremoves => ?_⟩
          rw [hsplit, List.mem_append, List.mem_cons] at hother
          rcases hother with hother | rfl | hother
          · exact hgone other (List.mem_append_left _ hother) hremoves
          · exact absurd rfl hne
          · exact hgone other (List.mem_append_right _ hother) hremoves
      · obtain ⟨hlaunched, hothers⟩ := launchNodes_ok hplan hrun
        have hadvance : advancePending f settings g ⟨.pending, s⟩ = ⟨.launching d commands, s'⟩ := by
          simp [advancePending, hrun]
        rw [hadvance]
        refine ⟨fun p hp => (hothers p hp).trans (h.others p hp), fun hpending => ?_, fun d' commands' hlaunching => ?_,
          fun d' commands' hlaunching later hthere hlink => ?_, fun e hfailed => ?_⟩
        · cases hpending
        · cases hlaunching
          exact hlaunched
        · cases hlaunching
          exact attachNodes_finds hplan hlaunched.handles hthere hlink
        · cases hfailed

/-- After any number of ticks a run of a gang waits with none of its containers there, was launched with all of them
there, or failed with at most one left: on every machine where a removal works, and whatever else fails. -/
theorem gang_whole_or_not_at_all (f : Fates) (settings : Settings) (g : GangSpec F) (hplan : g.FromRows) (start : Fleet)
    (hclear : ∀ node ∈ g.ordered, start.containers (g.nodePlace node) = none) (n : Nat) :
    GangTold f settings g start (ticks f settings g start n) := by
  induction n with
  | zero => exact ⟨fun _ _ => rfl, fun _ node hnode _ => hclear node hnode, nofun, nofun, nofun⟩
  | succ n ih => exact advancePending_told hplan ih

/-- A gang of two machines. -/
def pairGang : GangSpec Empty where
  spec :=
    { runId := 7, gpuCount := 8, engine := "sglang", image := "lmsysorg/sglang:v1", modelPath := "/models/m",
      servedModelName := "m", nnodes := 2, distInitAddr := "10.0.0.1:5000" }
  machine := { name := "m1", host := "10.0.0.1" }
  nodes :=
    [{ machine := { name := "m2", host := "10.0.0.2" }, rank := 1, containerName := "autotune-run-7-r1" },
      { machine := { name := "m1", host := "10.0.0.1" }, rank := 0, containerName := "autotune-run-7" }]
  distPort := 5000

/-- The worker's machine pulls the image in the first tick. -/
def pairFates : Fates where
  link _ _ _ := .connected
  late _ := false
  listener _ := ""
  kubeProxy _ := false
  gpuMemory _ := []
  image t := if t = 11 then .started else .present
  keeps _ := false
  runs _ := true
  stderr _ := ""
  listening _ := true
  looks _ := 1

theorem pairGang_fromRows : pairGang.FromRows where
  ranks := by decide
  names := by decide
  master := ⟨{ machine := { name := "m1", host := "10.0.0.1" }, rank := 0, containerName := "autotune-run-7" },
    by decide, rfl, rfl⟩
  container := rfl

/-- Two ticks of it. -/
theorem pairGang_told :
    GangTold pairFates ⟨"all", 30⟩ pairGang ⟨fun _ => none, 0⟩ (ticks pairFates ⟨"all", 30⟩ pairGang ⟨fun _ => none, 0⟩ 2) :=
  gang_whole_or_not_at_all pairFates ⟨"all", 30⟩ pairGang pairGang_fromRows ⟨fun _ => none, 0⟩ (fun _ _ => rfl) 2

end AutoTune.SshDocker
