import AutoTune.Operator.TuningRun
import Mathlib.Data.List.Induction

/-!
# What a TuningRun's status says

A Ready status is what one Reconcile saw: the newest pod, its node, and the address of that node where it was
known. An Expired run has nothing left that the operator created, and is not touched again. A Reconcile that
sees what the one before it left writes nothing.
-/

namespace AutoTune

namespace TuningRun

/-- The Service a Reconcile goes on with. -/
def liveService (a : Answers) : Except ApiError Service := (ensureService a {}).2

/-- The endpoint of a ready pod: the address of its node, nothing while that is not known, or the name of the
Service inside the cluster. -/
def Addressed (a : Answers) (run : RunObject) (svc : Service) (pod : Pod) (st : Status) : Prop :=
  if serviceType run = "NodePort" then
    (∃ node, a.getNode pod.nodeName = .ok node ∧ internalIP node ≠ "" ∧ serviceNodePort svc ≠ 0 ∧
      st.endpoint = "http://" ++ internalIP node ++ ":" ++ toString (serviceNodePort svc)) ∨
    (st.endpoint = "" ∧ (serviceNodePort svc = 0 ∨ pod.nodeName = "" ∨ a.getNode pod.nodeName = .error .notFound ∨
      ∃ node, a.getNode pod.nodeName = .ok node ∧ internalIP node = ""))
  else st.endpoint = "http://" ++ svc.name ++ "." ++ svc.nspace ++ ".svc:" ++ toString run.port

/-- A Ready status is what one Reconcile saw of the cluster. -/
def SeenReady (a : Answers) (st : Status) : Prop :=
  ∃ run pods pod svc, a.getRun = .ok run ∧ a.listPods = .ok pods ∧ liveService a = .ok svc ∧
    pod ∈ pods ∧ (∀ p ∈ pods, p.creationTimestamp ≤ pod.creationTimestamp) ∧ phaseFromPod pod = (.ready, "", "") ∧
    st.podName = pod.name ∧ st.nodeName = pod.nodeName ∧ Addressed a run svc pod st

/-- A Reconcile sees the run and the cluster as the one before it left them, and the TTL did not pass between. -/
structure SeesTheSame (a b : Answers) : Prop where
  run : b.getRun = a.getRun
  ttl : ∀ run, a.getRun = .ok run → ttlExceeded run b.now = true → ttlExceeded run a.now = true
  deployment : b.getDeployment = .ok ()
  service : ∀ svc, liveService a = .ok svc → b.getService = .ok svc
  pods : b.listPods = a.listPods
  nodes : b.getNode = a.getNode

/-- What the status of a run tells after any sequence of Reconciles. -/
structure StatusTold (sorter : SortSlice) (history : List Answers) (s : System) : Prop where
  ready : s.status.phase = .ready → ∃ a ∈ history, SeenReady a s.status
  expired : s.status.phase = .expired → s.deployment = false ∧ s.service = false ∧
    ∀ later, (reconcile sorter s later).writes = [] ∧ step sorter s later = s
  quiet : ∀ a b, (reconcile sorter s a).error = none → SeesTheSame a b →
    (reconcile sorter (step sorter s a) b).writes = [] ∧ step sorter (step sorter s a) b = step sorter s a

section Reconciles

variable {sorter : SortSlice} {s : System} {a b : Answers} {run : RunObject} {st desired : Status} {svc : Service}
  {pod : Pod}

/-! ## What one pass can do -/

theorem newest_of_currentPod (h : currentPod sorter a = .ok (some pod)) :
    ∃ pods, a.listPods = .ok pods ∧ pod ∈ pods ∧ ∀ p ∈ pods, p.creationTimestamp ≤ pod.creationTimestamp := by
  unfold currentPod at h
  cases hlist : a.listPods with
  | error e =>
      rw [hlist] at h
      cases h
  | ok pods =>
      rw [hlist] at h
      have hhead : (sorter.sort pods).head? = some pod := Except.ok.inj h
      rcases List.head?_eq_some_iff.mp hhead with ⟨rest, hsorted⟩
      have hmem : ∀ p, p ∈ sorter.sort pods ↔ p ∈ pods := fun p => (sorter.perm pods).mem_iff
      have horder := sorter.newestFirst pods
      rw [hsorted] at horder
      refine ⟨pods, rfl, (hmem pod).mp (by rw [hsorted]; exact List.mem_cons_self), fun p hp => ?_⟩
      have hin : p ∈ pod :: rest := hsorted ▸ (hmem p).mpr hp
      rcases List.mem_cons.mp hin with rfl | hin
      · exact le_refl _
      · exact (List.pairwise_cons.mp horder).1 p hin

theorem phaseFromPod_ne_expired (pod : Pod) : (phaseFromPod pod).1 ≠ .expired := by
  unfold phaseFromPod
  split
  · exact Phase.noConfusion
  · split
    · exact Phase.noConfusion
    · split
      · exact Phase.noConfusion
      · split <;> exact Phase.noConfusion

theorem phaseFromPod_ready (h : (phaseFromPod pod).1 = .ready) : phaseFromPod pod = (.ready, "", "") := by
  unfold phaseFromPod at h ⊢
  split at h
  · cases h
  · rename_i hnone
    split at h
    · cases h
    · rename_i hfailed
      split at h
      · rename_i hready
        simp [hfailed, hready]
      · split at h <;> cases h

theorem resolveEndpoint_addressed {endpoint : String} {nodePort : Int}
    (h : resolveEndpoint a run svc pod = .ok (endpoint, nodePort)) (hst : st.endpoint = endpoint) :
    Addressed a run svc pod st := by
  unfold resolveEndpoint at h
  unfold Addressed
  rw [hst]
  by_cases htype : serviceType run = "NodePort"
  · rw [if_pos htype] at h ⊢
    -- a NodePort needs the node's address and the port of the service
    unfold nodeInternalIP at h
    by_cases hname : pod.nodeName = ""
    · rw [if_pos hname] at h
      simp only [true_or, if_true] at h
      cases h
      exact Or.inr ⟨rfl, Or.inr (Or.inl hname)⟩
    · rw [if_neg hname] at h
      cases hnode : a.getNode pod.nodeName with
      | ok node =>
          rw [hnode] at h
          by_cases hunknown : internalIP node = "" ∨ serviceNodePort svc = 0
          · simp only [if_pos hunknown] at h
            cases h
            refine Or.inr ⟨rfl, ?_⟩
            rcases hunknown with hip | hport
            · exact Or.inr (Or.inr (Or.inr ⟨node, rfl, hip⟩))
            · exact Or.inl hport
          · simp only [if_neg hunknown] at h
            cases h
            rw [not_or] at hunknown
            exact Or.inl ⟨node, rfl, hunknown.1, hunknown.2, rfl⟩
      | error e =>
          rw [hnode] at h
          cases e with
          -- a node that is gone has no address yet; other errors end the reading
          | notFound =>
              simp only [true_or, if_true] at h
              cases h
              exact Or.inr ⟨rfl, Or.inr (Or.inr (Or.inl rfl))⟩
          | alreadyExists => cases h
          | other => cases h
  · rw [if_neg htype] at h ⊢
    cases h
    rfl

/-- All that `observe` can make of a stored status. -/
theorem observe_cases (h : observe sorter a run st svc = .ok desired) :
    (desired.phase = .pending ∧ currentPod sorter a = .ok none) ∨
      ∃ pod, currentPod sorter a = .ok (some pod) ∧ desired.phase = (phaseFromPod pod).1 ∧
        desired.podName = pod.name ∧ desired.nodeName = pod.nodeName ∧
        (desired.phase = .ready → ∃ nodePort, resolveEndpoint a run svc pod = .ok (desired.endpoint, nodePort)) := by
  unfold observe at h
  cases hpod : currentPod sorter a with
  | error e =>
      rw [hpod] at h
      cases h
  | ok found =>
      rw [hpod] at h
      cases found with
      | none =>
          cases h
          exact Or.inl ⟨rfl, rfl⟩
      | some pod =>
          refine Or.inr ⟨pod, rfl, ?_⟩
          dsimp only at h
          by_cases hready : (phaseFromPod pod).1 = .ready
          · rw [if_pos hready] at h
            cases hresolved : resolveEndpoint a run svc pod with
            | error e =>
                rw [hresolved] at h
                cases h
            | ok resolved =>
                rw [hresolved] at h
                cases h
                exact ⟨rfl, rfl, rfl, fun _ => ⟨resolved.2, rfl⟩⟩
          · rw [if_neg hready] at h
            cases h
            exact ⟨rfl, rfl, rfl, fun hphase => absurd hphase hready⟩

theorem observe_ne_expired (h : observe sorter a run st svc = .ok desired) : desired.phase ≠ .expired := by
  rcases observe_cases h with ⟨hpending, -⟩ | ⟨pod, -, hphase, -⟩
  · rw [hpending]
    exact Phase.noConfusion
  · rw [hphase]
    exact phaseFromPod_ne_expired pod

/-- A Ready status is of the newest pod and its node. -/
theorem seen_of_observe (hrun : a.getRun = .ok run) (hsvc : liveService a = .ok svc)
    (h : observe sorter a run st svc = .ok desired) (hready : desired.phase = .ready) : SeenReady a desired := by
  rcases observe_cases h with ⟨hpending, -⟩ | ⟨pod, hpod, hphase, hname, hnode, hendpoint⟩
  · rw [hpending] at hready
    cases hready
  · rcases newest_of_currentPod hpod with ⟨pods, hlist, hmem, hnewest⟩
    rcases hendpoint hready with ⟨nodePort, hresolved⟩
    exact ⟨run, pods, pod, svc, hrun, hlist, hsvc, hmem, hnewest, phaseFromPod_ready (hphase.symm.trans hready),
      hname, hnode, resolveEndpoint_addressed hresolved rfl⟩

/-! ## What is compared -/

/-- The fields `statusEqual` compares. -/
def compared (st : Status) : Phase × String × Int × String × String × String × String × Int :=
  (st.phase, st.endpoint, st.nodePort, st.podName, st.nodeName, st.reason, st.message, st.observedGeneration)

theorem statusEqual_iff {st st' : Status} : statusEqual st st' = true ↔ compared st = compared st' := by
  simp [statusEqual, compared, and_assoc]

/-- Seen a second time, a status is found as it is. -/
theorem observe_again (h : observe sorter a run st svc = .ok desired) {stored : Status}
    (hstored : compared stored = compared desired) (hpods : b.listPods = a.listPods) (hnodes : b.getNode = a.getNode) :
    ∃ desired', observe sorter b run stored svc = .ok desired' ∧ compared desired' = compared stored := by
  -- the pods and the nodes are the same, so the pod and its endpoint are
  have hpod : currentPod sorter b = currentPod sorter a := by
    unfold currentPod
    rw [hpods]
  have hresolve : ∀ pod, resolveEndpoint b run svc pod = resolveEndpoint a run svc pod := fun pod => by
    unfold resolveEndpoint nodeInternalIP
    rw [hnodes]
  have hfields : stored.phase = desired.phase ∧ stored.endpoint = desired.endpoint ∧
      stored.nodePort = desired.nodePort ∧ stored.podName = desired.podName ∧ stored.nodeName = desired.nodeName ∧
      stored.reason = desired.reason ∧ stored.message = desired.message ∧
      stored.observedGeneration = desired.observedGeneration := by
    simpa [compared] using hstored
  obtain ⟨hphase, hendpoint, hport, hname, hnode, hreason, hmessage, hgeneration⟩ := hfields
  -- what is compared of the stored status is what was written, in each phase the pod can be in
  unfold observe at h ⊢
  rw [hpod]
  cases hcurrent : currentPod sorter a with
  | error e =>
      rw [hcurrent] at h
      cases h
  | ok found =>
      rw [hcurrent] at h
      cases found with
      | none =>
          cases h
          refine ⟨_, rfl, ?_⟩
          simp only [compared, setReadyCondition, hphase, hname, hnode, hreason, hmessage, hgeneration]
      | some pod =>
          dsimp only at h ⊢
          rw [hresolve]
          by_cases hready : (phaseFromPod pod).1 = .ready
          · rw [if_pos hready] at h ⊢
            cases hresolved : resolveEndpoint a run svc pod with
            | error e =>
                rw [hresolved] at h
                cases h
            | ok resolved =>
                rw [hresolved] at h
                cases h
                refine ⟨_, rfl, ?_⟩
                simp only [compared, setReadyCondition, hphase, hendpoint, hport, hname, hnode, hreason, hmessage,
                  hgeneration]
          · rw [if_neg hready] at h ⊢
            cases h
            refine ⟨_, rfl, ?_⟩
            simp only [compared, setReadyCondition, hphase, hname, hnode, hreason, hmessage, hgeneration]

/-! ## The parts of a Reconcile -/

theorem ensureDeployment_status (a : Answers) (s : System) : (ensureDeployment a s).system.status = s.status := by
  unfold ensureDeployment
  split <;> rfl

theorem ensureDeployment_there (h : a.getDeployment = .ok ()) (s : System) : ensureDeployment a s = ⟨[], s, none⟩ := by
  unfold ensureDeployment
  rw [h]

theorem ensureService_live (a : Answers) (s : System) : (ensureService a s).2 = liveService a := by
  unfold liveService ensureService
  split
  · rfl
  · split
    · rfl
    · split <;> rfl
    · rfl
  · rfl

theorem ensureService_status (a : Answers) (s : System) : (ensureService a s).1.system.status = s.status := by
  unfold ensureService
  split
  · rfl
  · split
    · rfl
    · split <;> rfl
    · rfl
  · rfl

theorem ensureService_there (h : a.getService = .ok svc) (s : System) :
    ensureService a s = (⟨[], s, none⟩, .ok svc) := by
  unfold ensureService
  rw [h]

theorem teardown_status (a : Answers) (s : System) : (teardown a s).system.status = s.status := by
  unfold teardown
  cases ignoring .notFound a.deleteDeployment with
  | some e => rfl
  | none => cases ignoring .notFound a.deleteService <;> rfl

/-- A teardown that succeeds leaves nothing the operator created. -/
theorem teardown_done (h : (teardown a s).error = none) : (teardown a s).system = ⟨s.status, false, false⟩ := by
  unfold teardown at h ⊢
  cases hdeployment : ignoring .notFound a.deleteDeployment with
  | some e =>
      rw [hdeployment] at h
      cases h
  | none =>
      rw [hdeployment] at h
      cases hservice : ignoring .notFound a.deleteService with
      | some e =>
          rw [hservice] at h
          cases h
      | none => rfl

/-- A status write stores the desired status or leaves the stored one. -/
theorem applyStatus_cases (a : Answers) (s : System) (desired : Status) :
    ((applyStatus a s desired).system = s ∨ (applyStatus a s desired).system = { s with status := desired }) ∧
      ((applyStatus a s desired).error = none →
        compared (applyStatus a s desired).system.status = compared desired) := by
  unfold applyStatus
  split
  · rename_i hequal
    exact ⟨Or.inl rfl, fun _ => statusEqual_iff.mp hequal⟩
  · split
    · exact ⟨Or.inr rfl, fun _ => rfl⟩
    · exact ⟨Or.inl rfl, fun h => by cases h⟩
    · exact ⟨Or.inr rfl, fun _ => rfl⟩

theorem applyStatus_equal (a : Answers) (h : compared s.status = compared desired) :
    applyStatus a s desired = ⟨[], s, none⟩ := by
  unfold applyStatus
  rw [if_pos (statusEqual_iff.mpr h)]

theorem andThen_error {d : Done} {next : System → Done} (h : (d.andThen next).error = none) :
    d.error = none ∧ (next d.system).error = none := by
  unfold Done.andThen at h
  cases hd : d.error with
  | some e =>
      rw [hd] at h
      cases h
  | none =>
      rw [hd] at h
      exact ⟨rfl, h⟩

theorem andThen_ok {d : Done} {next : System → Done} (h : d.error = none) :
    (d.andThen next).system = (next d.system).system := by
  unfold Done.andThen
  rw [h]

theorem andThen_system (d : Done) (next : System → Done) :
    (d.andThen next).system = d.system ∨ (d.error = none ∧ (d.andThen next).system = (next d.system).system) := by
  unfold Done.andThen
  cases hd : d.error with
  | some e => exact Or.inl rfl
  | none => exact Or.inr ⟨rfl, rfl⟩

theorem report_cases (sorter : SortSlice) (a : Answers) (run : RunObject) (s : System) :
    (report sorter a run (liveService a) s).system.status = s.status ∨
      ∃ svc desired, liveService a = .ok svc ∧ observe sorter a run s.status svc = .ok desired ∧
        (report sorter a run (liveService a) s).system.status = desired := by
  unfold report
  cases hsvc : liveService a with
  | error e => exact Or.inl rfl
  | ok svc =>
      dsimp only
      cases hobserve : observe sorter a run s.status svc with
      | error e => exact Or.inl rfl
      | ok desired =>
          dsimp only
          rcases (applyStatus_cases a s desired).1 with hkept | hset
          · rw [hkept]
            exact Or.inl rfl
          · rw [hset]
            exact Or.inr ⟨svc, desired, rfl, hobserve, rfl⟩

theorem report_ok {live : Except ApiError Service} (h : (report sorter a run live s).error = none) :
    ∃ svc desired, live = .ok svc ∧ observe sorter a run s.status svc = .ok desired ∧
      compared (report sorter a run live s).system.status = compared desired := by
  unfold report at h ⊢
  cases live with
  | error e => cases h
  | ok svc =>
      dsimp only at h ⊢
      cases hobserve : observe sorter a run s.status svc with
      | error e =>
          rw [hobserve] at h
          cases h
      | ok desired =>
          rw [hobserve] at h
          exact ⟨svc, desired, rfl, hobserve, (applyStatus_cases a s desired).2 h⟩

/-! ## A Reconcile -/

/-- An expired run is not touched. -/
theorem reconcile_expired (sorter : SortSlice) (h : s.status.phase = .expired) (a : Answers) :
    (reconcile sorter s a).writes = [] ∧ (reconcile sorter s a).system = s := by
  unfold reconcile
  cases a.getRun with
  | error e => cases e <;> exact ⟨rfl, rfl⟩
  | ok run =>
      dsimp only
      unfold reconcileRun
      rw [if_pos (Or.inr h)]
      exact ⟨rfl, rfl⟩

/-- All that a Reconcile can do to the stored status of a run that is not expired. -/
theorem reconcile_cases (sorter : SortSlice) (s : System) (a : Answers) :
    (reconcile sorter s a).system.status = s.status ∨
      (∃ run, (reconcile sorter s a).system = ⟨expiredStatus run s.status, false, false⟩) ∨
        ∃ run svc desired, a.getRun = .ok run ∧ liveService a = .ok svc ∧
          observe sorter a run s.status svc = .ok desired ∧ (reconcile sorter s a).system.status = desired := by
  unfold reconcile
  cases hrun : a.getRun with
  | error e => cases e <;> exact Or.inl rfl
  | ok run =>
      dsimp only
      unfold reconcileRun
      by_cases hdone : run.deletionTimestamp.isSome ∨ s.status.phase = .expired
      · rw [if_pos hdone]
        exact Or.inl rfl
      · rw [if_neg hdone]
        -- an expired run is torn down before its status is written
        by_cases httl : ttlExceeded run a.now = true
        · rw [if_pos httl]
          rcases andThen_system (teardown a s) fun s => applyStatus a s (expiredStatus run s.status) with
            hstop | ⟨herror, hnext⟩
          · rw [hstop]
            exact Or.inl (teardown_status a s)
          · rw [hnext, teardown_done herror]
            rcases (applyStatus_cases a ⟨s.status, false, false⟩ (expiredStatus run s.status)).1 with hkept | hset
            · rw [hkept]
              exact Or.inl rfl
            · rw [hset]
              exact Or.inr (Or.inl ⟨run, rfl⟩)
        · rw [if_neg httl]
          rcases andThen_system (ensureDeployment a s) fun s =>
            (ensureService a s).1.andThen (report sorter a run (ensureService a s).2) with hstop | ⟨-, hnext⟩
          · rw [hstop]
            exact Or.inl (ensureDeployment_status a s)
          -- neither the deployment nor the service touches the status
          · have hstatus : (ensureService a (ensureDeployment a s).system).1.system.status = s.status :=
              (ensureService_status a _).trans (ensureDeployment_status a s)
            rw [hnext, ensureService_live]
            rcases andThen_system (ensureService a (ensureDeployment a s).system).1
              (report sorter a run (liveService a)) with hstop | ⟨-, hreport⟩
            · rw [hstop]
              exact Or.inl hstatus
            · rw [hreport]
              rcases report_cases sorter a run (ensureService a (ensureDeployment a s).system).1.system with
                hkept | ⟨svc, desired, hsvc, hobserve, hset⟩
              · exact Or.inl (hkept.trans hstatus)
              · rw [hstatus] at hobserve
                exact Or.inr (Or.inr ⟨run, svc, desired, rfl, hsvc, hobserve, hset⟩)

/-- A Reconcile that succeeds on a run that is neither expired nor over its TTL stores what it saw, but for what is
not compared. -/
theorem reconcile_reported (hrun : a.getRun = .ok run)
    (hlive : ¬(run.deletionTimestamp.isSome ∨ s.status.phase = .expired)) (httl : ¬ ttlExceeded run a.now = true)
    (h : (reconcile sorter s a).error = none) :
    ∃ svc desired, liveService a = .ok svc ∧ observe sorter a run s.status svc = .ok desired ∧
      compared (reconcile sorter s a).system.status = compared desired := by
  have hreconcile : reconcile sorter s a = (ensureDeployment a s).andThen fun s =>
      (ensureService a s).1.andThen (report sorter a run (ensureService a s).2) := by
    unfold reconcile
    rw [hrun]
    dsimp only
    unfold reconcileRun
    rw [if_neg hlive, if_neg httl]
  rw [hreconcile] at h ⊢
  have hfirst := andThen_error h
  have hsecond := andThen_error hfirst.2
  have hstatus : (ensureService a (ensureDeployment a s).system).1.system.status = s.status :=
    (ensureService_status a _).trans (ensureDeployment_status a s)
  rw [andThen_ok hfirst.1, andThen_ok hsecond.1]
  rcases report_ok hsecond.2 with ⟨svc, desired, hsvc, hobserve, hcompared⟩
  rw [ensureService_live] at hsvc
  rw [hstatus] at hobserve
  exact ⟨svc, desired, hsvc, hobserve, hcompared⟩

/-- A Reconcile that succeeds on a run over its TTL leaves it expired. -/
theorem reconcile_torn_down (hrun : a.getRun = .ok run)
    (hlive : ¬(run.deletionTimestamp.isSome ∨ s.status.phase = .expired)) (httl : ttlExceeded run a.now = true)
    (h : (reconcile sorter s a).error = none) : (reconcile sorter s a).system.status.phase = .expired := by
  have hreconcile : reconcile sorter s a =
      (teardown a s).andThen fun s => applyStatus a s (expiredStatus run s.status) := by
    unfold reconcile
    rw [hrun]
    dsimp only
    unfold reconcileRun
    rw [if_neg hlive, if_pos httl]
  rw [hreconcile] at h ⊢
  have hparts := andThen_error h
  rw [andThen_ok hparts.1]
  have hcompared :=
    (applyStatus_cases a (teardown a s).system (expiredStatus run (teardown a s).system.status)).2 hparts.2
  exact congrArg Prod.fst hcompared

/-- A Reconcile that sees what the one before it left writes nothing. -/
theorem reconcile_quiet (h : (reconcile sorter s a).error = none) (hsame : SeesTheSame a b) :
    (reconcile sorter (step sorter s a) b).writes = [] ∧
      (reconcile sorter (step sorter s a) b).system = step sorter s a := by
  cases hrun : a.getRun with
  | error e =>
      have hb : b.getRun = .error e := hsame.run.trans hrun
      unfold reconcile
      rw [hb]
      cases e <;> exact ⟨rfl, rfl⟩
  | ok run =>
      have hb : b.getRun = .ok run := hsame.run.trans hrun
      by_cases hdone : run.deletionTimestamp.isSome ∨ (step sorter s a).status.phase = .expired
      · unfold reconcile
        rw [hb]
        dsimp only
        unfold reconcileRun
        rw [if_pos hdone]
        exact ⟨rfl, rfl⟩
      -- the run was not expired before either, so this Reconcile did report
      · have hexpired : s.status.phase ≠ .expired := by
          intro hphase
          refine hdone (Or.inr ?_)
          unfold step
          rw [(reconcile_expired sorter hphase a).2]
          exact hphase
        have hlive : ¬(run.deletionTimestamp.isSome ∨ s.status.phase = .expired) := fun hor =>
          hor.elim (fun hdeleting => hdone (Or.inl hdeleting)) hexpired
        have httl : ¬ ttlExceeded run a.now = true := by
          intro hexceeded
          have hphase := reconcile_torn_down hrun hlive hexceeded h
          exact hdone (Or.inr hphase)
        -- the first pass stored what it observed, and the second observes the same
        rcases reconcile_reported hrun hlive httl h with ⟨svc, desired, hsvc, hobserve, hcompared⟩
        rcases observe_again hobserve hcompared hsame.pods hsame.nodes with ⟨desired', hagain, hequal⟩
        have httl' : ¬ ttlExceeded run b.now = true := fun hexceeded => httl (hsame.ttl run hrun hexceeded)
        have hreport : report sorter b run (.ok svc) (step sorter s a) = ⟨[], step sorter s a, none⟩ := by
          unfold report
          dsimp only
          unfold step
          rw [hagain]
          exact applyStatus_equal b hequal.symm
        -- deployment and service are there by now, and the status is equal to the stored one
        have hsecond : reconcile sorter (step sorter s a) b = ⟨[], step sorter s a, none⟩ := by
          unfold reconcile
          rw [hb]
          dsimp only
          unfold reconcileRun
          rw [if_neg hdone, if_neg httl', ensureDeployment_there hsame.deployment]
          unfold Done.andThen
          dsimp only
          rw [ensureService_there (hsame.service svc hsvc), hreport]
          rfl
        rw [hsecond]
        exact ⟨rfl, rfl⟩

/-! ## Any sequence of Reconciles -/

/-- What holds of the stored status. -/
structure Truthful (history : List Answers) (s : System) : Prop where
  ready : s.status.phase = .ready → ∃ a ∈ history, SeenReady a s.status
  expired : s.status.phase = .expired → s.deployment = false ∧ s.service = false

/-- A Reconcile keeps the status truthful. -/
theorem step_truthful {history : List Answers} (h : Truthful history s) (a : Answers) :
    Truthful (history ++ [a]) (step sorter s a) := by
  have hkept : (step sorter s a).status = s.status → (step sorter s a).status.phase = .ready →
      ∃ b ∈ history ++ [a], SeenReady b (step sorter s a).status := by
    intro hstatus hready
    rw [hstatus] at hready ⊢
    rcases h.ready hready with ⟨b, hb, hseen⟩
    exact ⟨b, List.mem_append_left _ hb, hseen⟩
  by_cases hexpired : s.status.phase = .expired
  · have hsame : step sorter s a = s := (reconcile_expired sorter hexpired a).2
    exact ⟨hkept (congrArg System.status hsame), by rw [hsame]; exact h.expired⟩
  · rcases reconcile_cases sorter s a with hstatus | ⟨run, hsystem⟩ | ⟨run, svc, desired, hrun, hsvc, hobserve, hset⟩
    · exact ⟨hkept hstatus, fun hphase => absurd ((congrArg Status.phase hstatus).symm.trans hphase) hexpired⟩
    · have hstep : step sorter s a = ⟨expiredStatus run s.status, false, false⟩ := hsystem
      rw [hstep]
      exact ⟨fun hready => (by cases hready), fun _ => ⟨rfl, rfl⟩⟩
    · have hstatus : (step sorter s a).status = desired := hset
      refine ⟨fun hready => ?_, fun hphase => ?_⟩
      · rw [hstatus] at hready ⊢
        exact ⟨a, by simp, seen_of_observe hrun hsvc hobserve hready⟩
      · rw [hstatus] at hphase
        exact absurd hphase (observe_ne_expired hobserve)

theorem run_truthful (sorter : SortSlice) (history : List Answers) :
    Truthful history (Lib.runFrom (step sorter) {} history) := by
  induction history using List.reverseRecOn with
  | nil => exact ⟨fun h => (by cases h), fun h => (by cases h)⟩
  | append_singleton history a ih =>
      rw [Lib.runFrom_append]
      exact step_truthful ih a

end Reconciles

/-- What a run's status tells, after any sequence of Reconciles. -/
theorem status_told (sorter : SortSlice) (history : List Answers) :
    StatusTold sorter history (Lib.runFrom (step sorter) {} history) where
  ready := (run_truthful sorter history).ready
  expired h := ⟨((run_truthful sorter history).expired h).1, ((run_truthful sorter history).expired h).2,
    reconcile_expired sorter h⟩
  quiet _ _ h hsame := reconcile_quiet h hsame

/-! ## What it does not tell -/

/-- A sort by creation. -/
def byCreation : SortSlice where
  sort pods := pods.insertionSort fun p q => q.creationTimestamp ≤ p.creationTimestamp
  perm pods := List.perm_insertionSort _ pods
  newestFirst pods := by
    have : IsTrans Pod fun p q => q.creationTimestamp ≤ p.creationTimestamp := ⟨fun _ _ _ h h' => le_trans h' h⟩
    have : Std.Total fun p q : Pod => q.creationTimestamp ≤ p.creationTimestamp := ⟨fun p q => le_total _ _⟩
    exact List.pairwise_insertionSort _ _

/-- A ready pod. -/
def readyPod : Pod where
  name := "run-1-a"
  nodeName := "node1"
  creationTimestamp := 0
  phase := .running
  conditions := [{ type := "Ready", status := .true_ }]

/-- It runs on a node that has no address yet. -/
def noAddress : Answers where
  now := 0
  getRun := .ok { name := "run-1", nspace := "autotune" }
  getDeployment := .ok ()
  createDeployment := .ok ()
  getService := .ok ⟨"run-1", "autotune", [30055]⟩
  createService := .ok ⟨"run-1", "autotune", [30055]⟩
  getServiceAgain := .ok ⟨"run-1", "autotune", [30055]⟩
  deleteDeployment := .ok ()
  deleteService := .ok ()
  listPods := .ok [readyPod]
  getNode _ := .ok ⟨[]⟩
  updateStatus := .stored

/-- The same with a Service inside the cluster. -/
def inCluster : Answers :=
  { noAddress with getRun := .ok { name := "run-1", nspace := "autotune", serviceType := "ClusterIP" } }

/-- A Ready run may have no endpoint, or the name of its Service for one, and a cluster that is seen unchanged is
reported again where the first write of the status failed. -/
theorem ready_without_address :
    ((step byCreation {} noAddress).status.phase = .ready ∧ (step byCreation {} noAddress).status.endpoint = "") ∧
    ((step byCreation {} inCluster).status.phase = .ready ∧
      (step byCreation {} inCluster).status.endpoint = "http://run-1.autotune.svc:8000") ∧
    (reconcile byCreation (step byCreation {} { noAddress with updateStatus := .failed (.other "conflict") })
      noAddress).writes ≠ [] := by
  decide +kernel

end TuningRun

end AutoTune
