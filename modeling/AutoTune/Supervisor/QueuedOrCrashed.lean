import AutoTune.Launch.PodReadings
import Mathlib.Data.List.Induction

/-!
# Queued or crashed

A pod that waits for cards is queued, and a queued run is not a late one. `failureReason` answers for the first
pod that has anything to say, `state` goes by any of them and the startup clocks by any container that runs:
with several pods, a run that is said to be queued may have crashed, or may be timed out.
-/

namespace AutoTune

open Lib

namespace K8s

/-! ## What a pod has to say -/

/-- Has a container of the pod failed? -/
def PodFailed (pod : Pod) : Prop :=
  ∃ c ∈ pod.containerStatuses, waitsInVain c = true ∨ exitedBadly c = true ∨
    (podReady pod = false ∧ restartedBeforeReady c = true)

/-- Can a node take the pod, as far as the cluster can be read? -/
def Placeable (s : Settings) (nodesOf : String → Option (List Node)) (pod : Pod) : Prop :=
  ∀ nodes, nodesOf (selectorOf s) = some nodes →
    (selectorOf s = "" ∨ nodes ≠ []) ∧ (podAllowedNodes pod = [] ∨ usableNodes pod nodes ≠ []) ∧
      (usableNodes pod nodes = [] ∨ podGpuRequest pod s.gpuResource ≤ 0 ∨
        ∃ n ∈ usableNodes pod nodes, podGpuRequest pod s.gpuResource ≤ nodeGpuCount n s.gpuResource)

/-- A pod that only waits for cards. -/
def Queued (s : Settings) (reading : Reading) (pod : Pod) : Prop :=
  ¬ PodFailed pod ∧ (∃ c ∈ pod.conditions, isUnschedulable c = true) ∧ Placeable s reading.nodes pod

/-- A pod nothing is wrong with. -/
def Silent (reading : Reading) (pod : Pod) : Prop :=
  ¬ PodFailed pod ∧ (∀ c ∈ pod.conditions, isUnschedulable c = false) ∧
    (pod.name = "" ∨ ∀ e ∈ reading.events.getD [], isPodFailure pod.name e = false)

/-- The first pod that something is wrong with is queued. -/
def FirstQueued (s : Settings) (reading : Reading) : Prop :=
  ∃ before pod after, reading.pods.getD [] = before ++ pod :: after ∧ (∀ p ∈ before, Silent reading p) ∧
    Queued s reading pod

/-! ## Containers -/

theorem failureClassFor_lasting : ∀ reason ∈ podFailedReasons ++ podFailedEventReasons,
    isTransientPlacement (failureClassFor reason) = false := by
  decide

/-- What is said of a container that failed is no placement. -/
theorem containerFailure_lasting {ready : Bool} {c : ContainerStatus} {f : Failure}
    (h : containerFailure ready c = some f) : isTransientPlacement f.failureClass = false := by
  have hlasting : isTransientPlacement "crash_loop" = false ∧ isTransientPlacement "oom" = false ∧
      isTransientPlacement "engine_exited" = false := by decide
  unfold containerFailure at h
  split at h
  · rename_i w hw
    have hreason := of_decide_eq_true (Option.filter_eq_some_iff.mp hw).2
    cases h
    exact failureClassFor_lasting w.reason (List.mem_append_left _ hreason)
  · split at h
    · cases h
      exact hlasting.1
    · split at h
      · split at h
        · cases h
          exact hlasting.2.1
        · cases h
          exact hlasting.2.2
      · cases h

theorem containerFailure_isSome (ready : Bool) (c : ContainerStatus) :
    (containerFailure ready c).isSome = true ↔
      waitsInVain c = true ∨ exitedBadly c = true ∨ (ready = false ∧ restartedBeforeReady c = true) := by
  have hwaits : (c.waiting.filter fun w => w.reason ∈ podFailedReasons).isSome = waitsInVain c := by
    unfold waitsInVain
    cases c.waiting with
    | none => rfl
    | some w => by_cases hw : w.reason ∈ podFailedReasons <;> simp [Option.filter, hw]
  have hexited : (c.terminated.filter fun t => t.exitCode ≠ some 0 && t.exitCode ≠ none).isSome = exitedBadly c := by
    unfold exitedBadly
    cases c.terminated with
    | none => rfl
    | some t =>
        rw [Option.any_some]
        cases htest : (t.exitCode ≠ some 0 && t.exitCode ≠ none) <;> simp only [Option.filter, htest] <;> rfl
  rw [← hwaits, ← hexited]
  unfold containerFailure
  cases c.waiting.filter fun w => w.reason ∈ podFailedReasons with
  | some w => simp
  | none =>
      cases hrestarted : !ready && restartedBeforeReady c with
      | true =>
          rw [Bool.and_eq_true, Bool.not_eq_true'] at hrestarted
          simp [hrestarted]
      | false =>
          have hno : ¬ (ready = false ∧ restartedBeforeReady c = true) := by
            rintro ⟨hready, hc⟩
            rw [hready, hc] at hrestarted
            cases hrestarted
          cases c.terminated.filter fun t => t.exitCode ≠ some 0 && t.exitCode ≠ none with
          | none => simp [hno]
          | some t => by_cases ht : t.reason = "OOMKilled" <;> simp [ht]

/-- What is said of a pod's containers. -/
theorem containersFailure_isSome (pod : Pod) :
    (pod.containerStatuses.findSome? (containerFailure (podReady pod))).isSome = true ↔ PodFailed pod := by
  rw [List.findSome?_isSome_iff]
  unfold PodFailed
  refine exists_congr fun c => and_congr_right fun _ => ?_
  exact containerFailure_isSome (podReady pod) c

/-! ## Placement -/

theorem le_biggest {counts : List Int} (hne : counts ≠ []) (want : Int) :
    counts.max?.getD 0 < want ↔ ∀ n ∈ counts, n < want := by
  cases hmax : counts.max? with
  | none => exact absurd (List.max?_eq_none_iff.mp hmax) hne
  | some biggest =>
      have hle : ∀ n ∈ counts, n ≤ biggest := (List.max?_le_iff hmax).mp le_rfl
      have hmem := List.max?_mem hmax
      rw [Option.getD_some]
      exact ⟨fun h n hn => lt_of_le_of_lt (hle n hn) h, fun h => h biggest hmem⟩

/-- The verdict is that of a queue exactly where a node can take the pod. -/
theorem placementVerdict_transient (s : Settings) (nodesOf : String → Option (List Node)) (pod : Pod)
    (message : String) :
    (isTransientPlacement (placementVerdict s nodesOf pod message).failureClass = true ↔ Placeable s nodesOf pod) ∧
      (Placeable s nodesOf pod → (placementVerdict s nodesOf pod message).message = message) := by
  have hbusy : isTransientPlacement "unschedulable" = true := by decide
  have himpossible : isTransientPlacement "unplaceable" = false := by decide
  unfold placementVerdict Placeable
  dsimp only
  cases hnodes : nodesOf (selectorOf s) with
  | none => simp [hbusy]
  | some nodes =>
      have hforall : ∀ P : List Node → Prop, (∀ nodes', some nodes = some nodes' → P nodes') ↔ P nodes := by
        intro P
        exact ⟨fun h => h nodes rfl, fun h nodes' heq => Option.some.inj heq ▸ h⟩
      rw [hforall]
      -- the reasons a pod can never be placed, in the order they are asked for
      by_cases hselector : selectorOf s ≠ "" ∧ nodes = []
      · simp [hselector, himpossible]
      by_cases hallowed : podAllowedNodes pod ≠ [] ∧ usableNodes pod nodes = []
      · have hno : ¬ (podAllowedNodes pod = [] ∨ usableNodes pod nodes ≠ []) := by tauto
        simp only [if_neg hselector, if_pos hallowed, himpossible, Bool.false_eq_true, false_iff]
        tauto
      have hfirst : selectorOf s = "" ∨ nodes ≠ [] := by tauto
      have hsecond : podAllowedNodes pod = [] ∨ usableNodes pod nodes ≠ [] := by tauto
      simp only [if_neg hselector, if_neg hallowed, hfirst, hsecond, true_and]
      by_cases hbig : 0 < podGpuRequest pod s.gpuResource ∧ usableNodes pod nodes ≠ [] ∧
          ((usableNodes pod nodes).map fun n => nodeGpuCount n s.gpuResource).max?.getD 0 <
            podGpuRequest pod s.gpuResource
      · have hsmall := (le_biggest (by simpa using hbig.2.1) _).mp hbig.2.2
        have hno : ¬ (usableNodes pod nodes = [] ∨ podGpuRequest pod s.gpuResource ≤ 0 ∨
            ∃ n ∈ usableNodes pod nodes, podGpuRequest pod s.gpuResource ≤ nodeGpuCount n s.gpuResource) := by
          rintro (h | h | ⟨n, hn, h⟩)
          · exact hbig.2.1 h
          · exact absurd hbig.1 (not_lt.mpr h)
          · exact absurd (hsmall _ (List.mem_map.mpr ⟨n, hn, rfl⟩)) (not_lt.mpr h)
        simp only [if_pos hbig, himpossible, Bool.false_eq_true, false_iff]
        exact ⟨hno, fun h => absurd h hno⟩
      · have hfits : usableNodes pod nodes = [] ∨ podGpuRequest pod s.gpuResource ≤ 0 ∨
            ∃ n ∈ usableNodes pod nodes, podGpuRequest pod s.gpuResource ≤ nodeGpuCount n s.gpuResource := by
          by_contra hno
          rw [not_or, not_or] at hno
          refine hbig ⟨not_le.mp hno.2.1, hno.1, (le_biggest (by simpa using hno.1) _).mpr ?_⟩
          intro n hn
          rcases List.mem_map.mp hn with ⟨node, hnode, rfl⟩
          exact not_le.mp fun hle => hno.2.2 ⟨node, hnode, hle⟩
        simp only [if_neg hbig, hbusy, true_iff]
        exact ⟨hfits, fun _ => trivial⟩

/-! ## Events -/

theorem newestEvent_append (events : List Event) (e : Event) :
    newestEvent (events ++ [e]) = some e ∨ newestEvent (events ++ [e]) = newestEvent events := by
  unfold newestEvent
  rw [List.foldl_append, List.foldl_cons, List.foldl_nil]
  split
  · exact Or.inl rfl
  · exact Or.inr rfl

theorem newestEvent_mem {events : List Event} {e : Event} (h : newestEvent events = some e) : e ∈ events := by
  induction events using List.reverseRecOn with
  | nil => cases h
  | append_singleton events last ih =>
      rcases newestEvent_append events last with hlast | hbefore
      · rw [hlast] at h
        rw [← Option.some.inj h]
        exact List.mem_append_right _ List.mem_cons_self
      · rw [hbefore] at h
        exact List.mem_append_left _ (ih h)

theorem newestEvent_none {events : List Event} : newestEvent events = none ↔ events = [] := by
  induction events using List.reverseRecOn with
  | nil => exact ⟨fun _ => rfl, fun _ => rfl⟩
  | append_singleton events last ih =>
      have hne : events ++ [last] ≠ [] := by simp
      refine ⟨fun h => ?_, fun h => absurd h hne⟩
      rcases newestEvent_append events last with hlast | hbefore
      · rw [hlast] at h
        cases h
      · -- the first event is always taken
        have hnil := ih.mp (hbefore ▸ h)
        rw [hnil] at h
        cases h

/-- An event that is a pod's failure is no placement. -/
theorem eventFailure_lasting {events : Option (List Event)} {pod : Pod} {f : Failure}
    (h : eventFailure events pod = some f) : isTransientPlacement f.failureClass = false := by
  unfold eventFailure at h
  split at h
  · cases h
  · rcases Option.map_eq_some_iff.mp h with ⟨e, he, rfl⟩
    have hfailed := (List.mem_filter.mp (newestEvent_mem he)).2
    unfold isPodFailure at hfailed
    rw [Bool.and_eq_true] at hfailed
    exact failureClassFor_lasting e.reason (List.mem_append_right _ (of_decide_eq_true hfailed.2))

theorem eventFailure_none {events : Option (List Event)} {pod : Pod} :
    eventFailure events pod = none ↔
      pod.name = "" ∨ ∀ e ∈ events.getD [], isPodFailure pod.name e = false := by
  unfold eventFailure
  by_cases hname : pod.name = ""
  · simp [hname]
  · rw [if_neg hname, Option.map_eq_none_iff, newestEvent_none, List.filter_eq_nil_iff]
    simp [hname]

/-! ## Pods -/

section Pods

variable {s : Settings} {reading : Reading}

theorem podFailure_none {pod : Pod} : podFailure s reading pod = none ↔ Silent reading pod := by
  unfold podFailure Silent
  rw [← containersFailure_isSome]
  cases hcontainers : pod.containerStatuses.findSome? (containerFailure (podReady pod)) with
  | some f => simp
  | none =>
      cases hcond : pod.conditions.find? isUnschedulable with
      | some c =>
          have hmem := List.mem_of_find?_eq_some hcond
          have htest := List.find?_some hcond
          constructor
          · intro h
            cases h
          · rintro ⟨-, hno, -⟩
            rw [hno c hmem] at htest
            cases htest
      | none =>
          have hno : ∀ c ∈ pod.conditions, isUnschedulable c = false := by
            simpa using List.find?_eq_none.mp hcond
          simp only [eventFailure_none, Option.isSome_none, Bool.false_eq_true, not_false_iff, true_and]
          exact ⟨fun h => ⟨hno, h⟩, fun h => h.2⟩

/-- What is said of a pod is that it waits for its placement exactly if it is queued. -/
theorem podFailure_transient {pod : Pod} {f : Failure} (h : podFailure s reading pod = some f) :
    (isTransientPlacement f.failureClass = true ↔ Queued s reading pod) ∧
      (Queued s reading pod → f.message ≠ "") := by
  have hfailed := containersFailure_isSome pod
  have hpair : ∀ P : Prop, isTransientPlacement f.failureClass = false → ¬ P →
      (isTransientPlacement f.failureClass = true ↔ P) ∧ (P → f.message ≠ "") := by
    intro P hlasting hno
    rw [hlasting]
    exact ⟨⟨fun hfalse => (Bool.false_ne_true hfalse).elim, fun hP => absurd hP hno⟩, fun hP => absurd hP hno⟩
  unfold podFailure at h
  unfold Queued
  cases hcontainers : pod.containerStatuses.findSome? (containerFailure (podReady pod)) with
  | some f' =>
      -- a container's failure is told before any condition is read
      rw [hcontainers] at h hfailed
      cases h
      rcases List.exists_of_findSome?_eq_some hcontainers with ⟨c, -, hc⟩
      exact hpair _ (containerFailure_lasting hc) fun hqueued => hqueued.1 (hfailed.mp rfl)
  | none =>
      rw [hcontainers] at h hfailed
      have hno : ¬ PodFailed pod := fun hpod => Bool.false_ne_true (hfailed.mpr hpod)
      cases hcond : pod.conditions.find? isUnschedulable with
      | some c =>
          rw [hcond] at h
          cases h
          have hverdict := placementVerdict_transient s reading.nodes pod (orText c.message "no node fits the pod")
          have hmessage : orText c.message "no node fits the pod" ≠ "" := by
            unfold orText
            split
            · decide
            · assumption
          have hc : ∃ c ∈ pod.conditions, isUnschedulable c = true :=
            ⟨c, List.mem_of_find?_eq_some hcond, List.find?_some hcond⟩
          refine ⟨hverdict.1.trans ⟨fun hplace => ⟨hno, hc, hplace⟩, fun hqueued => hqueued.2.2⟩, fun hqueued => ?_⟩
          rw [hverdict.2 hqueued.2.2]
          exact hmessage
      | none =>
          rw [hcond] at h
          refine hpair _ (eventFailure_lasting h) fun hqueued => ?_
          rcases hqueued.2.1 with ⟨c, hc, htest⟩
          exact absurd htest (List.find?_eq_none.mp hcond c hc)

/-- The run's reason is a placement exactly if the first pod that has something to say is queued. -/
theorem podsFailure_transient {f : Failure} (h : podsFailure s reading = some f) :
    (isTransientPlacement f.failureClass = true ↔ FirstQueued s reading) ∧
      (isTransientPlacement f.failureClass = true → f.message ≠ "") := by
  rcases List.findSome?_eq_some_iff.mp h with ⟨before, pod, after, hpods, hf, hbefore⟩
  have hpod := podFailure_transient hf
  have hfirst : FirstQueued s reading ↔ Queued s reading pod := by
    constructor
    · rintro ⟨before', pod', after', hpods', hsilent, hqueued⟩
      -- the queued pod says something, so it is the first one that does
      cases hf' : podFailure s reading pod' with
      | none =>
          rcases hqueued.2.1 with ⟨c, hc, htest⟩
          rw [(podFailure_none.mp hf').2.1 c hc] at htest
          cases htest
      | some f' =>
          have h' : podsFailure s reading = some f' := List.findSome?_eq_some_iff.mpr
            ⟨before', pod', after', hpods', hf', fun p hp => podFailure_none.mpr (hsilent p hp)⟩
          have heq : f = f' := Option.some.inj (h.symm.trans h')
          rw [← hpod.1, heq, (podFailure_transient hf').1]
          exact hqueued
    · exact fun hqueued => ⟨before, pod, after, hpods, fun p hp => podFailure_none.mp (hbefore p hp), hqueued⟩
  exact ⟨hpod.1.trans hfirst.symm, fun htransient => hpod.2 (hpod.1.mp htransient)⟩

theorem podsFailure_of_firstQueued (h : FirstQueued s reading) : ∃ f, podsFailure s reading = some f := by
  rcases h with ⟨before, pod, after, hpods, -, hqueued⟩
  have hsome : (podsFailure s reading).isSome = true := by
    unfold podsFailure
    rw [List.findSome?_isSome_iff]
    refine ⟨pod, by rw [hpods]; simp, ?_⟩
    rw [Option.isSome_iff_ne_none, Ne, podFailure_none]
    intro hsilent
    rcases hqueued.2.1 with ⟨c, hc, htest⟩
    rw [hsilent.2.1 c hc] at htest
    cases htest
  exact Option.isSome_iff_exists.mp hsome

end Pods

/-! ## The run -/

/-- The run's object is there and reports no failure of its own. -/
def OperatorSilent : Option Workload → Prop
  | none => False
  | some .deployment => True
  | some (.custom status) => phaseOf status ∉ failedPhases
  | some (.llmservice status _) => operatorFailure status = none

/-- Does the driver itself look for containers that failed? -/
def LooksAtPods : Option Workload → Prop
  | some (.custom _) => False
  | _ => True

/-- Is the run up, by what its driver takes for it? -/
def Answers (reading : Reading) : Option Workload → Prop
  | some (.custom status) => phaseOf status = "ready"
  | some (.llmservice _ endpoints) =>
      frontDoorReady endpoints = some true ∨
        (frontDoorReady endpoints = none ∧ ∃ pod ∈ reading.pods.getD [], podReady pod = true)
  | _ => ∃ pod ∈ reading.pods.getD [], podReady pod = true

/-- No pod is ready and a container of one has failed. -/
def PodsCrashed (reading : Reading) : Prop :=
  (∀ pod ∈ reading.pods.getD [], podReady pod = false) ∧ ∃ pod ∈ reading.pods.getD [], PodFailed pod

/-- No container of any pod runs. -/
def NothingRuns (reading : Reading) : Prop :=
  ∀ pod ∈ reading.pods.getD [], ∀ c ∈ pod.containerStatuses, c.startedAt = ""

/-- Is it time to ask why the run is not up? -/
def PastCheck (clocks : Clocks) : Prop :=
  ∃ started, clocks.startedAt = some started ∧ seconds placementCheckAfterSeconds < clocks.now - started

/-- Queued and crashed are told apart: what the pods crash has a lasting reason, and a coming-up run whose
reason is its placement is waiting. -/
structure ToldApart (s : Settings) (workload : Option Workload) (reading : Reading) (clocks : Clocks) : Prop where
  crashed : OperatorSilent workload → state s workload reading = .crashed →
    ∃ f, failureReason s workload reading = some f ∧ isTransientPlacement f.failureClass = false
  queued : state s workload reading = .starting → PastCheck clocks → ∀ f,
    failureReason s workload reading = some f → isTransientPlacement f.failureClass = true →
      (startupTimedOut clocks (startupStatus reading) (some f)).timedOut = false ∧
        (startupTimedOut clocks (startupStatus reading) (some f)).waiting ≠ ""

section Run

variable {s : Settings} {workload : Option Workload} {reading : Reading}

theorem podState_ready : podState reading = .ready ↔ ∃ pod ∈ reading.pods.getD [], podReady pod = true := by
  unfold podState
  dsimp only
  rw [← List.any_eq_true]
  cases (reading.pods.getD []).any podReady with
  | true => simp
  | false =>
      rw [if_neg Bool.false_ne_true]
      split <;> simp

theorem podState_crashed : podState reading = .crashed ↔ PodsCrashed reading := by
  unfold podState PodsCrashed PodFailed
  dsimp only
  cases hready : (reading.pods.getD []).any podReady with
  | true =>
      rcases List.any_eq_true.mp hready with ⟨pod, hpod, htrue⟩
      rw [if_pos rfl]
      refine ⟨fun h => DeploymentState.noConfusion h, fun h => ?_⟩
      rw [h.1 pod hpod] at htrue
      cases htrue
  | false =>
      have hnone : ∀ pod ∈ reading.pods.getD [], podReady pod = false := by simpa using hready
      rw [if_neg Bool.false_ne_true]
      have hfailed : ((reading.pods.getD []).any fun pod => pod.containerStatuses.any fun c =>
          waitsInVain c || exitedBadly c || restartedBeforeReady c) = true ↔
            ∃ pod ∈ reading.pods.getD [], ∃ c ∈ pod.containerStatuses, waitsInVain c = true ∨
              exitedBadly c = true ∨ (podReady pod = false ∧ restartedBeforeReady c = true) := by
        simp only [List.any_eq_true, Bool.or_eq_true]
        refine exists_congr fun pod => and_congr_right fun hpod => exists_congr fun c => and_congr_right fun _ => ?_
        rw [hnone pod hpod]
        tauto
      rw [← hfailed]
      split
      · rename_i htrue
        exact ⟨fun _ => ⟨hnone, htrue⟩, fun _ => rfl⟩
      · rename_i hfalse
        exact ⟨fun h => DeploymentState.noConfusion h, fun h => absurd h.2 hfalse⟩

/-- Where the operator reports nothing, the reason is that of the pods. -/
theorem failureReason_pods (h : OperatorSilent workload) :
    failureReason s workload reading = podsFailure s reading := by
  rcases workload with _ | _ | status | ⟨status, endpoints⟩
  · rfl
  · rfl
  · rfl
  · have hnone : operatorFailure status = none := h
    change (operatorFailure status).or (podsFailure s reading) = _
    rw [hnone]
    rfl

theorem endsRun_iff (h : OperatorSilent workload) : endsRun (failureReason s workload reading) = true ↔
    (∃ f, podsFailure s reading = some f) ∧ ¬ FirstQueued s reading := by
  rw [failureReason_pods h]
  cases hreason : podsFailure s reading with
  | none => simp [endsRun]
  | some f =>
      have htransient := (podsFailure_transient hreason).1
      rw [← htransient]
      simp [endsRun]

variable (reading) in
theorem podState_cases : podState reading = .ready ∨ podState reading = .crashed ∨ podState reading = .starting := by
  unfold podState
  dsimp only
  split
  · exact Or.inl rfl
  · split
    · exact Or.inr (Or.inl rfl)
    · exact Or.inr (Or.inr rfl)

theorem state_custom {status : CustomStatus} (h : phaseOf status ∉ failedPhases) :
    state s (some (.custom status)) reading =
      if phaseOf status = "ready" then .ready
      else if endsRun (failureReason s (some (.custom status)) reading) then .crashed
      else .starting :=
  if_neg h

theorem state_llmservice {status : ServiceStatus} {endpoints : Endpoints} (h : operatorFailure status = none) :
    state s (some (.llmservice status endpoints)) reading =
      if podState reading = .crashed then .crashed
      else if endsRun (failureReason s (some (.llmservice status endpoints)) reading) then .crashed
      else
        match frontDoorReady endpoints with
        | none => podState reading
        | some true => .ready
        | some false => .starting :=
  if_neg (by rw [h]; exact Bool.false_ne_true)

/-- A run the pods have crashed has a reason. -/
theorem reason_of_crashed (h : OperatorSilent workload) (hstate : state s workload reading = .crashed) :
    ∃ f, podsFailure s reading = some f := by
  have hpods : podState reading = .crashed → ∃ f, podsFailure s reading = some f := by
    intro hcrashed
    rcases (podState_crashed.mp hcrashed).2 with ⟨pod, hpod, hfailed⟩
    refine Option.isSome_iff_exists.mp ?_
    unfold podsFailure
    rw [List.findSome?_isSome_iff]
    refine ⟨pod, hpod, ?_⟩
    rw [Option.isSome_iff_ne_none, Ne, podFailure_none]
    exact fun hsilent => hsilent.1 hfailed
  have hends : endsRun (failureReason s workload reading) = true → ∃ f, podsFailure s reading = some f :=
    fun hends => ((endsRun_iff h).mp hends).1
  rcases workload with _ | _ | status | ⟨status, endpoints⟩
  · cases hstate
  · exact hpods hstate
  · rw [state_custom h] at hstate
    split at hstate
    · cases hstate
    · split at hstate
      · rename_i hreason
        exact hends hreason
      · cases hstate
  · rw [state_llmservice h] at hstate
    split at hstate
    · rename_i hcrashed
      exact hpods hcrashed
    · split at hstate
      · rename_i hreason
        exact hends hreason
      · split at hstate
        · exact hpods hstate
        · cases hstate
        · cases hstate

/-- What the driver answers of a run that is said to be queued. -/
theorem state_firstQueued (h : OperatorSilent workload) (hfirst : FirstQueued s reading) :
    (state s workload reading = .crashed ↔ LooksAtPods workload ∧ PodsCrashed reading) ∧
      (¬ (LooksAtPods workload ∧ PodsCrashed reading) →
        (state s workload reading = .starting ↔ ¬ Answers reading workload)) := by
  have hgoes : endsRun (failureReason s workload reading) = false := by
    rw [← Bool.not_eq_true, endsRun_iff h]
    exact fun hends => hends.2 hfirst
  rcases workload with _ | _ | status | ⟨status, endpoints⟩
  · exact h.elim
  · change (podState reading = .crashed ↔ True ∧ PodsCrashed reading) ∧ (¬ (True ∧ PodsCrashed reading) →
      (podState reading = .starting ↔ ¬ ∃ pod ∈ reading.pods.getD [], podReady pod = true))
    rw [true_and, ← podState_crashed, ← podState_ready]
    rcases podState_cases reading with hpods | hpods | hpods <;> simp [hpods]
  · rw [state_custom h, hgoes]
    simp only [LooksAtPods, false_and, Bool.false_eq_true, if_false, iff_false, not_false_iff, true_implies, Answers]
    by_cases hready : phaseOf status = "ready"
    · simp [hready]
    · simp [hready]
  · rw [state_llmservice h, hgoes]
    simp only [LooksAtPods, true_and, Bool.false_eq_true, if_false, Answers]
    rw [← podState_crashed, ← podState_ready]
    rcases podState_cases reading with hpods | hpods | hpods <;>
      rcases frontDoorReady endpoints with _ | _ | _ <;> simp [hpods]

/-! ## The clocks -/

theorem startTimes_nil {pods : List Pod} :
    startTimes pods = [] ↔ ∀ pod ∈ pods, ∀ c ∈ pod.containerStatuses, c.startedAt = "" := by
  unfold startTimes
  rw [List.filter_eq_nil_iff]
  constructor
  · intro h pod hpod c hc
    have hmem : c.startedAt ∈ pods.flatMap fun pod => pod.containerStatuses.map ContainerStatus.startedAt :=
      List.mem_flatMap.mpr ⟨pod, hpod, List.mem_map.mpr ⟨c, hc, rfl⟩⟩
    simpa using h _ hmem
  · intro h t ht
    rcases List.mem_flatMap.mp ht with ⟨pod, hpod, hmem⟩
    rcases List.mem_map.mp hmem with ⟨c, hc, rfl⟩
    simp [h pod hpod c hc]

/-- Once a container of any pod runs, the clocks have nothing to say of waiting. -/
theorem waiting_of_running (clocks : Clocks) (since : String) (reason : Option Failure) :
    (startupTimedOut clocks ⟨.running, some since⟩ reason).waiting = "" := by
  unfold startupTimedOut StartupVerdict.onTime
  cases clocks.startedAt with
  | none => rfl
  | some started =>
      rw [Option.bind_some]
      cases clocks.parseRfc3339 since with
      | none =>
          dsimp only
          split <;> rfl
      | some t =>
          dsimp only
          split <;> rfl

/-- While nothing runs, a run past the first check waits for its placement. -/
theorem waiting_of_pulling {clocks : Clocks} (hpast : PastCheck clocks) {f : Failure}
    (hf : isTransientPlacement f.failureClass = true) :
    startupTimedOut clocks ⟨.pulling, none⟩ (some f) = ⟨false, "", f.message⟩ := by
  rcases hpast with ⟨started, hstarted, hpast⟩
  unfold startupTimedOut pullTimedOut
  simp only [hstarted, if_pos hpast, hf, if_true]

theorem waiting_iff {clocks : Clocks} (hpast : PastCheck clocks) {f : Failure}
    (hpods : podsFailure s reading = some f) (hf : isTransientPlacement f.failureClass = true) :
    ((startupTimedOut clocks (startupStatus reading) (some f)).timedOut = false ∧
      (startupTimedOut clocks (startupStatus reading) (some f)).waiting ≠ "") ↔ NothingRuns reading := by
  have hread : ∃ pods, reading.pods = some pods := by
    cases hpods' : reading.pods with
    | none =>
        unfold podsFailure at hpods
        rw [hpods'] at hpods
        cases hpods
    | some pods => exact ⟨pods, rfl⟩
  rcases hread with ⟨pods, hread⟩
  have hnothing : NothingRuns reading ↔ startTimes pods = [] := by
    rw [startTimes_nil, NothingRuns, hread]
    rfl
  rw [hnothing]
  cases htimes : (startTimes pods).min? with
  | none =>
      have hstatus : startupStatus reading = ⟨.pulling, none⟩ := by
        simp only [startupStatus, hread, htimes]
      rw [hstatus, waiting_of_pulling hpast hf]
      exact ⟨fun _ => List.min?_eq_none_iff.mp htimes, fun _ => ⟨rfl, (podsFailure_transient hpods).2 hf⟩⟩
  | some since =>
      have hne : startTimes pods ≠ [] := by
        intro hnil
        rw [hnil] at htimes
        cases htimes
      have hstatus : startupStatus reading = ⟨.running, some since⟩ := by
        simp only [startupStatus, hread, htimes]
      rw [hstatus]
      exact ⟨fun h => absurd (waiting_of_running clocks since (some f)) h.2, fun h => absurd h hne⟩

/-- A workload whose operator has named a failure is not starting. -/
theorem silent_of_starting (h : state s workload reading = .starting) : OperatorSilent workload := by
  unfold state at h
  rcases workload with _ | _ | status | ⟨status, endpoints⟩
  · cases h
  · exact trivial
  · by_contra hfailed
    have hphase : phaseOf status ∈ failedPhases := not_not.mp hfailed
    simp only [hphase, if_true] at h
    cases h
  · by_contra hfailed
    have hsome : (operatorFailure status).isSome = true := Option.isSome_iff_ne_none.mpr hfailed
    simp only [hsome, if_true] at h
    cases h

/-- Queued and crashed are told apart exactly if no pod crashes the run and none runs already while the first
pod with anything to say is queued. -/
theorem toldApart_iff (s : Settings) (workload : Option Workload) (reading : Reading) (clocks : Clocks) :
    ToldApart s workload reading clocks ↔
      (OperatorSilent workload → FirstQueued s reading →
        ¬ (LooksAtPods workload ∧ PodsCrashed reading) ∧
          (¬ Answers reading workload → PastCheck clocks → NothingRuns reading)) := by
  constructor
  · intro h hsilent hfirst
    have hstate := state_firstQueued hsilent hfirst
    rcases podsFailure_of_firstQueued hfirst with ⟨f, hf⟩
    have hreason : failureReason s workload reading = some f := (failureReason_pods hsilent).trans hf
    have htransient := (podsFailure_transient hf).1.mpr hfirst
    have halive : ¬ (LooksAtPods workload ∧ PodsCrashed reading) := by
      intro hcrashed
      -- a crash is told with a lasting reason, but the first one told is a wait
      rcases h.crashed hsilent (hstate.1.mpr hcrashed) with ⟨f', hf', hlasting⟩
      rw [← Option.some.inj (hreason.symm.trans hf'), htransient] at hlasting
      cases hlasting
    refine ⟨halive, fun hanswers hpast => ?_⟩
    have hwaiting := h.queued ((hstate.2 halive).mpr hanswers) hpast f hreason htransient
    exact (waiting_iff hpast hf htransient).mp hwaiting
  · intro h
    constructor
    · intro hsilent hcrashed
      rcases reason_of_crashed hsilent hcrashed with ⟨f, hf⟩
      refine ⟨f, (failureReason_pods hsilent).trans hf, ?_⟩
      rw [Bool.eq_false_iff]
      intro htransient
      have hfirst := (podsFailure_transient hf).1.mp htransient
      exact (h hsilent hfirst).1 ((state_firstQueued hsilent hfirst).1.mp hcrashed)
    · intro hstarting hpast f hf htransient
      have hsilent := silent_of_starting hstarting
      rw [failureReason_pods hsilent] at hf
      have hfirst := (podsFailure_transient hf).1.mp htransient
      have hcondition := h hsilent hfirst
      have hstate : state s workload reading = .starting ↔ ¬ Answers reading workload :=
        (state_firstQueued hsilent hfirst).2 hcondition.1
      exact (waiting_iff hpast hf htransient).mpr (hcondition.2 (hstate.mp hstarting) hpast)

end Run

/-- Two pods of one run: the first waits for cards, the engine of the second one has exited. -/
def gangReading : Reading where
  pods := some
    [{ name := "autotune-run-7-0", conditions := [⟨"PodScheduled", "False", "Unschedulable", ""⟩] },
      { name := "autotune-run-7-1", containerStatuses := [{ terminated := some ⟨some 1, "Error"⟩ }] }]
  events := some []
  nodes := fun _ => some [⟨"node-a", [("nvidia.com/gpu", "8")]⟩]

/-- The run has crashed, and its reason is that it is queued. -/
theorem gang_crashedAsQueued :
    state {} (some (.llmservice {} (some none))) gangReading = .crashed ∧
      failureReason {} (some (.llmservice {} (some none))) gangReading =
        some ⟨"unschedulable", "no node fits the pod"⟩ ∧
      ¬ ToldApart {} (some (.llmservice {} (some none))) gangReading ⟨0, none, 30, 45, fun _ => none⟩ := by
  have hstate : state {} (some (.llmservice {} (some none))) gangReading = .crashed := by decide
  have hreason : failureReason {} (some (.llmservice {} (some none))) gangReading =
      some ⟨"unschedulable", "no node fits the pod"⟩ := by decide
  refine ⟨hstate, hreason, fun h => ?_⟩
  have hsilent : OperatorSilent (some (.llmservice {} (some none))) := by
    change operatorFailure {} = none
    decide
  rcases h.crashed hsilent hstate with ⟨f, hf, hlasting⟩
  rw [← Option.some.inj (hreason.symm.trans hf)] at hlasting
  exact absurd hlasting (by decide)

end K8s

end AutoTune
