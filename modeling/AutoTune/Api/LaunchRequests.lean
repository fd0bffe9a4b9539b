import AutoTune.Lib.RowLock
import AutoTune.Lib.Trace
import AutoTune.Api.PolicySessions
import AutoTune.Supervisor.Finish

/-!
# Concurrent launch requests of one session

A `POST /launches` is several statements of one transaction. `_mark_activity` changes the session's
row before the first of them, and the database session flushes that change before it runs the next
query: the request holds the row's lock from there to its commit or rollback. The live runs are read
after it, so a second request of the session reads them only when the first has ended.
-/

namespace AutoTune

open Lib

/-- How far a request has come: its activity is marked, its idempotency key is looked up, the live
runs are read. -/
inductive LaunchStage where
  | marked
  | looked
  | seen (live : List Run)

/-- What can happen next: the statements of a request, a run of the worker moving on, a benchmark
row of the session. -/
inductive LaunchStep where
  | mark (k : Nat)
  | lookUp (k : Nat)
  | readLive (k : Nat)
  | commit (k : Nat)
  | move (id : RunId) (target : RunStatus)
  | bench (launch : Option RunId) (candidate : CandidateId) (gpuIndices : List Nat) (port : Nat)

section Requests

variable (session : SessionId) (requests : Nat → LaunchIn)

/-- `_require_exploring`, then `_mark_activity`. -/
def markActivity (body : LaunchIn) (db : Db) : Option LaunchStage :=
  match db.sessions.get? session with
  | none => none
  | some s =>
      match requireExploring s body.searchDeadline body.now with
      | .ok _ => some .marked
      | .error _ => none

/-- A known key is answered with its run, and nothing is added. -/
def lookUpKey (body : LaunchIn) (db : Db) : LaunchStage → Progress Db LaunchStage
  | .marked => if (db.idempotentRun session body.idempotencyKey).isSome then .close db else .more .looked
  | t => .more t

/-- The config is validated, then the live runs are read. -/
def readLiveRuns (body : LaunchIn) (db : Db) : LaunchStage → Progress Db LaunchStage
  | .looked =>
      match body.config with
      | none => .close db
      | some _ => .more (.seen (db.liveSessionRuns session))
  | t => .more t

/-- The store with the launch `s` asks for, as decided from the runs it has seen. -/
def decideLaunch (body : LaunchIn) (live : List Run) (db : Db) : Db :=
  match db.sessions.get? session, body.config with
  | some s, some config =>
      match launchAllocation s (s.machineId.bind db.machines.get?) live body config with
      | .ok (cards, port) => addLaunch db s body config cards port
      | .error _ => db
  | _, _ => db

/-- The checks, the insert and the commit; a refusal rolls back. -/
def commitLaunch (body : LaunchIn) (db : Db) : LaunchStage → Progress Db LaunchStage
  | .seen live => .close (decideLaunch session body live db)
  | t => .more t

/-- A benchmark row: EXTERNAL, on the session's machine, with the cards and the port the policy names
for an engine it serves itself, or with none when it measures one of its launches. -/
def addBench (launch : Option RunId) (candidate : CandidateId) (gpuIndices : List Nat) (port : Nat)
    (db : Db) : Db :=
  match db.sessions.get? session with
  | none => db
  | some s =>
      { db with
        runs := db.runs.insert fun id =>
          { id := id, campaignId := s.campaignId, candidateId := candidate, machineId := s.machineId,
            kind := .external launch, status := .healthCheck, gpuIndices := gpuIndices,
            servicePort := port, policySessionId := some session } }

/-- One step of the interleaving. -/
def launchStep (d : Locked Db Nat LaunchStage) : LaunchStep → Locked Db Nat LaunchStage
  | .mark k => d.enter k (markActivity session (requests k))
  | .lookUp k => d.proceed k (lookUpKey session (requests k))
  | .readLive k => d.proceed k (readLiveRuns session (requests k))
  | .commit k => d.proceed k (commitLaunch session (requests k))
  | .move id target => d.elsewhere fun db => (transition db id target).state
  | .bench launch candidate gpuIndices port =>
      d.elsewhere (addBench session launch candidate gpuIndices port)

/-- `request_launch` with nobody in between. -/
def requestLaunch (body : LaunchIn) (db : Db) : Db :=
  match markActivity session body db with
  | none => db
  | some _ =>
      if (db.idempotentRun session body.idempotencyKey).isSome then db
      else decideLaunch session body (db.liveSessionRuns session) db

/-- A request that runs undisturbed leaves the store `requestLaunch` says. -/
theorem requestLaunch_steps (db : Db) (k : Nat) :
    (runFrom (launchStep session requests) { store := db }
      [.mark k, .lookUp k, .readLive k, .commit k]).store = requestLaunch session (requests k) db := by
  simp only [runFrom_cons, runFrom_nil, launchStep, Locked.enter, requestLaunch]
  cases hmark : markActivity session (requests k) db with
  | none => simp [Locked.proceed]
  | some t =>
      have ht : t = .marked := by
        unfold markActivity at hmark
        split at hmark <;> [cases hmark; skip]
        split at hmark <;> cases hmark
        rfl
      subst ht
      by_cases hkey : (db.idempotentRun session (requests k).idempotencyKey).isSome = true
      · simp [Locked.proceed, lookUpKey, hkey]
      · cases hconfig : (requests k).config with
        | none => simp [Locked.proceed, lookUpKey, hkey, readLiveRuns, hconfig, decideLaunch]
        | some config =>
            simp [Locked.proceed, lookUpKey, hkey, readLiveRuns, hconfig, commitLaunch]

/-- A launch request leaves the store alone, or passes every check and adds its launch. -/
theorem requestLaunch_adds (body : LaunchIn) (db : Db) :
    requestLaunch session body db = db ∨
      ∃ s config cards port, db.sessions.get? session = some s ∧
        (markActivity session body db).isSome = true ∧
        db.idempotentRun session body.idempotencyKey = none ∧ body.config = some config ∧
        launchAllocation s (s.machineId.bind db.machines.get?) (db.liveSessionRuns session) body config =
          .ok (cards, port) ∧
        requestLaunch session body db = addLaunch db s body config cards port := by
  unfold requestLaunch
  cases hmark : markActivity session body db with
  | none => exact Or.inl rfl
  | some t =>
      dsimp only
      split_ifs with hkey
      · exact Or.inl rfl
      · unfold decideLaunch
        split
        · rename_i s config hs hconfig
          split
          · rename_i cards port halloc
            exact Or.inr ⟨s, config, cards, port, hs, rfl, by simpa using hkey, hconfig, halloc, rfl⟩
          · exact Or.inl rfl
        · exact Or.inl rfl

end Requests

/-! ## The session's launches -/

/-- The session's live POLICY_LAUNCH runs. -/
def Db.liveLaunches (db : Db) (session : SessionId) : List Run :=
  (db.liveSessionRuns session).filter fun r => r.kind == .policyLaunch

/-- Live launches hold disjoint cards and distinct ports, all of the session's own. -/
structure LaunchesApart (db : Db) (s : PolicySession) : Prop where
  cards : ∀ r ∈ db.liveLaunches s.id, ∀ r' ∈ db.liveLaunches s.id, r.id ≠ r'.id →
    List.Disjoint r.gpuIndices r'.gpuIndices
  ports : ∀ r ∈ db.liveLaunches s.id, ∀ r' ∈ db.liveLaunches s.id, r.id ≠ r'.id →
    r.servicePort ≠ r'.servicePort
  inside : ∀ r ∈ db.liveLaunches s.id,
    (∀ i ∈ r.gpuIndices, i ∈ s.gpuIndices) ∧ r.servicePort ∈ s.ports

/-- `r'` holds what `r` holds. -/
def SameHold (r r' : Run) : Prop :=
  r'.id = r.id ∧ r'.gpuIndices = r.gpuIndices ∧ r'.servicePort = r.servicePort

/-- Every live launch of `db'` is one of `db`. -/
def NoNewLaunch (session : SessionId) (db db' : Db) : Prop :=
  ∀ r' ∈ db'.liveLaunches session, ∃ r ∈ db.liveLaunches session, SameHold r r'

/-- Every live launch is among the runs that were read. -/
def Covered (session : SessionId) (live : List Run) (db : Db) : Prop :=
  ∀ r' ∈ db.liveLaunches session, ∃ r ∈ live, SameHold r r'

theorem LaunchesApart.of_noNewLaunch {db db' : Db} {s : PolicySession} (h : LaunchesApart db s)
    (hnew : NoNewLaunch s.id db db') : LaunchesApart db' s where
  cards := by
    intro r₁ h₁ r₂ h₂ hne
    rcases hnew r₁ h₁ with ⟨q₁, hq₁, hid₁, hc₁, -⟩
    rcases hnew r₂ h₂ with ⟨q₂, hq₂, hid₂, hc₂, -⟩
    rw [hc₁, hc₂]
    exact h.cards q₁ hq₁ q₂ hq₂ (by rwa [← hid₁, ← hid₂])
  ports := by
    intro r₁ h₁ r₂ h₂ hne
    rcases hnew r₁ h₁ with ⟨q₁, hq₁, hid₁, -, hp₁⟩
    rcases hnew r₂ h₂ with ⟨q₂, hq₂, hid₂, -, hp₂⟩
    rw [hp₁, hp₂]
    exact h.ports q₁ hq₁ q₂ hq₂ (by rwa [← hid₁, ← hid₂])
  inside := by
    intro r hr
    rcases hnew r hr with ⟨q, hq, -, hc, hp⟩
    rw [hc, hp]
    exact h.inside q hq

theorem Covered.of_noNewLaunch {session : SessionId} {live : List Run} {db db' : Db}
    (h : Covered session live db) (hnew : NoNewLaunch session db db') :
    Covered session live db' := by
  intro r₂ h₂
  rcases hnew r₂ h₂ with ⟨r₁, h₁, hid, hc, hp⟩
  rcases h r₁ h₁ with ⟨r, hr, hid', hc', hp'⟩
  exact ⟨r, hr, hid.trans hid', hc.trans hc', hp.trans hp'⟩

theorem mem_liveLaunches {db : Db} {session : SessionId} {r : Run} :
    r ∈ db.liveLaunches session ↔ r ∈ db.runs.rows ∧ r.policySessionId = some session ∧
      r.live = true ∧ r.kind = .policyLaunch := by
  simp [Db.liveLaunches, Db.liveSessionRuns]
  tauto

theorem covered_liveSessionRuns (session : SessionId) (db : Db) :
    Covered session (db.liveSessionRuns session) db := by
  intro r hr
  exact ⟨r, List.mem_of_mem_filter hr, rfl, rfl, rfl⟩

/-- A transition adds no live launch: nothing leaves a terminal status. -/
theorem transition_noNewLaunch (session : SessionId) (db : Db) (id : RunId) (target : RunStatus) :
    NoNewLaunch session db (transition db id target).state := by
  intro r' hr'
  rw [mem_liveLaunches] at hr'
  rcases hr' with ⟨hmem, hsession, hlive, hkind⟩
  rcases transition_row hmem with hold | ⟨r, hr, hlive', rfl⟩
  · exact ⟨r', mem_liveLaunches.mpr ⟨hold, hsession, hlive, hkind⟩, rfl, rfl, rfl⟩
  · exact ⟨r, mem_liveLaunches.mpr ⟨hr, hsession, hlive', hkind⟩, rfl, rfl, rfl⟩

theorem addBench_noNewLaunch (session : SessionId) (launch : Option RunId) (candidate : CandidateId)
    (gpuIndices : List Nat) (port : Nat) (db : Db) :
    NoNewLaunch session db (addBench session launch candidate gpuIndices port db) := by
  intro r hr
  rcases mem_liveLaunches.mp hr with ⟨hmem, hrest⟩
  unfold addBench at hmem
  split at hmem
  · exact ⟨r, mem_liveLaunches.mpr ⟨hmem, hrest⟩, rfl, rfl, rfl⟩
  · rcases List.mem_append.mp hmem with hmem | hmem
    · exact ⟨r, mem_liveLaunches.mpr ⟨hmem, hrest⟩, rfl, rfl, rfl⟩
    · -- the row is EXTERNAL, so it is no launch
      have hrow := hrest.2.2
      simp [List.mem_singleton.mp hmem] at hrow

theorem addBench_sessions (session : SessionId) (launch : Option RunId) (candidate : CandidateId)
    (gpuIndices : List Nat) (port : Nat) (db : Db) :
    (addBench session launch candidate gpuIndices port db).sessions = db.sessions := by
  unfold addBench
  split <;> rfl

/-- A launch decided from runs that cover the session's launches stays apart from all of them. -/
theorem addLaunch_apart {db : Db} {s : PolicySession} {m : Option Machine} {live : List Run}
    {body : LaunchIn} {config : LaunchConfig} {cards : List Nat} {port : Nat}
    (h : LaunchesApart db s) (hports : ∀ p ∈ s.ports, p ≠ 0) (hcov : Covered s.id live db)
    (halloc : launchAllocation s m live body config = .ok (cards, port)) :
    LaunchesApart (addLaunch db s body config cards port) s := by
  rcases launchAllocation_spec halloc with ⟨hcards, hport, hbusy⟩
  -- a launch that was there before holds neither the new cards nor the new port
  have hold : ∀ r ∈ db.liveLaunches s.id,
      List.Disjoint r.gpuIndices cards ∧ r.servicePort ≠ port := by
    intro r hr
    rcases hcov r hr with ⟨q, hq, -, hc, hp⟩
    refine ⟨?_, ?_⟩
    · intro i hi hi'
      apply (hcards i hi').2
      rw [hc] at hi
      exact List.mem_flatMap.mpr ⟨q, hq, hi⟩
    · intro he
      apply hbusy
      rw [← he, hp]
      refine List.mem_filter.mpr ⟨List.mem_map_of_mem hq, ?_⟩
      simpa [← hp, he] using hports port hport
  have hmem : ∀ r ∈ (addLaunch db s body config cards port).liveLaunches s.id,
      r ∈ db.liveLaunches s.id ∨
        (r.id = db.runs.nextKey ∧ r.gpuIndices = cards ∧ r.servicePort = port) := by
    intro r hr
    rcases mem_liveLaunches.mp hr with ⟨hrow, hrest⟩
    rcases Table.mem_insert.mp hrow with hrow | rfl
    · exact Or.inl (mem_liveLaunches.mpr ⟨hrow, hrest⟩)
    · exact Or.inr ⟨rfl, rfl, rfl⟩
  refine ⟨?_, ?_, ?_⟩
  · intro r₁ h₁ r₂ h₂ hne
    rcases hmem r₁ h₁ with h₁ | ⟨hid₁, hc₁, -⟩ <;> rcases hmem r₂ h₂ with h₂ | ⟨hid₂, hc₂, -⟩
    · exact h.cards r₁ h₁ r₂ h₂ hne
    · rw [hc₂]
      exact (hold r₁ h₁).1
    · rw [hc₁]
      exact (hold r₂ h₂).1.symm
    · exact absurd (hid₁.trans hid₂.symm) hne
  · intro r₁ h₁ r₂ h₂ hne
    rcases hmem r₁ h₁ with h₁ | ⟨hid₁, -, hp₁⟩ <;> rcases hmem r₂ h₂ with h₂ | ⟨hid₂, -, hp₂⟩
    · exact h.ports r₁ h₁ r₂ h₂ hne
    · rw [hp₂]
      exact (hold r₁ h₁).2
    · rw [hp₁]
      exact (hold r₂ h₂).2.symm
    · exact absurd (hid₁.trans hid₂.symm) hne
  · intro r hr
    rcases hmem r hr with hr | ⟨-, hc, hp⟩
    · exact h.inside r hr
    · rw [hc, hp]
      exact ⟨fun i hi => (hcards i hi).1, hport⟩

/-! ## Every interleaving -/

/-- The store: the session stands, its ports are ports, and its launches are apart. -/
structure LaunchesSafe (s : PolicySession) (db : Db) : Prop where
  session : db.sessions.get? s.id = some s
  ports : ∀ p ∈ s.ports, p ≠ 0
  apart : LaunchesApart db s

/-- What an open request knows: the runs it has read cover the session's launches. -/
def LaunchStage.Fresh (session : SessionId) (db : Db) : LaunchStage → Prop
  | .seen live => Covered session live db
  | _ => True

theorem LaunchesSafe.of_noNewLaunch {s : PolicySession} {db db' : Db} (h : LaunchesSafe s db)
    (hsessions : db'.sessions = db.sessions) (hnew : NoNewLaunch s.id db db') :
    LaunchesSafe s db' :=
  ⟨by rw [hsessions]; exact h.session, h.ports, h.apart.of_noNewLaunch hnew⟩

theorem LaunchStage.Fresh.of_noNewLaunch {session : SessionId} {db db' : Db}
    (hnew : NoNewLaunch session db db') {t : LaunchStage} (h : t.Fresh session db) :
    t.Fresh session db' := by
  cases t with
  | marked => trivial
  | looked => trivial
  | seen live => exact Covered.of_noNewLaunch h hnew

theorem transition_sessions (db : Db) (id : RunId) (target : RunStatus) :
    (transition db id target).state.sessions = db.sessions := by
  unfold transition
  cases db.runs.get? id with
  | none => rfl
  | some r =>
      dsimp only
      split_ifs <;> rfl

theorem decideLaunch_safe {s : PolicySession} {db : Db} (h : LaunchesSafe s db) (body : LaunchIn)
    {live : List Run} (hcov : Covered s.id live db) :
    LaunchesSafe s (decideLaunch s.id body live db) := by
  unfold decideLaunch
  rw [h.session]
  cases body.config with
  | none => exact h
  | some config =>
      dsimp only
      cases halloc : launchAllocation s (s.machineId.bind db.machines.get?) live body config with
      | error e => exact h
      | ok p => exact ⟨h.session, h.ports, addLaunch_apart h.apart h.ports hcov halloc⟩

/-- One statement of one request, or one write beside them, keeps the launches apart. -/
theorem launchStep_guarded {s : PolicySession} (requests : Nat → LaunchIn)
    {d : Locked Db Nat LaunchStage}
    (h : d.Guarded (LaunchesSafe s) (fun db t => t.Fresh s.id db)) (a : LaunchStep) :
    (launchStep s.id requests d a).Guarded (LaunchesSafe s) (fun db t => t.Fresh s.id db) := by
  cases a with
  | mark k =>
      refine h.enter k ?_
      intro t ht
      -- a request starts with nothing read
      have : t = .marked := by
        unfold markActivity at ht
        split at ht
        · simp at ht
        · split at ht <;> simp_all
      rw [this]
      trivial
  | lookUp k =>
      refine h.proceed k ?_ ?_
      · intro t t' hf ht
        cases t with
        | marked =>
            simp only [lookUpKey] at ht
            split_ifs at ht
            cases ht
            trivial
        | looked =>
            cases ht
            exact hf
        | seen live =>
            cases ht
            exact hf
      · intro t db' _ ht
        cases t with
        | marked =>
            simp only [lookUpKey] at ht
            split_ifs at ht
            cases ht
            exact h.inv
        | looked => cases ht
        | seen live => cases ht
  | readLive k =>
      refine h.proceed k ?_ ?_
      · intro t t' hf ht
        cases t with
        | marked =>
            cases ht
            trivial
        | looked =>
            simp only [readLiveRuns] at ht
            split at ht <;> cases ht
            exact covered_liveSessionRuns s.id d.store
        | seen live =>
            cases ht
            exact hf
      · intro t db' _ ht
        cases t with
        | marked => cases ht
        | looked =>
            simp only [readLiveRuns] at ht
            split at ht <;> cases ht
            exact h.inv
        | seen live => cases ht
  | commit k =>
      refine h.proceed k ?_ ?_
      · intro t t' hf ht
        cases t with
        | marked =>
            cases ht
            trivial
        | looked =>
            cases ht
            trivial
        | seen live => cases ht
      · intro t db' hf ht
        cases t with
        | marked => cases ht
        | looked => cases ht
        | seen live =>
            cases ht
            exact decideLaunch_safe h.inv _ hf
  | move id target =>
      have hnew := transition_noNewLaunch s.id d.store id target
      have hsafe := h.inv.of_noNewLaunch (transition_sessions d.store id target) hnew
      exact h.elsewhere (g := fun db => (transition db id target).state) hsafe
        fun t ht => ht.of_noNewLaunch hnew
  | bench launch candidate gpuIndices port =>
      have hnew := addBench_noNewLaunch s.id launch candidate gpuIndices port d.store
      have hsafe := h.inv.of_noNewLaunch
        (addBench_sessions s.id launch candidate gpuIndices port d.store) hnew
      exact h.elsewhere (g := addBench s.id launch candidate gpuIndices port) hsafe
        fun t ht => ht.of_noNewLaunch hnew

/-- In every interleaving of any number of launch requests of one session, its live launches hold
disjoint cards and distinct ports, all inside the session's allocation. -/
theorem launch_requests_apart (s : PolicySession) (requests : Nat → LaunchIn) (db : Db)
    (hsession : db.sessions.get? s.id = some s) (hports : ∀ p ∈ s.ports, p ≠ 0)
    (hstart : LaunchesApart db s) (steps : List LaunchStep) :
    LaunchesApart (runFrom (launchStep s.id requests) { store := db } steps).store s := by
  have hend : Locked.Guarded (LaunchesSafe s) (fun db t => LaunchStage.Fresh s.id db t)
      (runFrom (launchStep s.id requests) { store := db } steps) := by
    refine invariant_of_step
      (I := Locked.Guarded (LaunchesSafe s) fun db t => LaunchStage.Fresh s.id db t) ?_ ?_ steps
    · intro d a h
      exact launchStep_guarded requests h a
    · exact Locked.Guarded.initial ⟨hsession, hports, hstart⟩
  exact hend.inv.apart

/-- A session with two cards and two ports. -/
def searchingSession : PolicySession where
  id := 1
  campaignId := 1
  machineId := some 1
  status := .searching
  gpuIndices := [0, 1]
  ports := [28200, 28201]

/-- Two requests at once: the second one's first write waits for the first to commit, and then it
sees its launch and takes the other port. -/
theorem launch_requests_apart_twoAtOnce :
    let requests : Nat → LaunchIn := fun k =>
      { gpuIndices := [k], config := some { cards := 1, podCards := 1, worldSize := 1 } }
    let db : Db := { sessions := .single searchingSession }
    let steps : List LaunchStep :=
      [.mark 0, .mark 1, .lookUp 0, .readLive 0, .readLive 1, .commit 0, .commit 1,
        .mark 1, .lookUp 1, .readLive 1, .commit 1]
    let final := (runFrom (launchStep 1 requests) { store := db } steps).store
    (final.liveLaunches 1).map (fun r => (r.gpuIndices, r.servicePort)) =
        [([0], 28200), ([1], 28201)] ∧
      LaunchesApart final searchingSession := by
  refine ⟨by decide, launch_requests_apart searchingSession _ _ rfl (by decide) ?_ _⟩
  exact ⟨by simp [Db.liveLaunches, Db.liveSessionRuns], by simp [Db.liveLaunches, Db.liveSessionRuns],
    by simp [Db.liveLaunches, Db.liveSessionRuns]⟩

end AutoTune
