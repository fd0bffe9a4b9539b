import AutoTune.Api.Benchmarks
import AutoTune.Policy.Contenders
import AutoTune.Supervisor.Outcomes

/-!
# A session's runs stay on its cards

Five places add a run for a session. `POST /launches` checks the cards it is asked for against the
session's allocation and its live runs; the platform's validation runs take free cards of the
allocation; a benchmark of a launch takes none. `POST /benchmarks` writes down the cards its caller
names, and `POST /contenders/{id}/serving` takes the whole allocation.
-/

namespace AutoTune

open Lib

/-! ## `POST /contenders/{id}/serving`, checks included -/

/-- Why a serving request is refused. -/
inductive ServingRefusal where
  | notValidating
  | notCommanded (commanded : Option ContenderId) (asked : ContenderId)
  | noMachine
  | portOutside (port : Nat) (ports : List Nat)
  | noSuchContender
deriving DecidableEq, Repr

def ServingRefusal.statusCode : ServingRefusal → Nat
  | .notValidating | .notCommanded .. | .noMachine => 409
  | .portOutside .. => 422
  | .noSuchContender => 404

def ServingRefusal.detail : ServingRefusal → String
  | .notValidating => "not validating yet — follow the heartbeat"
  | .notCommanded commanded asked =>
      "the heartbeat commanded contender " ++ (commanded.map toString).getD "None" ++ ", not " ++
        toString asked ++ " — serve exactly what was asked"
  | .noMachine => "session has no machine"
  | .portOutside port ports =>
      "port " ++ toString port ++ " is outside this session's allocation " ++ pyList ports
  | .noSuchContender => "No such contender in this session"

/-- What is checked of the session before the contender is looked up. -/
def checkServing (s : PolicySession) (m : Option Machine) (contender : ContenderId) (port : Nat) :
    Except ServingRefusal Unit :=
  if s.status ≠ .validating then .error .notValidating
  else if s.servingContenderId ≠ some contender then
    .error (.notCommanded s.servingContenderId contender)
  else if m.isNone then .error .noMachine
  else if !s.ports.contains port then .error (.portOutside port s.ports)
  else .ok ()

/-- The contender, which has to be one of the session's. -/
def Contest.findContender (t : Contest) (session : SessionId) (contender : ContenderId) :
    Except ServingRefusal Contender :=
  match t.contenders.get? contender with
  | none => .error .noSuchContender
  | some k => if k.sessionId = session then .ok k else .error .noSuchContender

/-- `contender_serving`. -/
def requestServing (session : SessionId) (contender : ContenderId) (port : Nat) (t : Contest) :
    Contest :=
  match t.db.sessions.get? session with
  | none => t
  | some s =>
      match checkServing s (s.machineId.bind t.db.machines.get?) contender port,
          t.findContender session contender with
      | .ok (), .ok _ => contenderServing session contender port t
      | _, _ => t

/-- A serving request leaves everything alone, or adds a run on all of the session's cards. -/
theorem requestServing_cases (session : SessionId) (contender : ContenderId) (port : Nat)
    (t : Contest) :
    requestServing session contender port t = t ∨
      ∃ s k, t.db.sessions.get? session = some s ∧
        checkServing s (s.machineId.bind t.db.machines.get?) contender port = .ok () ∧
        t.contenders.get? contender = some k ∧ k.sessionId = session ∧ k.runId = none ∧
        (requestServing session contender port t).db =
          addServing s k.claim.launchSpec.config port t.db := by
  unfold requestServing
  cases hs : t.db.sessions.get? session with
  | none => exact Or.inl rfl
  | some s =>
      dsimp only
      split
      · rename_i hcheck hfind
        unfold contenderServing
        cases hk : t.contenders.get? contender with
        | none =>
            simp only [hs]
            exact Or.inl trivial
        | some k =>
            simp only [hs]
            split_ifs with hown
            · exact Or.inr ⟨s, k, rfl, hcheck, rfl, hown.1, hown.2, rfl⟩
            · exact Or.inl rfl
      · exact Or.inl rfl

/-! ## The steps -/

/-- The requests and the worker's launch that add a run for a session, a run moving on, and a session
moving on. -/
inductive CardStep where
  | launch (session : SessionId) (body : LaunchIn)
  | benchLaunch (session : SessionId) (body : LaunchBenchmarkIn)
  | benchExternal (session : SessionId) (body : ExternalBenchmarkIn)
  | serve (session : SessionId) (contender : ContenderId) (port : Nat)
  | validate (session : SessionId) (config : LaunchConfig)
  | move (run : RunId) (target : RunStatus)
  | become (session : SessionId) (status : SessionStatus) (commanded : Option ContenderId)

namespace CardStep

def apply (t : Contest) : CardStep → Contest
  | .launch session body => { t with db := requestLaunch session body t.db }
  | .benchLaunch session body => { t with db := AutoTune.benchLaunch session body t.db }
  | .benchExternal session body => { t with db := AutoTune.benchExternal session body t.db }
  | .serve session contender port => requestServing session contender port t
  | .validate session config => { t with db := (launchValidationRun session config t.db).getD t.db }
  | .move run target => { t with db := (transition t.db run target).state }
  | .become session status commanded =>
      { t with db := t.db.setSession session fun s =>
          { s with status := status, servingContenderId := commanded } }

/-- A launch accepted on the cards it names names each once; an external benchmark that is accepted
names distinct cards of the session that no live run of it holds; a contender is served while no live
run of the session holds a card. -/
def Spared (sid : SessionId) (t : Contest) : CardStep → Prop
  | .launch session body => session = sid → ∀ s config port,
      t.db.sessions.get? sid = some s → (markActivity sid body t.db).isSome = true →
      t.db.idempotentRun sid body.idempotencyKey = none → body.config = some config →
      launchAllocation s (s.machineId.bind t.db.machines.get?) (t.db.liveSessionRuns sid) body config =
        .ok (body.gpuIndices, port) → body.gpuIndices.Nodup
  | .benchExternal session body => session = sid → ∀ s,
      t.db.sessions.get? sid = some s →
      requireScreening s body.suite body.searchDeadline body.now = .ok () →
      checkSelfServed s body = .ok () → t.db.idempotentRun sid body.idempotencyKey = none →
      requireReachable (s.machineId.bind t.db.machines.get?) = .ok () → body.config.isSome = true →
      body.gpuIndices.Nodup ∧
        ∀ i ∈ body.gpuIndices, i ∈ s.gpuIndices ∧ i ∉ busyCards (t.db.liveSessionRuns sid)
  | .serve session contender port => session = sid → ∀ s k,
      t.db.sessions.get? sid = some s →
      checkServing s (s.machineId.bind t.db.machines.get?) contender port = .ok () →
      t.contenders.get? contender = some k → k.sessionId = sid → k.runId = none →
      busyCards (t.db.liveSessionRuns sid) = []
  | _ => True

end CardStep

/-! ## The invariant -/

/-- The runs of a session hold distinct cards of its own, a launch as many as its config uses, and no
two live runs share one. -/
structure InsideAllocation (sid : SessionId) (db : Db) : Prop where
  inside : ∀ s, db.sessions.get? sid = some s → ∀ r ∈ db.runs.rows, r.policySessionId = some sid →
    r.gpuIndices.Nodup ∧ ∀ i ∈ r.gpuIndices, i ∈ s.gpuIndices
  exact : ∀ s, db.sessions.get? sid = some s → s.gpuIndices ≠ [] → ∀ r ∈ db.runs.rows,
    r.policySessionId = some sid → r.kind = .policyLaunch →
      ∃ k ∈ db.candidates.rows, k.id = r.candidateId ∧ r.gpuIndices.length = k.cards
  apart : ∀ r ∈ db.liveSessionRuns sid, ∀ r' ∈ db.liveSessionRuns sid, r.id ≠ r'.id →
    List.Disjoint r.gpuIndices r'.gpuIndices

/-- And the session holds each of its cards once, on a machine there is, where all its runs are. -/
structure Allotted (sid : SessionId) (db : Db) : Prop extends InsideAllocation sid db where
  nodup : ∀ s, db.sessions.get? sid = some s → s.gpuIndices.Nodup
  machine : ∀ s, db.sessions.get? sid = some s → s.gpuIndices ≠ [] →
    (s.machineId.bind db.machines.get?).isSome = true
  on : ∀ s, db.sessions.get? sid = some s → ∀ r ∈ db.runs.rows, r.policySessionId = some sid →
    r.machineId = s.machineId

theorem mem_liveSessionRuns {db : Db} {sid : SessionId} {r : Run} :
    r ∈ db.liveSessionRuns sid ↔
      r ∈ db.runs.rows ∧ r.policySessionId = some sid ∧ r.live = true := by
  simp [Db.liveSessionRuns]

/-- What a new run of the session has to be. -/
structure FitsAllocation (sid : SessionId) (db db' : Db) (s : PolicySession) (r : Run) : Prop where
  machineId : r.machineId = s.machineId
  nodup : r.gpuIndices.Nodup
  inside : ∀ i ∈ r.gpuIndices, i ∈ s.gpuIndices
  free : ∀ i ∈ r.gpuIndices, i ∉ busyCards (db.liveSessionRuns sid)
  exact : r.kind = .policyLaunch → s.gpuIndices ≠ [] →
    ∃ k ∈ db'.candidates.rows, k.id = r.candidateId ∧ r.gpuIndices.length = k.cards

/-- `db'` is `db` with one more run, and no candidate less. -/
structure AddsRun (db db' : Db) (r : Run) : Prop where
  rows : db'.runs.rows = db.runs.rows ++ [r]
  candidates : ∀ k ∈ db.candidates.rows, k ∈ db'.candidates.rows
  sessions : db'.sessions = db.sessions
  machines : db'.machines = db.machines

namespace Allotted

variable {sid : SessionId} {db db' : Db}

/-- A run of another session, or one that fits, is added. -/
theorem addRun (h : Allotted sid db) {r : Run} (hadd : AddsRun db db' r)
    (hfits : r.policySessionId = some sid → ∃ s, db.sessions.get? sid = some s ∧
      FitsAllocation sid db db' s r) : Allotted sid db' := by
  have hfit : r.policySessionId = some sid → ∀ s, db.sessions.get? sid = some s →
      FitsAllocation sid db db' s r := by
    intro hr s hs
    rcases hfits hr with ⟨s', hs', hfit⟩
    rw [hs] at hs'
    cases hs'
    exact hfit
  have hrow : ∀ q ∈ db'.runs.rows, q ∈ db.runs.rows ∨ q = r := by
    intro q hq
    rw [hadd.rows] at hq
    simpa using hq
  have hlive : ∀ q ∈ db'.liveSessionRuns sid,
      q ∈ db.liveSessionRuns sid ∨ (q = r ∧ r.policySessionId = some sid) := by
    intro q hq
    rcases mem_liveSessionRuns.mp hq with ⟨hmem, hsession, hlive⟩
    rcases hrow q hmem with hold | rfl
    · exact Or.inl (mem_liveSessionRuns.mpr ⟨hold, hsession, hlive⟩)
    · exact Or.inr ⟨rfl, hsession⟩
  -- the new run is off every live one, so it is apart from each
  have hapart : r.policySessionId = some sid → ∀ q ∈ db.liveSessionRuns sid,
      List.Disjoint q.gpuIndices r.gpuIndices := by
    intro hr q hq i hi hi'
    rcases hfits hr with ⟨s, -, hfit⟩
    exact hfit.free i hi' (List.mem_flatMap.mpr ⟨q, hq, hi⟩)
  refine ⟨⟨?_, ?_, ?_⟩, ?_, ?_, ?_⟩
  · intro s hs q hq hsession
    rw [hadd.sessions] at hs
    rcases hrow q hq with hold | rfl
    · exact h.inside s hs q hold hsession
    · exact ⟨(hfit hsession s hs).nodup, (hfit hsession s hs).inside⟩
  · intro s hs hcards q hq hsession hkind
    rw [hadd.sessions] at hs
    rcases hrow q hq with hold | rfl
    · rcases h.exact s hs hcards q hold hsession hkind with ⟨k, hk, hid, hlen⟩
      exact ⟨k, hadd.candidates k hk, hid, hlen⟩
    · exact (hfit hsession s hs).exact hkind hcards
  · intro q hq q' hq' hne
    rcases hlive q hq with hold | ⟨rfl, hr⟩ <;> rcases hlive q' hq' with hold' | ⟨rfl, hr'⟩
    · exact h.apart q hold q' hold' hne
    · exact hapart hr' q hold
    · exact (hapart hr q' hold').symm
    · exact absurd rfl hne
  · intro s hs
    rw [hadd.sessions] at hs
    exact h.nodup s hs
  · intro s hs hcards
    rw [hadd.sessions] at hs
    rw [hadd.machines]
    exact h.machine s hs hcards
  · intro s hs q hq hsession
    rw [hadd.sessions] at hs
    rcases hrow q hq with hold | rfl
    · exact h.on s hs q hold hsession
    · exact (hfit hsession s hs).machineId

/-- A run moves on: it keeps its cards, and nothing comes back to life. -/
theorem transition (h : Allotted sid db) (id : RunId) (target : RunStatus) :
    Allotted sid (transition db id target).state := by
  have hsessions := transition_sessions db id target
  have hends := transition_ends db id target
  have hmachines : (AutoTune.transition db id target).state.machines = db.machines := by
    unfold AutoTune.transition
    split
    · rfl
    · split_ifs <;> rfl
  have hrow : ∀ q ∈ (AutoTune.transition db id target).state.runs.rows, ∃ r ∈ db.runs.rows,
      q.id = r.id ∧ q.policySessionId = r.policySessionId ∧ q.kind = r.kind ∧
        q.candidateId = r.candidateId ∧ q.machineId = r.machineId ∧ q.gpuIndices = r.gpuIndices ∧
        (q.live = true → r.live = true) := by
    intro q hq
    rcases transition_row hq with hold | ⟨r, hr, hlive, rfl⟩
    · exact ⟨q, hold, rfl, rfl, rfl, rfl, rfl, rfl, fun hl => hl⟩
    · exact ⟨r, hr, rfl, rfl, rfl, rfl, rfl, rfl, fun _ => hlive⟩
  have hlive : ∀ q ∈ (AutoTune.transition db id target).state.liveSessionRuns sid,
      ∃ r ∈ db.liveSessionRuns sid, q.id = r.id ∧ q.gpuIndices = r.gpuIndices := by
    intro q hq
    rcases mem_liveSessionRuns.mp hq with ⟨hmem, hsession, hlive⟩
    rcases hrow q hmem with ⟨r, hr, hid, hs, -, -, -, hcards, hback⟩
    exact ⟨r, mem_liveSessionRuns.mpr ⟨hr, hs ▸ hsession, hback hlive⟩, hid, hcards⟩
  refine ⟨⟨?_, ?_, ?_⟩, ?_, ?_, ?_⟩
  · intro s hs q hq hsession
    rw [hsessions] at hs
    rcases hrow q hq with ⟨r, hr, -, hrs, -, -, -, hcards, -⟩
    rw [hcards]
    exact h.inside s hs r hr (hrs ▸ hsession)
  · intro s hs hcards q hq hsession hkind
    rw [hsessions] at hs
    rcases hrow q hq with ⟨r, hr, -, hrs, hrk, hrc, -, hrg, -⟩
    rw [hrg, hrc, hends.candidates]
    exact h.exact s hs hcards r hr (hrs ▸ hsession) (hrk ▸ hkind)
  · intro q hq q' hq' hne
    rcases hlive q hq with ⟨r, hr, hid, hcards⟩
    rcases hlive q' hq' with ⟨r', hr', hid', hcards'⟩
    rw [hcards, hcards']
    exact h.apart r hr r' hr' (by rwa [← hid, ← hid'])
  · intro s hs
    rw [hsessions] at hs
    exact h.nodup s hs
  · intro s hs hcards
    rw [hsessions] at hs
    rw [hmachines]
    exact h.machine s hs hcards
  · intro s hs q hq hsession
    rw [hsessions] at hs
    rcases hrow q hq with ⟨r, hr, -, hrs, -, -, hrm, -, -⟩
    rw [hrm]
    exact h.on s hs r hr (hrs ▸ hsession)

/-- A session moves on with the cards and the machine it has. -/
theorem become (h : Allotted sid db) (session : SessionId) (status : SessionStatus)
    (commanded : Option ContenderId) :
    Allotted sid (db.setSession session fun s =>
      { s with status := status, servingContenderId := commanded }) := by
  have hsame : ∀ s, (db.setSession session fun s =>
      { s with status := status, servingContenderId := commanded }).sessions.get? sid = some s →
      ∃ s', db.sessions.get? sid = some s' ∧ s.gpuIndices = s'.gpuIndices ∧
        s.machineId = s'.machineId := by
    intro s hs
    simp only [Db.setSession] at hs
    rw [Table.get?_modify] at hs
    rcases Option.map_eq_some_iff.mp hs with ⟨s', hs', rfl⟩
    refine ⟨s', hs', ?_, ?_⟩
    · split_ifs <;> rfl
    · split_ifs <;> rfl
  refine ⟨⟨?_, ?_, h.apart⟩, ?_, ?_, ?_⟩
  · intro s hs
    rcases hsame s hs with ⟨s', hs', hcards, -⟩
    rw [hcards]
    exact h.inside s' hs'
  · intro s hs
    rcases hsame s hs with ⟨s', hs', hcards, -⟩
    rw [hcards]
    exact h.exact s' hs'
  · intro s hs
    rcases hsame s hs with ⟨s', hs', hcards, -⟩
    rw [hcards]
    exact h.nodup s' hs'
  · intro s hs
    rcases hsame s hs with ⟨s', hs', hcards, hmachine⟩
    rw [hcards, hmachine]
    exact h.machine s' hs'
  · intro s hs
    rcases hsame s hs with ⟨s', hs', -, hmachine⟩
    rw [hmachine]
    exact h.on s' hs'

end Allotted

/-- A session no run of which exists yet is allotted what `try_reserve` gives it. -/
theorem tryReserve_allotted {sid : SessionId} {db : Db} (h : Allotted sid db)
    (hnone : ∀ r ∈ db.runs.rows, r.policySessionId ≠ some sid) (held : Reservations)
    (blocked : List MachineId) (needs : PolicyNeeds) (session : SessionId) :
    Allotted sid (tryReserve held blocked needs session db).1 := by
  rcases tryReserve_cases held blocked needs session db with
    hsame | ⟨s, c, m, cards, ports, -, -, htarget, halloc, hset⟩
  · rw [hsame]
    exact h
  · rw [hset]
    have hm : db.machines.get? m.id = some m := by
      have husable : m ∈ db.usableMachines c := List.mem_of_find?_eq_some htarget
      exact Table.get?_key (List.mem_of_mem_filter husable)
    have hgiven : ∀ s', (db.setSession session fun s =>
        { s with machineId := some m.id, gpuIndices := cards, ports := ports }).sessions.get? sid =
        some s' → db.sessions.get? sid = some s' ∨ s'.gpuIndices = cards ∧ s'.machineId = some m.id := by
      intro s' hs'
      simp only [Db.setSession] at hs'
      rw [Table.get?_modify] at hs'
      rcases Option.map_eq_some_iff.mp hs' with ⟨s₀, hs₀, rfl⟩
      split_ifs
      · exact Or.inr ⟨rfl, rfl⟩
      · exact Or.inl hs₀
    refine ⟨⟨?_, ?_, h.apart⟩, ?_, ?_, ?_⟩
    · intro _ _ r hr hsession
      exact absurd hsession (hnone r hr)
    · intro _ _ _ r hr hsession
      exact absurd hsession (hnone r hr)
    · intro s' hs'
      rcases hgiven s' hs' with hold | ⟨hcards, -⟩
      · exact h.nodup s' hold
      · rw [hcards]
        exact allocationOn_nodup halloc
    · intro s' hs' hne
      rcases hgiven s' hs' with hold | ⟨-, hmachine⟩
      · exact h.machine s' hold hne
      · rw [hmachine]
        show (db.machines.get? m.id).isSome = true
        rw [hm]
        rfl
    · intro _ _ r hr hsession
      exact absurd hsession (hnone r hr)

/-! ## What each of the five adds -/

/-- Cards a launch is given by the platform are the session's first free ones, as many as it needs. -/
theorem freeSessionCards_spec {s : PolicySession} {live : List Run} {needed : Nat} {cards : List Nat}
    (h : freeSessionCards s live needed = .ok cards) :
    cards.length = needed ∧ cards.Sublist s.gpuIndices := by
  unfold freeSessionCards at h
  split_ifs at h with hwide
  dsimp only at h
  split_ifs at h with hfew
  cases h
  refine ⟨?_, (List.take_sublist _ _).trans List.filter_sublist⟩
  rw [List.length_take]
  omega

/-- A launch gets the cards it names or cards the platform picked, on a session with cards always as
many as its config uses. -/
theorem launchCards_spec {s : PolicySession} {live : List Run} {body : LaunchIn}
    {config : LaunchConfig} {cards : List Nat} (h : launchCards s live body config = .ok cards) :
    (cards = body.gpuIndices ∨ cards.Sublist s.gpuIndices) ∧
      (s.gpuIndices ≠ [] → cards.length = config.cards) := by
  unfold launchCards at h
  split_ifs at h with hmatch hrecipe
  · have hspec := freeSessionCards_spec h
    exact ⟨Or.inr hspec.2, fun _ => hspec.1⟩
  · cases h
    refine ⟨Or.inl rfl, ?_⟩
    intro hcards
    by_contra hne
    exact hmatch (by simp [hcards, Ne.symm hne])

/-- The runs that hold a session's machine are at least its own live ones. -/
theorem busyCards_blockersOf {sid : SessionId} {db : Db} {s : PolicySession} (h : Allotted sid db)
    (hs : db.sessions.get? sid = some s) (hcards : s.gpuIndices ≠ []) {i : Nat}
    (hi : i ∈ busyCards (db.liveSessionRuns sid)) : i ∈ busyCards (db.blockersOf s) := by
  rcases List.mem_flatMap.mp hi with ⟨r, hr, hi⟩
  rcases mem_liveSessionRuns.mp hr with ⟨hmem, hsession, hlive⟩
  rcases Option.isSome_iff_exists.mp (h.machine s hs hcards) with ⟨m, hm⟩
  rcases Option.bind_eq_some_iff.mp hm with ⟨id, hid, hget⟩
  have hmid := (Table.get?_eq_some_iff.mp hget).2
  refine List.mem_flatMap.mpr ⟨r, ?_, hi⟩
  unfold Db.blockersOf
  rw [hm]
  refine List.mem_append_left _ (Db.mem_liveRunsOn.mpr ⟨hmem, hlive, ?_⟩)
  have hon := h.on s hs r hmem hsession
  simp [Run.onMachine, Run.nodes, Run.masterNode, hon, hid, hmid]

namespace Allotted

variable {sid : SessionId} {db : Db}

theorem requestLaunch (h : Allotted sid db) (session : SessionId) (body : LaunchIn)
    (hspared : session = sid → ∀ s config port, db.sessions.get? sid = some s →
      (markActivity sid body db).isSome = true →
      db.idempotentRun sid body.idempotencyKey = none → body.config = some config →
      launchAllocation s (s.machineId.bind db.machines.get?) (db.liveSessionRuns sid) body config =
        .ok (body.gpuIndices, port) → body.gpuIndices.Nodup) :
    Allotted sid (requestLaunch session body db) := by
  rcases requestLaunch_adds session body db with
    hsame | ⟨s, config, cards, port, hs, hmark, hkey, hconfig, halloc, hadd⟩
  · rw [hsame]
    exact h
  · rw [hadd]
    refine h.addRun ⟨rfl, fun k hk => List.mem_append_left _ hk, rfl, rfl⟩ ?_
    intro hr
    have hsid : session = sid := (Table.get?_eq_some_iff.mp hs).2.symm.trans (Option.some.inj hr)
    subst hsid
    have hspec := launchAllocation_spec halloc
    have hcards := launchCards_spec (launchAllocation_ok halloc).1
    refine ⟨s, hs, rfl, ?_, fun i hi => (hspec.1 i hi).1, fun i hi => (hspec.1 i hi).2, ?_⟩
    · rcases hcards.1 with heq | hsub
      · show cards.Nodup
        rw [heq]
        exact hspared rfl s config port hs hmark hkey hconfig (heq ▸ halloc)
      · exact hsub.nodup (h.nodup s hs)
    · intro _ hne
      exact ⟨_, List.mem_append_right _ (List.mem_singleton_self _), rfl, hcards.2 hne⟩

theorem benchLaunch (h : Allotted sid db) (session : SessionId) (body : LaunchBenchmarkIn) :
    Allotted sid (benchLaunch session body db) := by
  rcases benchLaunch_cases session body db with hsame | ⟨s, parent, hs, -, -, -, -, -, hadd⟩
  · rw [hsame]
    exact h
  · rw [hadd]
    refine h.addRun ⟨rfl, fun k hk => hk, rfl, rfl⟩ ?_
    intro hr
    have hsid : session = sid := (Table.get?_eq_some_iff.mp hs).2.symm.trans (Option.some.inj hr)
    subst hsid
    -- the cards belong to the parent: this run has none
    refine ⟨s, hs, rfl, List.nodup_nil, ?_, ?_, ?_⟩
    · intro i hi
      exact absurd hi List.not_mem_nil
    · intro i hi
      exact absurd hi List.not_mem_nil
    · intro hkind
      cases hkind

theorem benchExternal (h : Allotted sid db) (session : SessionId) (body : ExternalBenchmarkIn)
    (hspared : session = sid → ∀ s, db.sessions.get? sid = some s →
      requireScreening s body.suite body.searchDeadline body.now = .ok () →
      checkSelfServed s body = .ok () → db.idempotentRun sid body.idempotencyKey = none →
      requireReachable (s.machineId.bind db.machines.get?) = .ok () → body.config.isSome = true →
      body.gpuIndices.Nodup ∧
        ∀ i ∈ body.gpuIndices, i ∈ s.gpuIndices ∧ i ∉ busyCards (db.liveSessionRuns sid)) :
    Allotted sid (benchExternal session body db) := by
  rcases benchExternal_cases session body db with
    hsame | ⟨s, config, hs, hscreen, hself, hkey, hreach, hconfig, hadd⟩
  · rw [hsame]
    exact h
  · rw [hadd]
    refine h.addRun ⟨rfl, fun k hk => List.mem_append_left _ hk, rfl, rfl⟩ ?_
    intro hr
    have hsid : session = sid := (Table.get?_eq_some_iff.mp hs).2.symm.trans (Option.some.inj hr)
    subst hsid
    have hok := hspared rfl s hs hscreen hself hkey hreach (by rw [hconfig]; rfl)
    refine ⟨s, hs, rfl, hok.1, fun i hi => (hok.2 i hi).1, fun i hi => (hok.2 i hi).2, ?_⟩
    intro hkind
    cases hkind

theorem requestServing {t : Contest} (h : Allotted sid t.db) (session : SessionId)
    (contender : ContenderId) (port : Nat)
    (hspared : session = sid → ∀ s k, t.db.sessions.get? sid = some s →
      checkServing s (s.machineId.bind t.db.machines.get?) contender port = .ok () →
      t.contenders.get? contender = some k → k.sessionId = sid → k.runId = none →
      busyCards (t.db.liveSessionRuns sid) = []) :
    Allotted sid (requestServing session contender port t).db := by
  rcases requestServing_cases session contender port t with
    hsame | ⟨s, k, hs, hcheck, hk, hown, hrun, hadd⟩
  · rw [hsame]
    exact h
  · rw [hadd]
    refine h.addRun ⟨rfl, fun k hk => List.mem_append_left _ hk, rfl, rfl⟩ ?_
    intro hr
    have hsid : session = sid := (Table.get?_eq_some_iff.mp hs).2.symm.trans (Option.some.inj hr)
    subst hsid
    have hidle := hspared rfl s k hs hcheck hk hown hrun
    refine ⟨s, hs, rfl, h.nodup s hs, fun i hi => hi, ?_, ?_⟩
    · intro i _ hbusy
      rw [hidle] at hbusy
      exact absurd hbusy List.not_mem_nil
    · intro hkind
      cases hkind

theorem launchValidationRun (h : Allotted sid db) (session : SessionId) (config : LaunchConfig) :
    Allotted sid ((launchValidationRun session config db).getD db) := by
  cases hrun : AutoTune.launchValidationRun session config db with
  | none => exact h
  | some db' =>
      rcases launchValidationRun_adds hrun with ⟨s, c, cards, hs, -, hcards, rfl⟩
      refine h.addRun ⟨rfl, fun k hk => List.mem_append_left _ hk, rfl, rfl⟩ ?_
      intro hr
      have hsid : session = sid := (Table.get?_eq_some_iff.mp hs).2.symm.trans (Option.some.inj hr)
      subst hsid
      have hspec := validationCards_spec hcards
      refine ⟨s, hs, rfl, validationCards_nodup (h.nodup s hs) hcards, fun i hi => (hspec i hi).1,
        ?_, ?_⟩
      · intro i hi hbusy
        have hne : s.gpuIndices ≠ [] := List.ne_nil_of_mem (hspec i hi).1
        exact (hspec i hi).2 (busyCards_blockersOf h hs hne hbusy)
      · intro hkind
        cases hkind

end Allotted

/-! ## Every order -/

/-- One step keeps the session's runs on its cards. -/
theorem CardStep.apply_allotted {sid : SessionId} {t : Contest} (h : Allotted sid t.db) (a : CardStep)
    (hspared : a.Spared sid t) : Allotted sid (CardStep.apply t a).db := by
  cases a with
  | launch session body => exact h.requestLaunch session body hspared
  | benchLaunch session body => exact h.benchLaunch session body
  | benchExternal session body => exact h.benchExternal session body hspared
  | serve session contender port => exact h.requestServing session contender port hspared
  | validate session config => exact h.launchValidationRun session config
  | move run target => exact h.transition run target
  | become session status commanded => exact h.become session status commanded

/-- In every order of the requests and launches whose steps all spare them, the runs of a session hold
distinct cards of its allocation, a launch exactly as many as its config uses, and no two live ones
share a card. -/
theorem session_cards_inside {sid : SessionId} {t : Contest} (h : Allotted sid t.db)
    (steps : List CardStep) (hsteps : Along CardStep.apply (CardStep.Spared sid) t steps) :
    InsideAllocation sid (runFrom CardStep.apply t steps).db := by
  have hend : Allotted sid (runFrom CardStep.apply t steps).db :=
    invariant_runFrom (I := fun t => Allotted sid t.db)
      (fun _ a ht hspared => a.apply_allotted ht hspared) h hsteps
  exact hend.toInsideAllocation

/-- The cards of the live runs, all together, are distinct. -/
theorem InsideAllocation.busyCards_nodup {sid : SessionId} {db : Db} (h : InsideAllocation sid db)
    {s : PolicySession} (hs : db.sessions.get? sid = some s) :
    (busyCards (db.liveSessionRuns sid)).Nodup := by
  have hids : (db.liveSessionRuns sid).Pairwise fun r r' => r.id ≠ r'.id :=
    (List.pairwise_map.mp db.runs.nodup).sublist List.filter_sublist
  refine List.nodup_flatMap.mpr ⟨?_, hids.imp_of_mem ?_⟩
  · intro r hr
    rcases mem_liveSessionRuns.mp hr with ⟨hmem, hsession, -⟩
    exact (h.inside s hs r hmem hsession).1
  · intro r r' hr hr' hne
    exact h.apart r hr r' hr' hne

/-- A session on half of one machine, and one contender it serves itself. -/
def halfABox (status : SessionStatus) : Contest where
  db :=
    { machines := .single { id := 1, name := "node-1", host := "10.0.0.1" }
      campaigns := .single { id := 1, status := .active, policyId := some 1 }
      sessions := .single { id := 1, campaignId := 1, machineId := some 1, status := status,
                            gpuIndices := [0, 1, 2, 3], ports := [28200, 28201],
                            servingContenderId := some 1 } }
  contenders := .single { id := 1, sessionId := 1, status := .serving,
                          claim := { rank := 1, configHash := "a", launchSpec := {} } }

theorem halfABox_allotted (status : SessionStatus) : Allotted 1 (halfABox status).db where
  inside := by simp [halfABox]
  exact := by simp [halfABox]
  apart := by simp [halfABox, Db.liveSessionRuns]
  nodup := by simp [halfABox, Table.get?]
  machine := by simp [halfABox, Table.get?]
  on := by simp [halfABox]

/-- A config that uses so many cards. -/
def usesCards (n : Nat) : LaunchConfig where
  cards := n
  podCards := n
  worldSize := n

/-- Named once and free, the cards of a launch and of an external benchmark stay apart. -/
theorem session_cards_inside_beside :
    let steps : List CardStep :=
      [.launch 1 { gpuIndices := [2, 0], config := some (usesCards 2) },
        .benchExternal 1 { port := 28201, gpuIndices := [1, 3], config := some (usesCards 2) }]
    let db := (runFrom CardStep.apply (halfABox .searching) steps).db
    (db.liveSessionRuns 1).map Run.gpuIndices = [[2, 0], [1, 3]] ∧ InsideAllocation 1 db := by
  refine ⟨by decide, session_cards_inside (halfABox_allotted _) _ ⟨?_, ?_, trivial⟩⟩
  · intro _ _ _ _ _ _ _ _ _
    decide
  · intro _ s hs _ _ _ _ _
    have hcards : s.gpuIndices = [0, 1, 2, 3] := by
      have hrow : (CardStep.apply (halfABox .searching)
          (.launch 1 { gpuIndices := [2, 0], config := some (usesCards 2) })).db.sessions.get? 1 =
          (halfABox .searching).db.sessions.get? 1 := by rfl
      rw [hrow] at hs
      cases hs
      rfl
    rw [hcards]
    decide

/-- An external benchmark on cards nobody checks, a launch that names one card twice, and a contender
served beside a validation run. -/
theorem session_cards_shared :
    let unchecked : List CardStep :=
      [.launch 1 { gpuIndices := [0], config := some (usesCards 1) },
        .benchExternal 1 { port := 28201, gpuIndices := [0, 7], config := some (usesCards 2) }]
    let twice : List CardStep := [.launch 1 { gpuIndices := [0, 0], config := some (usesCards 2) }]
    let beside : List CardStep := [.validate 1 (usesCards 2), .serve 1 1 28201]
    (∀ status, Allotted 1 (halfABox status).db) ∧
      ¬ InsideAllocation 1 (runFrom CardStep.apply (halfABox .searching) unchecked).db ∧
      ¬ InsideAllocation 1 (runFrom CardStep.apply (halfABox .searching) twice).db ∧
      ¬ InsideAllocation 1 (runFrom CardStep.apply (halfABox .validating) beside).db := by
  refine ⟨halfABox_allotted, ?_, ?_, ?_⟩
  · intro h
    exact absurd (h.busyCards_nodup rfl) (by decide)
  · intro h
    exact absurd (h.busyCards_nodup rfl) (by decide)
  · intro h
    exact absurd (h.busyCards_nodup rfl) (by decide)

end AutoTune
