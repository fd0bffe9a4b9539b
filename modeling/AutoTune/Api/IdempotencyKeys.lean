import AutoTune.Api.Benchmarks

/-!
# Idempotency keys under concurrency

Four requests of a session carry an `Idempotency-Key`: each looks its key up, adds its row and
commits. No constraint of the database makes a key unique. The three that add a run mark the session's
activity first and so hold the session's row while they look; `POST /trials` writes nothing before its
insert and holds nothing.
-/

namespace AutoTune

open Lib

/-! ## Rows and lookups -/

abbrev TrialId := Nat

/-- Who measured a trial. -/
inductive TrialSource where
  | self
  | platform
deriving DecidableEq, Repr

/-- One evaluation a policy reported. -/
structure PolicyTrial (F : Type) where
  id : TrialId
  sessionId : SessionId
  campaignId : CampaignId
  seq : Nat := 0
  config : JsonDict F := []
  configHash : String := ""
  source : TrialSource := .self
  runId : Option RunId := none
  reportedMetrics : JsonDict F := []
  reportedObjectiveValue : Option F := none
  reportedFeasible : Option Bool := none
  failureClass : String := ""
  durationSeconds : Option F := none
  notes : String := ""
  idempotencyKey : Option String := none

/-- One `POST /trials`. `config` is what `_canonical` makes of the reported config and `configHash`
its hash. -/
structure TrialIn (F : Type) where
  config : JsonDict F := []
  configHash : String := ""
  reportedMetrics : JsonDict F := []
  reportedObjectiveValue : Option F := none
  reportedFeasible : Option Bool := none
  failureClass : String := ""
  durationSeconds : Option F := none
  notes : String := ""
  idempotencyKey : Option String := none

/-- A request that may carry a key. -/
inductive KeyedRequest (F : Type) where
  | launch (body : LaunchIn)
  | benchLaunch (body : LaunchBenchmarkIn)
  | benchExternal (body : ExternalBenchmarkIn)
  | trial (body : TrialIn F)

/-- The route a request is made to. -/
inductive Endpoint where
  | launches
  | launchBenchmarks
  | benchmarks
  | trials
deriving DecidableEq, Repr

/-- The row a request is answered with. -/
inductive AnswerRow where
  | run (id : RunId)
  | trial (id : TrialId)
deriving DecidableEq, Repr

/-- The rows, and the successful requests with what each was answered. -/
structure KeyStore (F : Type) where
  db : Db
  trials : Table (PolicyTrial.id (F := F)) := .empty
  answers : List (KeyedRequest F × AnswerRow) := []

/-- The exception of a query that finds several rows where one was expected. -/
inductive DbError where
  | multipleResultsFound
deriving DecidableEq, Repr

/-- `scalar_one_or_none`. -/
def scalarOneOrNone {α : Type} : List α → Except DbError (Option α)
  | [] => .ok none
  | [a] => .ok (some a)
  | _ => .error .multipleResultsFound

theorem scalarOneOrNone_of_length {α : Type} {l : List α} (h : l.length ≤ 1) :
    ∃ a, scalarOneOrNone l = .ok a := by
  match l, h with
  | [], _ => exact ⟨none, rfl⟩
  | [a], _ => exact ⟨some a, rfl⟩

theorem eq_nil_of_scalarOneOrNone {α : Type} {l : List α} (h : scalarOneOrNone l = .ok none) :
    l = [] := by
  match l, h with
  | [], _ => rfl
  | [_], h => cases h
  | _ :: _ :: _, h => cases h

theorem eq_singleton_of_scalarOneOrNone {α : Type} {l : List α} {a : α}
    (h : scalarOneOrNone l = .ok (some a)) : l = [a] := by
  match l, h with
  | [], h => cases h
  | [b], h =>
      cases h
      rfl
  | _ :: _ :: _, h => cases h

theorem eq_of_mem_of_length_le {α : Type} {l : List α} (h : l.length ≤ 1) {a b : α} (ha : a ∈ l)
    (hb : b ∈ l) : a = b := by
  match l, h with
  | [c], _ => rw [List.mem_singleton.mp ha, List.mem_singleton.mp hb]

/-- A header that is absent or empty is no key. -/
def keyOf : Option String → Option String
  | some "" => none
  | key => key

theorem keyOf_some {k : String} (hk : k ≠ "") : keyOf (some k) = some k := by
  unfold keyOf
  split
  · rename_i heq
    exact absurd (Option.some.inj heq) hk
  · rfl

variable {F : Type}

namespace KeyedRequest

def endpoint : KeyedRequest F → Endpoint
  | .launch _ => .launches
  | .benchLaunch _ => .launchBenchmarks
  | .benchExternal _ => .benchmarks
  | .trial _ => .trials

def idempotencyKey : KeyedRequest F → Option String
  | .launch body => body.idempotencyKey
  | .benchLaunch body => body.idempotencyKey
  | .benchExternal body => body.idempotencyKey
  | .trial body => body.idempotencyKey

end KeyedRequest

/-- The runs of the session that carry the key. -/
def Db.keyedRuns (db : Db) (session : SessionId) (k : String) : List Run :=
  db.runs.rows.filter fun r => r.policySessionId == some session && r.idempotencyKey == some k

/-- `_idempotent_run`, which raises once several runs carry the key. -/
def Db.lookUpRun (db : Db) (session : SessionId) (key : Option String) :
    Except DbError (Option Run) :=
  match keyOf key with
  | none => .ok none
  | some k => scalarOneOrNone (db.keyedRuns session k)

namespace KeyStore

/-- The trials of the session that carry the key. -/
def keyedTrials (st : KeyStore F) (session : SessionId) (k : String) : List (PolicyTrial F) :=
  st.trials.rows.filter fun t => t.sessionId == session && t.idempotencyKey == some k

/-- The lookup of `report_trial`. -/
def lookUpTrial (st : KeyStore F) (session : SessionId) (key : Option String) :
    Except DbError (Option (PolicyTrial F)) :=
  match keyOf key with
  | none => .ok none
  | some k => scalarOneOrNone (st.keyedTrials session k)

/-- A request has succeeded. -/
def answer (st : KeyStore F) (request : KeyedRequest F) (row : AnswerRow) : KeyStore F :=
  { st with answers := st.answers ++ [(request, row)] }

end KeyStore

/-- Where no key is carried twice, the lookup finds the run `idempotentRun` finds. -/
theorem Db.lookUpRun_eq {db : Db} {session : SessionId} {key : Option String} {r : Option Run}
    (h : db.lookUpRun session key = .ok r) : db.idempotentRun session key = r := by
  unfold Db.lookUpRun at h
  unfold Db.idempotentRun
  split
  · cases h
    rfl
  · cases h
    rfl
  · rename_i k hk
    have hkey : keyOf (some k) = some k := keyOf_some fun he => hk (by rw [he])
    rw [hkey] at h
    rw [← List.head?_filter]
    cases r with
    | none => rw [show db.runs.rows.filter _ = [] from eq_nil_of_scalarOneOrNone h, List.head?_nil]
    | some r =>
        rw [show db.runs.rows.filter _ = [r] from eq_singleton_of_scalarOneOrNone h, List.head?_cons]

/-! ## The requests that add a run -/

/-- How far such a request has come: its activity is marked, what the endpoint asks first is checked
(and the parent launch read), the key is looked up, the live runs are read. -/
inductive KeyStage where
  | marked
  | checked (parent : Option Run)
  | looked (parent : Option Run)
  | seen (live : List Run)

/-- A request that holds the session's row. -/
structure OpenRequest (F : Type) where
  request : KeyedRequest F
  stage : KeyStage

/-- Whether the request passes what it checks before it marks the session's activity. A trial never
marks it. -/
def KeyedRequest.marks (s : PolicySession) : KeyedRequest F → Bool
  | .launch body => (requireExploring s body.searchDeadline body.now).isOk
  | .benchLaunch body => (requireScreening s body.suite body.searchDeadline body.now).isOk
  | .benchExternal body => (requireScreening s body.suite body.searchDeadline body.now).isOk
  | .trial _ => false

section Requests

variable (session : SessionId)

/-- `_mark_activity`, after the checks before it. -/
def markRequest (request : KeyedRequest F) (st : KeyStore F) : Option (OpenRequest F) :=
  match st.db.sessions.get? session with
  | none => none
  | some s => if request.marks s then some ⟨request, .marked⟩ else none

/-- What the endpoint checks before it looks the key up; a refusal rolls back. -/
def checkRequest (st : KeyStore F) (t : OpenRequest F) : Progress (KeyStore F) (OpenRequest F) :=
  match t.stage, t.request with
  | .marked, .launch _ => .more { t with stage := .checked none }
  | .marked, .benchLaunch body =>
      match st.db.servingLaunch session body.runId with
      | .ok parent => .more { t with stage := .checked (some parent) }
      | .error _ => .close st
  | .marked, .benchExternal body =>
      match st.db.sessions.get? session with
      | none => .close st
      | some s =>
          match checkSelfServed s body with
          | .ok () => .more { t with stage := .checked none }
          | .error _ => .close st
  | _, _ => .more t

/-- A known key is answered with its run. -/
def lookUpRequest (st : KeyStore F) (t : OpenRequest F) : Progress (KeyStore F) (OpenRequest F) :=
  match t.stage with
  | .checked parent =>
      match st.db.lookUpRun session t.request.idempotencyKey with
      | .ok none => .more { t with stage := .looked parent }
      | .ok (some r) => .close (st.answer t.request (.run r.id))
      | .error _ => .close st
  | _ => .more t

/-- A launch with a valid config reads the session's live runs. -/
def readRequest (st : KeyStore F) (t : OpenRequest F) : Progress (KeyStore F) (OpenRequest F) :=
  match t.stage, t.request with
  | .looked _, .launch body =>
      match body.config with
      | none => .close st
      | some _ => .more { t with stage := .seen (st.db.liveSessionRuns session) }
  | _, _ => .more t

/-- The store with the run the request adds, if it is not refused after all. -/
def addRun (s : PolicySession) (db : Db) : KeyStage → KeyedRequest F → Option Db
  | .seen live, .launch body =>
      match body.config with
      | none => none
      | some config =>
          match launchAllocation s (s.machineId.bind db.machines.get?) live body config with
          | .ok (cards, port) => some (addLaunch db s body config cards port)
          | .error _ => none
  | .looked (some parent), .benchLaunch body =>
      some (addLaunchBenchmark s body.idempotencyKey parent db)
  | .looked _, .benchExternal body =>
      match requireReachable (s.machineId.bind db.machines.get?), body.config with
      | .ok (), some config => some (addExternalBenchmark s body config db)
      | _, _ => none
  | _, _ => none

/-- Whether everything the request reads has been read. -/
def OpenRequest.ready (t : OpenRequest F) : Bool :=
  match t.stage, t.request with
  | .seen _, .launch _ => true
  | .looked _, .benchLaunch _ => true
  | .looked _, .benchExternal _ => true
  | _, _ => false

/-- The insert and the commit. -/
def commitRequest (st : KeyStore F) (t : OpenRequest F) : Progress (KeyStore F) (OpenRequest F) :=
  if t.ready then
    match (st.db.sessions.get? session).bind fun s => addRun s st.db t.stage t.request with
    | none => .close st
    | some db' => .close ({ st with db := db' }.answer t.request (.run st.db.runs.nextKey))
  else .more t

end Requests

/-! ## `POST /trials` -/

/-- An open `POST /trials`: its key is looked up, then the session's trials are counted. -/
structure OpenTrial (F : Type) where
  body : TrialIn F
  counted : Option Nat := none

/-- The row of a reported trial; a policy can only claim its own measurements. -/
def reportedTrial (s : PolicySession) (body : TrialIn F) (count : Nat) (id : TrialId) :
    PolicyTrial F where
  id := id
  sessionId := s.id
  campaignId := s.campaignId
  seq := count + 1
  config := body.config
  configHash := body.configHash
  source := .self
  reportedMetrics := body.reportedMetrics
  reportedObjectiveValue := body.reportedObjectiveValue
  reportedFeasible := body.reportedFeasible
  failureClass := takeText 64 body.failureClass
  durationSeconds := body.durationSeconds
  notes := takeText 4000 body.notes
  idempotencyKey := body.idempotencyKey

/-- The insert, the commit and the answer. -/
def KeyStore.addTrial (st : KeyStore F) (s : PolicySession) (body : TrialIn F) (count : Nat) :
    KeyStore F :=
  { st with trials := st.trials.insert (reportedTrial s body count) }.answer (.trial body)
    (.trial st.trials.nextKey)

/-! ## Any interleaving -/

/-- The requests of one session: those behind its row's lock, and the trials beside it. -/
structure Requests (F : Type) where
  runs : Locked (KeyStore F) Nat (OpenRequest F)
  trials : Nat → Option (OpenTrial F) := fun _ => none

/-- What can happen next: a statement of a request, or a run of the worker moving on. -/
inductive KeyStep where
  | mark (k : Nat)
  | check (k : Nat)
  | lookUp (k : Nat)
  | readLive (k : Nat)
  | commit (k : Nat)
  | lookUpTrial (k : Nat)
  | countTrials (k : Nat)
  | commitTrial (k : Nat)
  | move (id : RunId) (target : RunStatus)

namespace Requests

/-- The requests before any has come. -/
def start (st : KeyStore F) : Requests F where
  runs := { store := st }

def store (d : Requests F) : KeyStore F := d.runs.store

section Steps

variable (session : SessionId) (requests : Nat → KeyedRequest F)

/-- The lookup of a trial request: it goes on without the row's lock when it finds nothing. -/
def lookUpTrialOf (d : Requests F) (k : Nat) : Requests F :=
  match requests k, d.trials k with
  | .trial body, none =>
      match d.store.lookUpTrial session body.idempotencyKey with
      | .ok none => { d with trials := Function.update d.trials k (some { body := body }) }
      | .ok (some t) =>
          { d with runs := d.runs.elsewhere fun st => st.answer (.trial body) (.trial t.id) }
      | .error _ => d
  | _, _ => d

/-- How many trials the session has. -/
def countTrialsOf (d : Requests F) (k : Nat) : Requests F :=
  match d.trials k with
  | none => d
  | some t =>
      let count := d.store.trials.rows.countP fun t => t.sessionId == session
      { d with trials := Function.update d.trials k (some { t with counted := some count }) }

def commitTrialOf (d : Requests F) (k : Nat) : Requests F :=
  match d.trials k, d.store.db.sessions.get? session with
  | some { body := body, counted := some count }, some s =>
      { runs := d.runs.elsewhere fun st => st.addTrial s body count
        trials := Function.update d.trials k none }
  | _, _ => d

/-- One step of the interleaving. -/
def step (d : Requests F) : KeyStep → Requests F
  | .mark k => { d with runs := d.runs.enter k (markRequest session (requests k)) }
  | .check k => { d with runs := d.runs.proceed k (checkRequest session) }
  | .lookUp k => { d with runs := d.runs.proceed k (lookUpRequest session) }
  | .readLive k => { d with runs := d.runs.proceed k (readRequest session) }
  | .commit k => { d with runs := d.runs.proceed k (commitRequest session) }
  | .lookUpTrial k => d.lookUpTrialOf session requests k
  | .countTrials k => d.countTrialsOf session k
  | .commitTrial k => d.commitTrialOf session k
  | .move id target =>
      { d with runs := d.runs.elsewhere fun st =>
          { st with db := (transition st.db id target).state } }

end Steps

end Requests

/-! ## One row a key -/

section OneRow

variable {session : SessionId} {k : String}

/-- The run rows with one more. -/
theorem Db.keyedRuns_append {db db' : Db} {r : Run} (h : db'.runs.rows = db.runs.rows ++ [r])
    (hsession : r.policySessionId = some session) :
    db'.keyedRuns session k =
      db.keyedRuns session k ++ if r.idempotencyKey = some k then [r] else [] := by
  unfold Db.keyedRuns
  rw [h, List.filter_append]
  congr 1
  by_cases hkey : r.idempotencyKey = some k
  · simp [hsession, hkey]
  · simp [hkey]

/-- What a request adds carries its own key and the next id. -/
theorem addRun_spec {s : PolicySession} {db db' : Db} {stage : KeyStage} {request : KeyedRequest F}
    (h : addRun s db stage request = some db') :
    ∃ r, db'.runs.rows = db.runs.rows ++ [r] ∧ r.id = db.runs.nextKey ∧
      r.policySessionId = some s.id ∧ r.idempotencyKey = request.idempotencyKey := by
  unfold addRun at h
  split at h
  · split at h
    · cases h
    · split at h
      · cases h
        exact ⟨_, rfl, rfl, rfl, rfl⟩
      · cases h
  · cases h
    exact ⟨_, rfl, rfl, rfl, rfl⟩
  · split at h
    · cases h
      exact ⟨_, rfl, rfl, rfl, rfl⟩
    · cases h
  · cases h

/-- A transition moves no key: the rows that carry it are the same ones. -/
theorem transition_keyedRuns (db : Db) (id : RunId) (target : RunStatus) :
    ((transition db id target).state.keyedRuns session k).map Run.id =
      (db.keyedRuns session k).map Run.id := by
  unfold transition
  cases db.runs.get? id with
  | none => rfl
  | some q =>
      dsimp only
      split_ifs
      · simp only [Ran.done_state, Db.moveRun, Db.keyedRuns, Table.rows_modify]
        induction db.runs.rows with
        | nil => rfl
        | cons r l ih =>
            rw [List.map_cons, List.filter_cons, List.filter_cons]
            by_cases hid : r.id = id
            · simp only [hid, if_true]
              split <;> simp [hid, ih]
            · simp only [hid, if_false]
              split <;> simp [ih]
      · rfl

/-- A row that a request with the key was answered with. -/
def AnswerRow.Keyed (session : SessionId) (k : String) (st : KeyStore F) (endpoint : Endpoint) :
    AnswerRow → Prop
  | .run id => endpoint ≠ .trials ∧ id ∈ (st.db.keyedRuns session k).map Run.id
  | .trial id => endpoint = .trials ∧ id ∈ (st.keyedTrials session k).map PolicyTrial.id

/-- At most one run and one trial carry the key, and they are what its requests were answered. -/
structure OneRow (session : SessionId) (k : String) (st : KeyStore F) : Prop where
  runs : (st.db.keyedRuns session k).length ≤ 1
  trials : (st.keyedTrials session k).length ≤ 1
  answers : ∀ a ∈ st.answers, a.1.idempotencyKey = some k → a.2.Keyed session k st a.1.endpoint

/-- What an open request knows: once it has looked its key up, no run carries it. -/
structure OpenRequest.Fresh (session : SessionId) (k : String) (st : KeyStore F) (t : OpenRequest F) :
    Prop where
  endpoint : t.request.endpoint ≠ .trials
  unused : t.request.idempotencyKey = some k →
    match t.stage with
    | .looked _ | .seen _ => st.db.keyedRuns session k = []
    | _ => True

/-- What an open trial request knows: it is the only one with the key, and no trial carries it. -/
def TrialsFresh (session : SessionId) (k : String) (d : Requests F) : Prop :=
  ∀ j t, d.trials j = some t → t.body.idempotencyKey = some k →
    d.store.keyedTrials session k = [] ∧
      ∀ j' t', d.trials j' = some t' → t'.body.idempotencyKey = some k → j' = j

/-- The invariant of the interleaving. -/
structure KeysHold (session : SessionId) (k : String) (d : Requests F) : Prop where
  runs : d.runs.Guarded (OneRow session k) (fun st t => t.Fresh session k st)
  trials : TrialsFresh session k d

namespace OneRow

variable {st : KeyStore F}

theorem answer (h : OneRow session k st) {request : KeyedRequest F} {row : AnswerRow}
    (hrow : request.idempotencyKey = some k → row.Keyed session k st request.endpoint) :
    OneRow session k (st.answer request row) := by
  refine ⟨h.runs, h.trials, ?_⟩
  intro a ha hkey
  rcases List.mem_append.mp ha with ha | ha
  · exact h.answers a ha hkey
  · rw [List.mem_singleton.mp ha] at hkey ⊢
    exact hrow hkey

/-- Rows that carry the key stay the same ones. -/
theorem of_keyedRuns (h : OneRow session k st) {db : Db}
    (hids : (db.keyedRuns session k).map Run.id = (st.db.keyedRuns session k).map Run.id) :
    OneRow session k { st with db := db } := by
  refine ⟨?_, h.trials, ?_⟩
  · calc
      (db.keyedRuns session k).length
          = ((db.keyedRuns session k).map Run.id).length := by rw [List.length_map]
      _ = (st.db.keyedRuns session k).length := by rw [hids, List.length_map]
      _ ≤ 1 := h.runs
  · intro a ha hkey
    have hold := h.answers a ha hkey
    cases hrow : a.2 with
    | run id =>
        rw [hrow] at hold
        exact ⟨hold.1, by rw [hids]; exact hold.2⟩
    | trial id =>
        rw [hrow] at hold
        exact hold

/-- A run under a key nobody carries yet, or under another key. -/
theorem addRun (h : OneRow session k st) {request : KeyedRequest F} {db : Db} {r : Run}
    (hendpoint : request.endpoint ≠ .trials)
    (hunused : request.idempotencyKey = some k → st.db.keyedRuns session k = [])
    (hrows : db.runs.rows = st.db.runs.rows ++ [r]) (hsession : r.policySessionId = some session)
    (hkey : r.idempotencyKey = request.idempotencyKey) :
    OneRow session k ({ st with db := db }.answer request (.run r.id)) := by
  have happend := Db.keyedRuns_append (k := k) hrows hsession
  have hadded : OneRow session k { st with db := db } := by
    refine ⟨?_, h.trials, ?_⟩
    · show (db.keyedRuns session k).length ≤ 1
      rw [happend, hkey]
      by_cases hk : request.idempotencyKey = some k
      · simp [hunused hk, hk]
      · simpa [hk] using h.runs
    · intro a ha hak
      have hold := h.answers a ha hak
      cases hrow : a.2 with
      | run id =>
          rw [hrow] at hold
          refine ⟨hold.1, ?_⟩
          show id ∈ (db.keyedRuns session k).map Run.id
          rw [happend, List.map_append]
          exact List.mem_append_left _ hold.2
      | trial id =>
          rw [hrow] at hold
          exact hold
  refine hadded.answer ?_
  intro hk
  refine ⟨hendpoint, ?_⟩
  show r.id ∈ (db.keyedRuns session k).map Run.id
  rw [happend, if_pos (hkey.trans hk)]
  exact List.mem_map_of_mem (List.mem_append_right _ (List.mem_singleton_self r))

/-- A trial under a key nobody carries yet, or under another key. -/
theorem addTrial (h : OneRow session k st) {s : PolicySession} (hs : s.id = session)
    {body : TrialIn F} (count : Nat)
    (hunused : body.idempotencyKey = some k → st.keyedTrials session k = []) :
    OneRow session k (st.addTrial s body count) := by
  let added : KeyStore F := { st with trials := st.trials.insert (reportedTrial s body count) }
  -- the rows of the key are those before, and the new one where it carries the key
  have happend : added.keyedTrials session k = st.keyedTrials session k ++
      if body.idempotencyKey = some k then [reportedTrial s body count st.trials.nextKey] else [] := by
    show List.filter _ (st.trials.rows ++ [reportedTrial s body count st.trials.nextKey]) = _
    rw [List.filter_append]
    congr 1
    by_cases hk : body.idempotencyKey = some k
    · simp [reportedTrial, hs, hk]
    · simp [reportedTrial, hk]
  have hadded : OneRow session k added := by
    refine ⟨h.runs, ?_, ?_⟩
    · rw [happend]
      by_cases hk : body.idempotencyKey = some k
      · simp [hunused hk, hk]
      · simpa [hk] using h.trials
    -- an answer that was given names a row that is still there
    · intro a ha hak
      have hold := h.answers a ha hak
      cases hrow : a.2 with
      | run id =>
          rw [hrow] at hold
          exact hold
      | trial id =>
          rw [hrow] at hold
          refine ⟨hold.1, ?_⟩
          rw [happend, List.map_append]
          exact List.mem_append_left _ hold.2
  refine hadded.answer ?_
  -- the request's own answer is the row it has just added
  intro (hk : body.idempotencyKey = some k)
  refine ⟨rfl, ?_⟩
  rw [happend, if_pos hk]
  exact List.mem_map.mpr ⟨_, List.mem_append_right _ (List.mem_singleton_self _), rfl⟩

end OneRow

/-- A statement that goes on knows what it read, and one that ends its transaction leaves one row a
key and no new trial. -/
def SoundProgress (session : SessionId) (k : String) (st : KeyStore F) :
    Progress (KeyStore F) (OpenRequest F) → Prop
  | .more t => t.Fresh session k st
  | .close st' => OneRow session k st' ∧ st'.trials = st.trials

section Statements

variable {st : KeyStore F} {t : OpenRequest F}

theorem checkRequest_sound (h : OneRow session k st) (ht : t.Fresh session k st) :
    SoundProgress session k st (checkRequest session st t) := by
  unfold checkRequest
  split
  · exact ⟨ht.endpoint, fun _ => trivial⟩
  · split
    · exact ⟨ht.endpoint, fun _ => trivial⟩
    · exact ⟨h, rfl⟩
  · split
    · exact ⟨h, rfl⟩
    · split
      · exact ⟨ht.endpoint, fun _ => trivial⟩
      · exact ⟨h, rfl⟩
  · exact ht

theorem lookUpRequest_sound (hk : k ≠ "") (h : OneRow session k st) (ht : t.Fresh session k st) :
    SoundProgress session k st (lookUpRequest session st t) := by
  unfold lookUpRequest
  split
  · split
    · rename_i hfound
      refine ⟨ht.endpoint, fun hkey => ?_⟩
      -- the lookup was made behind the row's lock, so nothing has been added since
      rw [hkey, Db.lookUpRun, keyOf_some hk] at hfound
      exact eq_nil_of_scalarOneOrNone hfound
    · rename_i r hfound
      refine ⟨h.answer fun hkey => ⟨ht.endpoint, ?_⟩, rfl⟩
      rw [hkey, Db.lookUpRun, keyOf_some hk] at hfound
      rw [eq_singleton_of_scalarOneOrNone hfound]
      exact List.mem_singleton_self _
    · exact ⟨h, rfl⟩
  · exact ht

theorem readRequest_sound (h : OneRow session k st) (ht : t.Fresh session k st) :
    SoundProgress session k st (readRequest session st t) := by
  unfold readRequest
  split
  · rename_i hstage hrequest
    split
    · exact ⟨h, rfl⟩
    · refine ⟨ht.endpoint, fun hkey => ?_⟩
      have hunused := ht.unused hkey
      rw [hstage] at hunused
      exact hunused
  · exact ht

theorem commitRequest_sound (h : OneRow session k st) (ht : t.Fresh session k st) :
    SoundProgress session k st (commitRequest session st t) := by
  unfold commitRequest
  split_ifs with hready
  · split
    · exact ⟨h, rfl⟩
    · rename_i db' hadd
      rcases Option.bind_eq_some_iff.mp hadd with ⟨s, hs, hadd⟩
      rcases addRun_spec hadd with ⟨r, hrows, hid, hsession, hkey⟩
      rw [(Table.get?_eq_some_iff.mp hs).2] at hsession
      rw [← hid]
      refine ⟨h.addRun ht.endpoint ?_ hrows hsession hkey, rfl⟩
      intro hk
      have hunused := ht.unused hk
      unfold OpenRequest.ready at hready
      split at hready
      · rename_i hstage _
        rw [hstage] at hunused
        exact hunused
      · rename_i hstage _
        rw [hstage] at hunused
        exact hunused
      · rename_i hstage _
        rw [hstage] at hunused
        exact hunused
      · cases hready
  · exact ht

end Statements

/-! ## Every step -/

namespace KeysHold

variable {d : Requests F}

theorem proceed (h : KeysHold session k d) (j : Nat)
    {f : KeyStore F → OpenRequest F → Progress (KeyStore F) (OpenRequest F)}
    (hf : ∀ st t, OneRow session k st → t.Fresh session k st → SoundProgress session k st (f st t)) :
    KeysHold session k { d with runs := d.runs.proceed j f } := by
  refine ⟨h.runs.proceed j ?_ ?_, ?_⟩
  · intro t t' ht hmore
    have hsound := hf d.runs.store t h.runs.inv ht
    rwa [hmore] at hsound
  · intro t st ht hclose
    have hsound := hf d.runs.store t h.runs.inv ht
    rw [hclose] at hsound
    exact hsound.1
  · -- no trial is added behind the lock
    have htrials : (d.runs.proceed j f).store.trials = d.runs.store.trials := by
      rcases d.runs.proceed_store j f with hstore | ⟨t, st, hopen, hclose, hstore⟩
      · rw [hstore]
      · have hsound := hf d.runs.store t h.runs.inv (h.runs.held j t hopen).2
        rw [hclose] at hsound
        rw [hstore, hsound.2]
    intro i t hi hkey
    have hold := h.trials i t hi hkey
    refine ⟨?_, hold.2⟩
    have hkeyed := hold.1
    unfold KeyStore.keyedTrials Requests.store at hkeyed ⊢
    rw [htrials]
    exact hkeyed

/-- A write beside the lock that keeps the rows' keys. -/
theorem elsewhere (h : KeysHold session k d) {g : KeyStore F → KeyStore F}
    {trials : Nat → Option (OpenTrial F)} (hrow : OneRow session k (g d.store))
    (hruns : d.store.db.keyedRuns session k = [] → (g d.store).db.keyedRuns session k = [])
    (htrials : TrialsFresh session k ⟨d.runs.elsewhere g, trials⟩) :
    KeysHold session k ⟨d.runs.elsewhere g, trials⟩ := by
  refine ⟨h.runs.elsewhere hrow ?_, htrials⟩
  intro t ht
  refine ⟨ht.endpoint, ?_⟩
  intro hkey
  have hunused := ht.unused hkey
  cases hstage : t.stage with
  | marked => trivial
  | checked parent => trivial
  | looked parent =>
      rw [hstage] at hunused
      exact hruns hunused
  | seen live =>
      rw [hstage] at hunused
      exact hruns hunused

end KeysHold

/-- No `POST /trials` with the key looks it up while another one with it is between its lookup and its
commit. -/
def TrialsApart (requests : Nat → KeyedRequest F) (k : String) (d : Requests F) : KeyStep → Prop
  | .lookUpTrial j => (requests j).idempotencyKey = some k →
      ∀ i t, d.trials i = some t → t.body.idempotencyKey ≠ some k
  | _ => True

theorem lookUpTrialOf_keysHold {requests : Nat → KeyedRequest F} {d : Requests F} (hk : k ≠ "")
    (h : KeysHold session k d) {j : Nat} (hapart : TrialsApart requests k d (.lookUpTrial j)) :
    KeysHold session k (d.lookUpTrialOf session requests j) := by
  unfold Requests.lookUpTrialOf
  split
  · rename_i body hrequest hclosed
    -- no other open request carries the key that is looked up
    have halone : body.idempotencyKey = some k →
        ∀ i t, d.trials i = some t → t.body.idempotencyKey ≠ some k := by
      intro hkey
      exact hapart (by rw [hrequest]; exact hkey)
    split
    · rename_i hfound
      -- no row was found: the request stays open, and is the only one of its key
      refine ⟨h.runs, ?_⟩
      intro i t hi hkey
      by_cases hij : i = j
      · subst hij
        have hbody : { body := body } = t := by simpa using hi
        subst hbody
        rw [hkey, KeyStore.lookUpTrial, keyOf_some hk] at hfound
        refine ⟨eq_nil_of_scalarOneOrNone hfound, ?_⟩
        intro i' t' hi' hkey'
        by_contra hne
        exact halone hkey i' t' (by simpa [hne] using hi') hkey'
      · have hopen : d.trials i = some t := by simpa [hij] using hi
        refine ⟨(h.trials i t hopen hkey).1, ?_⟩
        intro i' t' hi' hkey'
        by_cases hij' : i' = j
        · -- the request that has just looked carries another key
          subst hij'
          have hbody : { body := body } = t' := by simpa using hi'
          subst hbody
          exact absurd hkey (halone hkey' i t hopen)
        · exact (h.trials i t hopen hkey).2 i' t' (by simpa [hij'] using hi') hkey'
    · rename_i t hfound
      -- a row was found: it is answered, and it is the one row of the key
      refine h.elsewhere (h.runs.inv.answer ?_) id h.trials
      intro (hkey : body.idempotencyKey = some k)
      rw [hkey, KeyStore.lookUpTrial, keyOf_some hk] at hfound
      refine ⟨rfl, ?_⟩
      show t.id ∈ (d.store.keyedTrials session k).map PolicyTrial.id
      rw [eq_singleton_of_scalarOneOrNone hfound]
      exact List.mem_singleton_self _
    · exact h
  · exact h

theorem countTrialsOf_keysHold {d : Requests F} (h : KeysHold session k d) (j : Nat) :
    KeysHold session k (d.countTrialsOf session j) := by
  unfold Requests.countTrialsOf
  split
  · exact h
  · rename_i t ht
    -- the request stays the one it was
    have hopen : ∀ i t', Function.update d.trials j
        (some { t with counted := some (d.store.trials.rows.countP fun t => t.sessionId == session) })
          i = some t' → ∃ t, d.trials i = some t ∧ t.body = t'.body := by
      intro i t' hi
      by_cases hij : i = j
      · subst hij
        rw [Function.update_self] at hi
        cases hi
        exact ⟨t, ht, rfl⟩
      · rw [Function.update_of_ne hij] at hi
        exact ⟨t', hi, rfl⟩
    refine ⟨h.runs, ?_⟩
    intro i t' hi hkey
    rcases hopen i t' hi with ⟨u, hu, hbody⟩
    have hold := h.trials i u hu (hbody ▸ hkey)
    refine ⟨hold.1, ?_⟩
    intro i' t'' hi' hkey'
    rcases hopen i' t'' hi' with ⟨u', hu', hbody'⟩
    exact hold.2 i' u' hu' (hbody' ▸ hkey')

theorem commitTrialOf_keysHold {d : Requests F} (h : KeysHold session k d) (j : Nat) :
    KeysHold session k (d.commitTrialOf session j) := by
  unfold Requests.commitTrialOf
  split
  · rename_i body count s hopen hs
    have hsession := (Table.get?_eq_some_iff.mp hs).2
    have hunused : body.idempotencyKey = some k → d.store.keyedTrials session k = [] := by
      intro hkey
      exact (h.trials j _ hopen hkey).1
    refine h.elsewhere (h.runs.inv.addTrial hsession count hunused) id ?_
    intro i t hi hkey
    have hij : i ≠ j := by
      rintro rfl
      simp at hi
    have hi : d.trials i = some t := by simpa [hij] using hi
    have hold := h.trials i t hi hkey
    -- the row that was added carries another key, since one request at a time has this one
    have hother : body.idempotencyKey ≠ some k := by
      intro hbody
      exact hij (hold.2 j _ hopen hbody).symm
    refine ⟨?_, ?_⟩
    · show List.filter _ (d.store.trials.rows ++ [reportedTrial s body count _]) = []
      rw [List.filter_append, show d.store.trials.rows.filter _ = [] from hold.1]
      simp [reportedTrial, hother]
    · intro i' t' hi' hkey'
      by_cases hij' : i' = j
      · subst hij'
        simp at hi'
      · exact hold.2 i' t' (by simpa [hij'] using hi') hkey'
  · exact h

/-- One step keeps one row a key. -/
theorem step_keysHold {requests : Nat → KeyedRequest F} {d : Requests F} (hk : k ≠ "")
    (h : KeysHold session k d) (a : KeyStep) (hapart : TrialsApart requests k d a) :
    KeysHold session k (d.step session requests a) := by
  cases a with
  | mark j =>
      refine ⟨h.runs.enter j ?_, ?_⟩
      · intro t ht
        unfold markRequest at ht
        split at ht
        · cases ht
        · split_ifs at ht with hmarks
          cases ht
          refine ⟨?_, fun _ => trivial⟩
          intro he
          cases hrequest : requests j <;> simp [hrequest, KeyedRequest.marks, KeyedRequest.endpoint] at *
      · intro i t hi hkey
        have hold := h.trials i t hi hkey
        refine ⟨?_, hold.2⟩
        show (d.runs.enter j _).store.keyedTrials session k = []
        rw [Locked.enter_store]
        exact hold.1
  | check j => exact h.proceed j fun st t => checkRequest_sound
  | lookUp j => exact h.proceed j fun st t => lookUpRequest_sound hk
  | readLive j => exact h.proceed j fun st t => readRequest_sound
  | commit j => exact h.proceed j fun st t => commitRequest_sound
  | lookUpTrial j => exact lookUpTrialOf_keysHold hk h hapart
  | countTrials j => exact countTrialsOf_keysHold h j
  | commitTrial j => exact commitTrialOf_keysHold h j
  | move id target =>
      have hids := @transition_keyedRuns session k d.store.db id target
      refine h.elsewhere (h.runs.inv.of_keyedRuns hids) ?_ h.trials
      intro hnil
      rw [hnil, List.map_nil, List.map_eq_nil_iff] at hids
      exact hids

end OneRow

/-- In every interleaving of any number of keyed requests of one session, for a key that is not empty
and that no two `POST /trials` look up at once: at most one run and one trial carry it, its requests to
one endpoint are all answered with the same row, and no lookup finds several rows. -/
theorem keys_hold (session : SessionId) (requests : Nat → KeyedRequest F) (st : KeyStore F)
    {k : String} (hk : k ≠ "") (hstart : OneRow session k st) (steps : List KeyStep)
    (hsteps : Along (Requests.step session requests) (TrialsApart requests k) (.start st) steps) :
    let final := (runFrom (Requests.step session requests) (.start st) steps).store
    ((final.db.keyedRuns session k).length ≤ 1 ∧ (final.keyedTrials session k).length ≤ 1) ∧
      (∀ a ∈ final.answers, ∀ b ∈ final.answers, a.1.idempotencyKey = some k →
        b.1.idempotencyKey = some k → a.1.endpoint = b.1.endpoint → a.2 = b.2) ∧
      (∃ r, final.db.lookUpRun session (some k) = .ok r) ∧
      ∃ t, final.lookUpTrial session (some k) = .ok t := by
  intro final
  -- the invariant along the interleaving; everything else is read off the store it ends in
  have hend : KeysHold session k (runFrom (Requests.step session requests) (.start st) steps) := by
    refine invariant_runFrom (I := KeysHold session k) ?_ ?_ hsteps
    · intro d a hd ha
      exact step_keysHold hk hd a ha
    · exact ⟨Locked.Guarded.initial hstart, by simp [TrialsFresh, Requests.start]⟩
  have hrow : OneRow session k final := hend.runs.inv
  refine ⟨⟨hrow.runs, hrow.trials⟩, ?_, ?_, ?_⟩
  · intro a ha b hb hka hkb hend
    -- two answers of one endpoint name rows of one table, which holds one row of the key
    have ha' := hrow.answers a ha hka
    have hb' := hrow.answers b hb hkb
    rw [hend] at ha'
    cases hra : a.2 with
    | run id =>
        cases hrb : b.2 with
        | run id' =>
            rw [hra] at ha'
            rw [hrb] at hb'
            exact congrArg _ (eq_of_mem_of_length_le (by simpa using hrow.runs) ha'.2 hb'.2)
        | trial id' =>
            rw [hra] at ha'
            rw [hrb] at hb'
            exact absurd hb'.1 ha'.1
    | trial id =>
        cases hrb : b.2 with
        | run id' =>
            rw [hra] at ha'
            rw [hrb] at hb'
            exact absurd ha'.1 hb'.1
        | trial id' =>
            rw [hra] at ha'
            rw [hrb] at hb'
            exact congrArg _ (eq_of_mem_of_length_le (by simpa using hrow.trials) ha'.2 hb'.2)
  · rw [Db.lookUpRun, keyOf_some hk]
    exact scalarOneOrNone_of_length hrow.runs
  · rw [KeyStore.lookUpTrial, keyOf_some hk]
    exact scalarOneOrNone_of_length hrow.trials

/-- A session that has asked for nothing yet. -/
def noRequestYet : KeyStore Empty where
  db := { sessions := .single searchingSession }

theorem noRequestYet_oneRow (k : String) : OneRow 1 k noRequestYet :=
  ⟨by simp [noRequestYet, Db.keyedRuns], by simp [noRequestYet, KeyStore.keyedTrials],
    by simp [noRequestYet]⟩

/-- A launch and its retry at once, after a trial under the same key: the retry waits at the session's
row, then finds the first one's run. -/
theorem keys_hold_retry :
    let requests : Nat → KeyedRequest Empty := fun j =>
      if j = 0 then .trial { idempotencyKey := some "a" }
      else .launch { gpuIndices := [0], idempotencyKey := some "a",
                     config := some { cards := 1, podCards := 1, worldSize := 1 } }
    let steps : List KeyStep :=
      [.lookUpTrial 0, .mark 1, .mark 2, .countTrials 0, .check 1, .lookUp 1, .readLive 1,
        .commitTrial 0, .lookUp 2, .commit 1, .mark 2, .check 2, .lookUp 2]
    let final := (runFrom (Requests.step 1 requests) (.start noRequestYet) steps).store
    final.answers.map Prod.snd = [.trial 1, .run 1, .run 1] ∧
      (final.db.keyedRuns 1 "a").length ≤ 1 ∧ (final.keyedTrials 1 "a").length ≤ 1 := by
  refine ⟨by decide, (keys_hold 1 _ noRequestYet (by decide) (noRequestYet_oneRow _) _ ?_).1⟩
  refine ⟨?_, trivial, trivial, trivial, trivial, trivial, trivial, trivial, trivial, trivial, trivial,
    trivial, trivial, trivial⟩
  intro _ i t hopen
  cases hopen

/-- A trial and its retry at once: neither waits, both look before either has committed, both are
added, and the next lookup of the key raises. -/
theorem keys_shared :
    let requests : Nat → KeyedRequest Empty := fun _ => .trial { idempotencyKey := some "a" }
    let steps : List KeyStep :=
      [.lookUpTrial 0, .lookUpTrial 1, .countTrials 0, .countTrials 1, .commitTrial 0, .commitTrial 1]
    let final := (runFrom (Requests.step 1 requests) (.start noRequestYet) steps).store
    OneRow 1 "a" noRequestYet ∧
      (final.keyedTrials 1 "a").map (fun t => (t.id, t.seq)) = [(1, 1), (2, 1)] ∧
      final.answers.map (fun a => (a.1.idempotencyKey, a.1.endpoint, a.2)) =
        [(some "a", .trials, .trial 1), (some "a", .trials, .trial 2)] ∧
      (final.lookUpTrial 1 (some "a")).isOk = false := by
  refine ⟨noRequestYet_oneRow _, by decide, by decide, by decide⟩

end AutoTune
