import AutoTune.Store.Rows

/-!
# Who occupies a machine

The queries every placer and every janitor starts from. Membership of a run is read from its nodes,
so that a gang's worker machines count as occupied; sessions are not runs and are asked about
separately.
-/

namespace AutoTune

namespace Db

/-! ## Row updates -/

def setRun (db : Db) (id : RunId) (f : Run → Run)
    (hf : ∀ r, (f r).id = r.id := by intro r; rfl) : Db :=
  { db with runs := db.runs.modify id f hf }

def setMachine (db : Db) (id : MachineId) (f : Machine → Machine)
    (hf : ∀ m, (f m).id = m.id := by intro m; rfl) : Db :=
  { db with machines := db.machines.modify id f hf }

def setCampaign (db : Db) (id : CampaignId) (f : Campaign → Campaign)
    (hf : ∀ c, (f c).id = c.id := by intro c; rfl) : Db :=
  { db with campaigns := db.campaigns.modify id f hf }

def setCandidate (db : Db) (id : CandidateId) (f : Candidate → Candidate)
    (hf : ∀ c, (f c).id = c.id := by intro c; rfl) : Db :=
  { db with candidates := db.candidates.modify id f hf }

def setSession (db : Db) (id : SessionId) (f : PolicySession → PolicySession)
    (hf : ∀ s, (f s).id = s.id := by intro s; rfl) : Db :=
  { db with sessions := db.sessions.modify id f hf }

/-- The candidate is queued again. -/
abbrev requeue (db : Db) (candidate : CandidateId) : Db :=
  db.setCandidate candidate fun c => { c with status := .valid }

/-- The machine is taken. -/
abbrev reserve (db : Db) (machine : MachineId) : Db :=
  db.setMachine machine fun m => { m with state := .reserved }

/-- The status of a session, and nothing else. -/
abbrev setStatus (db : Db) (id : SessionId) (status : SessionStatus) : Db :=
  db.setSession id fun s => { s with status := status }

/-- A run under the next key, whatever key the row names. -/
abbrev withRun (db : Db) (row : Run) : Db :=
  { db with runs := db.runs.insert fun id => { row with id := id } }

@[simp] theorem setRun_runs (db : Db) (id : RunId) (f : Run → Run) (hf : ∀ r, (f r).id = r.id) :
    (db.setRun id f hf).runs = db.runs.modify id f hf := rfl

theorem mem_setRun {db : Db} {id : RunId} {f : Run → Run} {hf : ∀ r, (f r).id = r.id} {r' : Run} :
    r' ∈ (db.setRun id f hf).runs.rows ↔
      ∃ r ∈ db.runs.rows, r' = if r.id = id then f r else r := by
  simp [eq_comm]

theorem mem_setMachine {db : Db} {id : MachineId} {f : Machine → Machine}
    {hf : ∀ m, (f m).id = m.id} {m' : Machine} :
    m' ∈ (db.setMachine id f hf).machines.rows ↔
      ∃ m ∈ db.machines.rows, m' = if m.id = id then f m else m := by
  simp [setMachine, eq_comm]

theorem mem_setCampaign {db : Db} {id : CampaignId} {f : Campaign → Campaign}
    {hf : ∀ c, (f c).id = c.id} {c' : Campaign} :
    c' ∈ (db.setCampaign id f hf).campaigns.rows ↔
      ∃ c ∈ db.campaigns.rows, c' = if c.id = id then f c else c := by
  simp [setCampaign, eq_comm]

theorem mem_setCandidate {db : Db} {id : CandidateId} {f : Candidate → Candidate}
    {hf : ∀ c, (f c).id = c.id} {c' : Candidate} :
    c' ∈ (db.setCandidate id f hf).candidates.rows ↔
      ∃ c ∈ db.candidates.rows, c' = if c.id = id then f c else c := by
  simp [setCandidate, eq_comm]

theorem mem_setSession {db : Db} {id : SessionId} {f : PolicySession → PolicySession}
    {hf : ∀ s, (f s).id = s.id} {s' : PolicySession} :
    s' ∈ (db.setSession id f hf).sessions.rows ↔
      ∃ s ∈ db.sessions.rows, s' = if s.id = id then f s else s := by
  simp [setSession, eq_comm]

/-! ## Occupants -/

/-- Runs not yet in a terminal state. -/
def liveRuns (db : Db) : List Run := db.runs.rows.filter Run.live

/-- Runs currently occupying this machine, as master or as worker. -/
def liveRunsOn (db : Db) (m : MachineId) : List Run :=
  db.runs.rows.filter fun r => r.live && r.onMachine m

/-- Runs on this machine whose container is not confirmed gone. -/
def teardownPendingOn (db : Db) (m : MachineId) : List Run :=
  db.runs.rows.filter fun r => r.teardownPending && r.onMachine m

/-- The nodes a run has on this machine. -/
def nodesOn (r : Run) (m : MachineId) : List RunNode :=
  r.nodes.filter fun n => n.machineId == some m

/-- The live nodes on this machine: what its cards are held by. -/
def liveNodesOn (db : Db) (m : MachineId) : List RunNode :=
  (db.runs.rows.filter Run.live).flatMap fun r => nodesOn r m

/-- `teardownPendingOn` at node granularity. -/
def teardownPendingNodesOn (db : Db) (m : MachineId) : List RunNode :=
  (db.runs.rows.filter Run.teardownPending).flatMap fun r => nodesOn r m

/-- Is this machine part of a live multi-node run right now? -/
def machineHostsLiveGang (db : Db) (m : MachineId) : Bool :=
  db.runs.rows.any fun r => r.live && r.onMachine m && decide (1 < r.nodes.length)

/-- The live policy sessions on this machine. -/
def liveSessionsOn (db : Db) (m : MachineId) : List PolicySession :=
  db.sessions.rows.filter fun s => s.live && s.machineId == some m

/-- Is a policy session currently holding this machine? -/
def machineHasLiveSession (db : Db) (m : MachineId) : Bool :=
  db.sessions.rows.any fun s => s.live && s.machineId == some m

/-- The campaign of a run. -/
def campaignOf (db : Db) (r : Run) : Option Campaign := db.campaigns.get? r.campaignId

/-! ## Groups -/

/-- A group's machines in rank order, master first. -/
def membersByRank (db : Db) (group : String) : List Machine :=
  (db.machines.rows.filter fun m => m.group.any fun g => g.1 == group).mergeSort fun a b =>
    decide ((a.group.elim 0 Prod.snd) ≤ (b.group.elim 0 Prod.snd))

end Db

/-! ## Admission -/

/-- May a run start on this machine right now? -/
def acceptsNewWork (m : Machine) : Bool :=
  m.state != .away && m.leaseState != .draining

/-- A plugin's reservation: cards of a machine admitted to a campaign whose run is not placed, and who it
is held for as a person reads it. -/
structure Reservation where
  campaignId : CampaignId
  cards : Nat
  share : Bool
  label : String := ""
deriving DecidableEq, Repr

/-- What the enabled plugins reserve on each machine. -/
abbrev Reservations := MachineId → List Reservation

/-- Every reservation on this machine that is not this campaign's own. -/
def reservationsOn (held : Reservations) (m : MachineId) (excluded : CampaignId) :
    List Reservation :=
  (held m).filter fun r => r.campaignId != excluded

/-- Does this campaign hold a reservation on this machine? -/
def holds (held : Reservations) (m : MachineId) (c : CampaignId) : Bool :=
  (held m).any fun r => r.campaignId == c

/-! ## A cluster's fixed NodePort -/

/-- Two claims on one port of one cluster. -/
def NodePortClaim.collides (a b : NodePortClaim) : Bool :=
  a.port == b.port &&
    ((a.server != "" && a.server == b.server) || (a.host != "" && a.host == b.host))

/-- The fixed NodePort this machine's runs take. -/
def claimOf (m : Machine) : Option NodePortClaim :=
  if m.driver = .k8s then m.nodePort else none

/-- Does the machine a run was placed on take a port that collides with `claim`? -/
def Db.runClaims (db : Db) (claim : NodePortClaim) (r : Run) : Bool :=
  match r.machineId.bind db.machines.get? with
  | some m => m.driver == .k8s && (claimOf m).any claim.collides
  | none => false

/-- The run holding the fixed NodePort this machine's runs need; `excludeRun` is a pending run
asking for itself, which waits only for runs placed before it. -/
def Db.portHolder (db : Db) (m : Machine) (excludeRun : Option RunId) : Option Run :=
  match claimOf m with
  | none => none
  | some claim =>
      db.runs.rows.find? fun r =>
        (r.live || r.teardownPending) && r.kind != .baseline && !r.kind.isExternal &&
          (match excludeRun with
            | none => true
            | some e => r.id != e && (r.status != .pending || decide (r.id < e))) &&
          db.runClaims claim r

/-- Is the port reserved for a campaign admitted to a machine of the same cluster? -/
def Db.portReserved (db : Db) (held : Reservations) (m : Machine) (campaign : CampaignId) : Bool :=
  match claimOf m with
  | none => false
  | some claim =>
      db.machines.rows.any fun other =>
        (claimOf other).any claim.collides && !(reservationsOn held other.id campaign).isEmpty

/-- Is there a `port_busy_reason` for placing this campaign's next run here? -/
def Db.portBusy (db : Db) (held : Reservations) (m : Machine) (campaign : CampaignId) : Bool :=
  (db.portHolder m none).isSome || db.portReserved held m campaign

/-! ## Reading the queries -/

namespace Db

variable {db : Db} {m : MachineId} {r : Run}

theorem mem_liveRuns : r ∈ db.liveRuns ↔ r ∈ db.runs.rows ∧ r.live = true := by
  simp [liveRuns]

theorem mem_liveRunsOn :
    r ∈ db.liveRunsOn m ↔ r ∈ db.runs.rows ∧ r.live = true ∧ r.onMachine m = true := by
  simp [liveRunsOn]

theorem mem_teardownPendingOn :
    r ∈ db.teardownPendingOn m ↔
      r ∈ db.runs.rows ∧ r.teardownPending = true ∧ r.onMachine m = true := by
  simp [teardownPendingOn]

theorem mem_nodesOn {n : RunNode} : n ∈ nodesOn r m ↔ n ∈ r.nodes ∧ n.machineId = some m := by
  simp [nodesOn]

theorem onMachine_iff : r.onMachine m = true ↔ ∃ n ∈ r.nodes, n.machineId = some m := by
  simp [Run.onMachine]

theorem mem_liveSessionsOn {s : PolicySession} :
    s ∈ db.liveSessionsOn m ↔ s ∈ db.sessions.rows ∧ s.live = true ∧ s.machineId = some m := by
  simp [liveSessionsOn]

end Db

theorem liveRunsOn_congr {db db' : Db} (h : db'.runs = db.runs) (m : MachineId) :
    db'.liveRunsOn m = db.liveRunsOn m := by
  simp [Db.liveRunsOn, h]

theorem liveSessionsOn_congr {db db' : Db} (h : db'.sessions = db.sessions) (m : MachineId) :
    db'.liveSessionsOn m = db.liveSessionsOn m := by
  simp [Db.liveSessionsOn, h]

theorem teardownPendingOn_congr {db db' : Db} (h : db'.runs = db.runs) (m : MachineId) :
    db'.teardownPendingOn m = db.teardownPendingOn m := by
  simp [Db.teardownPendingOn, h]

end AutoTune
