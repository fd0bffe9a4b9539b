import AutoTune.Policy.SessionExclusivity
import AutoTune.Supervisor.PortScan

/-!
# Nothing is placed on a dying container

A run that ended holds its cards and its port until its container is confirmed gone. Each path that
hands out cards builds its own set of what is held: `_start_one`, the sharing reservation and the
validation run include the dying, `_start_gang` wants none at all, the exclusive reservation and
`POST /launches` do not look.
-/

namespace AutoTune

open Lib

/-- No run still tearing down on the machine holds one of these cards or ports. -/
structure OffDying (db : Db) (m : MachineId) (cards ports : List Nat) : Prop where
  cards : ∀ d ∈ db.teardownPendingOn m, ∀ n ∈ Db.nodesOn d m, List.Disjoint cards n.gpuIndices
  ports : ∀ d ∈ db.teardownPendingOn m, d.servicePort ≠ 0 → d.servicePort ∉ ports

/-- Runs created and sessions given a machine between `db` and `db'` are off what was dying there. -/
structure HandsOutFree (db db' : Db) : Prop where
  runs : ∀ r ∈ db'.runs.rows, (∀ q ∈ db.runs.rows, q.id ≠ r.id) → ∀ m ∈ db.machines.rows,
    m.isNodePool = false → ∀ n ∈ Db.nodesOn r m.id, OffDying db m.id n.gpuIndices [r.servicePort]
  sessions : ∀ s ∈ db'.sessions.rows, (∀ t ∈ db.sessions.rows, t.id = s.id → t.machineId = none) →
    ∀ m ∈ db.machines.rows, m.isNodePool = false → s.machineId = some m.id →
      OffDying db m.id s.gpuIndices s.ports

/-! ## Steps that hand out nothing, or one thing -/

theorem HandsOutFree.of_settles {db db' : Db} (h : Db.Settles db db') : HandsOutFree db db' where
  runs := by
    intro r hr hnew
    rcases h.exists_run hr with ⟨q, hq, hqr⟩
    exact absurd hqr.id.symm (hnew q hq)
  sessions := by
    intro s hs hnew m _ _ hon
    rw [h.sessions] at hs
    simp [hnew s hs rfl] at hon

/-- Sessions change, and whoever gets a machine gets it free. -/
theorem HandsOutFree.of_sessions {db db' : Db} (hruns : db'.runs = db.runs)
    (h : ∀ s ∈ db'.sessions.rows, (∀ t ∈ db.sessions.rows, t.id = s.id → t.machineId = none) →
      ∀ m ∈ db.machines.rows, m.isNodePool = false → s.machineId = some m.id →
        OffDying db m.id s.gpuIndices s.ports) : HandsOutFree db db' where
  runs := by
    intro r hr hnew
    rw [hruns] at hr
    exact absurd rfl (hnew r hr)
  sessions := h

theorem HandsOutFree.of_created {db db' : Db} {c : Campaign} {plan : List (MachineId × List Nat)}
    {r : Run} (hc : Created db db' c plan r)
    (h : ∀ m ∈ db.machines.rows, m.isNodePool = false → ∀ p ∈ plan, p.1 = m.id →
      OffDying db m.id p.2 [r.servicePort]) : HandsOutFree db db' where
  runs := by
    intro q hq hnew m hm hpool n hn
    rw [hc.rows] at hq
    rcases List.mem_append.mp hq with hq | hq
    · exact absurd rfl (hnew q hq)
    · have hqr : q = r := by simpa using hq
      subst hqr
      rcases Db.mem_nodesOn.mp hn with ⟨hnode, hon⟩
      rw [hc.nodes] at hnode
      rcases List.mem_map.mp hnode with ⟨p, hp, rfl⟩
      exact h m hm hpool p hp (Option.some.inj hon)
  sessions := by
    intro s hs hnew m _ _ hon
    rw [hc.sessions] at hs
    simp [hnew s hs rfl] at hon

theorem HandsOutFree.of_sessionRun {db db' : Db} {s : PolicySession} {r : Run}
    (hr : SessionRun db db' s r)
    (h : ∀ m ∈ db.machines.rows, m.isNodePool = false → s.machineId = some m.id →
      OffDying db m.id r.gpuIndices [r.servicePort]) : HandsOutFree db db' where
  runs := by
    intro q hq hnew m hm hpool n hn
    rw [hr.rows] at hq
    rcases List.mem_append.mp hq with hq | hq
    · exact absurd rfl (hnew q hq)
    · have hqr : q = r := by simpa using hq
      subst hqr
      rcases Db.mem_nodesOn.mp hn with ⟨hnode, hon⟩
      rw [hr.nodes, List.mem_singleton] at hnode
      subst hnode
      exact h m hm hpool hon
  sessions := by
    intro t ht hnew m _ _ hon
    rw [hr.sessions] at ht
    simp [hnew t ht rfl] at hon

/-! ## Ports -/

/-- One of the 256 ports from the campaign's own is free, or at least no dying run holds the one that
is handed out when none is. -/
def PortsLeft (db : Db) (c : Campaign) (live : List Run) (reserved : List Nat) (m : MachineId) : Prop :=
  (∃ i < 256, c.servicePort + i ∉ db.usedPorts live reserved ∧
    nodePortRange (c.servicePort + i) = false) ∨
    ∀ d ∈ db.teardownPendingOn m, d.servicePort ≠ c.servicePort

/-- With ports left, `_free_port` stays off the dying among the runs it is given. -/
theorem freePort_offDying {db : Db} {c : Campaign} {live : List Run} {reserved : List Nat}
    {m : MachineId} (h : PortsLeft db c live reserved m) {d : Run} (hd : d ∈ db.teardownPendingOn m)
    (hlive : d ∈ live) (hport : d.servicePort ≠ 0) : d.servicePort ≠ db.freePort c live reserved := by
  have hused : d.servicePort ∈ db.usedPorts live reserved := by
    have hof : db.portOf d = d.servicePort := by simp [Db.portOf, hport]
    refine List.mem_filter.mpr ⟨List.mem_append_left _ ?_, by simpa using hport⟩
    exact List.mem_map.mpr ⟨d, hlive, hof⟩
  have heq : db.freePort c live reserved =
      (searchPort (db.usedPorts live reserved) 256 c.servicePort).getD c.servicePort := rfl
  rw [heq]
  cases hs : searchPort (db.usedPorts live reserved) 256 c.servicePort with
  | some p =>
      intro he
      have hp : d.servicePort = p := by simpa using he
      exact searchPort_free hs (hp ▸ hused)
  | none =>
      rcases h with ⟨i, hi, hfree, hnode⟩ | hnone
      · have := searchPort_isSome hi hfree hnode
        simp [hs] at this
      · exact hnone d hd

/-! ## The classic placers -/

theorem OffDying.of_none {db : Db} {m : MachineId} {cards ports : List Nat}
    (h : db.teardownPendingOn m = []) : OffDying db m cards ports :=
  ⟨by simp [h], by simp [h]⟩

/-- The gang planner wants every member rid of its containers. -/
theorem startGang_handsOut (held : Reservations) (blocked : List MachineId) (db : Db) (c : Campaign)
    (pending : List Candidate) (busy : List MachineId) :
    HandsOutFree db (startGang held blocked db c pending busy).db := by
  rcases startGang_cases held blocked db c pending busy with
    hsame | ⟨p, port, dist, hidle, hmembers, -, hdb⟩
  · rw [hsame]
    exact HandsOutFree.of_settles (Db.Settles.refl db)
  · have hplan : (db.membersByRank c.nodeGroup).map (fun m => (m.id, List.range p.cards)) ≠ [] := by
      simpa using hmembers
    rcases createRun_created db c p.candidateId hplan port dist with ⟨r, hr, _⟩
    rw [hdb]
    refine HandsOutFree.of_created hr ?_
    intro m hm _ q hq hid
    rcases List.mem_map.mp hq with ⟨a, ha, rfl⟩
    have : a = m := Table.eq_of_key_eq (mem_machines_of_mem_membersByRank ha) hm hid
    subst this
    have hm_idle := List.all_eq_true.mp hidle a ha
    simp only [Bool.and_eq_true, List.isEmpty_iff] at hm_idle
    exact OffDying.of_none hm_idle.2

/-- The packer keeps off the cards of the dying always, off their ports while it finds one. -/
theorem packFirst_handsOut {held : Reservations} {blocked : List MachineId} {db : Db} {c : Campaign}
    {placements : List Placement} {ms : List Machine} (hms : ∀ m ∈ ms, m ∈ db.machines.rows)
    (hports : ∀ m, packTarget held blocked db c placements ms = some m → m.isNodePool = false →
      PortsLeft db c (db.liveRunsOn m.id ++ db.teardownPendingOn m.id) [] m.id)
    (busy : List MachineId) :
    HandsOutFree db (packFirst held blocked db c placements ms busy).db := by
  rcases packFirst_cases held blocked db c placements ms busy with
    hsame | ⟨m, candidate, cards, htarget, hv, hdb⟩
  · rw [hsame]
    exact HandsOutFree.of_settles (Db.Settles.refl db)
  · have hm := hms m (List.mem_of_find?_eq_some htarget)
    rcases createRun_created db c candidate (List.cons_ne_nil (m.id, cards) [])
      (db.freePort c (db.liveRunsOn m.id ++ db.teardownPendingOn m.id) []) 0 with ⟨r, hr, hport⟩
    rw [hdb]
    refine HandsOutFree.of_created hr ?_
    intro m' hm' hpool q hq hid
    have hqm : q = (m.id, cards) := by simpa using hq
    subst hqm
    have : m = m' := Table.eq_of_key_eq hm hm' hid
    subst this
    constructor
    · intro d hd n hn i hi hi'
      rcases Db.mem_teardownPendingOn.mp hd with ⟨hrow, hpending, -⟩
      have hholds : n ∈ db.holdings m.id :=
        List.mem_flatMap.mpr ⟨d, List.mem_filter.mpr ⟨hrow, by simp [Run.holding, hpending]⟩, hn⟩
      exact ((packOn_place hv).free i hi).2 n hholds hi'
    · intro d hd hd0
      rw [hport, List.mem_singleton]
      exact freePort_offDying (hports m htarget hpool) hd (List.mem_append_right _ hd) hd0

/-- The machine `_start_one` places a run of its own on. -/
def startTarget (held : Reservations) (blocked : List MachineId) (stageAllowed : Bool → Bool) (db : Db)
    (c : Campaign) : Option Machine :=
  let valid := db.validCandidates c
  let db := retireInPlace db valid
  let pending := valid.filter fun k => !k.inPlaceBaseline && stageAllowed k.verify
  if pending.isEmpty || c.nodeGroup != "" then none
  else packTarget held blocked db c (pending.map fun k => ⟨k.id, k.cards⟩) (db.usableMachines c)

theorem HandsOutFree.of_candidates {db db' : Db} {t : Table Candidate.id}
    (h : HandsOutFree { db with candidates := t } db') : HandsOutFree db db' where
  runs := by
    intro r hr hnew m hm hpool n hn
    have hoff := h.runs r hr hnew m hm hpool n hn
    exact ⟨hoff.cards, hoff.ports⟩
  sessions := by
    intro s hs hnew m hm hpool hon
    have hoff := h.sessions s hs hnew m hm hpool hon
    exact ⟨hoff.cards, hoff.ports⟩

theorem startOne_handsOut {held : Reservations} {blocked : List MachineId}
    {stageAllowed : Bool → Bool} {db : Db} {c : Campaign}
    (hports : ∀ m, startTarget held blocked stageAllowed db c = some m → m.isNodePool = false →
      PortsLeft db c (db.liveRunsOn m.id ++ db.teardownPendingOn m.id) [] m.id) :
    HandsOutFree db (startOne held blocked stageAllowed db c).db := by
  unfold startTarget at hports
  unfold startOne
  simp only at hports ⊢
  rcases retireInPlace_frame db (db.validCandidates c) with ⟨t, ht⟩
  rw [ht] at hports ⊢
  split_ifs with hnone hgroup
  · exact HandsOutFree.of_candidates (HandsOutFree.of_settles (Db.Settles.refl _))
  · exact HandsOutFree.of_candidates (startGang_handsOut held blocked _ c _ _)
  · refine HandsOutFree.of_candidates
      (packFirst_handsOut (fun m hm => List.mem_of_mem_filter hm) ?_ [])
    intro m hm hpool
    refine hports m ?_ hpool
    rw [if_neg fun h => (Bool.or_eq_true_iff.mp h).elim hnone hgroup]
    exact hm

/-! ## The session's paths -/

/-- The cards a launch takes: the ones it names, or under a recipe of another width the session's
first ones that none of its live runs holds. -/
def askedCards (s : PolicySession) (live : List Run) (body : LaunchIn) (config : LaunchConfig) :
    List Nat :=
  if !s.gpuIndices.isEmpty && config.cards != body.gpuIndices.length then
    (s.gpuIndices.filter fun i => !(busyCards live).contains i).take config.cards
  else body.gpuIndices

/-- The port it takes: the one it names, or the session's first that none of its live runs holds. -/
def askedPort (s : PolicySession) (live : List Run) (body : LaunchIn) : Option Nat :=
  body.port.or (s.ports.find? fun p => !(busyPorts live).contains p)

theorem launchCards_asked {s : PolicySession} {live : List Run} {body : LaunchIn}
    {config : LaunchConfig} {cards : List Nat} (h : launchCards s live body config = .ok cards) :
    cards = askedCards s live body config := by
  unfold launchCards freeSessionCards at h
  unfold askedCards
  by_cases hwidth : (!s.gpuIndices.isEmpty && config.cards != body.gpuIndices.length) = true
  · rw [if_pos hwidth] at h ⊢
    dsimp only at h
    split_ifs at h
    exact (Except.ok.inj h).symm
  · rw [if_neg hwidth] at h ⊢
    exact (Except.ok.inj h).symm

theorem choosePort_asked {s : PolicySession} {live : List Run} {asked : Option Nat} {p : Nat}
    (h : choosePort s live asked = .ok p) :
    asked.or (s.ports.find? fun p => !(busyPorts live).contains p) = some p := by
  unfold choosePort at h
  cases asked with
  | some q =>
      dsimp only at h
      split_ifs at h
      exact congrArg some (Except.ok.inj h)
  | none =>
      dsimp only at h
      split at h
      · rename_i q hfind
        rw [Option.none_or, hfind, Except.ok.inj h]
      · cases h

/-- What is allocated is what was asked for. -/
theorem launchAllocation_asked {s : PolicySession} {m : Option Machine} {live : List Run}
    {body : LaunchIn} {config : LaunchConfig} {cards : List Nat} {p : Nat}
    (h : launchAllocation s m live body config = .ok (cards, p)) :
    cards = askedCards s live body config ∧ askedPort s live body = some p := by
  rcases launchAllocation_ok h with ⟨hpick, hport⟩
  refine ⟨launchCards_asked hpick, ?_⟩
  unfold checkCardsAndPort at hport
  dsimp only at hport
  split_ifs at hport
  exact choosePort_asked hport

theorem requestLaunch_handsOut {session : SessionId} {body : LaunchIn} {db : Db}
    (h : ∀ s config m a, db.sessions.get? session = some s → body.config = some config →
      m ∈ db.machines.rows → m.isNodePool = false → s.machineId = some m.id →
      launchAllocation s (s.machineId.bind db.machines.get?) (db.liveSessionRuns session) body config =
        .ok a →
      OffDying db m.id (askedCards s (db.liveSessionRuns session) body config)
        (askedPort s (db.liveSessionRuns session) body).toList) :
    HandsOutFree db (requestLaunch session body db) := by
  rcases requestLaunch_cases session body db with
    hsame | ⟨s, config, cards, port, r, hget, _, hconfig, halloc, hr, hcards, hport⟩
  · rw [hsame]
    exact HandsOutFree.of_settles (Db.Settles.refl db)
  · refine HandsOutFree.of_sessionRun hr ?_
    intro m hm hpool hon
    rcases launchAllocation_asked halloc with ⟨hasked, hport'⟩
    simpa [hcards, hport, hasked, hport'] using
      h s config m (cards, port) hget hconfig hm hpool hon halloc

/-- A dying run's node is where the run says it is. -/
theorem mem_dying_cards {db : Db} (hmirror : NodesMirror db) {m : MachineId} {d : Run}
    (hd : d ∈ db.teardownPendingOn m) {n : RunNode} (hn : n ∈ Db.nodesOn d m) :
    n.gpuIndices = d.gpuIndices :=
  hmirror d (Db.mem_teardownPendingOn.mp hd).1 n (Db.mem_nodesOn.mp hn).1

theorem mem_blockersOf {db : Db} {s : PolicySession} {m : Machine} (hm : m ∈ db.machines.rows)
    (hon : s.machineId = some m.id) {d : Run} (hd : d ∈ db.teardownPendingOn m.id) :
    d ∈ db.blockersOf s := by
  have hrow : s.machineId.bind db.machines.get? = some m := by
    rw [hon]
    exact Table.get?_key hm
  unfold Db.blockersOf
  rw [hrow]
  exact List.mem_append_right _ hd

/-- The validation run keeps off the cards of the dying always, off their ports while the session's
block or the walk from the campaign's port has one left. -/
theorem launchValidationRun_handsOut {session : SessionId} {config : LaunchConfig} {db db' : Db}
    (hmirror : NodesMirror db)
    (h : ∀ s c m, db.sessions.get? session = some s → db.campaigns.get? s.campaignId = some c →
      m ∈ db.machines.rows → m.isNodePool = false → s.machineId = some m.id →
      (validationCards s config.cards (db.blockersOf s)).isSome →
      (∀ p ∈ s.ports, p ∈ busyPorts (db.blockersOf s)) →
      PortsLeft db c (db.blockersOf s) (db.portsReservedByOthers s) m.id)
    (hrun : launchValidationRun session config db = some db') : HandsOutFree db db' := by
  rcases launchValidationRun_cases hrun with ⟨s, c, r, hget, hc, hcards, hr, hport⟩
  refine HandsOutFree.of_sessionRun hr ?_
  intro m hm hpool hon
  constructor
  · intro d hd n hn i hi hi'
    rw [mem_dying_cards hmirror hd hn] at hi'
    exact (validationCards_spec hcards i hi).2
      (List.mem_flatMap.mpr ⟨d, mem_blockersOf hm hon hd, hi'⟩)
  · intro d hd hd0
    have hblocker := mem_blockersOf hm hon hd
    rw [List.mem_singleton, hport]
    unfold Db.validationPort
    cases hfind : s.ports.find? fun p => !(busyPorts (db.blockersOf s)).contains p with
    | some p =>
        have hfree : p ∉ busyPorts (db.blockersOf s) := by simpa using List.find?_some hfind
        intro he
        apply hfree
        exact List.mem_filter.mpr ⟨List.mem_map.mpr ⟨d, hblocker, he⟩, by simpa [← he] using hd0⟩
    | none =>
        have hspent : ∀ p ∈ s.ports, p ∈ busyPorts (db.blockersOf s) := by
          simpa using List.find?_eq_none.mp hfind
        have hleft := h s c m hget hc hm hpool hon (by simp [hcards]) hspent
        exact freePort_offDying hleft hd hblocker hd0

/-- The ports of an exclusive session: a block from the campaign's base port. -/
def Campaign.portBlock (c : Campaign) : List Nat := (List.range c.portCount).map (c.basePort + ·)

/-- A slice keeps off the dying; the whole box does where nobody is dying on it. -/
theorem allocationOn_offDying {held : Reservations} {needs : PolicyNeeds} {db : Db} {c : Campaign}
    {m : Machine} {cards ports : List Nat} (hmirror : NodesMirror db) (hpool : m.isNodePool = false)
    (hwhole : c.shareMachine = false → OffDying db m.id (List.range m.gpuCount) c.portBlock)
    (h : allocationOn held needs db c m = some (cards, ports)) : OffDying db m.id cards ports := by
  unfold allocationOn at h
  rw [if_neg (by simp [hpool])] at h
  by_cases hshare : c.shareMachine = true
  · rw [if_neg (by simp [hshare])] at h
    rcases slice_spec h with ⟨-, hcards, hports⟩
    constructor
    · intro d hd n hn i hi hi'
      rw [mem_dying_cards hmirror hd hn] at hi'
      exact hcards i hi (List.mem_append_right _
        (List.mem_flatMap.mpr ⟨d, List.mem_append_right _ hd, hi'⟩))
    · intro d hd hd0 hmem
      refine hports d.servicePort hmem (List.mem_append_right _ (List.mem_filter.mpr ⟨?_, ?_⟩))
      · exact List.mem_map.mpr ⟨d, List.mem_append_right _ hd, rfl⟩
      · simpa using hd0
  · rw [if_pos (by simp [hshare])] at h
    rcases wholeBox_spec h with ⟨-, -, rfl, rfl⟩
    exact hwhole (by simpa using hshare)

theorem tryReserve_handsOut {held : Reservations} {blocked : List MachineId} {needs : PolicyNeeds}
    {session : SessionId} {db : Db} (hmirror : NodesMirror db)
    (h : ∀ s c m, db.sessions.get? session = some s → db.waitingFor s = some c →
      reserveTarget held blocked needs db c (db.usableMachines c) = some m → m.isNodePool = false →
      c.shareMachine = false → OffDying db m.id (List.range m.gpuCount) c.portBlock) :
    HandsOutFree db (tryReserve held blocked needs session db).1 := by
  rcases tryReserve_cases held blocked needs session db with
    hsame | ⟨s, c, m, cards, ports, hget, hwait, htarget, halloc, hdb⟩
  · rw [hsame]
    exact HandsOutFree.of_settles (Db.Settles.refl db)
  · rw [hdb]
    refine HandsOutFree.of_sessions rfl ?_
    intro s' hs' hnew m' hm' hpool hon
    rcases Db.mem_setSession.mp hs' with ⟨t, ht, rfl⟩
    by_cases hid : t.id = session
    · rw [if_pos hid] at hon ⊢
      have hmm : m.id = m'.id := Option.some.inj hon
      have : m = m' := Table.eq_of_key_eq
        (List.mem_of_mem_filter (List.mem_of_find?_eq_some htarget)) hm' hmm
      subst this
      exact allocationOn_offDying hmirror hpool (h s c m hget hwait htarget hpool) halloc
    · rw [if_neg hid] at hnew hon
      simp [hnew t ht rfl] at hon

theorem validateConfigs_handsOut {campaign : CampaignId} {machine : String} {now until_ : Time}
    {db db' : Db}
    (h : ∀ c m, db.validateTarget campaign machine = some (c, m) → m.isNodePool = false →
      OffDying db m.id (List.range m.gpuCount) [])
    (hdone : validateConfigs campaign machine now until_ db = some db') : HandsOutFree db db' := by
  unfold validateConfigs at hdone
  rcases Option.map_eq_some_iff.mp hdone with ⟨⟨c, m⟩, htarget, rfl⟩
  refine HandsOutFree.of_sessions rfl ?_
  intro s hs hnew m' hm' hpool hon
  rcases List.mem_append.mp hs with hs | hs
  · simp [hnew s hs rfl] at hon
  · have hs' := List.mem_singleton.mp hs
    subst hs'
    have hmm : m.id = m'.id := Option.some.inj hon
    have : m = m' := Table.eq_of_key_eq (validateTarget_spec htarget).2 hm' hmm
    subst this
    exact h c m htarget hpool

/-! ## Runs -/

/-- When nothing dying is in the way. `_start_one` and the validation run have a port left to give; an
exclusive session, a launch and an operator's validation are not about to get what a dying run holds. -/
def TenancyStep.Vacated (db : Db) : TenancyStep → Prop
  | .classic (.startOne campaign held blocked stageAllowed) =>
      ∀ c m, db.campaigns.get? campaign = some c → c.policyId = none →
        startTarget held blocked stageAllowed db c = some m → m.isNodePool = false →
        PortsLeft db c (db.liveRunsOn m.id ++ db.teardownPendingOn m.id) [] m.id
  | .tryReserve held blocked needs session =>
      ∀ s c m, db.sessions.get? session = some s → db.waitingFor s = some c →
        reserveTarget held blocked needs db c (db.usableMachines c) = some m → m.isNodePool = false →
        c.shareMachine = false → OffDying db m.id (List.range m.gpuCount) c.portBlock
  | .launch session body =>
      ∀ s config m a, db.sessions.get? session = some s → body.config = some config →
        m ∈ db.machines.rows → m.isNodePool = false → s.machineId = some m.id →
        launchAllocation s (s.machineId.bind db.machines.get?) (db.liveSessionRuns session) body config =
          .ok a →
        OffDying db m.id (askedCards s (db.liveSessionRuns session) body config)
          (askedPort s (db.liveSessionRuns session) body).toList
  | .validationRun session config =>
      ∀ s c m, db.sessions.get? session = some s → db.campaigns.get? s.campaignId = some c →
        m ∈ db.machines.rows → m.isNodePool = false → s.machineId = some m.id →
        (validationCards s config.cards (db.blockersOf s)).isSome →
        (∀ p ∈ s.ports, p ∈ busyPorts (db.blockersOf s)) →
        PortsLeft db c (db.blockersOf s) (db.portsReservedByOthers s) m.id
  | .validate campaign machine _ _ =>
      ∀ c m, db.validateTarget campaign machine = some (c, m) → m.isNodePool = false →
        OffDying db m.id (List.range m.gpuCount) []
  | _ => True

theorem startOne_mirror {held : Reservations} {blocked : List MachineId}
    {stageAllowed : Bool → Bool} {db : Db} {c : Campaign} (h : NodesMirror db) :
    NodesMirror (startOne held blocked stageAllowed db c).db := by
  have h' := h.of_settles (retireInPlace_settles db (db.validCandidates c))
  unfold startOne
  simp only
  split_ifs
  · exact h'
  · exact startGang_mirror h' _ _
  · exact packFirst_mirror h' _ _

theorem ClassicStep.apply_mirror (db : Db) (s : ClassicStep) (h : NodesMirror db) :
    NodesMirror (s.apply db) := by
  cases s with
  | startOne campaign held blocked stageAllowed =>
      simp only [ClassicStep.apply]
      split
      · exact h
      · exact startOne_mirror h
  | startGang campaign held blocked pending =>
      simp only [ClassicStep.apply]
      split
      · exact h
      · exact startGang_mirror h _ _
  | finish run status error drivers now =>
      simp only [ClassicStep.apply]
      split_ifs with hf
      · exact h.of_settles (finish_settles drivers now (finishable_iff.mp hf) status error)
      · exact h
  | confirmTeardown run => exact h.of_settles (confirmTeardown_settles db run)
  | reapTeardowns drivers clock now => exact h.of_settles (reapTeardowns_settles drivers clock now db)

theorem TenancyStep.apply_mirror (db : Db) (a : TenancyStep) (h : NodesMirror db) :
    NodesMirror (a.apply db) := by
  -- only a step that creates a run writes nodes, and each is written with the run's own columns
  cases a with
  | classic step =>
      simp only [TenancyStep.apply]
      split_ifs
      · exact step.apply_mirror db h
      · exact h
  | openSession campaign windowStart => exact h
  | tryReserve held blocked needs session =>
      rcases tryReserve_cases held blocked needs session db with
        hsame | ⟨s, c, m, cards, ports, -, -, -, -, hdb⟩
      · simpa only [TenancyStep.apply, hsame] using h
      · simp only [TenancyStep.apply, hdb]
        exact h
  | moveSession session status =>
      simp only [TenancyStep.apply]
      split_ifs <;> exact h
  | launch session body =>
      rcases requestLaunch_cases session body db with hsame | ⟨s, _, _, _, r, _, _, _, _, hr, _, _⟩
      · simpa only [TenancyStep.apply, hsame] using h
      · exact h.sessionRun hr
  | validationRun session config =>
      simp only [TenancyStep.apply]
      split_ifs
      · cases hrun : launchValidationRun session config db with
        | none => exact h
        | some db' =>
            rcases launchValidationRun_cases hrun with ⟨s, c, r, _, _, _, hr, _⟩
            exact h.sessionRun hr
      · exact h
  | validate campaign machine now until_ =>
      simp only [TenancyStep.apply]
      cases hdone : validateConfigs campaign machine now until_ db with
      | none => exact h
      | some db' =>
          rcases Option.map_eq_some_iff.mp hdone with ⟨⟨c, m⟩, -, rfl⟩
          exact h

theorem ClassicStep.apply_handsOut (db : Db) (s : ClassicStep) (hs : s.scheduled db = true)
    (hv : (TenancyStep.classic s).Vacated db) : HandsOutFree db (s.apply db) := by
  have hsame : HandsOutFree db db := HandsOutFree.of_settles (Db.Settles.refl db)
  cases s with
  | startOne campaign held blocked stageAllowed =>
      simp only [ClassicStep.apply]
      cases hc : db.campaigns.get? campaign with
      | none => exact hsame
      | some c =>
          have hpolicy : c.policyId = none := by simpa [ClassicStep.scheduled, hc] using hs
          exact startOne_handsOut fun m => hv c m hc hpolicy
  | startGang campaign held blocked pending =>
      simp only [ClassicStep.apply]
      split
      · exact hsame
      · exact startGang_handsOut held blocked db _ pending []
  | finish run status error drivers now =>
      simp only [ClassicStep.apply]
      split_ifs with hf
      · exact HandsOutFree.of_settles (finish_settles drivers now (finishable_iff.mp hf) status error)
      · exact hsame
  | confirmTeardown run => exact HandsOutFree.of_settles (confirmTeardown_settles db run)
  | reapTeardowns drivers clock now =>
      exact HandsOutFree.of_settles (reapTeardowns_settles drivers clock now db)

/-- Where nothing dying is in the way, a step hands out nothing a dying run holds. -/
theorem TenancyStep.apply_handsOut (db : Db) (a : TenancyStep) (hmirror : NodesMirror db)
    (hv : a.Vacated db) : HandsOutFree db (a.apply db) := by
  have hsame : HandsOutFree db db := HandsOutFree.of_settles (Db.Settles.refl db)
  cases a with
  -- each path has its own lemma; the steps that hand out nothing leave no new run and no placed session
  | classic step =>
      simp only [TenancyStep.apply]
      split_ifs with hs
      · exact step.apply_handsOut db hs hv
      · exact hsame
  | openSession campaign windowStart =>
      refine HandsOutFree.of_sessions rfl ?_
      intro s hs hnew m _ _ hon
      rcases List.mem_append.mp hs with hs | hs
      · simp [hnew s hs rfl] at hon
      · simp [List.mem_singleton.mp hs, pendingSession] at hon
  | tryReserve held blocked needs session => exact tryReserve_handsOut hmirror hv
  | moveSession session status =>
      simp only [TenancyStep.apply]
      split_ifs
      · refine HandsOutFree.of_sessions rfl ?_
        intro s' hs' hnew m _ _ hon
        rcases Db.mem_setSession.mp hs' with ⟨s, hs, rfl⟩
        by_cases hid : s.id = session
        · rw [if_pos hid] at hnew hon
          simp [hnew s hs rfl] at hon
        · rw [if_neg hid] at hnew hon
          simp [hnew s hs rfl] at hon
      · exact hsame
  | launch session body => exact requestLaunch_handsOut hv
  | validationRun session config =>
      simp only [TenancyStep.apply]
      split_ifs
      · cases hrun : launchValidationRun session config db with
        | none => exact hsame
        | some db' => exact launchValidationRun_handsOut hmirror hv hrun
      · exact hsame
  | validate campaign machine now until_ =>
      simp only [TenancyStep.apply]
      cases hdone : validateConfigs campaign machine now until_ db with
      | none => exact hsame
      | some db' => exact validateConfigs_handsOut hv hdone

/-- In every run whose steps find nothing dying in the way, no step hands out a card or a port that a
run still tearing down holds. -/
theorem placements_off_dying (db : Db) (hmirror : NodesMirror db) (steps : List TenancyStep)
    (hv : Along TenancyStep.apply (fun db a => a.Vacated db) db steps) :
    Along TenancyStep.apply (fun db a => HandsOutFree db (a.apply db)) db steps :=
  along_of_invariant (I := NodesMirror)
    (fun db a h hv => ⟨a.apply_mirror db h, a.apply_handsOut db h hv⟩) hmirror hv

/-- A run holds card 0 of the leased machine; a session of a campaign that wants it alone waits. -/
def engineRunning : Db where
  machines := .single leasedPair
  campaigns := ⟨[{ id := 1, status := .active, policyId := some 1, shareMachine := false },
                 { id := 2, status := .active }], by simp⟩
  runs := .single { id := 1, campaignId := 2, candidateId := 1, machineId := some 1, status := .benching,
                    gpuIndices := [0], servicePort := 28200 }
  sessions := .single (pendingSession 1 0 1)

/-- The driver takes the stop request, and the container is still there. -/
def stillThere : TeardownReplies where
  attach := .value true
  requestStop := .value ()
  isGone := .value false
  releaseLeftovers := .value true

/-- The run ends with its container still on the machine, and the session is given the container's
card and port. -/
theorem exclusive_session_on_dying :
    let finish : TenancyStep := .classic (.finish 1 .killed "" (fun _ => stillThere) 5)
    let reserve : TenancyStep := .tryReserve (fun _ => []) [] {} 1
    ((finish.apply engineRunning).teardownPendingOn 1).map
        (fun r => (r.gpuIndices, r.servicePort)) = [([0], 28200)] ∧
      ((reserve.apply (finish.apply engineRunning)).liveSessionsOn 1).map
        (fun s => (s.gpuIndices, s.ports)) = [([0, 1], [28200, 28201, 28202, 28203])] ∧
      ¬ Along TenancyStep.apply (fun db a => HandsOutFree db (a.apply db)) engineRunning
        [finish, reserve] := by
  intro finish reserve
  have hdying : ((finish.apply engineRunning).teardownPendingOn 1).map
      (fun r => (r.gpuIndices, r.servicePort)) = [([0], 28200)] := by decide
  have hlive : ((reserve.apply (finish.apply engineRunning)).liveSessionsOn 1).map
      (fun s => (s.gpuIndices, s.ports)) = [([0, 1], [28200, 28201, 28202, 28203])] := by decide
  refine ⟨hdying, hlive, ?_⟩
  rintro ⟨-, hfree, -⟩
  have hd : ([0], 28200) ∈ ((finish.apply engineRunning).teardownPendingOn 1).map
      (fun r => (r.gpuIndices, r.servicePort)) := by simp [hdying]
  have hs : ([0, 1], [28200, 28201, 28202, 28203]) ∈
      ((reserve.apply (finish.apply engineRunning)).liveSessionsOn 1).map
        (fun s => (s.gpuIndices, s.ports)) := by simp [hlive]
  rcases List.mem_map.mp hd with ⟨d, hd, hdeq⟩
  rcases List.mem_map.mp hs with ⟨s, hs, hseq⟩
  simp only [Prod.mk.injEq] at hdeq hseq
  rcases Db.mem_liveSessionsOn.mp hs with ⟨hrow, -, hon⟩
  -- nobody had a machine before the reservation
  have hnone : ∀ t ∈ (finish.apply engineRunning).sessions.rows, t.machineId = none := by decide
  have hoff := hfree.sessions s hrow (fun t ht _ => hnone t ht) leasedPair (by decide) rfl hon
  have hport := hoff.ports d hd (by rw [hdeq.2]; decide)
  rw [hdeq.2, hseq.2] at hport
  exact hport List.mem_cons_self

/-- Once the container is confirmed gone, the session gets the machine and nothing of the dead. -/
theorem placements_off_dying_confirmed :
    let steps : List TenancyStep :=
      [.classic (.finish 1 .killed "" (fun _ => stillThere) 5), .classic (.confirmTeardown 1),
        .tryReserve (fun _ => []) [] {} 1]
    ((runFrom TenancyStep.apply engineRunning steps).liveSessionsOn 1).map
        PolicySession.gpuIndices = [[0, 1]] ∧
      Along TenancyStep.apply (fun db a => HandsOutFree db (a.apply db)) engineRunning steps := by
  refine ⟨by decide, placements_off_dying engineRunning ?_ _ ⟨trivial, trivial, ?_, trivial⟩⟩
  · intro r hr n hn
    simp only [engineRunning, List.mem_singleton] at hr
    subst hr
    simpa [Run.nodes, Run.masterNode] using congrArg RunNode.gpuIndices (List.mem_singleton.mp hn)
  · intro s c m _ _ _ _ _
    apply OffDying.of_none
    have hgone : ∀ r ∈ (runFrom TenancyStep.apply engineRunning
        [.classic (.finish 1 .killed "" (fun _ => stillThere) 5),
          .classic (.confirmTeardown 1)]).runs.rows, r.teardownPending = false := by decide
    apply List.filter_eq_nil_iff.mpr
    intro r hr
    simp [hgone r hr]

end AutoTune
