import AutoTune.Api.LaunchRequests
import AutoTune.Policy.Allocation
import AutoTune.Supervisor.CardExclusivity

/-!
# Session allocations never overlap

Three placers decide who may be on a machine: the packer and the gang planner for classic runs, the
machine queue for sessions. Each looks before it places. The operator's validation session is placed
without a look, so what it needs is that nobody stands there.
-/

namespace AutoTune

open Lib

/-- Does this campaign want the machine to itself? -/
def Db.exclusiveCampaign (db : Db) (id : CampaignId) : Bool :=
  (db.campaigns.get? id).any fun c => !c.shareMachine

/-- The tenants of one machine: live sessions on disjoint cards, off the cards of everybody else's live
runs, and a session that does not share is alone. -/
structure TenantsApart (db : Db) (m : MachineId) : Prop where
  cards : ∀ s ∈ db.liveSessionsOn m, ∀ s' ∈ db.liveSessionsOn m, s.id ≠ s'.id →
    List.Disjoint s.gpuIndices s'.gpuIndices
  runs : ∀ s ∈ db.liveSessionsOn m, ∀ r ∈ db.liveRunsOn m, r.policySessionId ≠ some s.id →
    ∀ n ∈ Db.nodesOn r m, List.Disjoint s.gpuIndices n.gpuIndices
  alone : ∀ s ∈ db.liveSessionsOn m, db.exclusiveCampaign s.campaignId = true →
    (∀ s' ∈ db.liveSessionsOn m, s'.id = s.id) ∧
      ∀ r ∈ db.liveRunsOn m, r.campaignId = s.campaignId

/-- Every node of a run holds the cards its row names: a gang takes the same ones everywhere. -/
def NodesMirror (db : Db) : Prop :=
  ∀ r ∈ db.runs.rows, ∀ n ∈ r.nodes, n.gpuIndices = r.gpuIndices

structure TenancySafe (db : Db) : Prop where
  apart : ∀ m ∈ db.machines.rows, m.isNodePool = false → TenantsApart db m.id
  mirror : NodesMirror db

/-! ## Nobody arrives -/

/-- Every tenant of the machine in `db'` was one in `db`. -/
structure TenantsWithin (db db' : Db) (m : MachineId) : Prop where
  sessions : ∀ s' ∈ db'.liveSessionsOn m, ∃ s ∈ db.liveSessionsOn m,
    s.id = s'.id ∧ s.gpuIndices = s'.gpuIndices ∧ s.campaignId = s'.campaignId
  runs : ∀ r' ∈ db'.liveRunsOn m, ∃ r ∈ db.liveRunsOn m, Db.nodesOn r m = Db.nodesOn r' m ∧
    r.campaignId = r'.campaignId ∧ r.policySessionId = r'.policySessionId
  campaigns : ∀ c, db'.exclusiveCampaign c = db.exclusiveCampaign c

theorem TenantsApart.of_within {db db' : Db} {m : MachineId} (h : TenantsApart db m)
    (hw : TenantsWithin db db' m) : TenantsApart db' m where
  cards := by
    intro s₁ h₁ s₂ h₂ hne
    rcases hw.sessions s₁ h₁ with ⟨t₁, ht₁, hid₁, hc₁, -⟩
    rcases hw.sessions s₂ h₂ with ⟨t₂, ht₂, hid₂, hc₂, -⟩
    rw [← hc₁, ← hc₂]
    exact h.cards t₁ ht₁ t₂ ht₂ (by rwa [hid₁, hid₂])
  runs := by
    intro s hs r hr hne n hn
    rcases hw.sessions s hs with ⟨t, ht, hid, hc, -⟩
    rcases hw.runs r hr with ⟨q, hq, hnodes, -, hsession⟩
    rw [← hc]
    exact h.runs t ht q hq (by rwa [hsession, hid]) n (hnodes ▸ hn)
  alone := by
    intro s hs hex
    rcases hw.sessions s hs with ⟨t, ht, hid, -, hcamp⟩
    rw [hw.campaigns, ← hcamp] at hex
    rcases h.alone t ht hex with ⟨hsessions, hruns⟩
    refine ⟨?_, ?_⟩
    · intro s' hs'
      rcases hw.sessions s' hs' with ⟨t', ht', hid', -, -⟩
      rw [← hid', ← hid]
      exact hsessions t' ht'
    · intro r hr
      rcases hw.runs r hr with ⟨q, hq, -, hc, -⟩
      rw [← hc, ← hcamp]
      exact hruns q hq

theorem exclusiveCampaign_congr {db db' : Db} (h : db'.campaigns = db.campaigns) (c : CampaignId) :
    db'.exclusiveCampaign c = db.exclusiveCampaign c := by
  simp [Db.exclusiveCampaign, h]

/-- Ending work brings nobody. -/
theorem TenantsWithin.of_settles {db db' : Db} (h : Db.Settles db db') (m : MachineId) :
    TenantsWithin db db' m where
  sessions := by
    intro s hs
    rw [Db.liveSessionsOn, h.sessions] at hs
    exact ⟨s, hs, rfl, rfl, rfl⟩
  runs := by
    intro r' hr'
    rcases Db.mem_liveRunsOn.mp hr' with ⟨hrow, hlive, hon⟩
    rcases h.exists_run hrow with ⟨r, hr, hrr⟩
    refine ⟨r, Db.mem_liveRunsOn.mpr ⟨hr, hrr.live hlive, ?_⟩, ?_, hrr.campaignId.symm,
      hrr.policySessionId.symm⟩
    · rwa [hrr.onMachine] at hon
    · simp [Db.nodesOn, hrr.nodes]
  campaigns := exclusiveCampaign_congr h.campaigns

theorem NodesMirror.of_settles {db db' : Db} (h : NodesMirror db) (hs : Db.Settles db db') :
    NodesMirror db' := by
  intro r' hr' n hn
  rcases hs.exists_run hr' with ⟨r, hr, hrr⟩
  rw [hrr.nodes] at hn
  rw [hrr.gpuIndices]
  exact h r hr n hn

theorem TenancySafe.of_settles {db db' : Db} (h : TenancySafe db) (hs : Db.Settles db db') :
    TenancySafe db' where
  apart := by
    intro m' hm' hpool
    rcases hs.exists_machine hm' with ⟨m, hm, hbox⟩
    rw [hbox.id]
    exact (h.apart m hm (hbox.pool ▸ hpool)).of_within (TenantsWithin.of_settles hs m.id)
  mirror := h.mirror.of_settles hs

/-! ## A run arrives -/

theorem TenantsApart.of_noSession {db : Db} {m : MachineId} (h : db.liveSessionsOn m = []) :
    TenantsApart db m where
  cards := by simp [h]
  runs := by simp [h]
  alone := by simp [h]

/-- Machines a new run does not touch keep their tenants. -/
theorem Created.tenantsWithin {db db' : Db} {c : Campaign} {plan : List (MachineId × List Nat)} {r : Run}
    (h : Created db db' c plan r) {m : MachineId} (hoff : ∀ p ∈ plan, p.1 ≠ m) :
    TenantsWithin db db' m where
  sessions := by
    intro s hs
    rw [Db.liveSessionsOn, h.sessions] at hs
    exact ⟨s, hs, rfl, rfl, rfl⟩
  runs := by
    intro r' hr'
    rcases Db.mem_liveRunsOn.mp hr' with ⟨hrow, hlive, hon⟩
    rw [h.rows] at hrow
    rcases List.mem_append.mp hrow with hrow | hrow
    · exact ⟨r', Db.mem_liveRunsOn.mpr ⟨hrow, hlive, hon⟩, rfl, rfl, rfl⟩
    · have hr : r' = r := by simpa using hrow
      rw [hr] at hon
      rcases Db.onMachine_iff.mp hon with ⟨n, hn, hm⟩
      have hnode : n ∈ Db.nodesOn r m := Db.mem_nodesOn.mpr ⟨hn, hm⟩
      rw [h.nodesOn] at hnode
      have hnil : plan.filter (fun p => p.1 == m) = [] := by simpa using hoff
      simp [hnil, planNodes] at hnode
  campaigns := exclusiveCampaign_congr h.campaigns

theorem NodesMirror.created {db db' : Db} {c : Campaign} {plan : List (MachineId × List Nat)} {r : Run}
    (h : NodesMirror db) (hc : Created db db' c plan r) {cards : List Nat}
    (hplan : ∀ p ∈ plan, p.2 = cards) : NodesMirror db' := by
  intro q hq n hn
  rw [hc.rows] at hq
  rcases List.mem_append.mp hq with hq | hq
  · exact h q hq n hn
  · have hqr : q = r := by simpa using hq
    -- the run's own columns are those of its first node
    have hall : ∀ n ∈ r.nodes, n.gpuIndices = cards := by
      intro n hn
      rw [hc.nodes] at hn
      rcases List.mem_map.mp hn with ⟨p, hp, rfl⟩
      exact hplan p hp
    rw [hqr] at hn ⊢
    rw [hall n hn]
    exact (hall r.masterNode List.mem_cons_self).symm

/-- A run placed on pools and on machines without a session keeps tenants apart. -/
theorem TenancySafe.created {db db' : Db} {c : Campaign} {plan : List (MachineId × List Nat)} {r : Run}
    (h : TenancySafe db) (hc : Created db db' c plan r)
    (hplan : ∀ p ∈ plan, ∀ m ∈ db.machines.rows, m.id = p.1 → m.isNodePool = false →
      db.liveSessionsOn m.id = [])
    (hmirror : NodesMirror db') : TenancySafe db' where
  apart := by
    intro m' hm' hpool
    rcases hc.exists_machine hm' with ⟨m, hm, hbox⟩
    rw [hbox.id]
    have hpool' : m.isNodePool = false := hbox.pool ▸ hpool
    by_cases hoff : ∀ p ∈ plan, p.1 ≠ m.id
    · exact (h.apart m hm hpool').of_within (hc.tenantsWithin hoff)
    · push Not at hoff
      rcases hoff with ⟨p, hp, hpm⟩
      apply TenantsApart.of_noSession
      rw [liveSessionsOn_congr hc.sessions]
      exact hplan p hp m hm hpm.symm hpool'
  mirror := hmirror

/-- A campaign without a policy finds no machine that hosts a session, pools apart. -/
theorem usableMachines_noSession {db : Db} {c : Campaign} {m : Machine} (hc : c.policyId = none)
    (hm : m ∈ db.usableMachines c) (hpool : m.isNodePool = false) : db.liveSessionsOn m.id = [] := by
  have := (List.mem_filter.mp hm).2
  simp only [hc, hpool, Bool.and_eq_true, Option.isSome_none, Bool.and_false, Bool.false_or,
    Bool.not_eq_true'] at this
  exact machineHasLiveSession_eq_false.mp this.2

/-- Both placers write every node of a run with the same cards. -/
theorem packFirst_mirror {held : Reservations} {blocked : List MachineId} {db : Db} {c : Campaign}
    {placements : List Placement} (h : NodesMirror db) (ms : List Machine) (busy : List MachineId) :
    NodesMirror (packFirst held blocked db c placements ms busy).db := by
  rcases packFirst_cases held blocked db c placements ms busy with
    hsame | ⟨m, candidate, cards, -, -, hdb⟩
  · rwa [hsame]
  · rcases createRun_created db c candidate (List.cons_ne_nil (m.id, cards) [])
      (db.freePort c (db.liveRunsOn m.id ++ db.teardownPendingOn m.id) []) 0 with ⟨r, hr, _⟩
    have hcards : ∀ p ∈ [(m.id, cards)], p.2 = cards := by simp
    rw [hdb]
    exact h.created hr hcards

theorem startGang_mirror {held : Reservations} {blocked : List MachineId} {db : Db} {c : Campaign}
    (h : NodesMirror db) (pending : List Candidate) (busy : List MachineId) :
    NodesMirror (startGang held blocked db c pending busy).db := by
  rcases startGang_cases held blocked db c pending busy with
    hsame | ⟨p, port, dist, -, hmembers, -, hdb⟩
  · rwa [hsame]
  · have hplan : (db.membersByRank c.nodeGroup).map (fun m => (m.id, List.range p.cards)) ≠ [] := by
      simpa using hmembers
    rcases createRun_created db c p.candidateId hplan port dist with ⟨r, hr, _⟩
    have hcards : ∀ q ∈ (db.membersByRank c.nodeGroup).map (fun m => (m.id, List.range p.cards)),
        q.2 = List.range p.cards := by
      intro q hq
      rcases List.mem_map.mp hq with ⟨a, _, rfl⟩
      rfl
    rw [hdb]
    exact h.created hr hcards

theorem packFirst_tenancy {held : Reservations} {blocked : List MachineId} {db : Db} {c : Campaign}
    {placements : List Placement} (h : TenancySafe db) (hc : c.policyId = none) (ms : List Machine)
    (hms : ∀ m ∈ ms, m ∈ db.usableMachines c) (busy : List MachineId) :
    TenancySafe (packFirst held blocked db c placements ms busy).db := by
  rcases packFirst_cases held blocked db c placements ms busy with
    hsame | ⟨m, candidate, cards, htarget, -, hdb⟩
  · rwa [hsame]
  · have hm := hms m (List.mem_of_find?_eq_some htarget)
    rcases createRun_created db c candidate (List.cons_ne_nil (m.id, cards) [])
      (db.freePort c (db.liveRunsOn m.id ++ db.teardownPendingOn m.id) []) 0 with ⟨r, hr, _⟩
    have hmirror : NodesMirror (packFirst held blocked db c placements ms busy).db :=
      packFirst_mirror h.mirror ms busy
    rw [hdb] at hmirror ⊢
    refine h.created hr ?_ hmirror
    intro p hp m' hm' hid hpool
    have hpm : p = (m.id, cards) := by simpa using hp
    have : m' = m := Table.eq_of_key_eq hm' (List.mem_of_mem_filter hm) (hid.trans (by rw [hpm]))
    rw [this] at hpool ⊢
    exact usableMachines_noSession hc hm hpool

theorem startGang_tenancy {held : Reservations} {blocked : List MachineId} {db : Db} {c : Campaign}
    (h : TenancySafe db) (pending : List Candidate) (busy : List MachineId) :
    TenancySafe (startGang held blocked db c pending busy).db := by
  rcases startGang_cases held blocked db c pending busy with
    hsame | ⟨p, port, dist, hidle, hmembers, -, hdb⟩
  · rwa [hsame]
  · have hplan : (db.membersByRank c.nodeGroup).map (fun m => (m.id, List.range p.cards)) ≠ [] := by
      simpa using hmembers
    rcases createRun_created db c p.candidateId hplan port dist with ⟨r, hr, _⟩
    have hmirror : NodesMirror (startGang held blocked db c pending busy).db :=
      startGang_mirror h.mirror pending busy
    rw [hdb] at hmirror ⊢
    refine h.created hr ?_ hmirror
    intro q hq m hm hid _
    rcases List.mem_map.mp hq with ⟨a, ha, rfl⟩
    have : a = m := Table.eq_of_key_eq (mem_machines_of_mem_membersByRank ha) hm hid.symm
    subst this
    have hm_idle := List.all_eq_true.mp hidle a ha
    simp only [Bool.and_eq_true, Bool.not_eq_true'] at hm_idle
    exact machineHasLiveSession_eq_false.mp hm_idle.1.1.2

theorem startOne_tenancy {held : Reservations} {blocked : List MachineId}
    {stageAllowed : Bool → Bool} {db : Db} {c : Campaign} (hc : c.policyId = none)
    (h : TenancySafe db) : TenancySafe (startOne held blocked stageAllowed db c).db := by
  have h' := h.of_settles (retireInPlace_settles db (db.validCandidates c))
  unfold startOne
  simp only
  split_ifs
  · exact h'
  · exact startGang_tenancy h' _ _
  · exact packFirst_tenancy h' hc _ (fun m hm => hm) _

/-! ## A session arrives -/

/-- A newcomer on cards nobody holds, next to tenants that share (and alone if it does not), keeps
tenants apart. -/
theorem TenantsApart.arrive {db db' : Db} {m : MachineId} (h : TenantsApart db m) (s₀ : PolicySession)
    (hsessions : ∀ s ∈ db'.liveSessionsOn m, s ∈ db.liveSessionsOn m ∨ s = s₀)
    (hruns : db'.liveRunsOn m = db.liveRunsOn m)
    (hcampaigns : ∀ c, db'.exclusiveCampaign c = db.exclusiveCampaign c)
    (hcards : ∀ s ∈ db.liveSessionsOn m, List.Disjoint s.gpuIndices s₀.gpuIndices)
    (hnodes : ∀ r ∈ db.liveRunsOn m, ∀ n ∈ Db.nodesOn r m,
      List.Disjoint s₀.gpuIndices n.gpuIndices)
    (hothers : ∀ s ∈ db.liveSessionsOn m, db.exclusiveCampaign s.campaignId = false)
    (halone : db.exclusiveCampaign s₀.campaignId = true →
      db.liveSessionsOn m = [] ∧ ∀ r ∈ db.liveRunsOn m, r.campaignId = s₀.campaignId) :
    TenantsApart db' m where
  cards := by
    intro s₁ h₁ s₂ h₂ hne
    rcases hsessions s₁ h₁ with h₁ | rfl <;> rcases hsessions s₂ h₂ with h₂ | rfl
    · exact h.cards s₁ h₁ s₂ h₂ hne
    · exact hcards s₁ h₁
    · intro i hi hi'
      exact hcards s₂ h₂ hi' hi
    · exact absurd rfl hne
  runs := by
    intro s hs r hr hne n hn
    rw [hruns] at hr
    rcases hsessions s hs with hs | rfl
    · exact h.runs s hs r hr hne n hn
    · exact hnodes r hr n hn
  alone := by
    intro s hs hex
    rw [hcampaigns] at hex
    rw [hruns]
    rcases hsessions s hs with hs | rfl
    · have := hothers s hs
      simp [hex] at this
    · rcases halone hex with ⟨hnone, hr⟩
      refine ⟨?_, hr⟩
      intro s' hs'
      rcases hsessions s' hs' with hs' | rfl
      · simp [hnone] at hs'
      · rfl

/-- Reserved cards are nobody's on the machine, and the tenants agree to share or there are none. -/
theorem allocationOn_spec {held : Reservations} {needs : PolicyNeeds} {db : Db} {c : Campaign}
    {m : Machine} {cards ports : List Nat} (hmirror : NodesMirror db) (hpool : m.isNodePool = false)
    (hc : db.campaigns.get? c.id = some c)
    (h : allocationOn held needs db c m = some (cards, ports)) :
    (∀ s ∈ db.liveSessionsOn m.id, List.Disjoint s.gpuIndices cards) ∧
      (∀ r ∈ db.liveRunsOn m.id, ∀ n ∈ Db.nodesOn r m.id, List.Disjoint cards n.gpuIndices) ∧
      (∀ s ∈ db.liveSessionsOn m.id, db.exclusiveCampaign s.campaignId = false) ∧
      (c.shareMachine = false → db.liveSessionsOn m.id = [] ∧ db.liveRunsOn m.id = []) := by
  unfold allocationOn at h
  rw [if_neg (by simp [hpool])] at h
  by_cases hshare : c.shareMachine = true
  · rw [if_neg (by simp [hshare])] at h
    rcases slice_spec h with ⟨htenants, hfree, -⟩
    refine ⟨?_, ?_, ?_, by simp [hshare]⟩
    · intro s hs i hi hi'
      exact hfree i hi' (List.mem_append_left _ (List.mem_flatMap.mpr ⟨s, hs, hi⟩))
    · intro r hr n hn i hi hi'
      rw [hmirror r (Db.mem_liveRunsOn.mp hr).1 n (Db.mem_nodesOn.mp hn).1] at hi'
      exact hfree i hi (List.mem_append_right _
        (List.mem_flatMap.mpr ⟨r, List.mem_append_left _ hr, hi'⟩))
    · intro s hs
      unfold Db.exclusiveCampaign
      cases hget : db.campaigns.get? s.campaignId with
      | none => rfl
      | some o =>
          rcases Table.get?_eq_some_iff.mp hget with ⟨ho, hoid⟩
          by_cases hown : o.id = c.id
          · have : o = c := Table.eq_of_key_eq ho (Table.get?_eq_some_iff.mp hc).1 hown
            simp [this, hshare]
          · have hrow := List.all_eq_true.mp htenants o ho
            have hhere : (db.liveSessionsOn m.id).any (fun t => t.campaignId == o.id) = true :=
              List.any_eq_true.mpr ⟨s, hs, by simp [hoid]⟩
            simpa [hown, hhere] using hrow
  · rw [if_pos (by simp [hshare])] at h
    rcases wholeBox_spec h with ⟨hsessions, hruns, -, -⟩
    exact ⟨by simp [hsessions], by simp [hruns], by simp [hsessions], fun _ => ⟨hsessions, hruns⟩⟩

/-- A session that takes no machine, or leaves one, brings nobody. -/
theorem TenancySafe.of_sessions {db db' : Db} (h : TenancySafe db) (hmachines : db'.machines = db.machines)
    (hruns : db'.runs = db.runs) (hcampaigns : ∀ c, db'.exclusiveCampaign c = db.exclusiveCampaign c)
    (hsessions : ∀ m, ∀ s' ∈ db'.liveSessionsOn m, ∃ s ∈ db.liveSessionsOn m,
      s.id = s'.id ∧ s.gpuIndices = s'.gpuIndices ∧ s.campaignId = s'.campaignId) :
    TenancySafe db' where
  apart := by
    intro m hm hpool
    rw [hmachines] at hm
    refine (h.apart m hm hpool).of_within ⟨hsessions m.id, ?_, hcampaigns⟩
    intro r hr
    rw [liveRunsOn_congr hruns] at hr
    exact ⟨r, hr, rfl, rfl, rfl⟩
  mirror := by
    intro r hr
    rw [hruns] at hr
    exact h.mirror r hr

theorem exclusiveCampaign_of_get? {db : Db} {c : Campaign} {id : CampaignId}
    (h : db.campaigns.get? id = some c) : db.exclusiveCampaign id = !c.shareMachine := by
  simp [Db.exclusiveCampaign, h]

theorem waitingFor_spec {db : Db} {s : PolicySession} {c : Campaign} (h : db.waitingFor s = some c) :
    s.status = .pending ∧ s.machineId = none ∧ db.campaigns.get? s.campaignId = some c := by
  unfold Db.waitingFor at h
  split_ifs at h with hp
  cases hc : db.campaigns.get? s.campaignId with
  | none => simp [hc] at h
  | some c' =>
      simp only [hc] at h
      split_ifs at h
      exact ⟨hp.1, hp.2.1, h⟩

/-- A reservation on cards `_allocation_on` gave keeps tenants apart. -/
theorem reserve_tenancy {held : Reservations} {needs : PolicyNeeds} {db : Db} {session : SessionId}
    {s : PolicySession} {c : Campaign} {m : Machine} {cards ports : List Nat} (h : TenancySafe db)
    (hget : db.sessions.get? session = some s) (hwait : db.waitingFor s = some c)
    (hm : m ∈ db.machines.rows) (halloc : allocationOn held needs db c m = some (cards, ports)) :
    TenancySafe (db.setSession session fun s =>
      { s with machineId := some m.id, gpuIndices := cards, ports := ports }) := by
  rcases Table.get?_eq_some_iff.mp hget with ⟨hs, hsid⟩
  rcases waitingFor_spec hwait with ⟨-, hnone, hcampaign⟩
  have hcid : c.id = s.campaignId := (Table.get?_eq_some_iff.mp hcampaign).2
  -- the session had no machine, so on each machine it is new or absent
  have hmem : ∀ m', ∀ s' ∈ (db.setSession session fun s =>
      { s with machineId := some m.id, gpuIndices := cards, ports := ports }).liveSessionsOn m',
      s' ∈ db.liveSessionsOn m' ∨
        s' = { s with machineId := some m.id, gpuIndices := cards, ports := ports } ∧ m.id = m' := by
    intro m' s' hs'
    rcases Db.mem_liveSessionsOn.mp hs' with ⟨hrow, hlive, hon⟩
    rcases Db.mem_setSession.mp hrow with ⟨t, ht, rfl⟩
    by_cases hts : t.id = session
    · have : t = s := Table.eq_of_key_eq ht hs (hts.trans hsid.symm)
      subst this
      rw [if_pos hts] at hon ⊢
      exact Or.inr ⟨rfl, Option.some.inj hon⟩
    · simp only [hts, if_false] at hlive hon ⊢
      exact Or.inl (Db.mem_liveSessionsOn.mpr ⟨ht, hlive, hon⟩)
  refine ⟨?_, h.mirror⟩
  intro m' hm' hpool
  by_cases hm'id : m'.id = m.id
  · have : m = m' := Table.eq_of_key_eq hm hm' hm'id.symm
    subst this
    rcases allocationOn_spec h.mirror hpool (hcid ▸ hcampaign) halloc with
      ⟨hcards, hnodes, hothers, halone⟩
    refine (h.apart m hm hpool).arrive
      { s with machineId := some m.id, gpuIndices := cards, ports := ports } ?_ rfl (fun _ => rfl)
      hcards hnodes hothers ?_
    · intro s' hs'
      rcases hmem m.id s' hs' with hold | ⟨hnew, -⟩
      · exact Or.inl hold
      · exact Or.inr hnew
    · intro hex
      rw [exclusiveCampaign_of_get? hcampaign] at hex
      rcases halone (by simpa using hex) with ⟨hsessions, hruns⟩
      exact ⟨hsessions, by simp [hruns]⟩
  · refine (h.apart m' hm' hpool).of_within ⟨?_, ?_, fun _ => rfl⟩
    · intro s' hs'
      rcases hmem m'.id s' hs' with hold | ⟨-, hid'⟩
      · exact ⟨s', hold, rfl, rfl, rfl⟩
      · exact absurd hid'.symm hm'id
    · intro r hr
      exact ⟨r, hr, rfl, rfl, rfl⟩

/-- The machine queue keeps tenants apart. -/
theorem tryReserve_tenancy {held : Reservations} {blocked : List MachineId} {needs : PolicyNeeds}
    {session : SessionId} {db : Db} (h : TenancySafe db) :
    TenancySafe (tryReserve held blocked needs session db).1 := by
  rcases tryReserve_cases held blocked needs session db with
    hsame | ⟨s, c, m, cards, ports, hget, hwait, htarget, halloc, hdb⟩
  · rwa [hsame]
  · rw [hdb]
    exact reserve_tenancy h hget hwait (List.mem_of_mem_filter (List.mem_of_find?_eq_some htarget))
      halloc

/-- A new run of a live session, on cards the session holds. -/
structure SessionRun (db db' : Db) (s : PolicySession) (r : Run) : Prop where
  rows : db'.runs.rows = db.runs.rows ++ [r]
  machines : db'.machines = db.machines
  sessions : db'.sessions = db.sessions
  campaigns : db'.campaigns = db.campaigns
  nodes : r.nodes = [⟨s.machineId, r.gpuIndices⟩]
  cards : ∀ i ∈ r.gpuIndices, i ∈ s.gpuIndices
  session : r.policySessionId = some s.id
  campaign : r.campaignId = s.campaignId

theorem NodesMirror.sessionRun {db db' : Db} {s : PolicySession} {r : Run} (h : NodesMirror db)
    (hr : SessionRun db db' s r) : NodesMirror db' := by
  intro q hq n hn
  rw [hr.rows] at hq
  rcases List.mem_append.mp hq with hq | hq
  · exact h q hq n hn
  · have hqr : q = r := by simpa using hq
    rw [hqr, hr.nodes, List.mem_singleton] at hn
    rw [hn, hqr]

/-- A run inside its session's cards keeps off everybody the session keeps off. -/
theorem TenancySafe.sessionRun {db db' : Db} {s : PolicySession} {r : Run} (h : TenancySafe db)
    (hs : s ∈ db.sessions.rows) (hlive : s.live = true) (hr : SessionRun db db' s r) :
    TenancySafe db' where
  apart := by
    intro m hm hpool
    rw [hr.machines] at hm
    have hapart := h.apart m hm hpool
    -- where the new run is, its session is a tenant
    have hruns : ∀ q ∈ db'.liveRunsOn m.id,
        q ∈ db.liveRunsOn m.id ∨ q = r ∧ s ∈ db.liveSessionsOn m.id := by
      intro q hq
      rcases Db.mem_liveRunsOn.mp hq with ⟨hrow, hl, hon⟩
      rw [hr.rows] at hrow
      rcases List.mem_append.mp hrow with hrow | hrow
      · exact Or.inl (Db.mem_liveRunsOn.mpr ⟨hrow, hl, hon⟩)
      · have hqr : q = r := by simpa using hrow
        rw [hqr, Db.onMachine_iff, hr.nodes] at hon
        exact Or.inr ⟨hqr, Db.mem_liveSessionsOn.mpr ⟨hs, hlive, by simpa using hon⟩⟩
    constructor
    · rw [liveSessionsOn_congr hr.sessions]
      exact hapart.cards
    · intro t ht q hq hne n hn i hi hi'
      rw [liveSessionsOn_congr hr.sessions] at ht
      rcases hruns q hq with hq | ⟨rfl, hon⟩
      · exact hapart.runs t ht q hq hne n hn hi hi'
      · have hts : t.id ≠ s.id := by
          intro he
          exact hne (by rw [hr.session, he])
        have hnode : n.gpuIndices = q.gpuIndices := by
          have := (Db.mem_nodesOn.mp hn).1
          rw [hr.nodes, List.mem_singleton] at this
          rw [this]
        rw [hnode] at hi'
        exact hapart.cards t ht s hon hts hi (hr.cards i hi')
    · intro t ht hex
      rw [liveSessionsOn_congr hr.sessions] at ht ⊢
      rw [exclusiveCampaign_congr hr.campaigns] at hex
      rcases hapart.alone t ht hex with ⟨honly, hown⟩
      refine ⟨honly, ?_⟩
      intro q hq
      rcases hruns q hq with hq | ⟨rfl, hon⟩
      · exact hown q hq
      · have : s = t := Table.eq_of_key_eq hs (Db.mem_liveSessionsOn.mp ht).1 (honly s hon)
        rw [hr.campaign, this]
  mirror := h.mirror.sessionRun hr

/-- Only a session that may explore marks its activity. -/
theorem markActivity_live {session : SessionId} {body : LaunchIn} {db : Db} {t : LaunchStage}
    (h : markActivity session body db = some t) :
    ∃ s, db.sessions.get? session = some s ∧ s.live = true := by
  unfold markActivity at h
  cases hget : db.sessions.get? session with
  | none => simp [hget] at h
  | some s =>
      refine ⟨s, rfl, ?_⟩
      by_cases hstatus : s.status ≠ .starting ∧ s.status ≠ .searching
      · simp [hget, requireExploring, hstatus] at h
      · have : s.status = .starting ∨ s.status = .searching := by
          by_contra hno
          push Not at hno
          exact hstatus hno
        rcases this with hs | hs <;> simp [PolicySession.live, SessionStatus.terminal, hs]

/-- A launch request leaves the store alone, or adds a run of a live session on cards and a port
decided from the session's live runs. -/
theorem requestLaunch_cases (session : SessionId) (body : LaunchIn) (db : Db) :
    requestLaunch session body db = db ∨
      ∃ s config cards port r, db.sessions.get? session = some s ∧ s.live = true ∧
        body.config = some config ∧
        launchAllocation s (s.machineId.bind db.machines.get?) (db.liveSessionRuns session) body config =
          .ok (cards, port) ∧
        SessionRun db (requestLaunch session body db) s r ∧ r.gpuIndices = cards ∧
        r.servicePort = port := by
  rcases requestLaunch_adds session body db with
    hsame | ⟨s, config, cards, port, hget, hmark, -, hconfig, halloc, hadd⟩
  · exact Or.inl hsame
  · rcases Option.isSome_iff_exists.mp hmark with ⟨t, hmark⟩
    rcases markActivity_live hmark with ⟨s', hget', hlive⟩
    rw [hget] at hget'
    cases hget'
    rw [hadd]
    refine Or.inr ⟨s, config, cards, port, _, hget, hlive, hconfig, halloc, ⟨rfl, rfl, rfl, rfl,
      rfl, ?_, rfl, rfl⟩, rfl, rfl⟩
    intro i hi
    exact ((launchAllocation_spec halloc).1 i hi).1

theorem requestLaunch_tenancy {session : SessionId} {body : LaunchIn} {db : Db}
    (h : TenancySafe db) : TenancySafe (requestLaunch session body db) := by
  rcases requestLaunch_cases session body db with
    hsame | ⟨s, _, _, _, r, hget, hlive, _, _, hr, _, _⟩
  · rwa [hsame]
  · exact h.sessionRun (Table.get?_eq_some_iff.mp hget).1 hlive hr

/-- A validation run is a run of its session, on the cards `_validation_cards` gave. -/
theorem launchValidationRun_cases {session : SessionId} {config : LaunchConfig} {db db' : Db}
    (h : launchValidationRun session config db = some db') :
    ∃ s c r, db.sessions.get? session = some s ∧ db.campaigns.get? s.campaignId = some c ∧
      validationCards s config.cards (db.blockersOf s) = some r.gpuIndices ∧ SessionRun db db' s r ∧
      r.servicePort = db.validationPort s c := by
  rcases launchValidationRun_adds h with ⟨s, c, cards, hget, hc, hcards, rfl⟩
  refine ⟨s, c, _, hget, hc, hcards, ⟨rfl, rfl, rfl, rfl, rfl, ?_, rfl, rfl⟩, rfl⟩
  intro i hi
  exact (validationCards_spec hcards i hi).1

/-! ## The validation session -/

/-- What the validation session asks of its machine and nobody checks: all cards of the machine are
free, and whoever is there shares, as its own campaign does. -/
structure ClearFor (db : Db) (c : Campaign) (m : Machine) : Prop where
  sessions : ∀ s ∈ db.liveSessionsOn m.id, (∀ i ∈ s.gpuIndices, m.gpuCount ≤ i) ∧
    db.exclusiveCampaign s.campaignId = false ∧ c.shareMachine = true
  runs : ∀ r ∈ db.liveRunsOn m.id, (∀ n ∈ Db.nodesOn r m.id, ∀ i ∈ n.gpuIndices, m.gpuCount ≤ i) ∧
    (c.shareMachine = true ∨ r.campaignId = c.id)

theorem exclusiveCampaign_setCampaign {db : Db} {id : CampaignId} {f : Campaign → Campaign}
    {hf : ∀ c, (f c).id = c.id} (hshare : ∀ c, (f c).shareMachine = c.shareMachine)
    (k : CampaignId) : (db.setCampaign id f hf).exclusiveCampaign k = db.exclusiveCampaign k := by
  unfold Db.exclusiveCampaign Db.setCampaign
  rw [Table.get?_modify]
  cases db.campaigns.get? k with
  | none => rfl
  | some c =>
      by_cases hk : k = id
      · simp [hk, hshare]
      · simp [hk]

theorem validateTarget_spec {db : Db} {campaign : CampaignId} {machine : String} {c : Campaign}
    {m : Machine} (h : db.validateTarget campaign machine = some (c, m)) :
    db.campaigns.get? campaign = some c ∧ m ∈ db.machines.rows := by
  unfold Db.validateTarget at h
  split at h
  · rename_i c' m' hc hm
    split_ifs at h
    have hpair := Option.some.inj h
    simp only [Prod.mk.injEq] at hpair
    rcases hpair with ⟨rfl, rfl⟩
    exact ⟨hc, List.mem_of_find?_eq_some hm⟩
  · cases h

/-- On a clear machine the validation session keeps tenants apart. -/
theorem validateConfigs_tenancy {campaign : CampaignId} {machine : String} {now until_ : Time}
    {db db' : Db} (h : TenancySafe db)
    (hclear : ∀ c m, db.validateTarget campaign machine = some (c, m) → m.isNodePool = false →
      ClearFor db c m)
    (hdone : validateConfigs campaign machine now until_ db = some db') : TenancySafe db' := by
  unfold validateConfigs at hdone
  rcases Option.map_eq_some_iff.mp hdone with ⟨⟨c, m⟩, htarget, rfl⟩
  rcases validateTarget_spec htarget with ⟨hcampaign, hm⟩
  have hcid : c.id = campaign := (Table.get?_eq_some_iff.mp hcampaign).2
  -- one newcomer, on the machine the operator named
  have hmem : ∀ m', ∀ s' ∈ ({ db with
      sessions := db.sessions.insert (validationSession c m now) } : Db).liveSessionsOn m',
      s' ∈ db.liveSessionsOn m' ∨
        s' = validationSession c m now db.sessions.nextKey ∧ m.id = m' := by
    intro m' s' hs'
    rcases Db.mem_liveSessionsOn.mp hs' with ⟨hrow, hlive, hon⟩
    rcases List.mem_append.mp hrow with hrow | hrow
    · exact Or.inl (Db.mem_liveSessionsOn.mpr ⟨hrow, hlive, hon⟩)
    · have hnew : s' = validationSession c m now db.sessions.nextKey := by simpa using hrow
      rw [hnew] at hon
      exact Or.inr ⟨hnew, Option.some.inj hon⟩
  have hexclusive := @exclusiveCampaign_setCampaign db c.id
    (fun c => { c with status := .active, windowStart := some now, windowEnd := some until_ })
    (fun _ => rfl) fun _ => rfl
  refine ⟨?_, h.mirror⟩
  intro m' hm' hpool
  have hapart := h.apart m' hm' hpool
  by_cases hmm : m.id = m'.id
  · have : m = m' := Table.eq_of_key_eq hm hm' hmm
    subst this
    have hclear := hclear c m htarget hpool
    refine hapart.arrive (validationSession c m now db.sessions.nextKey) ?_ rfl hexclusive ?_ ?_ ?_ ?_
    · intro s' hs'
      rcases hmem m.id s' hs' with hold | ⟨hnew, -⟩
      · exact Or.inl hold
      · exact Or.inr hnew
    · intro s hs i hi hi'
      have hge := (hclear.sessions s hs).1 i hi
      exact absurd (List.mem_range.mp hi') (Nat.not_lt.mpr hge)
    · intro r hr n hn i hi hi'
      have hge := (hclear.runs r hr).1 n hn i hi'
      exact absurd (List.mem_range.mp hi) (Nat.not_lt.mpr hge)
    · intro s hs
      exact (hclear.sessions s hs).2.1
    · intro hex
      have hshare : c.shareMachine = false := by
        have hown : db.exclusiveCampaign c.id = !c.shareMachine :=
          exclusiveCampaign_of_get? (hcid ▸ hcampaign)
        simpa [validationSession, hown] using hex
      refine ⟨?_, ?_⟩
      · apply List.eq_nil_iff_forall_not_mem.mpr
        intro s hs
        have := (hclear.sessions s hs).2.2
        simp [hshare] at this
      · intro r hr
        exact (hclear.runs r hr).2.resolve_left (by simp [hshare])
  · refine hapart.of_within ⟨?_, fun r hr => ⟨r, hr, rfl, rfl, rfl⟩, hexclusive⟩
    intro s' hs'
    rcases hmem m'.id s' hs' with hold | ⟨-, hid⟩
    · exact ⟨s', hold, rfl, rfl, rfl⟩
    · exact absurd hid hmm

/-! ## Runs -/

/-- What changes who is on a machine: the classic scheduler, a session opened, given a machine or moved
to another status, a run of a session, and the operator's validation. -/
inductive TenancyStep where
  | classic (step : ClassicStep)
  | openSession (campaign : CampaignId) (windowStart : Time)
  | tryReserve (held : Reservations) (blocked : List MachineId) (needs : PolicyNeeds)
      (session : SessionId)
  | moveSession (session : SessionId) (status : SessionStatus)
  | launch (session : SessionId) (body : LaunchIn)
  | validationRun (session : SessionId) (config : LaunchConfig)
  | validate (campaign : CampaignId) (machine : String) (now until_ : Time)

/-- `_schedule` starts runs of campaigns without a policy only. -/
def ClassicStep.scheduled (db : Db) : ClassicStep → Bool
  | .startOne campaign .. => (db.campaigns.get? campaign).any fun c => c.policyId.isNone
  | .startGang campaign .. => (db.campaigns.get? campaign).any fun c => c.policyId.isNone
  | _ => true

def TenancyStep.apply (db : Db) : TenancyStep → Db
  | .classic step => if step.scheduled db then step.apply db else db
  | .openSession campaign windowStart =>
      { db with sessions := db.sessions.insert (pendingSession campaign windowStart) }
  | .tryReserve held blocked needs session => (AutoTune.tryReserve held blocked needs session db).1
  | .moveSession session status =>
      -- a session that ended stays ended
      if (db.sessions.get? session).any PolicySession.live then
        db.setStatus session status
      else db
  | .launch session body => requestLaunch session body db
  | .validationRun session config =>
      if (db.sessions.get? session).any fun s => s.status == .validating then
        (launchValidationRun session config db).getD db
      else db
  | .validate campaign machine now until_ => (validateConfigs campaign machine now until_ db).getD db

/-- Operators validate on clear machines only. -/
def TenancyStep.Clear (db : Db) : TenancyStep → Prop
  | .validate campaign machine _ _ =>
      ∀ c m, db.validateTarget campaign machine = some (c, m) → m.isNodePool = false → ClearFor db c m
  | _ => True

theorem ClassicStep.apply_tenancy (db : Db) (s : ClassicStep) (h : TenancySafe db)
    (hs : s.scheduled db = true) : TenancySafe (s.apply db) := by
  cases s with
  | startOne campaign held blocked stageAllowed =>
      simp only [ClassicStep.apply]
      cases hc : db.campaigns.get? campaign with
      | none => exact h
      | some c =>
          have hpolicy : c.policyId = none := by simpa [ClassicStep.scheduled, hc] using hs
          exact startOne_tenancy hpolicy h
  | startGang campaign held blocked pending =>
      simp only [ClassicStep.apply]
      split
      · exact h
      · exact startGang_tenancy h _ _
  | finish run status error drivers now =>
      simp only [ClassicStep.apply]
      split_ifs with hf
      · exact h.of_settles (finish_settles drivers now (finishable_iff.mp hf) status error)
      · exact h
  | confirmTeardown run => exact h.of_settles (confirmTeardown_settles db run)
  | reapTeardowns drivers clock now => exact h.of_settles (reapTeardowns_settles drivers clock now db)

/-- Every step keeps tenants apart, a validation on a clear machine. -/
theorem TenancyStep.apply_tenancy (db : Db) (a : TenancyStep) (h : TenancySafe db)
    (hclear : a.Clear db) : TenancySafe (a.apply db) := by
  cases a with
  | classic step =>
      simp only [TenancyStep.apply]
      split_ifs with hs
      · exact step.apply_tenancy db h hs
      · exact h
  | openSession campaign windowStart =>
      refine h.of_sessions rfl rfl (fun _ => rfl) ?_
      intro m s hs
      rcases Db.mem_liveSessionsOn.mp hs with ⟨hrow, hlive, hon⟩
      rcases List.mem_append.mp hrow with hrow | hrow
      · exact ⟨s, Db.mem_liveSessionsOn.mpr ⟨hrow, hlive, hon⟩, rfl, rfl, rfl⟩
      · -- the new session has no machine
        simp [List.mem_singleton.mp hrow, pendingSession] at hon
  | tryReserve held blocked needs session => exact tryReserve_tenancy h
  | moveSession session status =>
      simp only [TenancyStep.apply]
      split_ifs with hlive
      · refine h.of_sessions rfl rfl (fun _ => rfl) ?_
        intro m s' hs'
        rcases Db.mem_liveSessionsOn.mp hs' with ⟨hrow, hlive', hon⟩
        rcases Db.mem_setSession.mp hrow with ⟨s, hs, rfl⟩
        by_cases hid : s.id = session
        · have hget : db.sessions.get? session = some s := Table.get?_eq_some_iff.mpr ⟨hs, hid⟩
          have hsl : s.live = true := by simpa [hget] using hlive
          rw [if_pos hid] at hon ⊢
          exact ⟨s, Db.mem_liveSessionsOn.mpr ⟨hs, hsl, hon⟩, rfl, rfl, rfl⟩
        · rw [if_neg hid] at hlive' hon ⊢
          exact ⟨s, Db.mem_liveSessionsOn.mpr ⟨hs, hlive', hon⟩, rfl, rfl, rfl⟩
      · exact h
  | launch session body => exact requestLaunch_tenancy h
  | validationRun session config =>
      simp only [TenancyStep.apply]
      split_ifs with hstatus
      · rcases (Option.any_eq_true _ _).mp hstatus with ⟨s, hget, hvalidating⟩
        have hlive : s.live = true := by
          have : s.status = .validating := by simpa using hvalidating
          simp [PolicySession.live, this, SessionStatus.terminal]
        cases hrun : launchValidationRun session config db with
        | none => exact h
        | some db' =>
            rcases launchValidationRun_cases hrun with ⟨s', _, r, hget', _, _, hr, _⟩
            have hss : s' = s := Option.some.inj (hget'.symm.trans hget)
            rw [hss] at hr
            exact h.sessionRun (Table.get?_eq_some_iff.mp hget).1 hlive hr
      · exact h
  | validate campaign machine now until_ =>
      simp only [TenancyStep.apply]
      cases hdone : validateConfigs campaign machine now until_ db with
      | none => exact h
      | some db' => exact validateConfigs_tenancy h hclear hdone

/-- In every run of placements, sessions and validations in which operators validate on clear machines
only, the tenants of every machine stay apart. -/
theorem session_allocations_apart (db : Db) (h : TenancySafe db) (steps : List TenancyStep)
    (hclear : Along TenancyStep.apply (fun db a => a.Clear db) db steps) :
    TenancySafe (runFrom TenancyStep.apply db steps) :=
  invariant_runFrom (fun db a h hc => a.apply_tenancy db h hc) h hclear

/-- A leased two-card machine. -/
def leasedPair : Machine where
  id := 1
  name := "node-1"
  gpuCount := 2
  state := .available
  leaseState := .active

/-- A session of a campaign that wants a machine to itself, waiting, and a second campaign with a
policy. -/
def oneWaiting : Db where
  machines := .single leasedPair
  campaigns := ⟨[{ id := 1, status := .active, policyId := some 1, shareMachine := false },
                 { id := 2, policyId := some 1 }], by simp⟩
  sessions := .single (pendingSession 1 0 1)

theorem oneWaiting_safe : TenancySafe oneWaiting where
  apart := by
    intro m _ _
    apply TenantsApart.of_noSession
    simp [oneWaiting, Db.liveSessionsOn, pendingSession]
  mirror := by simp [NodesMirror, oneWaiting]

/-- The session gets the machine; the operator's validation session of the other campaign then gets
the same cards. -/
theorem validate_over_session :
    let final := runFrom TenancyStep.apply oneWaiting
      [.tryReserve (fun _ => []) [] {} 1, .validate 2 "node-1" 10 70]
    TenancySafe oneWaiting ∧
      (final.liveSessionsOn 1).map (fun s => (s.id, s.gpuIndices)) = [(1, [0, 1]), (2, [0, 1])] ∧
      ¬ TenancySafe final := by
  intro final
  have hlive : (final.liveSessionsOn 1).map (fun s => (s.id, s.gpuIndices)) =
      [(1, [0, 1]), (2, [0, 1])] := by decide
  refine ⟨oneWaiting_safe, hlive, ?_⟩
  intro h
  have hapart := h.apart leasedPair (by decide) rfl
  have hfirst : (1, [0, 1]) ∈ (final.liveSessionsOn 1).map (fun s => (s.id, s.gpuIndices)) := by
    simp [hlive]
  have hsecond : (2, [0, 1]) ∈ (final.liveSessionsOn 1).map (fun s => (s.id, s.gpuIndices)) := by
    simp [hlive]
  rcases List.mem_map.mp hfirst with ⟨s₁, hs₁, he₁⟩
  rcases List.mem_map.mp hsecond with ⟨s₂, hs₂, he₂⟩
  simp only [Prod.mk.injEq] at he₁ he₂
  have hcards := hapart.cards s₁ hs₁ s₂ hs₂ (by rw [he₁.1, he₂.1]; decide)
  rw [he₁.2, he₂.2] at hcards
  exact hcards List.mem_cons_self List.mem_cons_self

/-- Once the first session is over, the same validation finds the machine clear. -/
theorem session_allocations_apart_afterSession :
    let steps : List TenancyStep := [.tryReserve (fun _ => []) [] {} 1, .moveSession 1 .done,
      .validate 2 "node-1" 10 70]
    let final := runFrom TenancyStep.apply oneWaiting steps
    (final.liveSessionsOn 1).map PolicySession.gpuIndices = [[0, 1]] ∧ TenancySafe final := by
  refine ⟨by decide, session_allocations_apart oneWaiting oneWaiting_safe _ ⟨trivial, trivial, ?_,
    trivial⟩⟩
  intro c m _ _
  have hover : ∀ s ∈ ([.tryReserve (fun _ => []) [] {} 1, .moveSession 1 .done].foldl
      TenancyStep.apply oneWaiting).sessions.rows, s.live = false := by decide
  constructor
  · intro s hs
    rcases Db.mem_liveSessionsOn.mp hs with ⟨hrow, hlive, -⟩
    have := hover s hrow
    simp [hlive] at this
  · intro r hr
    exact absurd (Db.mem_liveRunsOn.mp hr).1 List.not_mem_nil

end AutoTune
