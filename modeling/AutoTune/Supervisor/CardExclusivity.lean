import AutoTune.Lib.Ledger
import AutoTune.Lib.Trace
import AutoTune.Supervisor.Placement
import AutoTune.Supervisor.Settle

/-!
# Card exclusivity of the classic scheduler

On a machine without a policy session, the cards held by live or dying runs form an exclusive
ledger, and a gang has its machines to itself. Every placement grants from what is free, everything
else releases.
-/

namespace AutoTune

open Lib

/-- The nodes holding cards on a machine: those of runs that are live or still tearing down. -/
def Db.holdings (db : Db) (m : MachineId) : List RunNode :=
  (db.runs.rows.filter Run.holding).flatMap fun r => Db.nodesOn r m

/-- Exclusive cards on one machine, and no company for a live gang. -/
structure CardsExclusive (db : Db) (m : Machine) : Prop where
  ledger : Exclusive RunNode.gpuIndices m.gpuCount (db.holdings m.id)
  gang : ∀ r ∈ db.runs.rows, ∀ r' ∈ db.runs.rows, r.live = true → r'.live = true →
    r.onMachine m.id = true → r'.onMachine m.id = true → 1 < r.nodes.length → r'.id = r.id

/-- Card exclusivity of the fleet outside policy sessions. -/
def ClassicExclusive (db : Db) : Prop :=
  ∀ m ∈ db.machines.rows, db.machineHasLiveSession m.id = false → CardsExclusive db m

/-! ## Releases -/

theorem flatMap_nodesOn_sublist {rows rows' : List Run} (h : List.Forall₂ Run.Settles rows rows')
    (m : MachineId) :
    ((rows'.filter Run.holding).flatMap fun r => Db.nodesOn r m).Sublist
      ((rows.filter Run.holding).flatMap fun r => Db.nodesOn r m) := by
  induction h with
  | nil => exact List.Sublist.refl _
  | @cons r r' rows rows' hr _ ih =>
      have hnodes : Db.nodesOn r' m = Db.nodesOn r m := by simp [Db.nodesOn, hr.nodes]
      by_cases hh' : r'.holding = true
      · have hh : r.holding = true := hr.holding hh'
        simpa [hh', hh, hnodes] using ih
      · by_cases hh : r.holding = true
        · simpa [hh', hh] using ih.trans (List.sublist_append_right _ _)
        · simpa [hh', hh] using ih

theorem CardsExclusive.of_settles {db db' : Db} {m m' : Machine} (hs : Db.Settles db db')
    (hm : Machine.SameBox m m') (h : CardsExclusive db m) : CardsExclusive db' m' where
  ledger := by
    rw [hm.gpuCount, hm.id]
    exact h.ledger.sublist (flatMap_nodesOn_sublist hs.runs m.id)
  gang := by
    intro r hr r' hr' hl hl' ho ho' hn
    rcases hs.exists_run hr with ⟨q, hq, hqr⟩
    rcases hs.exists_run hr' with ⟨q', hq', hqr'⟩
    rw [hm.id] at ho ho'
    rw [hqr.id, hqr'.id]
    exact h.gang q hq q' hq' (hqr.live hl) (hqr'.live hl') (hqr.onMachine m.id ▸ ho)
      (hqr'.onMachine m.id ▸ ho') (hqr.nodes ▸ hn)

theorem ClassicExclusive.of_settles {db db' : Db} (hs : Db.Settles db db')
    (h : ClassicExclusive db) : ClassicExclusive db' := by
  intro m' hm' hno
  rcases hs.exists_machine hm' with ⟨m, hm, hbox⟩
  rw [hs.hasLiveSession, hbox.id] at hno
  exact (h m hm hno).of_settles hs hbox

/-! ## What a placement reads -/

theorem mem_holdings {db : Db} {m : MachineId} {n : RunNode} :
    n ∈ db.holdings m ↔ n ∈ db.blockingNodes m := by
  simp only [Db.holdings, Db.blockingNodes, Db.liveNodesOn, Db.teardownPendingNodesOn, List.mem_append,
    List.mem_flatMap, List.mem_filter, Run.holding, Bool.or_eq_true]
  constructor
  · rintro ⟨r, ⟨hr, hl | ht⟩, hn⟩
    · exact Or.inl ⟨r, ⟨hr, hl⟩, hn⟩
    · exact Or.inr ⟨r, ⟨hr, ht⟩, hn⟩
  · rintro (⟨r, ⟨hr, hl⟩, hn⟩ | ⟨r, ⟨hr, ht⟩, hn⟩)
    · exact ⟨r, ⟨hr, Or.inl hl⟩, hn⟩
    · exact ⟨r, ⟨hr, Or.inr ht⟩, hn⟩

/-- A machine with no live run and none tearing down holds nothing. -/
theorem holdings_eq_nil {db : Db} {m : MachineId} (hlive : db.liveRunsOn m = [])
    (htear : db.teardownPendingOn m = []) : db.holdings m = [] := by
  apply List.eq_nil_iff_forall_not_mem.mpr
  intro n hn
  rcases List.mem_flatMap.mp hn with ⟨r, hr, hnr⟩
  rcases List.mem_filter.mp hr with ⟨hrow, hhold⟩
  have hon : r.onMachine m = true := by
    rcases Db.mem_nodesOn.mp hnr with ⟨hmem, hmach⟩
    exact Db.onMachine_iff.mpr ⟨n, hmem, hmach⟩
  rcases Bool.or_eq_true_iff.mp hhold with hl | ht
  · have : r ∈ db.liveRunsOn m := Db.mem_liveRunsOn.mpr ⟨hrow, hl, hon⟩
    simp [hlive] at this
  · have : r ∈ db.teardownPendingOn m := Db.mem_teardownPendingOn.mpr ⟨hrow, ht, hon⟩
    simp [htear] at this

/-- `choose_next` answers with a candidate that has cards and fits. -/
theorem chooseNext_spec {free : Nat} {l : List Placement} {p : Placement}
    (h : chooseNext free l = some p) : 0 < p.cards ∧ p.cards ≤ free := by
  have := List.mem_filter.mp (firstPlacement_mem h)
  simpa using this.2

theorem mem_freeIndices {count i : Nat} {taken : List Nat} :
    i ∈ freeIndices count taken ↔ i < count ∧ i ∉ taken := by
  simp [freeIndices]

/-- What the loop body has checked of a machine it places on, and the cards it hands out. -/
structure Packed (db : Db) (c : Campaign) (m : Machine) (cards : List Nat) : Prop where
  noGang : db.machineHostsLiveGang m.id = false
  shares : db.liveRunsOn m.id ≠ [] → db.mayShare c (db.liveRunsOn m.id) m = true
  cpuOnly : m.gpuCount = 0 →
    db.liveRunsOn m.id = [] ∧ db.teardownPendingOn m.id = [] ∧ cards = []
  known : 0 < m.gpuCount → ∀ n ∈ db.holdings m.id, n.gpuIndices ≠ []
  nonempty : 0 < m.gpuCount → cards ≠ []
  free : ∀ i ∈ cards, i < m.gpuCount ∧ ∀ n ∈ db.holdings m.id, i ∉ n.gpuIndices

/-- What the guards of the loop have ruled out. -/
theorem not_closedTo {held : Reservations} {blocked : List MachineId} {db : Db} {c : Campaign}
    {m : Machine} (h : closedTo held blocked db c m = false) :
    db.machineHostsLiveGang m.id = false ∧
      (db.liveRunsOn m.id ≠ [] → db.mayShare c (db.liveRunsOn m.id) m = true) ∧
      (0 < m.gpuCount → ∀ n ∈ db.holdings m.id, n.gpuIndices ≠ []) := by
  simp only [closedTo, Bool.or_eq_false_iff] at h
  obtain ⟨⟨⟨⟨⟨_, _⟩, _⟩, hgang⟩, hshare⟩, hknown⟩ := h
  refine ⟨hgang, ?_, ?_⟩
  · intro hne
    have : (db.liveRunsOn m.id).isEmpty = false := by simpa using hne
    simpa [this] using hshare
  · intro hpos n hn he
    have hany : (db.blockingNodes m.id).any (fun n => n.gpuIndices.isEmpty) = true :=
      List.any_eq_true.mpr ⟨n, mem_holdings.mp hn, by simp [he]⟩
    simp [hpos, hany] at hknown

theorem mem_freeCards {held : Reservations} {db : Db} {c : Campaign} {m : Machine} {i : Nat}
    (h : i ∈ freeCards held db c m) :
    i < m.gpuCount ∧ ∀ n ∈ db.holdings m.id, i ∉ n.gpuIndices := by
  rcases mem_freeIndices.mp (List.mem_of_mem_take h) with ⟨hlt, hnot⟩
  refine ⟨hlt, fun n hn hin => hnot ?_⟩
  exact List.mem_flatMap.mpr ⟨n, mem_holdings.mp hn, hin⟩

theorem packOn_place {held : Reservations} {blocked : List MachineId} {db : Db} {c : Campaign}
    {placements : List Placement} {m : Machine} {candidate : CandidateId} {cards : List Nat}
    (h : packOn held blocked db c placements m = .place candidate cards) : Packed db c m cards := by
  unfold packOn at h
  by_cases hclosed : closedTo held blocked db c m = true
  · simp [hclosed] at h
  rw [if_neg hclosed] at h
  rcases not_closedTo (Bool.eq_false_iff.mpr hclosed) with ⟨hgang, hshare, hknown⟩
  by_cases hcpu : m.gpuCount = 0
  · rw [if_pos hcpu] at h
    split_ifs at h with hoccupied
    have hidle : db.liveRunsOn m.id = [] ∧ db.teardownPendingOn m.id = [] := by
      simp only [Bool.or_eq_true, not_or] at hoccupied
      simpa using hoccupied.1
    have hcards : cards = [] := by
      cases placements with
      | nil => simp at h
      | cons p ps => simp_all
    exact ⟨hgang, hshare, fun _ => ⟨hidle.1, hidle.2, hcards⟩, hknown, fun hpos => by omega,
      by simp [hcards]⟩
  · rw [if_neg hcpu] at h
    cases hchoose : chooseNext (freeCards held db c m).length placements with
    | none =>
        simp only [hchoose] at h
        split_ifs at h
    | some p =>
        simp only [hchoose, Verdict.place.injEq] at h
        rcases chooseNext_spec hchoose with ⟨hp, hfit⟩
        refine ⟨hgang, hshare, fun h0 => absurd h0 hcpu, hknown, fun _ he => ?_, fun i hi => ?_⟩
        · have := congrArg List.length (h.2.trans he)
          rw [List.length_take, List.length_nil] at this
          omega
        · rw [← h.2] at hi
          exact mem_freeCards (List.mem_of_mem_take hi)

/-! ## What a placement writes -/

/-- The nodes of a plan. -/
def planNodes (plan : List (MachineId × List Nat)) : List RunNode :=
  plan.map fun p => { machineId := some p.1, gpuIndices := p.2 }

/-- `_create_run` appends one live run with the plan's nodes and leaves everything else in place. -/
structure Created (db db' : Db) (c : Campaign) (plan : List (MachineId × List Nat)) (r : Run) :
    Prop where
  rows : db'.runs.rows = db.runs.rows ++ [r]
  nodes : r.nodes = planNodes plan
  live : r.live = true
  fresh : ∀ q ∈ db.runs.rows, q.id ≠ r.id
  campaign : r.campaignId = c.id
  session : r.policySessionId = none
  notPending : r.teardownPending = false
  machines : List.Forall₂ Machine.SameBox db.machines.rows db'.machines.rows
  sessions : db'.sessions = db.sessions
  campaigns : db'.campaigns = db.campaigns

theorem reserveMachines_settles (db : Db) (plan : List (MachineId × List Nat)) :
    Db.Settles db (reserveMachines db plan) := by
  induction plan generalizing db with
  | nil => exact Db.Settles.refl db
  | cons p plan ih =>
      refine Db.Settles.trans ?_ (ih (db.setMachine p.1 fun m => { m with state := .reserved }))
      exact Db.Settles.setMachine fun _ => ⟨rfl, rfl, rfl, rfl⟩

theorem reserveMachines_runs (db : Db) (plan : List (MachineId × List Nat)) :
    (reserveMachines db plan).runs = db.runs := by
  induction plan generalizing db with
  | nil => rfl
  | cons p plan ih => exact ih _

theorem createRun_created (db : Db) (c : Campaign) (candidate : CandidateId)
    {plan : List (MachineId × List Nat)} (hplan : plan ≠ []) (port dist : Nat) :
    ∃ r, Created db (createRun db c candidate plan port dist) c plan r ∧ r.servicePort = port := by
  cases plan with
  | nil => exact absurd rfl hplan
  | cons p workers =>
      have hruns := reserveMachines_runs db (p :: workers)
      have hset := reserveMachines_settles db (p :: workers)
      refine ⟨scheduledRun c candidate p workers port dist db.runs.nextKey, ⟨?_, rfl, rfl, ?_, rfl,
        rfl, rfl, hset.machines, hset.sessions, hset.campaigns⟩, rfl⟩
      · simp only [createRun, Db.setCandidate, hruns]
        rfl
      · intro q hq
        exact Nat.ne_of_lt (Table.key_lt_nextKey hq)

/-! ## Grants -/

theorem Created.exists_machine {db db' : Db} {c : Campaign} {plan : List (MachineId × List Nat)}
    {r : Run} (h : Created db db' c plan r) {m' : Machine} (hm' : m' ∈ db'.machines.rows) :
    ∃ m ∈ db.machines.rows, Machine.SameBox m m' :=
  exists_mem_of_forall₂ h.machines hm'

/-- The new run's nodes join the holders of their machines. -/
theorem Created.holdings {db db' : Db} {c : Campaign} {plan : List (MachineId × List Nat)} {r : Run}
    (h : Created db db' c plan r) (m : MachineId) :
    db'.holdings m = db.holdings m ++ Db.nodesOn r m := by
  have hhold : r.holding = true := by simp [Run.holding, h.live]
  simp [Db.holdings, h.rows, hhold]

/-- The part of a plan that lies on a machine. -/
theorem Created.nodesOn {db db' : Db} {c : Campaign} {plan : List (MachineId × List Nat)} {r : Run}
    (h : Created db db' c plan r) (m : MachineId) :
    Db.nodesOn r m = planNodes (plan.filter fun p => p.1 == m) := by
  simp only [Db.nodesOn, h.nodes, planNodes, List.filter_map]
  congr 1

/-- A machine the plan does not touch keeps its holders and its gangs. -/
theorem Created.untouched {db db' : Db} {c : Campaign} {plan : List (MachineId × List Nat)} {r : Run}
    (h : Created db db' c plan r) {m m' : Machine} (hbox : Machine.SameBox m m')
    (hoff : ∀ p ∈ plan, p.1 ≠ m.id) (hex : CardsExclusive db m) : CardsExclusive db' m' := by
  have hnodes : Db.nodesOn r m.id = [] := by
    rw [h.nodesOn]
    simpa [planNodes] using hoff
  have hnot : r.onMachine m.id = false := by
    simp only [Run.onMachine, List.any_eq_false]
    intro n hn hm
    have : n ∈ Db.nodesOn r m.id := Db.mem_nodesOn.mpr ⟨hn, by simpa using hm⟩
    simp [hnodes] at this
  refine ⟨?_, ?_⟩
  · rw [hbox.gpuCount, hbox.id, h.holdings, hnodes, List.append_nil]
    exact hex.ledger
  · rw [hbox.id, h.rows]
    intro q hq q' hq' hl hl' ho ho' hlen
    rcases List.mem_append.mp hq with hq | hq
    · rcases List.mem_append.mp hq' with hq' | hq'
      · exact hex.gang q hq q' hq' hl hl' ho ho' hlen
      · have : q' = r := by simpa using hq'
        simp [this, hnot] at ho'
    · have : q = r := by simpa using hq
      simp [this, hnot] at ho

/-- A single-node placement keeps card exclusivity. -/
theorem Created.single_exclusive {db db' : Db} {c : Campaign} {m : Machine} {cards : List Nat}
    {r : Run} (h : Created db db' c [(m.id, cards)] r) (hp : Packed db c m cards)
    (hex : CardsExclusive db m) {m' : Machine} (hbox : Machine.SameBox m m') :
    CardsExclusive db' m' := by
  have hnodes : Db.nodesOn r m.id = [⟨some m.id, cards⟩] := by
    rw [h.nodesOn]
    simp [planNodes]
  refine ⟨?_, ?_⟩
  · rw [hbox.gpuCount, hbox.id, h.holdings, hnodes]
    by_cases hpos : 0 < m.gpuCount
    · exact hex.ledger.grant (hp.known hpos) (hp.nonempty hpos) hp.free
    · rcases hp.cpuOnly (by omega) with ⟨hlive, htear, hcards⟩
      rw [holdings_eq_nil hlive htear, List.nil_append]
      exact Exclusive.single fun i hi => (hp.free i hi).1
  · rw [hbox.id, h.rows]
    intro q hq q' hq' hl hl' ho ho' hlen
    rcases List.mem_append.mp hq with hq | hq
    · -- a live gang here would have closed the machine
      have hno := List.any_eq_false.mp hp.noGang q hq
      simp [hl, ho, hlen] at hno
    · have : q = r := by simpa using hq
      rw [this, h.nodes] at hlen
      simp [planNodes] at hlen

/-- A gang placed on idle machines keeps card exclusivity. -/
theorem Created.gang_exclusive {db db' : Db} {c : Campaign} {members : List Machine} {width : Nat}
    {r : Run} (h : Created db db' c (members.map fun m => (m.id, List.range width)) r)
    (hnodup : (members.map Machine.id).Nodup) {m : Machine} (hm : m ∈ members)
    (hfit : width ≤ m.gpuCount) (hlive : db.liveRunsOn m.id = [])
    (htear : db.teardownPendingOn m.id = []) {m' : Machine} (hbox : Machine.SameBox m m') :
    CardsExclusive db' m' := by
  have hfilter : (members.map fun m => (m.id, List.range width)).filter (fun p => p.1 == m.id) =
      [(m.id, List.range width)] := by
    rw [List.filter_map]
    have hone : members.filter ((fun p => p.1 == m.id) ∘ fun m => (m.id, List.range width)) = [m] :=
      filter_key_eq_singleton hnodup hm
    rw [hone]
    rfl
  have hnodes : Db.nodesOn r m.id = [⟨some m.id, List.range width⟩] := by
    rw [h.nodesOn, hfilter]
    rfl
  refine ⟨?_, ?_⟩
  · rw [hbox.gpuCount, hbox.id, h.holdings, hnodes, holdings_eq_nil hlive htear, List.nil_append]
    exact Exclusive.single fun i hi => lt_of_lt_of_le (List.mem_range.mp hi) hfit
  · rw [hbox.id, h.rows]
    intro q hq q' hq' hl hl' ho ho' hlen
    have hold : ∀ p ∈ db.runs.rows, p.live = true → p.onMachine m.id = true → False := by
      intro p hp hpl hpo
      have : p ∈ db.liveRunsOn m.id := Db.mem_liveRunsOn.mpr ⟨hp, hpl, hpo⟩
      simp [hlive] at this
    rcases List.mem_append.mp hq with hq | hq
    · exact (hold q hq hl ho).elim
    · rcases List.mem_append.mp hq' with hq' | hq'
      · exact (hold q' hq' hl' ho').elim
      · have h₁ : q = r := by simpa using hq
        have h₂ : q' = r := by simpa using hq'
        rw [h₁, h₂]

theorem Created.hasLiveSession {db db' : Db} {c : Campaign} {plan : List (MachineId × List Nat)}
    {r : Run} (h : Created db db' c plan r) (m : MachineId) :
    db'.machineHasLiveSession m = db.machineHasLiveSession m := by
  simp [Db.machineHasLiveSession, h.sessions]

/-! ## The two placers -/

theorem packFirst_classic {held : Reservations} {blocked : List MachineId} {db : Db} {c : Campaign}
    {placements : List Placement} (hex : ClassicExclusive db) (ms : List Machine)
    (hms : ∀ m ∈ ms, m ∈ db.machines.rows) (busy : List MachineId) :
    ClassicExclusive (packFirst held blocked db c placements ms busy).db := by
  rcases packFirst_cases held blocked db c placements ms busy with
    hsame | ⟨m, candidate, cards, htarget, hv, hdb⟩
  · rwa [hsame]
  · have hm := hms m (List.mem_of_find?_eq_some htarget)
    rcases createRun_created db c candidate (List.cons_ne_nil (m.id, cards) [])
      (db.freePort c (db.liveRunsOn m.id ++ db.teardownPendingOn m.id) []) 0 with ⟨r, hr, _⟩
    rw [hdb]
    intro m' hm' hno
    rcases hr.exists_machine hm' with ⟨m₀, hm₀, hbox⟩
    rw [hr.hasLiveSession, hbox.id] at hno
    by_cases hsame : m₀.id = m.id
    · have : m₀ = m := Table.eq_of_key_eq hm₀ hm hsame
      subst this
      exact hr.single_exclusive (packOn_place hv) (hex m₀ hm₀ hno) hbox
    · refine hr.untouched hbox ?_ (hex m₀ hm₀ hno)
      intro p hp
      have : p = (m.id, cards) := by simpa using hp
      rw [this]
      exact fun he => hsame he.symm

theorem membersByRank_perm (db : Db) (group : String) :
    (db.membersByRank group).Perm
      (db.machines.rows.filter fun m => m.group.any fun g => g.1 == group) :=
  List.mergeSort_perm _ _

theorem membersByRank_nodup (db : Db) (group : String) :
    ((db.membersByRank group).map Machine.id).Nodup := by
  have hsub : ((db.machines.rows.filter fun m => m.group.any fun g => g.1 == group).map
      Machine.id).Sublist (db.machines.rows.map Machine.id) := List.filter_sublist.map _
  exact ((membersByRank_perm db group).map _).nodup_iff.mpr (db.machines.nodup.sublist hsub)

theorem mem_machines_of_mem_membersByRank {db : Db} {group : String} {m : Machine}
    (h : m ∈ db.membersByRank group) : m ∈ db.machines.rows :=
  List.mem_of_mem_filter ((membersByRank_perm db group).mem_iff.mp h)

/-- A gang candidate that fits takes no more cards of a member than it has. -/
theorem gangFitting_cards {nodes capacity : Nat} {pending : List Candidate} {p : Placement}
    (h : p ∈ gangFitting nodes capacity pending) : p.cards ≤ capacity := by
  rcases List.mem_filterMap.mp h with ⟨k, _, hk⟩
  split_ifs at hk with h₁ h₂
  have : p.cards = k.worldSize / nodes := by
    have := Option.some.inj hk
    rw [← this]
  omega

theorem min?_le {l : List Nat} {n : Nat} (h : n ∈ l) : l.min?.getD 0 ≤ n := by
  cases hm : l.min? with
  | none => simp
  | some k => exact (List.min?_eq_some_iff.mp hm).2 n h

theorem startGang_classic {held : Reservations} {blocked : List MachineId} {db : Db} {c : Campaign}
    (hex : ClassicExclusive db) (pending : List Candidate) (busy : List MachineId) :
    ClassicExclusive (startGang held blocked db c pending busy).db := by
  rcases startGang_cases held blocked db c pending busy with
    hsame | ⟨p, port, dist, hidle, hmembers, hfirst, hdb⟩
  · rwa [hsame]
  · have hplan : (db.membersByRank c.nodeGroup).map (fun m => (m.id, List.range p.cards)) ≠ [] := by
      simpa using hmembers
    rcases createRun_created db c p.candidateId hplan port dist with ⟨r, hr, _⟩
    rw [hdb]
    intro m' hm' hno
    rcases hr.exists_machine hm' with ⟨m, hm, hbox⟩
    rw [hr.hasLiveSession, hbox.id] at hno
    by_cases hmem : m ∈ db.membersByRank c.nodeGroup
    · have hm_idle := List.all_eq_true.mp hidle m hmem
      simp only [Bool.and_eq_true, List.isEmpty_iff] at hm_idle
      have hfit : p.cards ≤ m.gpuCount :=
        le_trans (gangFitting_cards (firstPlacement_mem hfirst)) (min?_le (List.mem_map_of_mem hmem))
      exact hr.gang_exclusive (membersByRank_nodup db c.nodeGroup) hmem hfit hm_idle.1.2 hm_idle.2 hbox
    · refine hr.untouched hbox ?_ (hex m hm hno)
      intro q hq
      rcases List.mem_map.mp hq with ⟨a, ha, rfl⟩
      intro he
      have : a = m := Table.eq_of_key_eq (mem_machines_of_mem_membersByRank ha) hm he
      exact hmem (this ▸ ha)

theorem retireInPlace_settles (db : Db) (pending : List Candidate) :
    Db.Settles db (retireInPlace db pending) := by
  unfold retireInPlace
  induction pending.filter Candidate.inPlaceBaseline generalizing db with
  | nil => exact Db.Settles.refl db
  | cons k l ih => exact Db.Settles.setCandidate.trans (ih _)

theorem startOne_classic {held : Reservations} {blocked : List MachineId}
    {stageAllowed : Bool → Bool} {db : Db} {c : Campaign} (hex : ClassicExclusive db) :
    ClassicExclusive (startOne held blocked stageAllowed db c).db := by
  have hex' := hex.of_settles (retireInPlace_settles db (db.validCandidates c))
  unfold startOne
  simp only
  split_ifs
  · exact hex'
  · exact startGang_classic hex' _ _
  · exact packFirst_classic hex' _ (fun m hm => List.mem_of_mem_filter hm) _

/-! ## Runs of the scheduler -/

/-- What the classic scheduler does to the store. A step names its run or campaign by id and
carries what the outside (plugins, drivers, clock) answered. -/
inductive ClassicStep where
  | startOne (campaign : CampaignId) (held : Reservations) (blocked : List MachineId)
      (stageAllowed : Bool → Bool)
  | startGang (campaign : CampaignId) (held : Reservations) (blocked : List MachineId)
      (pending : List Candidate)
  | finish (run : RunId) (status : RunStatus) (error : String)
      (drivers : RunId → TeardownReplies) (now : Time)
  | confirmTeardown (run : RunId)
  | reapTeardowns (drivers : RunId → ReapReplies) (clock : TeardownClock) (now : Time)

/-- Every caller of `_finish` has read the run as live; only a run whose deployment is not the
platform's can have been ended in between (a benchmark, with its launch). -/
def Db.finishable (db : Db) (id : RunId) : Bool :=
  db.runs.rows.all fun r => r.id != id || r.live || r.kind.notOurs

def ClassicStep.apply (db : Db) : ClassicStep → Db
  | .startOne campaign held blocked stageAllowed =>
      match db.campaigns.get? campaign with
      | none => db
      | some c => (AutoTune.startOne held blocked stageAllowed db c).db
  | .startGang campaign held blocked pending =>
      match db.campaigns.get? campaign with
      | none => db
      | some c => (AutoTune.startGang held blocked db c pending []).db
  | .finish run status error drivers now =>
      if db.finishable run then (AutoTune.finish drivers now db run status error).state else db
  | .confirmTeardown run => AutoTune.confirmTeardown db run
  | .reapTeardowns drivers clock now => AutoTune.reapTeardowns drivers clock now db

theorem finishable_iff {db : Db} {id : RunId} : db.finishable id = true ↔ Finishable db id := by
  simp only [Db.finishable, Finishable, List.all_eq_true, Bool.or_eq_true, bne_iff_ne, ne_eq]
  constructor
  · intro h r hr hid
    rcases h r hr with (h | h) | h
    · exact absurd hid h
    · exact Or.inl h
    · exact Or.inr h
  · intro h r hr
    by_cases hid : r.id = id
    · rcases h r hr hid with h | h
      · exact Or.inl (Or.inr h)
      · exact Or.inr h
    · exact Or.inl (Or.inl hid)

/-- Every step keeps card exclusivity. -/
theorem ClassicStep.apply_exclusive (db : Db) (s : ClassicStep) (hex : ClassicExclusive db) :
    ClassicExclusive (s.apply db) := by
  cases s with
  | startOne campaign held blocked stageAllowed =>
      simp only [ClassicStep.apply]
      split
      · exact hex
      · exact startOne_classic hex
  | startGang campaign held blocked pending =>
      simp only [ClassicStep.apply]
      split
      · exact hex
      · exact startGang_classic hex _ _
  | finish run status error drivers now =>
      simp only [ClassicStep.apply]
      split_ifs with hf
      · exact hex.of_settles (finish_settles drivers now (finishable_iff.mp hf) status error)
      · exact hex
  | confirmTeardown run => exact hex.of_settles (confirmTeardown_settles db run)
  | reapTeardowns drivers clock now => exact hex.of_settles (reapTeardowns_settles drivers clock now db)

/-- Card exclusivity holds after any sequence of placements, finishes and teardowns, by any
campaigns, from any store where it holds. -/
theorem classic_cards_exclusive (db : Db) (hex : ClassicExclusive db) (steps : List ClassicStep) :
    ClassicExclusive (runFrom ClassicStep.apply db steps) :=
  invariant_of_step (fun db s h => s.apply_exclusive db h) hex steps

/-- A sharing campaign with two one-card candidates on a leased two-card machine. -/
def twoCandidates : Db where
  machines := .single { id := 1, name := "node-1", gpuCount := 2, state := .available,
                        leaseState := .active }
  campaigns := .single { id := 1, status := .active }
  candidates := ⟨[{ id := 1, campaignId := 1, status := .valid, cards := 1, worldSize := 1 },
                  { id := 2, campaignId := 1, status := .valid, cards := 1, worldSize := 1 }],
                by simp⟩

/-- Both candidates are placed, on different cards, and exclusivity holds after it. -/
theorem classic_cards_exclusive_twoCandidates :
    let steps := [.startOne 1 (fun _ => []) [] (fun _ => true),
      .startOne 1 (fun _ => []) [] (fun _ => true)]
    (runFrom ClassicStep.apply twoCandidates steps).runs.rows.map Run.gpuIndices = [[0], [1]] ∧
      ClassicExclusive (runFrom ClassicStep.apply twoCandidates steps) := by
  refine ⟨by decide, classic_cards_exclusive twoCandidates ?_ _⟩
  intro m _ _
  exact ⟨Exclusive.nil, by simp [twoCandidates]⟩

end AutoTune
