import AutoTune.Supervisor.Finish

/-!
# Placing a run

The classic scheduler's two placers: `_start_one` packs one candidate onto one machine, `_start_gang`
takes every machine of a node group at once. Both read who is there, hand out cards and a port, and
write the run through `_create_run`.
-/

namespace AutoTune

open Lib

/-! ## Packing -/

/-- One candidate, and the cards it would occupy. -/
structure Placement where
  candidateId : CandidateId
  cards : Nat
deriving DecidableEq, Repr

/-- The order of `choose_next`: wider first, ties by candidate id. -/
def Placement.before (p q : Placement) : Bool :=
  decide (q.cards < p.cards) || (p.cards == q.cards && decide (p.candidateId ≤ q.candidateId))

/-- The first placement in that order. -/
def firstPlacement : List Placement → Option Placement
  | [] => none
  | p :: ps =>
      match firstPlacement ps with
      | none => some p
      | some q => if p.before q then some p else some q

/-- The widest pending candidate that fits in `freeCards`. -/
def chooseNext (freeCards : Nat) (pending : List Placement) : Option Placement :=
  firstPlacement (pending.filter fun p => decide (0 < p.cards) && decide (p.cards ≤ freeCards))

/-- Card indices not in `taken`, lowest first. -/
def freeIndices (gpuCount : Nat) (taken : List Nat) : List Nat :=
  (List.range gpuCount).filter fun i => !taken.contains i

/-! ## Ports -/

/-- 30000-32767, where kube-proxy hijacks a port on the node. -/
def nodePortRange (p : Nat) : Bool := decide (30000 ≤ p) && decide (p ≤ 32767)

/-- The first of `tries` consecutive ports from `port` that is neither used nor a NodePort. -/
def searchPort (used : List Nat) : Nat → Nat → Option Nat
  | 0, _ => none
  | tries + 1, port =>
      if !used.contains port && !nodePortRange port then some port
      else searchPort used tries (port + 1)

/-- The port a run listens on: its own, else its campaign's. -/
def Db.portOf (db : Db) (r : Run) : Nat :=
  if r.servicePort ≠ 0 then r.servicePort else (db.campaignOf r).elim 0 Campaign.servicePort

/-- `_free_port`: gives up on the campaign's own port when 256 are taken. -/
def Db.freePort (db : Db) (c : Campaign) (live : List Run) (reserved : List Nat) : Nat :=
  let used := (live.map db.portOf ++ reserved).filter (· ≠ 0)
  (searchPort used 256 c.servicePort).getD c.servicePort

/-- `_free_port_across`: a service port free on every member. -/
def Db.freePortAcross (db : Db) (c : Campaign) (machines : List Machine) : Nat :=
  db.freePort c (machines.flatMap fun m => db.liveRunsOn m.id ++ db.teardownPendingOn m.id) []

/-- `DIST_PORT_BASE`. -/
def distPortBase : Nat := 29500

/-- `_free_dist_port`: a rendezvous port free on the master. -/
def Db.freeDistPort (db : Db) (master : Machine) (excluded : List Nat) : Nat :=
  let runs := db.liveRunsOn master.id ++ db.teardownPendingOn master.id
  let used := excluded ++
    runs.flatMap fun r => [r.distPort, r.servicePort].filter (· ≠ 0)
  (searchPort used 256 distPortBase).getD distPortBase

/-! ## Writing the run -/

/-- The machines of a plan are held by a run. -/
def reserveMachines (db : Db) (plan : List (MachineId × List Nat)) : Db :=
  plan.foldl (fun db p => db.reserve p.1) db

/-- The row `_create_run` inserts; ranks 1 and up are the tail of the plan. -/
def scheduledRun (c : Campaign) (candidate : CandidateId) (master : MachineId × List Nat)
    (workers : List (MachineId × List Nat)) (servicePort distPort : Nat) (id : RunId) : Run where
  id := id
  campaignId := c.id
  candidateId := candidate
  machineId := some master.1
  kind := .experiment
  status := .pending
  gpuIndices := master.2
  servicePort := servicePort
  distPort := distPort
  workers := workers.map fun p => { machineId := some p.1, gpuIndices := p.2 }

/-- `_create_run`: reserve the machines of the plan, insert the run with its worker nodes, and
retire the candidate. `plan` is the node plan of a gang, master first, or one machine. -/
def createRun (db : Db) (c : Campaign) (candidate : CandidateId) (plan : List (MachineId × List Nat))
    (servicePort distPort : Nat) : Db :=
  match plan with
  | [] => db
  | master :: workers =>
      let db := (reserveMachines db plan).setCandidate candidate fun c =>
        { c with status := .exhausted }
      { db with
        runs := db.runs.insert (scheduledRun c candidate master workers servicePort distPort) }

/-! ## `_start_one` -/

/-- `_usable_machines`, in id order. -/
def Db.usableMachines (db : Db) (c : Campaign) : List Machine :=
  db.machines.rows.filter fun m =>
    m.state != .away && !m.needsAttention &&
      (c.machineNames.isEmpty || c.machineNames.contains m.name) && acceptsNewWork m &&
      ((c.shareMachine && c.policyId.isSome) || m.isNodePool || !db.machineHasLiveSession m.id)

/-- `_may_share`: both sides must opt in; a node pool is always shared. -/
def Db.mayShare (db : Db) (c : Campaign) (live : List Run) (m : Machine) : Bool :=
  m.isNodePool ||
    (c.shareMachine &&
      db.campaigns.rows.all fun o =>
        !(live.any fun r => r.campaignId == o.id) || o.shareMachine)

/-- What one machine of the loop in `_start_one` comes to. -/
inductive Verdict where
  | busy
  | skip
  | place (candidate : CandidateId) (cards : List Nat)
deriving DecidableEq, Repr

/-- The nodes whose cards a placement must stay off: live ones and those still tearing down. -/
def Db.blockingNodes (db : Db) (m : MachineId) : List RunNode :=
  db.liveNodesOn m ++ db.teardownPendingNodesOn m

/-- The guards of the loop in `_start_one`, in the source's order: a machine held for an older
waiter, admitted to another campaign, short of its cluster's port, hosting a live gang, not shared
by those on it, or held by a node that recorded no cards (an unknown set, read as all). -/
def closedTo (held : Reservations) (blocked : List MachineId) (db : Db) (c : Campaign)
    (m : Machine) : Bool :=
  let reserved := reservationsOn held m.id c.id
  let live := db.liveRunsOn m.id
  (blocked.contains m.id && !holds held m.id c.id) ||
    (!reserved.isEmpty && (!c.shareMachine || reserved.any fun r => !r.share)) ||
    db.portBusy held m c.id ||
    db.machineHostsLiveGang m.id ||
    (!live.isEmpty && !db.mayShare c live m) ||
    (decide (0 < m.gpuCount) && (db.blockingNodes m.id).any fun n => n.gpuIndices.isEmpty)

/-- The free cards, less what the sharing reservations will take. -/
def freeCards (held : Reservations) (db : Db) (c : Campaign) (m : Machine) : List Nat :=
  let free := freeIndices m.gpuCount ((db.blockingNodes m.id).flatMap RunNode.gpuIndices)
  free.take (free.length - ((reservationsOn held m.id c.id).map Reservation.cards).sum)

/-- The body of the loop in `_start_one`. -/
def packOn (held : Reservations) (blocked : List MachineId) (db : Db) (c : Campaign)
    (placements : List Placement) (m : Machine) : Verdict :=
  if closedTo held blocked db c m then .busy
  else if m.gpuCount = 0 then
    -- a CPU-only box hosts exactly one run and pins nothing
    if !(db.liveRunsOn m.id ++ db.teardownPendingOn m.id).isEmpty ||
        !(reservationsOn held m.id c.id).isEmpty then .busy
    else match placements with
      | [] => .skip
      | p :: _ => .place p.candidateId []
  else
    match chooseNext (freeCards held db c m).length placements with
    | none => if (chooseNext m.gpuCount placements).isSome then .busy else .skip
    | some p => .place p.candidateId ((freeCards held db c m).take p.cards)

/-- What `_start_one` returns: the store, whether it placed a run, whether anything was pending at
all, and the machines it found occupied. -/
structure Started where
  db : Db
  placed : Bool
  pending : Bool
  busy : List MachineId

/-- The loop of `_start_one` over the usable machines. -/
def packFirst (held : Reservations) (blocked : List MachineId) (db : Db) (c : Campaign)
    (placements : List Placement) : List Machine → List MachineId → Started
  | [], busy => ⟨db, false, true, busy⟩
  | m :: ms, busy =>
      match packOn held blocked db c placements m with
      | .busy => packFirst held blocked db c placements ms (busy ++ [m.id])
      | .skip => packFirst held blocked db c placements ms busy
      | .place candidate cards =>
          let blockers := db.liveRunsOn m.id ++ db.teardownPendingOn m.id
          ⟨createRun db c candidate [(m.id, cards)] (db.freePort c blockers []) 0, true, true, busy⟩

/-- The VALID candidates of a campaign, in id order. -/
def Db.validCandidates (db : Db) (c : Campaign) : List Candidate :=
  db.candidates.rows.filter fun k => k.campaignId == c.id && k.status == .valid

/-- In-place baselines are retired from the queue. -/
def retireInPlace (db : Db) (pending : List Candidate) : Db :=
  (pending.filter Candidate.inPlaceBaseline).foldl
    (fun db k => db.setCandidate k.id fun k => { k with status := .exhausted }) db

/-! ## `_start_gang` -/

/-- `_group_is_idle`: could this group host a gang right now? -/
def Db.groupIsIdle (db : Db) (members : List Machine) : Bool :=
  members.all fun m =>
    acceptsNewWork m && !m.needsAttention && decide (0 < m.gpuCount) &&
      !db.machineHasLiveSession m.id &&
      (db.liveRunsOn m.id).isEmpty && (db.teardownPendingOn m.id).isEmpty

/-- The candidates whose world splits evenly over the members and fits on each, with the cards per
node. -/
def gangFitting (nodes capacity : Nat) (pending : List Candidate) : List Placement :=
  pending.filterMap fun k =>
    if k.worldSize < nodes || k.worldSize % nodes != 0 then none
    else if capacity < k.worldSize / nodes then none
    else some ⟨k.id, k.worldSize / nodes⟩

/-- `_start_gang`: one candidate across the whole node group, or nothing at all. -/
def startGang (held : Reservations) (blocked : List MachineId) (db : Db) (c : Campaign)
    (pending : List Candidate) (busy : List MachineId) : Started :=
  let members := db.membersByRank c.nodeGroup
  if members.length < 2 then ⟨db, false, true, busy⟩
  else if !db.groupIsIdle members ||
      (members.any fun m => blocked.contains m.id && !holds held m.id c.id) ||
      (members.any fun m => !(reservationsOn held m.id c.id).isEmpty) then
    -- hold every member it could use
    if members.all fun m => acceptsNewWork m && !m.needsAttention then
      ⟨db, false, true, busy ++ members.map Machine.id⟩
    else ⟨db, false, true, busy⟩
  else if members.any fun m => m.driver == .k8s then ⟨db, false, true, busy⟩
  else
    let capacity := (members.map Machine.gpuCount).min?.getD 0
    match members, firstPlacement (gangFitting members.length capacity pending) with
    | master :: _, some p =>
        let port := db.freePortAcross c members
        let distPort := db.freeDistPort master [port]
        ⟨createRun db c p.candidateId (members.map fun m => (m.id, List.range p.cards)) port
          distPort, true, true, busy⟩
    | _, _ => ⟨db, false, true, busy⟩

/-- `_start_one`. `stageAllowed` is `_window_allows_stage` for the screening and the verification
stage. -/
def startOne (held : Reservations) (blocked : List MachineId) (stageAllowed : Bool → Bool) (db : Db)
    (c : Campaign) : Started :=
  let valid := db.validCandidates c
  let db := retireInPlace db valid
  let pending := valid.filter fun k => !k.inPlaceBaseline && stageAllowed k.verify
  if pending.isEmpty then ⟨db, false, false, []⟩
  else if c.nodeGroup != "" then startGang held blocked db c pending []
  else
    packFirst held blocked db c (pending.map fun k => ⟨k.id, k.cards⟩) (db.usableMachines c) []

/-! ## What the placers can do -/

theorem firstPlacement_mem {l : List Placement} {p : Placement} (h : firstPlacement l = some p) :
    p ∈ l := by
  induction l generalizing p with
  | nil => simp [firstPlacement] at h
  | cons q l ih =>
      simp only [firstPlacement] at h
      cases hl : firstPlacement l with
      | none => simp_all
      | some q' =>
          simp only [hl] at h
          split_ifs at h with hb
          · simp_all
          · have : p = q' := by simpa using h.symm
            rw [this]
            exact List.mem_cons_of_mem _ (ih hl)

def Verdict.isPlace : Verdict → Bool
  | .place .. => true
  | _ => false

/-- The machine the loop of `_start_one` stops at. -/
def packTarget (held : Reservations) (blocked : List MachineId) (db : Db) (c : Campaign)
    (placements : List Placement) (ms : List Machine) : Option Machine :=
  ms.find? fun m => (packOn held blocked db c placements m).isPlace

/-- The loop leaves the store alone or creates one run, on the machine it stops at. -/
theorem packFirst_cases (held : Reservations) (blocked : List MachineId) (db : Db) (c : Campaign)
    (placements : List Placement) (ms : List Machine) (busy : List MachineId) :
    (packFirst held blocked db c placements ms busy).db = db ∨
      ∃ m candidate cards, packTarget held blocked db c placements ms = some m ∧
        packOn held blocked db c placements m = .place candidate cards ∧
        (packFirst held blocked db c placements ms busy).db =
          createRun db c candidate [(m.id, cards)]
            (db.freePort c (db.liveRunsOn m.id ++ db.teardownPendingOn m.id) []) 0 := by
  induction ms generalizing busy with
  | nil => exact Or.inl rfl
  | cons m ms ih =>
      unfold packFirst packTarget
      cases hv : packOn held blocked db c placements m with
      | busy => simpa [List.find?_cons, hv, Verdict.isPlace, packTarget] using ih (busy ++ [m.id])
      | skip => simpa [List.find?_cons, hv, Verdict.isPlace, packTarget] using ih busy
      | place candidate cards =>
          exact Or.inr ⟨m, candidate, cards, by simp [hv, Verdict.isPlace], hv, rfl⟩

/-- The gang planner leaves the store alone or creates one run, across an idle group. -/
theorem startGang_cases (held : Reservations) (blocked : List MachineId) (db : Db) (c : Campaign)
    (pending : List Candidate) (busy : List MachineId) :
    (startGang held blocked db c pending busy).db = db ∨
      ∃ p port dist, db.groupIsIdle (db.membersByRank c.nodeGroup) = true ∧
        db.membersByRank c.nodeGroup ≠ [] ∧
        firstPlacement (gangFitting (db.membersByRank c.nodeGroup).length
          (((db.membersByRank c.nodeGroup).map Machine.gpuCount).min?.getD 0) pending) = some p ∧
        (startGang held blocked db c pending busy).db =
          createRun db c p.candidateId
            ((db.membersByRank c.nodeGroup).map fun m => (m.id, List.range p.cards)) port dist := by
  unfold startGang
  simp only
  split_ifs with hfew hbusy hall hsub
  · exact Or.inl rfl
  · exact Or.inl rfl
  · exact Or.inl rfl
  · exact Or.inl rfl
  · split
    · rename_i master rest p hmembers hfirst
      simp only [Bool.or_eq_true, not_or] at hbusy
      exact Or.inr ⟨p, _, _, by simpa using hbusy.1.1, by simp [hmembers], hfirst, rfl⟩
    · exact Or.inl rfl

/-- Retiring baselines touches candidates only. -/
theorem retireInPlace_frame (db : Db) (pending : List Candidate) :
    ∃ t, retireInPlace db pending = { db with candidates := t } := by
  unfold retireInPlace
  induction pending.filter Candidate.inPlaceBaseline generalizing db with
  | nil => exact ⟨db.candidates, rfl⟩
  | cons k l ih =>
      rcases ih (db.setCandidate k.id fun k => { k with status := .exhausted }) with ⟨t, ht⟩
      exact ⟨t, ht⟩

/-- A machine held for an older waiter is closed, unless the campaign was admitted to it. -/
def Unblocked (held : Reservations) (blocked : List MachineId) (c : Campaign) (m : MachineId) : Prop :=
  m ∈ blocked → holds held m c.id = true

theorem chooseNext_mem {free : Nat} {l : List Placement} {p : Placement}
    (h : chooseNext free l = some p) : p ∈ l :=
  (List.mem_filter.mp (firstPlacement_mem h)).1

/-- A machine the loop places on is open to the campaign, and the candidate is one of those pending. -/
theorem packOn_open {held : Reservations} {blocked : List MachineId} {db : Db} {c : Campaign}
    {placements : List Placement} {m : Machine} {candidate : CandidateId} {cards : List Nat}
    (h : packOn held blocked db c placements m = .place candidate cards) :
    Unblocked held blocked c m.id ∧ ∃ p ∈ placements, p.candidateId = candidate := by
  unfold packOn at h
  by_cases hclosed : closedTo held blocked db c m = true
  · rw [if_pos hclosed] at h
    cases h
  rw [if_neg hclosed] at h
  refine ⟨?_, ?_⟩
  · intro hblocked
    by_contra hholds
    apply hclosed
    have hin : blocked.contains m.id = true := List.contains_iff_mem.mpr hblocked
    simp only [closedTo, hin, Bool.true_and, Bool.eq_false_iff.mpr hholds, Bool.not_false,
      Bool.true_or]
  · split at h
    · split at h
      · cases h
      · split at h
        · cases h
        · rename_i p _
          cases h
          exact ⟨p, List.mem_cons_self, rfl⟩
    · split at h
      · split at h <;> cases h
      · rename_i p hp
        cases h
        exact ⟨p, chooseNext_mem hp, rfl⟩

/-- The loop places nothing and leaves the store, or places one pending candidate on a machine that is
open to it. -/
theorem packFirst_spec (held : Reservations) (blocked : List MachineId) (db : Db) (c : Campaign)
    (placements : List Placement) (ms : List Machine) (busy : List MachineId) :
    ((packFirst held blocked db c placements ms busy).placed = false ∧
        (packFirst held blocked db c placements ms busy).db = db) ∨
      ((packFirst held blocked db c placements ms busy).placed = true ∧
        ∃ m cards port, ∃ p ∈ placements, Unblocked held blocked c m ∧
          (packFirst held blocked db c placements ms busy).db =
            createRun db c p.candidateId [(m, cards)] port 0) := by
  induction ms generalizing busy with
  | nil => exact Or.inl ⟨rfl, rfl⟩
  | cons m ms ih =>
      unfold packFirst
      cases hv : packOn held blocked db c placements m with
      | busy => exact ih (busy ++ [m.id])
      | skip => exact ih busy
      | place candidate cards =>
          rcases packOn_open hv with ⟨hopen, p, hp, rfl⟩
          exact Or.inr ⟨rfl, m.id, cards, _, p, hp, hopen, rfl⟩

theorem gangFitting_mem {nodes capacity : Nat} {pending : List Candidate} {p : Placement}
    (h : p ∈ gangFitting nodes capacity pending) : ∃ k ∈ pending, k.id = p.candidateId := by
  rcases List.mem_filterMap.mp h with ⟨k, hk, hp⟩
  split_ifs at hp with h₁ h₂
  refine ⟨k, hk, ?_⟩
  rw [← Option.some.inj hp]

/-- The gang planner places nothing and leaves the store, or places one pending candidate across
machines that are all open to it. -/
theorem startGang_spec (held : Reservations) (blocked : List MachineId) (db : Db) (c : Campaign)
    (pending : List Candidate) (busy : List MachineId) :
    ((startGang held blocked db c pending busy).placed = false ∧
        (startGang held blocked db c pending busy).db = db) ∨
      ((startGang held blocked db c pending busy).placed = true ∧
        ∃ plan port dist, ∃ k ∈ pending, plan ≠ [] ∧ (∀ q ∈ plan, Unblocked held blocked c q.1) ∧
          (startGang held blocked db c pending busy).db = createRun db c k.id plan port dist) := by
  unfold startGang
  dsimp only
  split
  · exact Or.inl ⟨rfl, rfl⟩
  split
  · split <;> exact Or.inl ⟨rfl, rfl⟩
  rename_i hidle
  split
  · exact Or.inl ⟨rfl, rfl⟩
  split
  · rename_i master rest p hmembers hfirst
    rcases gangFitting_mem (firstPlacement_mem hfirst) with ⟨k, hk, hid⟩
    refine Or.inr ⟨rfl, _, _, _, k, hk, ?_, ?_, by rw [hid]⟩
    · simp [hmembers]
    · intro q hq hblocked
      rcases List.mem_map.mp hq with ⟨m, hm, rfl⟩
      by_contra hholds
      apply hidle
      have hany : (db.membersByRank c.nodeGroup).any
          (fun m => blocked.contains m.id && !holds held m.id c.id) = true :=
        List.any_eq_true.mpr ⟨m, hm, by
          rw [List.contains_iff_mem.mpr hblocked, Bool.eq_false_iff.mpr hholds]
          rfl⟩
      rw [hany]
      simp
  · exact Or.inl ⟨rfl, rfl⟩

/-- A turn of a campaign: nothing is placed, or one VALID candidate is, that is launched and not
measured in place, across machines that are all open to the campaign. -/
theorem startOne_spec (held : Reservations) (blocked : List MachineId) (stageAllowed : Bool → Bool)
    (db : Db) (c : Campaign) :
    ((startOne held blocked stageAllowed db c).placed = false ∧
        (startOne held blocked stageAllowed db c).db = retireInPlace db (db.validCandidates c)) ∨
      ((startOne held blocked stageAllowed db c).placed = true ∧
        ∃ plan port dist, ∃ k ∈ db.validCandidates c, k.inPlaceBaseline = false ∧ plan ≠ [] ∧
          (∀ q ∈ plan, Unblocked held blocked c q.1) ∧
          (startOne held blocked stageAllowed db c).db =
            createRun (retireInPlace db (db.validCandidates c)) c k.id plan port dist) := by
  have hpending : ∀ k ∈ (db.validCandidates c).filter
      (fun k => !k.inPlaceBaseline && stageAllowed k.verify),
      k ∈ db.validCandidates c ∧ k.inPlaceBaseline = false := by
    intro k hk
    rcases List.mem_filter.mp hk with ⟨hmem, hkeep⟩
    simp only [Bool.and_eq_true, Bool.not_eq_true'] at hkeep
    exact ⟨hmem, hkeep.1⟩
  unfold startOne
  dsimp only
  split
  · exact Or.inl ⟨rfl, rfl⟩
  split
  · rcases startGang_spec held blocked (retireInPlace db (db.validCandidates c)) c
      ((db.validCandidates c).filter fun k => !k.inPlaceBaseline && stageAllowed k.verify) [] with
      hno | ⟨hyes, plan, port, dist, k, hk, hne, hopen, hdb⟩
    · exact Or.inl hno
    · exact Or.inr ⟨hyes, plan, port, dist, k, (hpending k hk).1, (hpending k hk).2, hne, hopen, hdb⟩
  · rcases packFirst_spec held blocked (retireInPlace db (db.validCandidates c)) c
      (((db.validCandidates c).filter fun k => !k.inPlaceBaseline && stageAllowed k.verify).map
        fun k => ⟨k.id, k.cards⟩)
      ((retireInPlace db (db.validCandidates c)).usableMachines c) [] with
      hno | ⟨hyes, m, cards, port, p, hp, hopen, hdb⟩
    · exact Or.inl hno
    · rcases List.mem_map.mp hp with ⟨k, hk, rfl⟩
      refine Or.inr ⟨hyes, [(m, cards)], port, 0, k, (hpending k hk).1, (hpending k hk).2, by simp, ?_,
        hdb⟩
      intro q hq
      rw [List.mem_singleton.mp hq]
      exact hopen

end AutoTune
