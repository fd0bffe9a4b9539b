import AutoTune.Api.PolicySessions
import AutoTune.Supervisor.Placement

/-!
# Giving a policy session its machine

A session gets its machine from two places: the machine queue, through `try_reserve`, and an
operator, through `POST /campaigns/{id}/validate`. The queue looks at who is on the machine first.
Out of what it got, a session launches its engines and the platform its validation runs.
-/

namespace AutoTune

open Lib

/-- What a campaign's policy asks of a machine: whether its engines run in its own pod, and the widest
config of the campaign's space, which sizes its share of a node pool. -/
structure PolicyNeeds where
  gpusInContainer : Bool := false
  widestCards : Nat := 1
deriving DecidableEq, Repr

/-- `campaign.service_port or 28200`. -/
def Campaign.basePort (c : Campaign) : Nat := if c.servicePort = 0 then 28200 else c.servicePort

/-- `policy.ports or 1`. -/
def Campaign.portCount (c : Campaign) : Nat := if c.policyPorts = 0 then 1 else c.policyPorts

/-- The first `n` ports of the 4096 from `base` that are neither held nor NodePorts, if there are that
many. -/
def pickPorts (base n : Nat) (held : List Nat) : Option (List Nat) :=
  let free := ((List.range 4096).map (base + ·)).filter fun p =>
    !held.contains p && !nodePortRange p
  if free.length < n then none else some (free.take n)

/-- The cards held on a machine: by live sessions, live runs and runs still tearing down. -/
def Db.heldCards (db : Db) (m : MachineId) : List Nat :=
  (db.liveSessionsOn m).flatMap PolicySession.gpuIndices ++
    (db.liveRunsOn m ++ db.teardownPendingOn m).flatMap Run.gpuIndices

/-- The ports held on a machine, by the same. -/
def Db.heldPorts (db : Db) (m : MachineId) : List Nat :=
  (db.liveSessionsOn m).flatMap PolicySession.ports ++
    ((db.liveRunsOn m ++ db.teardownPendingOn m).map Run.servicePort).filter (· ≠ 0)

/-- Do all other campaigns on the machine share it? -/
def Db.tenantsShare (db : Db) (c : Campaign) (m : MachineId) : Bool :=
  db.campaigns.rows.all fun o =>
    o.id == c.id || o.shareMachine ||
      !((db.liveSessionsOn m).any (fun t => t.campaignId == o.id) ||
        (db.liveRunsOn m).any (fun r => r.campaignId == o.id))

/-- `_allocation_on_pool`: slots of a budget, not devices. -/
def allocationOnPool (needs : PolicyNeeds) (db : Db) (c : Campaign) (m : Machine) :
    Option (List Nat × List Nat) :=
  let needed :=
    if c.policyCards ≠ 0 then c.policyCards
    else if needs.widestCards ≠ 0 then needs.widestCards else 1
  let free := freeIndices m.gpuCount (db.heldCards m.id)
  if m.gpuCount ≠ 0 ∧ free.length < needed then none
  else (pickPorts c.basePort c.portCount (db.heldPorts m.id)).map fun ports =>
    (free.take needed, ports)

/-- The branch of `_allocation_on` for a campaign that does not share: the whole box, and only an idle
one. Containers still tearing down are read and not asked about. -/
def wholeBox (held : Reservations) (db : Db) (c : Campaign) (m : Machine) :
    Option (List Nat × List Nat) :=
  if db.machineHasLiveSession m.id || !(db.liveRunsOn m.id).isEmpty ||
      !(reservationsOn held m.id c.id).isEmpty then none
  else some (List.range m.gpuCount, (List.range c.portCount).map (c.basePort + ·))

/-- The cards a sharing campaign's session takes: its budget, else the whole machine. -/
def Campaign.sliceCards (c : Campaign) (m : Machine) : Nat :=
  if c.policyCards ≠ 0 then c.policyCards else m.gpuCount

/-- The branch for a sharing campaign: a slice next to tenants that share too. -/
def slice (held : Reservations) (db : Db) (c : Campaign) (m : Machine) :
    Option (List Nat × List Nat) :=
  let reserved := reservationsOn held m.id c.id
  if !db.tenantsShare c m.id || reserved.any fun r => !r.share then none
  else
    let needed := c.sliceCards m
    let free := freeIndices m.gpuCount (db.heldCards m.id)
    let free := free.take (free.length - (reserved.map Reservation.cards).sum)
    if m.gpuCount ≠ 0 ∧ free.length < max 1 needed then none
    else (pickPorts c.basePort c.portCount (db.heldPorts m.id)).map fun ports =>
      (free.take needed, ports)

/-- `_allocation_on`. -/
def allocationOn (held : Reservations) (needs : PolicyNeeds) (db : Db) (c : Campaign) (m : Machine) :
    Option (List Nat × List Nat) :=
  if m.isNodePool then allocationOnPool needs db c m
  else if !c.shareMachine then wholeBox held db c m
  else slice held db c m

/-- A machine this campaign could use once it frees up. -/
def Campaign.couldUse (c : Campaign) (m : Machine) : Bool :=
  !c.shareMachine || decide (c.policyCards ≤ m.gpuCount)

/-- The loop of `try_reserve`: the first machine with an allocation, and the machines it found busy. -/
def firstAllocation (held : Reservations) (blocked : List MachineId) (needs : PolicyNeeds) (db : Db)
    (c : Campaign) :
    List Machine → List MachineId → Option (MachineId × List Nat × List Nat) × List MachineId
  | [], busy => (none, busy)
  | m :: ms, busy =>
      if m.isNodePool && needs.gpusInContainer then
        firstAllocation held blocked needs db c ms busy
      else if blocked.contains m.id then
        firstAllocation held blocked needs db c ms (busy ++ [m.id])
      else
        match allocationOn held needs db c m with
        | some (cards, ports) => (some (m.id, cards, ports), busy)
        | none =>
            firstAllocation held blocked needs db c ms
              (if c.couldUse m then busy ++ [m.id] else busy)

/-- The machine that loop stops at. -/
def reserveTarget (held : Reservations) (blocked : List MachineId) (needs : PolicyNeeds) (db : Db)
    (c : Campaign) (ms : List Machine) : Option Machine :=
  ms.find? fun m =>
    !(m.isNodePool && needs.gpusInContainer) && !blocked.contains m.id &&
      (allocationOn held needs db c m).isSome

/-- A pending session without a machine, whose campaign is active and whom nobody aborts. -/
def Db.waitingFor (db : Db) (s : PolicySession) : Option Campaign :=
  if s.status = .pending ∧ s.machineId = none ∧ s.abortRequestedAt = none then
    match db.campaigns.get? s.campaignId with
    | some c => if c.status = .active then some c else none
    | none => none
  else none

/-- `try_reserve`, for a session that is waiting: the store, and the machines found busy. -/
def tryReserve (held : Reservations) (blocked : List MachineId) (needs : PolicyNeeds)
    (session : SessionId) (db : Db) : Db × List MachineId :=
  match db.sessions.get? session with
  | none => (db, [])
  | some s =>
      match db.waitingFor s with
      | none => (db, [])
      | some c =>
          match firstAllocation held blocked needs db c (db.usableMachines c) [] with
          | (none, busy) => (db, busy)
          | (some (m, cards, ports), busy) =>
              (db.setSession session fun s =>
                { s with machineId := some m, gpuIndices := cards, ports := ports }, busy)

/-- The row `_ensure_sessions` adds. -/
def pendingSession (campaign : CampaignId) (windowStart : Time) (id : SessionId) : PolicySession where
  id := id
  campaignId := campaign
  windowStart := some windowStart

/-- The session `POST /campaigns/{id}/validate` makes: on the machine asked for, with all its cards and
already validating. -/
def validationSession (c : Campaign) (m : Machine) (now : Time) (id : SessionId) : PolicySession where
  id := id
  campaignId := c.id
  machineId := some m.id
  windowStart := some now
  status := .validating
  gpuIndices := List.range m.gpuCount

/-- What `validate_configs` checks: the campaign has a policy and no live session, the machine is
leased. Who else is on the machine is not asked. -/
def Db.validateTarget (db : Db) (campaign : CampaignId) (machine : String) :
    Option (Campaign × Machine) :=
  match db.campaigns.get? campaign, db.machines.rows.find? fun m => m.name == machine with
  | some c, some m =>
      if c.policyId.isNone || (db.sessions.rows.any fun s => s.campaignId == c.id && s.live) ||
          m.leaseState != .active then none
      else some (c, m)
  | _, _ => none

/-- `validate_configs`, as far as it writes the campaign's window and the session. -/
def validateConfigs (campaign : CampaignId) (machine : String) (now until_ : Time) (db : Db) :
    Option Db :=
  (db.validateTarget campaign machine).map fun (c, m) =>
    let db := db.setCampaign c.id fun c =>
      { c with status := .active, windowStart := some now, windowEnd := some until_ }
    { db with sessions := db.sessions.insert (validationSession c m now) }

/-! ## A validation run -/

/-- `_validation_cards`; `needed` is what the config uses. A session without a card block takes none. -/
def validationCards (s : PolicySession) (needed : Nat) (blockers : List Run) : Option (List Nat) :=
  if s.gpuIndices.isEmpty then some []
  else
    let needed := min (max needed 1) s.gpuIndices.length
    let free := s.gpuIndices.filter fun i => !(busyCards blockers).contains i
    if free.length < needed then none else some ((free.take needed).insertionSort (· ≤ ·))

/-- `_ports_reserved_by_others`. -/
def Db.portsReservedByOthers (db : Db) (s : PolicySession) : List Nat :=
  (db.sessions.rows.filter fun o => o.machineId == s.machineId && o.id != s.id && o.live).flatMap
    PolicySession.ports

/-- The runs on a session's machine that hold it, live or tearing down. -/
def Db.blockersOf (db : Db) (s : PolicySession) : List Run :=
  match s.machineId.bind db.machines.get? with
  | none => []
  | some m => db.liveRunsOn m.id ++ db.teardownPendingOn m.id

/-- The port of a validation run: one of the session's block, else any nobody reserved. -/
def Db.validationPort (db : Db) (s : PolicySession) (c : Campaign) : Nat :=
  match s.ports.find? fun p => !(busyPorts (db.blockersOf s)).contains p with
  | some p => p
  | none => db.freePort c (db.blockersOf s) (db.portsReservedByOthers s)

/-- The candidate and the run `_launch_validation_run` adds. -/
def addValidationRun (db : Db) (s : PolicySession) (config : LaunchConfig) (gpuIndices : List Nat)
    (port : Nat) : Db :=
  let candidateId := db.candidates.nextKey
  { db with
    candidates := db.candidates.insert fun id =>
      { id := id, campaignId := s.campaignId, status := .exhausted, cards := config.cards,
        worldSize := config.worldSize, verify := true }
    runs := db.runs.insert fun id =>
      { id := id, campaignId := s.campaignId, candidateId := candidateId, machineId := s.machineId,
        gpuIndices := gpuIndices, servicePort := port, policySessionId := some s.id } }

/-- `_launch_validation_run`, for a config there is something to launch of: nothing changes while the
session's free cards do not hold it. -/
def launchValidationRun (session : SessionId) (config : LaunchConfig) (db : Db) : Option Db :=
  match db.sessions.get? session with
  | none => none
  | some s =>
      match db.campaigns.get? s.campaignId with
      | none => none
      | some c =>
          (validationCards s config.cards (db.blockersOf s)).map fun cards =>
            addValidationRun db s config cards (db.validationPort s c)

/-! ## What an allocation is -/

theorem machineHasLiveSession_eq_false {db : Db} {m : MachineId} :
    db.machineHasLiveSession m = false ↔ db.liveSessionsOn m = [] := by
  rw [Db.liveSessionsOn, List.filter_eq_nil_iff, Db.machineHasLiveSession, List.any_eq_false]

/-- A whole box is idle of sessions and live runs. -/
theorem wholeBox_spec {held : Reservations} {db : Db} {c : Campaign} {m : Machine}
    {cards ports : List Nat} (h : wholeBox held db c m = some (cards, ports)) :
    db.liveSessionsOn m.id = [] ∧ db.liveRunsOn m.id = [] ∧ cards = List.range m.gpuCount ∧
      ports = (List.range c.portCount).map (c.basePort + ·) := by
  unfold wholeBox at h
  split_ifs at h with hbusy
  simp only [Bool.or_eq_true, not_or] at hbusy
  rcases hbusy with ⟨⟨hsession, hruns⟩, -⟩
  have hpair := Option.some.inj h
  simp only [Prod.mk.injEq] at hpair
  exact ⟨machineHasLiveSession_eq_false.mp (Bool.eq_false_iff.mpr hsession), by simpa using hruns,
    hpair.1.symm, hpair.2.symm⟩

/-- Picked ports are free, and none is a NodePort. -/
theorem pickPorts_spec {base n : Nat} {held ports : List Nat} (h : pickPorts base n held = some ports) :
    ∀ p ∈ ports, base ≤ p ∧ p ∉ held ∧ nodePortRange p = false := by
  unfold pickPorts at h
  dsimp only at h
  split_ifs at h
  intro p hp
  rw [← Option.some.inj h] at hp
  have hmem := List.mem_filter.mp (List.mem_of_mem_take hp)
  rcases List.mem_map.mp hmem.1 with ⟨i, -, rfl⟩
  have hfree := hmem.2
  simp only [Bool.and_eq_true, Bool.not_eq_true'] at hfree
  exact ⟨Nat.le_add_right base i, by simpa using hfree.1, hfree.2⟩

/-- A slice stays off everything held on the machine, next to tenants that share. -/
theorem slice_spec {held : Reservations} {db : Db} {c : Campaign} {m : Machine}
    {cards ports : List Nat} (h : slice held db c m = some (cards, ports)) :
    db.tenantsShare c m.id = true ∧ (∀ i ∈ cards, i ∉ db.heldCards m.id) ∧
      ∀ p ∈ ports, p ∉ db.heldPorts m.id := by
  unfold slice at h
  dsimp only at h
  split_ifs at h with hshare hfew
  simp only [Bool.or_eq_true, not_or] at hshare
  rcases Option.map_eq_some_iff.mp h with ⟨picked, hpicked, hpair⟩
  simp only [Prod.mk.injEq] at hpair
  refine ⟨by simpa using hshare.1, ?_, ?_⟩
  · intro i hi
    rw [← hpair.1] at hi
    have hfree := List.mem_of_mem_take (List.mem_of_mem_take hi)
    simp only [freeIndices, List.mem_filter, Bool.not_eq_true'] at hfree
    simpa using hfree.2
  · intro p hp
    rw [← hpair.2] at hp
    exact (pickPorts_spec hpicked p hp).2.1

/-- A session is given each of its cards once. -/
theorem allocationOn_nodup {held : Reservations} {needs : PolicyNeeds} {db : Db} {c : Campaign}
    {m : Machine} {cards ports : List Nat} (h : allocationOn held needs db c m = some (cards, ports)) :
    cards.Nodup := by
  have hfree : ∀ taken, (freeIndices m.gpuCount taken).Nodup := fun taken =>
    List.nodup_range.filter _
  unfold allocationOn at h
  split_ifs at h with hpool hshare
  · unfold allocationOnPool at h
    dsimp only at h
    split_ifs at h
    all_goals
      rcases Option.map_eq_some_iff.mp h with ⟨picked, -, hpair⟩
      rw [← (Prod.mk.inj hpair).1]
      exact (hfree _).sublist (List.take_sublist _ _)
  · rw [(wholeBox_spec h).2.2.1]
    exact List.nodup_range
  · unfold slice at h
    dsimp only at h
    split_ifs at h
    rcases Option.map_eq_some_iff.mp h with ⟨picked, -, hpair⟩
    rw [← (Prod.mk.inj hpair).1]
    exact (hfree _).sublist ((List.take_sublist _ _).trans (List.take_sublist _ _))

/-- Validation cards are the session's own, and no blocker holds one. -/
theorem validationCards_spec {s : PolicySession} {needed : Nat} {blockers : List Run}
    {cards : List Nat} (h : validationCards s needed blockers = some cards) :
    ∀ i ∈ cards, i ∈ s.gpuIndices ∧ i ∉ busyCards blockers := by
  unfold validationCards at h
  dsimp only at h
  split_ifs at h with hempty hfew
  · simp [← Option.some.inj h]
  · intro i hi
    rw [← Option.some.inj h, List.mem_insertionSort] at hi
    simpa using List.mem_of_mem_take hi

/-- Validation cards are distinct if the session's are. -/
theorem validationCards_nodup {s : PolicySession} {needed : Nat} {blockers : List Run}
    {cards : List Nat} (hnodup : s.gpuIndices.Nodup)
    (h : validationCards s needed blockers = some cards) : cards.Nodup := by
  unfold validationCards at h
  dsimp only at h
  split_ifs at h with hempty hfew
  · rw [← Option.some.inj h]
    exact List.nodup_nil
  · rw [← Option.some.inj h, (List.perm_insertionSort _ _).nodup_iff]
    exact ((List.take_sublist _ _).trans List.filter_sublist).nodup hnodup

/-- A validation run that is launched is added on its cards and its port. -/
theorem launchValidationRun_adds {session : SessionId} {config : LaunchConfig} {db db' : Db}
    (h : launchValidationRun session config db = some db') :
    ∃ s c cards, db.sessions.get? session = some s ∧ db.campaigns.get? s.campaignId = some c ∧
      validationCards s config.cards (db.blockersOf s) = some cards ∧
      db' = addValidationRun db s config cards (db.validationPort s c) := by
  unfold launchValidationRun at h
  cases hget : db.sessions.get? session with
  | none => simp [hget] at h
  | some s =>
      cases hc : db.campaigns.get? s.campaignId with
      | none => simp [hget, hc] at h
      | some c =>
          simp only [hget, hc, Option.map_eq_some_iff] at h
          rcases h with ⟨cards, hcards, rfl⟩
          exact ⟨s, c, cards, rfl, hc, hcards, rfl⟩

/-- A reservation is `_allocation_on`'s for the machine the loop stops at. -/
theorem firstAllocation_spec {held : Reservations} {blocked : List MachineId} {needs : PolicyNeeds}
    {db : Db} {c : Campaign} {ms : List Machine} {busy busy' : List MachineId} {id : MachineId}
    {cards ports : List Nat}
    (h : firstAllocation held blocked needs db c ms busy = (some (id, cards, ports), busy')) :
    ∃ m, reserveTarget held blocked needs db c ms = some m ∧ m.id = id ∧
      allocationOn held needs db c m = some (cards, ports) := by
  induction ms generalizing busy with
  | nil => simp [firstAllocation] at h
  | cons m ms ih =>
      unfold firstAllocation at h
      unfold reserveTarget
      -- each machine the loop passes over leaves the question to the rest of the list
      by_cases hpod : (m.isNodePool && needs.gpusInContainer) = true
      · rw [if_pos hpod] at h
        rw [List.find?_cons_of_neg (by simp [hpod])]
        exact ih h
      rw [if_neg hpod] at h
      by_cases hblocked : blocked.contains m.id = true
      · rw [if_pos hblocked] at h
        rw [List.find?_cons_of_neg (by rw [hblocked]; simp)]
        exact ih h
      rw [if_neg hblocked] at h
      cases halloc : allocationOn held needs db c m with
      | none =>
          simp only [halloc] at h
          rw [List.find?_cons_of_neg (by simp [halloc])]
          exact ih h
      | some a =>
          simp only [halloc, Prod.mk.injEq, Option.some.injEq] at h
          rcases h with ⟨⟨hid, hcards, hports⟩, -⟩
          subst hcards hports
          have hpod' : (m.isNodePool && needs.gpusInContainer) = false := Bool.eq_false_iff.mpr hpod
          have hblocked' : blocked.contains m.id = false := Bool.eq_false_iff.mpr hblocked
          rw [List.find?_cons_of_pos (by rw [hpod', hblocked', halloc]; rfl)]
          exact ⟨m, rfl, hid, halloc⟩

/-- `try_reserve` leaves the store alone, or gives a waiting session what `_allocation_on` says of the
first machine it fits. -/
theorem tryReserve_cases (held : Reservations) (blocked : List MachineId) (needs : PolicyNeeds)
    (session : SessionId) (db : Db) :
    (tryReserve held blocked needs session db).1 = db ∨
      ∃ s c m cards ports, db.sessions.get? session = some s ∧ db.waitingFor s = some c ∧
        reserveTarget held blocked needs db c (db.usableMachines c) = some m ∧
        allocationOn held needs db c m = some (cards, ports) ∧
        (tryReserve held blocked needs session db).1 = db.setSession session fun s =>
          { s with machineId := some m.id, gpuIndices := cards, ports := ports } := by
  unfold tryReserve
  cases hget : db.sessions.get? session with
  | none => exact Or.inl rfl
  | some s =>
      cases hwait : db.waitingFor s with
      | none => simp [hwait]
      | some c =>
          cases hfirst : firstAllocation held blocked needs db c (db.usableMachines c) [] with
          | mk found busy =>
              cases found with
              | none => simp [hwait, hfirst]
              | some a =>
                  rcases a with ⟨id, cards, ports⟩
                  rcases firstAllocation_spec hfirst with ⟨m, htarget, hid, halloc⟩
                  refine Or.inr ⟨s, c, m, cards, ports, rfl, hwait, htarget, halloc, ?_⟩
                  simp only [hwait, hfirst, hid]

end AutoTune
