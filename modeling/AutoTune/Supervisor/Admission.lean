import AutoTune.Supervisor.Placement
import Mathlib.Data.List.Dedup

/-!
# Whether one more run may go on a machine

`occupancy.busy_reason` answers a plugin that wants to admit a campaign to a machine, `_start_one`
decides on the same machine when the campaign's run is placed. The two are computed apart: from run
rows and from node rows, without and with the campaign's own runs.
-/

namespace AutoTune

open Lib

/-! ## `port_busy_reason` -/

/-- `_reserved_for`: the first reservation on a machine of the same cluster, as a person reads it. -/
def Db.reservedFor (db : Db) (held : Reservations) (m : Machine) (campaign : CampaignId) :
    Option String :=
  (claimOf m).bind fun claim =>
    db.machines.rows.findSome? fun other =>
      if (claimOf other).any claim.collides then
        (reservationsOn held other.id campaign).head?.map Reservation.label
      else none

/-- `port_busy_reason`. -/
def Db.portBusyReason (db : Db) (held : Reservations) (m : Machine) (excludeRun : Option RunId)
    (campaign : CampaignId) : Option String :=
  (claimOf m).bind fun claim =>
    let port := "node port " ++ toString claim.port
    match db.portHolder m excludeRun with
    | some holder =>
        let run := "run " ++ toString holder.id ++ " (campaign " ++ toString holder.campaignId ++ ")"
        if holder.status = .pending ∧ excludeRun.isSome then
          some (port ++ " goes to " ++ run ++ " first, placed before it; the cluster lets one run " ++
            "be reached at a time")
        else
          some (port ++ " is held by " ++ run ++ "; the cluster lets one run be reached at a time")
    | none =>
        if excludeRun.isNone then
          (db.reservedFor held m campaign).map fun label =>
            port ++ " is held for " ++ label ++ ", admitted before it; the cluster lets one run be " ++
              "reached at a time"
        else none

/-- There is a reason exactly when the port is busy. -/
theorem portBusyReason_isSome (db : Db) (held : Reservations) (m : Machine) (campaign : CampaignId) :
    (db.portBusyReason held m none campaign).isSome = db.portBusy held m campaign := by
  unfold Db.portBusyReason Db.portBusy Db.portHolder Db.portReserved Db.reservedFor
  cases claimOf m with
  | none => rfl
  | some claim =>
      simp only [Option.bind_some]
      cases db.runs.rows.find? _ with
      | some holder => simp
      | none =>
          simp only [Option.isNone_none, if_true, Option.isSome_map, Option.isSome_none, Bool.false_or]
          induction db.machines.rows with
          | nil => rfl
          | cons other rows ih =>
              rw [List.findSome?_cons, List.any_cons]
              by_cases hcollide : (claimOf other).any claim.collides = true
              · cases hres : reservationsOn held other.id campaign with
                | nil => simpa [hcollide, hres] using ih
                | cons r rest => simp [hcollide]
              · simpa [hcollide] using ih

/-! ## `busy_reason` -/

/-- The live runs of other campaigns on a machine. -/
def Db.othersOn (db : Db) (m : MachineId) (campaign : CampaignId) : List Run :=
  (db.liveRunsOn m).filter fun r => r.campaignId != campaign

/-- The campaign's own live runs on it. -/
def Db.ownOn (db : Db) (m : MachineId) (campaign : CampaignId) : List Run :=
  (db.liveRunsOn m).filter fun r => r.campaignId == campaign

/-- How many cards these runs recorded. -/
def cardsRecorded (runs : List Run) : Nat := (runs.flatMap Run.gpuIndices).dedup.length

/-- The cards of the reservations. -/
def cardsReserved (reserved : List Reservation) : Nat := (reserved.map Reservation.cards).sum

/-- `busy_reason`, asked for a campaign. -/
def busyReason (held : Reservations) (db : Db) (m : Machine) (cards : Nat) (share : Bool)
    (campaign : CampaignId) : Option String :=
  match db.portBusyReason held m none campaign with
  | some port => some port
  | none =>
      let live := db.othersOn m.id campaign
      let dying := db.teardownPendingOn m.id
      let reserved := reservationsOn held m.id campaign
      if !share then
        if !live.isEmpty || !dying.isEmpty then some "a run is using it"
        else reserved.head?.map fun r => "held for " ++ r.label
      else if db.campaigns.rows.any fun o =>
          live.any (fun r => r.campaignId == o.id) && !o.shareMachine then
        some "a run that does not share is using it"
      else
        match reserved.find? fun r => !r.share with
        | some exclusive => some ("held for " ++ exclusive.label)
        | none =>
            if (live ++ dying).any fun r => r.gpuIndices.isEmpty then
              some "a run of unknown width holds the whole machine"
            else
              let free : Int := m.gpuCount - cardsRecorded (live ++ dying) - cardsReserved reserved
              if free < cards then
                some ("only " ++ toString (max free 0) ++ " card(s) free of " ++ toString m.gpuCount ++
                  ", needs " ++ toString cards)
              else none

/-! ## What each asks -/

/-- The gates both ask: the port, the reservations of other campaigns and their live runs. -/
structure GatesOpen (held : Reservations) (db : Db) (c : Campaign) (m : Machine) : Prop where
  port : db.portBusy held m c.id = false
  reserved : ∀ r ∈ reservationsOn held m.id c.id, c.shareMachine = true ∧ r.share = true
  runs : ∀ r ∈ db.othersOn m.id c.id, c.shareMachine = true ∧
    ∀ o ∈ db.campaigns.rows, o.id = r.campaignId → o.shareMachine = true

/-- The cards no live or dying node on the machine recorded. -/
def Db.cardsLeft (db : Db) (m : Machine) : Nat :=
  (freeIndices m.gpuCount ((db.blockingNodes m.id).flatMap RunNode.gpuIndices)).length

/-- Every live or dying node on the machine recorded its cards. -/
def Db.NodesKnown (db : Db) (m : MachineId) : Prop := ∀ n ∈ db.blockingNodes m, n.gpuIndices ≠ []

/-- What `busy_reason` asks beyond the gates. -/
def Admits (held : Reservations) (db : Db) (c : Campaign) (m : Machine) (k : Nat) : Prop :=
  if c.shareMachine then
    (∀ r ∈ db.othersOn m.id c.id ++ db.teardownPendingOn m.id, r.gpuIndices ≠ []) ∧
      k + cardsRecorded (db.othersOn m.id c.id ++ db.teardownPendingOn m.id) +
        cardsReserved (reservationsOn held m.id c.id) ≤ m.gpuCount
  else db.teardownPendingOn m.id = []

/-- What `_start_one` asks beyond the gates. -/
def Packs (held : Reservations) (db : Db) (c : Campaign) (m : Machine) (k : Nat) : Prop :=
  db.machineHostsLiveGang m.id = false ∧ (c.shareMachine = false → db.ownOn m.id c.id = []) ∧
    if m.gpuCount = 0 then
      db.liveRunsOn m.id = [] ∧ db.teardownPendingOn m.id = [] ∧ reservationsOn held m.id c.id = []
    else db.NodesKnown m.id ∧ 0 < k ∧
      k + cardsReserved (reservationsOn held m.id c.id) ≤ db.cardsLeft m

/-- A campaign that does not share finds the gates open when nobody else is there. -/
theorem gatesOpen_alone {held : Reservations} {db : Db} {c : Campaign} {m : Machine}
    (hshare : c.shareMachine = false) :
    GatesOpen held db c m ↔ db.portBusy held m c.id = false ∧ reservationsOn held m.id c.id = [] ∧
      db.othersOn m.id c.id = [] := by
  constructor
  · intro h
    refine ⟨h.port, ?_, ?_⟩
    · refine List.eq_nil_iff_forall_not_mem.mpr fun r hr => ?_
      simpa [hshare] using (h.reserved r hr).1
    · refine List.eq_nil_iff_forall_not_mem.mpr fun r hr => ?_
      simpa [hshare] using (h.runs r hr).1
  · rintro ⟨hport, hreserved, hothers⟩
    exact ⟨hport, by simp [hreserved], by simp [hothers]⟩

theorem busyReason_eq_none_iff {held : Reservations} {db : Db} {c : Campaign} {m : Machine} {k : Nat} :
    busyReason held db m k c.shareMachine c.id = none ↔
      GatesOpen held db c m ∧ Admits held db c m k := by
  have hsome := portBusyReason_isSome db held m c.id
  unfold busyReason
  cases hreason : db.portBusyReason held m none c.id with
  | some why =>
      rw [hreason] at hsome
      simp only [reduceCtorEq, false_iff]
      rintro ⟨hgates, -⟩
      rw [hgates.port] at hsome
      cases hsome
  | none =>
      rw [hreason] at hsome
      have hport : db.portBusy held m c.id = false := hsome.symm
      dsimp only
      cases hshare : c.shareMachine with
      | false =>
          rw [gatesOpen_alone hshare]
          simp only [Admits, hshare, Bool.not_false, if_true, Bool.false_eq_true, if_false]
          cases hothers : db.othersOn m.id c.id with
          | cons r rest => simp
          | nil =>
              cases hdying : db.teardownPendingOn m.id with
              | cons r rest => simp
              | nil => simp [hport]
      | true =>
          simp only [Admits, hshare, Bool.not_true, Bool.false_eq_true, if_false, if_true]
          -- the gate on live runs, as a query over the campaigns
          have hruns : (db.campaigns.rows.any fun o =>
              (db.othersOn m.id c.id).any (fun r => r.campaignId == o.id) && !o.shareMachine) = false ↔
              ∀ r ∈ db.othersOn m.id c.id, ∀ o ∈ db.campaigns.rows, o.id = r.campaignId →
                o.shareMachine = true := by
            simp only [List.any_eq_false, Bool.and_eq_true, List.any_eq_true, beq_iff_eq,
              Bool.not_eq_true', not_and, Bool.not_eq_false, forall_exists_index, and_imp]
            exact ⟨fun h r hr o ho hid => h o ho r hr hid.symm, fun h o ho r hr hid => h r hr o ho hid.symm⟩
          constructor
          · intro h
            split at h
            · cases h
            rename_i hopen
            split at h
            · cases h
            rename_i hnone
            split at h
            · cases h
            rename_i hknown
            split at h
            · cases h
            rename_i hfree
            refine ⟨⟨hport, ?_, ?_⟩, ?_, ?_⟩
            · intro r hr
              have := List.find?_eq_none.mp hnone r hr
              exact ⟨hshare, by simpa using this⟩
            · intro r hr
              exact ⟨hshare, hruns.mp (Bool.eq_false_iff.mpr hopen) r hr⟩
            · intro r hr hempty
              exact hknown (List.any_eq_true.mpr ⟨r, hr, by simp [hempty]⟩)
            · omega
          · rintro ⟨hgates, hknown, hfits⟩
            have hopen := hruns.mpr fun r hr => (hgates.runs r hr).2
            have hnone : (reservationsOn held m.id c.id).find? (fun r => !r.share) = none := by
              rw [List.find?_eq_none]
              intro r hr
              simp [(hgates.reserved r hr).2]
            have hwide : ((db.othersOn m.id c.id ++ db.teardownPendingOn m.id).any
                fun r => r.gpuIndices.isEmpty) = false := by
              rw [List.any_eq_false]
              intro r hr
              simpa using hknown r hr
            rw [hopen, hnone, hwide]
            simp only [Bool.false_eq_true, if_false]
            rw [if_neg (by omega)]

/-- `_may_share` on one machine: a campaign that does not share wants nobody there, its own runs
included. -/
theorem live_gate_iff {db : Db} {c : Campaign} {m : Machine} (hc : c ∈ db.campaigns.rows)
    (hpool : m.isNodePool = false) :
    (!(db.liveRunsOn m.id).isEmpty && !db.mayShare c (db.liveRunsOn m.id) m) = false ↔
      (∀ r ∈ db.othersOn m.id c.id, c.shareMachine = true ∧
        ∀ o ∈ db.campaigns.rows, o.id = r.campaignId → o.shareMachine = true) ∧
      (c.shareMachine = false → db.ownOn m.id c.id = []) := by
  have hsplit : ∀ r ∈ db.liveRunsOn m.id, r ∈ db.othersOn m.id c.id ∨ r.campaignId = c.id := by
    intro r hr
    by_cases hid : r.campaignId = c.id
    · exact Or.inr hid
    · exact Or.inl (List.mem_filter.mpr ⟨hr, by simpa using hid⟩)
  cases hshare : c.shareMachine with
  | false =>
      have hmay : db.mayShare c (db.liveRunsOn m.id) m = false := by simp [Db.mayShare, hpool, hshare]
      simp only [hmay, Bool.not_false, Bool.and_true, Bool.not_eq_false', List.isEmpty_iff,
        Bool.false_eq_true, false_and, imp_false, forall_const]
      constructor
      · intro hlive
        simp [Db.othersOn, Db.ownOn, hlive]
      · rintro ⟨hothers, hown⟩
        refine List.eq_nil_iff_forall_not_mem.mpr fun r hr => ?_
        rcases hsplit r hr with hr' | hid
        · exact hothers r hr'
        · have : r ∈ db.ownOn m.id c.id := List.mem_filter.mpr ⟨hr, by simpa using hid⟩
          simp [hown] at this
  | true =>
      simp only [Bool.true_eq_false, false_imp_iff, and_true, true_and]
      have hmay : db.mayShare c (db.liveRunsOn m.id) m = true ↔
          ∀ o ∈ db.campaigns.rows, ∀ r ∈ db.liveRunsOn m.id, r.campaignId = o.id →
            o.shareMachine = true := by
        simp only [Db.mayShare, hpool, hshare, Bool.false_or, Bool.true_and, List.all_eq_true,
          Bool.or_eq_true, Bool.not_eq_true', List.any_eq_false, beq_iff_eq]
        constructor
        · intro h o ho r hr hid
          rcases h o ho with hnone | hyes
          · exact absurd hid (hnone r hr)
          · exact hyes
        · intro h o ho
          by_cases hex : ∃ r ∈ db.liveRunsOn m.id, r.campaignId = o.id
          · rcases hex with ⟨r, hr, hid⟩
            exact Or.inr (h o ho r hr hid)
          · exact Or.inl fun r hr hid => hex ⟨r, hr, hid⟩
      constructor
      · intro h r hr o ho hid
        have hr' : r ∈ db.liveRunsOn m.id := List.mem_of_mem_filter hr
        have hnonempty : (db.liveRunsOn m.id).isEmpty = false := by
          cases hlive : db.liveRunsOn m.id with
          | nil => simp [hlive] at hr'
          | cons _ _ => rfl
        rw [hnonempty, Bool.not_false, Bool.true_and, Bool.not_eq_false'] at h
        exact hmay.mp h o ho r hr' hid.symm
      · intro h
        have hyes : db.mayShare c (db.liveRunsOn m.id) m = true := by
          refine hmay.mpr fun o ho r hr hid => ?_
          rcases hsplit r hr with hr' | hown
          · exact h r hr' o ho hid.symm
          · -- its own runs are its own campaign's, which shares
            rw [Table.eq_of_key_eq ho hc (hid.symm.trans hown)]
            exact hshare
        simp [hyes]

theorem closedTo_eq_false_iff {held : Reservations} {db : Db} {c : Campaign} {m : Machine}
    (hc : c ∈ db.campaigns.rows) (hpool : m.isNodePool = false) :
    closedTo held [] db c m = false ↔
      GatesOpen held db c m ∧ db.machineHostsLiveGang m.id = false ∧
        (c.shareMachine = false → db.ownOn m.id c.id = []) ∧ (0 < m.gpuCount → db.NodesKnown m.id) := by
  have hreserved : (!(reservationsOn held m.id c.id).isEmpty &&
      (!c.shareMachine || (reservationsOn held m.id c.id).any fun r => !r.share)) = false ↔
      ∀ r ∈ reservationsOn held m.id c.id, c.shareMachine = true ∧ r.share = true := by
    cases reservationsOn held m.id c.id with
    | nil => simp
    | cons r rest =>
        cases c.shareMachine with
        | true => simp
        | false =>
            simp only [List.isEmpty_cons, Bool.not_false, Bool.true_and, Bool.true_or,
              Bool.true_eq_false, Bool.false_eq_true, false_and, false_iff]
            exact fun h => h r List.mem_cons_self
  have hknown : (decide (0 < m.gpuCount) &&
      (db.blockingNodes m.id).any fun n => n.gpuIndices.isEmpty) = false ↔
      (0 < m.gpuCount → db.NodesKnown m.id) := by
    by_cases hgpu : 0 < m.gpuCount <;> simp [hgpu, Db.NodesKnown]
  have hlive := live_gate_iff hc hpool
  unfold closedTo
  simp only [List.contains_nil, Bool.false_and, Bool.false_or, Bool.or_eq_false_iff, hreserved, hknown,
    hlive]
  constructor
  · rintro ⟨⟨⟨⟨hres, hport⟩, hgang⟩, hruns, hown⟩, hnodes⟩
    exact ⟨⟨hport, hres, hruns⟩, hgang, hown, hnodes⟩
  · rintro ⟨⟨hport, hres, hruns⟩, hgang, hown, hnodes⟩
    exact ⟨⟨⟨⟨hres, hport⟩, hgang⟩, hruns, hown⟩, hnodes⟩

theorem freeCards_length (held : Reservations) (db : Db) (c : Campaign) (m : Machine) :
    (freeCards held db c m).length =
      db.cardsLeft m - cardsReserved (reservationsOn held m.id c.id) := by
  simp [freeCards, Db.cardsLeft, cardsReserved]

theorem chooseNext_single (free : Nat) (candidate : CandidateId) (k : Nat) :
    chooseNext free [⟨candidate, k⟩] =
      if 0 < k ∧ k ≤ free then some ⟨candidate, k⟩ else none := by
  by_cases hk : 0 < k ∧ k ≤ free
  · simp [chooseNext, firstPlacement, hk]
  · rw [if_neg hk]
    simp only [chooseNext, List.filter_cons, List.filter_nil]
    rw [if_neg (by simpa using hk)]
    rfl

theorem packOn_isPlace_iff {held : Reservations} {db : Db} {c : Campaign} {m : Machine}
    {candidate : CandidateId} {k : Nat} (hc : c ∈ db.campaigns.rows) (hpool : m.isNodePool = false) :
    (packOn held [] db c [⟨candidate, k⟩] m).isPlace = true ↔
      GatesOpen held db c m ∧ Packs held db c m k := by
  have hclosed : closedTo held [] db c m = false ↔ _ := closedTo_eq_false_iff hc hpool
  unfold packOn
  by_cases hshut : closedTo held [] db c m = true
  · rw [if_pos hshut]
    simp only [Verdict.isPlace, Bool.false_eq_true, false_iff]
    rintro ⟨hgates, hgang, hown, hrest⟩
    have hknown : 0 < m.gpuCount → db.NodesKnown m.id := by
      intro hgpu
      rw [if_neg (by omega)] at hrest
      exact hrest.1
    rw [hclosed.mpr ⟨hgates, hgang, hown, hknown⟩] at hshut
    cases hshut
  · rw [if_neg hshut]
    rcases hclosed.mp (Bool.eq_false_iff.mpr hshut) with ⟨hgates, hgang, hown, hknown⟩
    have hsplit : Packs held db c m k ↔ if m.gpuCount = 0 then
        db.liveRunsOn m.id = [] ∧ db.teardownPendingOn m.id = [] ∧ reservationsOn held m.id c.id = []
        else db.NodesKnown m.id ∧ 0 < k ∧
          k + cardsReserved (reservationsOn held m.id c.id) ≤ db.cardsLeft m :=
      ⟨fun h => h.2.2, fun h => ⟨hgang, hown, h⟩⟩
    rw [and_iff_right hgates, hsplit]
    by_cases hgpu : m.gpuCount = 0
    · rw [if_pos hgpu, if_pos hgpu]
      by_cases hempty : (!(db.liveRunsOn m.id ++ db.teardownPendingOn m.id).isEmpty ||
          !(reservationsOn held m.id c.id).isEmpty) = true
      · rw [if_pos hempty]
        simp only [Verdict.isPlace, Bool.false_eq_true, false_iff]
        rintro ⟨hlive, hdying, hres⟩
        simp [hlive, hdying, hres] at hempty
      · rw [if_neg hempty]
        simp only [Verdict.isPlace, true_iff]
        simpa [and_assoc] using hempty
    · rw [if_neg hgpu, if_neg hgpu, freeCards_length, chooseNext_single]
      by_cases hk : 0 < k ∧ k ≤ db.cardsLeft m - cardsReserved (reservationsOn held m.id c.id)
      · rw [if_pos hk]
        simp only [Verdict.isPlace, true_iff]
        exact ⟨hknown (by omega), hk.1, by omega⟩
      · rw [if_neg hk]
        have hno : ¬ (db.NodesKnown m.id ∧ 0 < k ∧
            k + cardsReserved (reservationsOn held m.id c.id) ≤ db.cardsLeft m) := by
          rintro ⟨-, hpos, hle⟩
          exact hk ⟨hpos, by omega⟩
        simp only [iff_false_intro hno, iff_false]
        split <;> simp [Verdict.isPlace]

/-! ## Where they agree -/

/-- When the two answers agree, past the gates both ask. A campaign that does not share: nothing is
tearing down there, it has no live run of its own, and the candidate fits the machine; or something
is, and leaves no room. A sharing one on a machine with cards: where the other campaigns and what is
tearing down leave room, no gang is live there and its own runs leave room as well; where they do not,
neither do the nodes. On a machine without cards: the machine is empty exactly if no card is asked
for or reserved. -/
def AnswersAgree (held : Reservations) (db : Db) (c : Campaign) (m : Machine) (k : Nat) : Prop :=
  let reserved := cardsReserved (reservationsOn held m.id c.id)
  let elsewhere := db.othersOn m.id c.id ++ db.teardownPendingOn m.id
  GatesOpen held db c m →
    if c.shareMachine then
      if m.gpuCount = 0 then
        elsewhere = [] → (db.ownOn m.id c.id = [] ∧ reservationsOn held m.id c.id = [] ↔
          k = 0 ∧ reserved = 0)
      else if (∀ r ∈ elsewhere, r.gpuIndices ≠ []) ∧
          k + cardsRecorded elsewhere + reserved ≤ m.gpuCount then
        db.machineHostsLiveGang m.id = false ∧ db.NodesKnown m.id ∧ 0 < k ∧
          k + reserved ≤ db.cardsLeft m
      else
        db.machineHostsLiveGang m.id = true ∨ ¬ db.NodesKnown m.id ∨ k = 0 ∨
          db.cardsLeft m < k + reserved
    else if db.teardownPendingOn m.id = [] then
      db.ownOn m.id c.id = [] ∧ (m.gpuCount = 0 ∨ 0 < k ∧ k ≤ m.gpuCount)
    else
      db.ownOn m.id c.id ≠ [] ∨ m.gpuCount = 0 ∨ ¬ db.NodesKnown m.id ∨ k = 0 ∨ db.cardsLeft m < k

theorem liveRunsOn_eq_nil_iff {db : Db} {m : MachineId} {campaign : CampaignId} :
    db.liveRunsOn m = [] ↔ db.othersOn m campaign = [] ∧ db.ownOn m campaign = [] := by
  constructor
  · intro h
    simp [Db.othersOn, Db.ownOn, h]
  · rintro ⟨hothers, hown⟩
    refine List.eq_nil_iff_forall_not_mem.mpr fun r hr => ?_
    by_cases hid : r.campaignId = campaign
    · have : r ∈ db.ownOn m campaign := List.mem_filter.mpr ⟨hr, by simpa using hid⟩
      simp [hown] at this
    · have : r ∈ db.othersOn m campaign := List.mem_filter.mpr ⟨hr, by simpa using hid⟩
      simp [hothers] at this

theorem not_hostsGang_of_empty {db : Db} {m : MachineId} (h : db.liveRunsOn m = []) :
    db.machineHostsLiveGang m = false := by
  rw [Db.machineHostsLiveGang, List.any_eq_false]
  intro r hr hgang
  simp only [Bool.and_eq_true] at hgang
  have : r ∈ db.liveRunsOn m := Db.mem_liveRunsOn.mpr ⟨hr, hgang.1.1, hgang.1.2⟩
  simp [h] at this

theorem blockingNodes_of_empty {db : Db} {m : MachineId} (hlive : db.liveRunsOn m = [])
    (hdying : db.teardownPendingOn m = []) : db.blockingNodes m = [] := by
  refine List.eq_nil_iff_forall_not_mem.mpr fun n hn => ?_
  rcases List.mem_append.mp hn with hn | hn
  · rcases List.mem_flatMap.mp hn with ⟨r, hr, hnode⟩
    rcases List.mem_filter.mp hr with ⟨hr, hl⟩
    have hon := Db.onMachine_iff.mpr ⟨n, Db.mem_nodesOn.mp hnode⟩
    have : r ∈ db.liveRunsOn m := Db.mem_liveRunsOn.mpr ⟨hr, hl, hon⟩
    simp [hlive] at this
  · rcases List.mem_flatMap.mp hn with ⟨r, hr, hnode⟩
    rcases List.mem_filter.mp hr with ⟨hr, ht⟩
    have hon := Db.onMachine_iff.mpr ⟨n, Db.mem_nodesOn.mp hnode⟩
    have : r ∈ db.teardownPendingOn m := Db.mem_teardownPendingOn.mpr ⟨hr, ht, hon⟩
    simp [hdying] at this

/-- Alone on a machine, a candidate is placed if it fits. -/
theorem packs_alone {held : Reservations} {db : Db} {c : Campaign} {m : Machine} {k : Nat}
    (hlive : db.liveRunsOn m.id = []) (hdying : db.teardownPendingOn m.id = [])
    (hreserved : reservationsOn held m.id c.id = []) :
    Packs held db c m k ↔ m.gpuCount = 0 ∨ 0 < k ∧ k ≤ m.gpuCount := by
  have hnodes := blockingNodes_of_empty hlive hdying
  have hleft : db.cardsLeft m = m.gpuCount := by simp [Db.cardsLeft, hnodes, freeIndices]
  have hown : db.ownOn m.id c.id = [] := (liveRunsOn_eq_nil_iff.mp hlive).2
  unfold Packs
  by_cases hgpu : m.gpuCount = 0
  · simp [hgpu, hlive, hdying, hreserved, not_hostsGang_of_empty hlive, hown]
  · simp [hgpu, hreserved, not_hostsGang_of_empty hlive, hown, Db.NodesKnown, hnodes, hleft,
      cardsReserved]

theorem cardsRecorded_pos {runs : List Run} {r : Run} (hr : r ∈ runs) (hcards : r.gpuIndices ≠ []) :
    0 < cardsRecorded runs := by
  rcases List.exists_mem_of_ne_nil _ hcards with ⟨i, hi⟩
  have : i ∈ (runs.flatMap Run.gpuIndices).dedup :=
    List.mem_dedup.mpr (List.mem_flatMap.mpr ⟨r, hr, hi⟩)
  exact List.length_pos_of_mem this

/-- The two questions past the gates have one answer exactly under `AnswersAgree`. -/
theorem admits_iff_packs {held : Reservations} {db : Db} {c : Campaign} {m : Machine} {k : Nat} :
    (GatesOpen held db c m → (Admits held db c m k ↔ Packs held db c m k)) ↔
      AnswersAgree held db c m k := by
  unfold AnswersAgree
  dsimp only
  refine imp_congr_right fun hgates => ?_
  cases hshare : c.shareMachine with
  | false =>
      rcases (gatesOpen_alone hshare).mp hgates with ⟨-, hreserved, hothers⟩
      simp only [Bool.false_eq_true, if_false]
      by_cases hdying : db.teardownPendingOn m.id = []
      · have hadmits : Admits held db c m k := by simp [Admits, hshare, hdying]
        rw [if_pos hdying, iff_true_left hadmits]
        by_cases hown : db.ownOn m.id c.id = []
        · have hlive := liveRunsOn_eq_nil_iff.mpr ⟨hothers, hown⟩
          rw [packs_alone hlive hdying hreserved]
          simp [hown]
        · simp [Packs, hshare, hown]
      · have hadmits : ¬ Admits held db c m k := by simp [Admits, hshare, hdying]
        rw [if_neg hdying, iff_false_left hadmits]
        by_cases hown : db.ownOn m.id c.id = []
        · have hlive := liveRunsOn_eq_nil_iff.mpr ⟨hothers, hown⟩
          by_cases hgpu : m.gpuCount = 0
          · simp [Packs, hgpu, hdying]
          · simp only [Packs, hown, hgpu, hreserved, not_hostsGang_of_empty hlive, cardsReserved,
              List.map_nil, List.sum_nil, Nat.add_zero, if_false, implies_true, true_and, ne_eq,
              not_true_eq_false, false_or, not_and_or, Nat.not_lt, Nat.not_le, Nat.le_zero]
        · simp [Packs, hshare, hown]
  | true =>
      simp only [if_true]
      by_cases hgpu : m.gpuCount = 0
      · rw [if_pos hgpu]
        by_cases hempty : db.othersOn m.id c.id ++ db.teardownPendingOn m.id = []
        · rcases List.append_eq_nil_iff.mp hempty with ⟨hothers, hdying⟩
          have hadmits : Admits held db c m k ↔
              k = 0 ∧ cardsReserved (reservationsOn held m.id c.id) = 0 := by
            simp [Admits, hshare, hothers, hdying, hgpu, cardsRecorded]
          have hpacks : Packs held db c m k ↔
              db.ownOn m.id c.id = [] ∧ reservationsOn held m.id c.id = [] := by
            constructor
            · rintro ⟨-, -, hrest⟩
              rw [if_pos hgpu] at hrest
              exact ⟨(liveRunsOn_eq_nil_iff.mp hrest.1).2, hrest.2.2⟩
            · rintro ⟨hown, hreserved⟩
              have hlive := liveRunsOn_eq_nil_iff.mpr ⟨hothers, hown⟩
              exact (packs_alone hlive hdying hreserved).mpr (Or.inl hgpu)
          rw [hadmits, hpacks]
          simp only [hempty, forall_const]
          exact Iff.comm
        · -- somebody is there, so neither says yes
          have hadmits : ¬ Admits held db c m k := by
            simp only [Admits, hshare, if_true, hgpu]
            rintro ⟨hknown, hfits⟩
            rcases List.exists_mem_of_ne_nil _ hempty with ⟨r, hr⟩
            have := cardsRecorded_pos hr (hknown r hr)
            omega
          have hpacks : ¬ Packs held db c m k := by
            rintro ⟨-, -, hrest⟩
            rw [if_pos hgpu] at hrest
            exact hempty (by rw [(liveRunsOn_eq_nil_iff.mp hrest.1).1, hrest.2.1]; rfl)
          simp [hadmits, hpacks, hempty]
      · rw [if_neg hgpu]
        have hpacks : Packs held db c m k ↔ db.machineHostsLiveGang m.id = false ∧
            db.NodesKnown m.id ∧ 0 < k ∧
              k + cardsReserved (reservationsOn held m.id c.id) ≤ db.cardsLeft m := by
          simp [Packs, hshare, hgpu]
        have hadmits : Admits held db c m k ↔
            (∀ r ∈ db.othersOn m.id c.id ++ db.teardownPendingOn m.id, r.gpuIndices ≠ []) ∧
              k + cardsRecorded (db.othersOn m.id c.id ++ db.teardownPendingOn m.id) +
                cardsReserved (reservationsOn held m.id c.id) ≤ m.gpuCount := by
          simp only [Admits, hshare, if_true]
        by_cases ha : Admits held db c m k
        · rw [if_pos (hadmits.mp ha), iff_true_left ha, hpacks]
        · rw [if_neg fun h => ha (hadmits.mpr h), iff_false_left ha, hpacks]
          simp only [not_and_or, Bool.not_eq_false, Nat.not_lt, Nat.not_le, Nat.le_zero]

/-- `busy_reason` and `_start_one` answer alike exactly under `AnswersAgree`. -/
theorem busyReason_agrees_iff (held : Reservations) (db : Db) (c : Campaign) (m : Machine)
    (candidate : CandidateId) (k : Nat) (hc : c ∈ db.campaigns.rows) (hpool : m.isNodePool = false) :
    (busyReason held db m k c.shareMachine c.id = none ↔
      (packOn held [] db c [⟨candidate, k⟩] m).isPlace = true) ↔ AnswersAgree held db c m k := by
  rw [busyReason_eq_none_iff, packOn_isPlace_iff hc hpool, ← admits_iff_packs, and_congr_right_iff]

/-! ## A box of two cards -/

/-- A machine of two cards. -/
def twoCardBox : Machine where
  id := 1
  name := "box"
  gpuCount := 2

/-- A campaign, sharing or not. -/
def tenant (id : CampaignId) (share : Bool) : Campaign where
  id := id
  shareMachine := share

/-- A run on some cards of the box. -/
def boxRun (campaign : CampaignId) (status : RunStatus) (cards : List Nat) (dying : Bool) : Run where
  id := 1
  campaignId := campaign
  candidateId := 1
  machineId := some 1
  status := status
  gpuIndices := cards
  teardownPending := dying

/-- The box with two campaigns and one run. -/
def boxWith (share : Bool) (r : Run) : Db where
  machines := .single twoCardBox
  campaigns := ⟨[tenant 1 share, tenant 2 true], by simp [tenant]⟩
  runs := .single r

/-- The sharing campaign's own run is on both cards. -/
def ownRunOnBoth : Db := boxWith true (boxRun 1 .benching [0, 1] false)

/-- A run of campaign 2 is tearing down on card 0. -/
def tearingDown : Db := boxWith false (boxRun 2 .failed [0] true)

/-- Its own run is no reason to `busy_reason`, and leaves no card to place on. A run tearing down is
one to a campaign that does not share, and leaves a card that is placed on. -/
theorem busyReason_disagrees :
    (busyReason (fun _ => []) ownRunOnBoth twoCardBox 2 true 1 = none ∧
      (packOn (fun _ => []) [] ownRunOnBoth (tenant 1 true) [⟨7, 2⟩] twoCardBox).isPlace = false) ∧
    (busyReason (fun _ => []) tearingDown twoCardBox 1 false 1 = some "a run is using it" ∧
      (packOn (fun _ => []) [] tearingDown (tenant 1 false) [⟨7, 1⟩] twoCardBox).isPlace = true) := by
  decide

/-- On card 0 the sharing campaign's run leaves a card: both say yes to a run on one more. -/
theorem busyReason_agrees_beside_own_run :
    busyReason (fun _ => []) (boxWith true (boxRun 1 .benching [0] false)) twoCardBox 1 true 1 = none ↔
      (packOn (fun _ => []) [] (boxWith true (boxRun 1 .benching [0] false)) (tenant 1 true) [⟨7, 1⟩]
        twoCardBox).isPlace = true := by
  refine (busyReason_agrees_iff _ _ (tenant 1 true) _ _ _ List.mem_cons_self rfl).mpr ?_
  intro _
  refine ⟨by decide, ?_, by decide, by decide⟩
  intro n hn
  have hcards : n ∈ [(⟨some 1, [0]⟩ : RunNode)] := hn
  simp [List.mem_singleton.mp hcards]

end AutoTune
