import AutoTune.Supervisor.Groups

/-!
# The page's promise of a gang

The page calls a group deployable from its own reading of the members; `_start_gang` asks
`_group_is_idle` and judges each candidate by the cards of the narrowest member. Where the page says no
the scheduler places nothing. Where it says yes, a candidate that was marked VALID is placed as long as
every member has cards and no container on one is still coming down, neither of which the page looks at.
-/

namespace AutoTune

open Lib

section Promise

variable {F : Type} [PyRuntime F]

/-- A stored candidate beside its config, whose cards are the row's `worldSize`. -/
structure PlannedCandidate (F : Type) [PyRuntime F] where
  row : Candidate
  config : JsonDict F
  counted : cardsUsed config = .ok (row.worldSize : Int)

/-- A campaign that pins a group of two or more ssh members, and one call of `_start_gang` for it:
what is reserved, which machines older waiters hold, which machines were found occupied so far, and
the candidates that wait. `engine` is the campaign's column, `attentionReason` the machines'. -/
structure PinnedGang (F : Type) [PyRuntime F] where
  db : Db
  campaign : Campaign
  engine : String
  attentionReason : MachineId → String
  held : Reservations
  blocked : List MachineId
  busy : List MachineId
  pending : List (PlannedCandidate F)
  pinned : campaign.nodeGroup ≠ ""
  several : 2 ≤ (db.membersByRank campaign.nodeGroup).length
  ssh : ∀ m ∈ db.membersByRank campaign.nodeGroup, m.driver ≠ .k8s

namespace PinnedGang

def members (g : PinnedGang F) : List Machine := g.db.membersByRank g.campaign.nodeGroup

/-- What `_start_gang` returns. -/
def start (g : PinnedGang F) : Started :=
  startGang g.held g.blocked g.db g.campaign (g.pending.map PlannedCandidate.row) g.busy

/-- `_plan` would mark the config VALID for this campaign. -/
def Valid (g : PinnedGang F) (k : PlannedCandidate F) : Prop :=
  planned g.db g.campaign g.engine k.config = .ok (.valid, "")

/-- No member is reserved for another campaign or held for an older waiter. -/
structure Open (g : PinnedGang F) : Prop where
  unreserved : ∀ m ∈ g.members, reservationsOn g.held m.id g.campaign.id = []
  unblocked : ∀ m ∈ g.members, m.id ∉ g.blocked

/-- A candidate of the queue is started across every member of the group. -/
def Places (g : PinnedGang F) : Prop :=
  ∃ k ∈ g.pending, ∃ cards port dist, g.start =
    ⟨createRun g.db g.campaign k.row.id (g.members.map fun m => (m.id, List.range cards)) port dist,
      true, true, g.busy⟩

/-- What the page's flag says about the scheduler, both ways. -/
structure PromiseKept (g : PinnedGang F) : Prop where
  deployable : groupDeployable g.db g.attentionReason g.campaign.nodeGroup = true → g.Open →
    (∃ k ∈ g.pending, g.Valid k) → g.Places
  blocked : groupDeployable g.db g.attentionReason g.campaign.nodeGroup = false →
    g.start.placed = false ∧ g.start.db = g.db

/-! ## The narrowest member -/

theorem members_ne_nil (g : PinnedGang F) : g.members ≠ [] := by
  intro h
  have htwo : 2 ≤ g.members.length := g.several
  simp [h] at htwo

/-- If every member has cards, the cards `_plan` counts are the narrowest member's for each of them. -/
theorem validationGpuCount_cards (g : PinnedGang F) (hcards : ∀ m ∈ g.members, 0 < m.gpuCount) :
    g.db.validationGpuCount g.campaign =
      (g.members.map Machine.gpuCount).min?.getD 0 * g.members.length := by
  have hall : (g.members.map Machine.gpuCount).filter (0 < ·) = g.members.map Machine.gpuCount := by
    rw [List.filter_eq_self]
    intro n hn
    rcases List.mem_map.mp hn with ⟨m, hm, rfl⟩
    simpa using hcards m hm
  have hgroup : g.db.groupForCampaign g.campaign = some g.members := if_neg g.pinned
  simp only [Db.validationGpuCount, hgroup, hall, List.length_map]

theorem capacity_pos (g : PinnedGang F) (hcards : ∀ m ∈ g.members, 0 < m.gpuCount) :
    0 < (g.members.map Machine.gpuCount).min?.getD 0 := by
  cases hmin : (g.members.map Machine.gpuCount).min? with
  | none =>
      have hnil := List.min?_eq_none_iff.mp hmin
      exact absurd (List.map_eq_nil_iff.mp hnil) g.members_ne_nil
  | some n =>
      rcases List.mem_map.mp (List.min?_mem hmin) with ⟨m, hm, rfl⟩
      exact hcards m hm

theorem campaignNodes_eq (g : PinnedGang F) : g.db.campaignNodes g.campaign = g.members.length := by
  have hgroup : g.db.groupForCampaign g.campaign = some g.members := if_neg g.pinned
  have htwo : 2 ≤ g.members.length := g.several
  simp only [Db.campaignNodes, hgroup]
  omega

/-- A VALID config gives every member the same number of cards, and no more than it has. -/
theorem Valid.splits {g : PinnedGang F} {k : PlannedCandidate F} (h : g.Valid k)
    (hcards : ∀ m ∈ g.members, 0 < m.gpuCount) :
    ∃ cards, 0 < cards ∧ k.row.worldSize = cards * g.members.length ∧
      cards ≤ (g.members.map Machine.gpuCount).min?.getD 0 := by
  have hvalid := planned_valid_iff.mp h
  have htwo : 2 ≤ g.members.length := g.several
  have hnodes := g.campaignNodes_eq
  have htotal := g.validationGpuCount_cards hcards
  have hcapacity := g.capacity_pos hcards
  have hdvd : (k.row.worldSize : Int) % (g.db.campaignNodes g.campaign : Nat) = 0 :=
    validateConfig_divides hvalid (by dsimp only; omega) k.counted
  rw [hnodes] at hdvd
  have hworld : g.members.length ∣ k.row.worldSize := Nat.dvd_of_mod_eq_zero (by omega)
  rcases hworld with ⟨cards, hsplit⟩
  have hpos : 0 < (k.row.worldSize : Int) := cardsUsed_pos k.counted
  have hfits : k.row.worldSize ≤ g.db.validationGpuCount g.campaign := by
    have hroom : 0 < ((g.db.validationGpuCount g.campaign : Nat) : Int) := by
      rw [htotal]
      exact_mod_cast Nat.mul_pos hcapacity (by omega)
    rcases validateConfig_fits hvalid hroom with ⟨n, hn, hle⟩
    have hsame : n = k.row.worldSize := by
      rw [k.counted] at hn
      cases hn
      rfl
    rw [hsame] at hle
    exact Int.ofNat_le.mp hle
  refine ⟨cards, ?_, by rw [hsplit, Nat.mul_comm], ?_⟩
  · rcases Nat.eq_zero_or_pos cards with rfl | hc
    · rw [hsplit] at hpos
      simp at hpos
    · exact hc
  · rw [hsplit, htotal, Nat.mul_comm] at hfits
    exact Nat.le_of_mul_le_mul_right hfits (by omega)

/-! ## What `_start_gang` does with the group -/

theorem firstPlacement_isSome {l : List Placement} (h : l ≠ []) : ∃ p, firstPlacement l = some p := by
  cases l with
  | nil => exact absurd rfl h
  | cons p rest =>
      simp only [firstPlacement]
      cases firstPlacement rest with
      | none => exact ⟨p, rfl⟩
      | some q => exact ⟨_, (apply_ite some _ _ _).symm⟩

theorem gangFitting_ne_nil {nodes capacity cards : Nat} {pending : List Candidate} {k : Candidate}
    (hk : k ∈ pending) (hpos : 0 < cards) (hnodes : 0 < nodes) (hsplit : k.worldSize = cards * nodes)
    (hfits : cards ≤ capacity) : gangFitting nodes capacity pending ≠ [] := by
  have hmem : (⟨k.id, k.worldSize / nodes⟩ : Placement) ∈ gangFitting nodes capacity pending := by
    refine List.mem_filterMap.mpr ⟨k, hk, ?_⟩
    have hwide : nodes ≤ k.worldSize := by
      rw [hsplit]
      exact Nat.le_mul_of_pos_left nodes hpos
    have heven : k.worldSize % nodes = 0 := by
      rw [hsplit]
      exact Nat.mul_mod_left cards nodes
    have hper : k.worldSize / nodes = cards := by
      rw [hsplit]
      exact Nat.mul_div_cancel cards hnodes
    rw [if_neg (by simp [hwide, heven]), if_neg (by omega)]
  exact List.ne_nil_of_mem hmem

/-- Past its guards the gang planner creates a run of the first placement that fits. -/
theorem startGang_past_guards {held : Reservations} {blocked : List MachineId} {db : Db} {c : Campaign}
    {pending : List Candidate} (busy : List MachineId) {p : Placement}
    (hseveral : 2 ≤ (db.membersByRank c.nodeGroup).length)
    (hidle : db.groupIsIdle (db.membersByRank c.nodeGroup) = true)
    (hblocked : ∀ m ∈ db.membersByRank c.nodeGroup, m.id ∉ blocked)
    (hreserved : ∀ m ∈ db.membersByRank c.nodeGroup, reservationsOn held m.id c.id = [])
    (hssh : ∀ m ∈ db.membersByRank c.nodeGroup, m.driver ≠ .k8s)
    (hp : firstPlacement (gangFitting (db.membersByRank c.nodeGroup).length
      (((db.membersByRank c.nodeGroup).map Machine.gpuCount).min?.getD 0) pending) = some p) :
    ∃ port dist, startGang held blocked db c pending busy =
      ⟨createRun db c p.candidateId
        ((db.membersByRank c.nodeGroup).map fun m => (m.id, List.range p.cards)) port dist,
        true, true, busy⟩ := by
  have hheld : ((db.membersByRank c.nodeGroup).any fun m =>
      blocked.contains m.id && !holds held m.id c.id) = false := by
    rw [List.any_eq_false]
    intro m hm
    simp [hblocked m hm]
  have hkept : ((db.membersByRank c.nodeGroup).any fun m =>
      !(reservationsOn held m.id c.id).isEmpty) = false := by
    rw [List.any_eq_false]
    intro m hm
    simp [hreserved m hm]
  have hshell : ((db.membersByRank c.nodeGroup).any fun m => m.driver == .k8s) = false := by
    rw [List.any_eq_false]
    intro m hm
    simpa using hssh m hm
  unfold startGang
  dsimp only
  rw [if_neg (by omega), if_neg (by rw [hidle, hheld, hkept]; simp), if_neg (by simp [hshell])]
  split
  · rename_i master rest q hmembers hq
    rw [hp] at hq
    cases hq
    exact ⟨_, _, rfl⟩
  · rename_i hnone
    -- a group of two has a master, and `p` is the placement
    cases hmembers : db.membersByRank c.nodeGroup with
    | nil => simp [hmembers] at hseveral
    | cons master rest => exact absurd hp (hnone master rest p hmembers)

/-- An idle open group takes one of the candidates that fit. -/
theorem places_of_idle {g : PinnedGang F} (hidle : g.db.groupIsIdle g.members = true) (hopen : g.Open)
    (hfit : gangFitting g.members.length ((g.members.map Machine.gpuCount).min?.getD 0)
      (g.pending.map PlannedCandidate.row) ≠ []) : g.Places := by
  rcases firstPlacement_isSome hfit with ⟨p, hp⟩
  rcases gangFitting_mem (firstPlacement_mem hp) with ⟨row, hrow, hid⟩
  rcases List.mem_map.mp hrow with ⟨k, hk, rfl⟩
  rcases startGang_past_guards g.busy g.several hidle hopen.unblocked hopen.unreserved g.ssh hp with
    ⟨port, dist, hstart⟩
  refine ⟨k, hk, p.cards, port, dist, ?_⟩
  rw [hid]
  exact hstart

/-- A group that is not idle is left alone. -/
theorem not_placed_of_busy {g : PinnedGang F} (h : g.db.groupIsIdle g.members = false) :
    g.start.placed = false ∧ g.start.db = g.db := by
  have hidle : g.db.groupIsIdle (g.db.membersByRank g.campaign.nodeGroup) = false := h
  unfold start startGang
  simp only [hidle, Bool.not_false, Bool.true_or, if_true]
  split_ifs <;> exact ⟨rfl, rfl⟩

/-! ## When the promise is kept -/

/-- What the promise rests on, from the rows: each member ours, handed over, without anything live and
open to this campaign, and a VALID candidate waiting. -/
structure Due (g : PinnedGang F) : Prop extends g.Open where
  ready : ∀ m ∈ g.members, ShownReady g.db m
  valid : ∃ k ∈ g.pending, g.Valid k

/-- With every member cleared, a gang that is due is placed. -/
theorem Due.places {g : PinnedGang F} (h : g.Due) (hcleared : ∀ m ∈ g.members, Cleared g.db m) :
    g.Places := by
  rcases h.valid with ⟨k, hk, hvalid⟩
  have hcards : ∀ m ∈ g.members, 0 < m.gpuCount := fun m hm => (hcleared m hm).cards
  rcases hvalid.splits hcards with ⟨cards, hpos, hsplit, hfits⟩
  have hidle : g.db.groupIsIdle g.members = true :=
    groupIsIdle_iff.mpr fun m hm => ⟨h.ready m hm, hcleared m hm⟩
  have hseveral : 0 < g.members.length := lt_of_lt_of_le (by omega) g.several
  exact places_of_idle hidle h.toOpen
    (gangFitting_ne_nil (List.mem_map_of_mem hk) hpos hseveral hsplit hfits)

/-- What is placed was placed on cleared members. -/
theorem Places.cleared {g : PinnedGang F} (h : g.Places) : ∀ m ∈ g.members, Cleared g.db m := by
  rcases h with ⟨k, _, cards, port, dist, hstart⟩
  cases hidle : g.db.groupIsIdle g.members with
  | true => exact fun m hm => (groupIsIdle_iff.mp hidle m hm).2
  | false =>
      have hplaced := (not_placed_of_busy hidle).1
      rw [hstart] at hplaced
      cases hplaced

/-- The page and the scheduler agree on a group exactly if, whenever a gang is due on it, every member
has cards and no container on one is still coming down. -/
theorem page_promise_iff (g : PinnedGang F) :
    g.PromiseKept ↔ (g.Due → ∀ m ∈ g.members, 0 < m.gpuCount ∧ g.db.teardownPendingOn m.id = []) := by
  constructor
  · intro h hdue m hm
    have hshown : groupDeployable g.db g.attentionReason g.campaign.nodeGroup = true :=
      groupDeployable_iff.mpr hdue.ready
    have hcleared := (h.deployable hshown hdue.toOpen hdue.valid).cleared m hm
    exact ⟨hcleared.cards, hcleared.dying⟩
  · intro h
    refine { deployable := ?_, blocked := ?_ }
    · intro hshown hopen hvalid
      have hdue : g.Due := { toOpen := hopen, ready := groupDeployable_iff.mp hshown, valid := hvalid }
      exact hdue.places fun m hm => ⟨(h hdue m hm).1, (h hdue m hm).2⟩
    · intro hshown
      refine not_placed_of_busy (Bool.eq_false_iff.mpr fun hidle => ?_)
      -- an idle group has no blockers
      have hready : ∀ m ∈ g.members, ShownReady g.db m := fun m hm => (groupIsIdle_iff.mp hidle m hm).1
      rw [groupDeployable_iff.mpr hready] at hshown
      cases hshown

end PinnedGang

end Promise

/-! ## A container that is still coming down -/

def pairMaster : Machine where
  id := 1
  name := "alpha"
  state := .reserved
  group := some ("pair", 0)

def pairWorker : Machine where
  id := 2
  name := "beta"
  state := .reserved
  group := some ("pair", 1)

/-- Both members are leased and idle; the run that finished on the master has not lost its container. -/
def pairTearingDown : Db where
  machines := ⟨[pairMaster, pairWorker], by decide⟩
  campaigns := .single { id := 1, status := .active, nodeGroup := "pair" }
  runs := .single
    { id := 1, campaignId := 1, candidateId := 1, machineId := some 1, status := .succeeded,
      gpuIndices := [0, 1], teardownPending := true }

theorem pairTearingDown_members : pairTearingDown.membersByRank "pair" = [pairMaster, pairWorker] :=
  List.mergeSort_of_pairwise (by decide)

/-- The next candidate spans both members with one card each. -/
def nextOfPair : PlannedCandidate Empty where
  row := { id := 2, campaignId := 1, status := .valid, cards := 2, worldSize := 2 }
  config := [("tp", .int 2)]
  counted := rfl

def pairGang : PinnedGang Empty where
  db := pairTearingDown
  campaign := { id := 1, status := .active, nodeGroup := "pair" }
  engine := "sglang"
  attentionReason _ := ""
  held _ := []
  blocked := []
  busy := []
  pending := [nextOfPair]
  pinned := by decide
  several := by rw [pairTearingDown_members]; decide
  ssh := by rw [pairTearingDown_members]; decide

theorem pairGang_valid : pairGang.Valid nextOfPair := by
  have hgroup : pairTearingDown.groupForCampaign pairGang.campaign = some [pairMaster, pairWorker] := by
    rw [← pairTearingDown_members]
    rfl
  have hcount : pairTearingDown.validationGpuCount pairGang.campaign = 16 := by
    rw [Db.validationGpuCount, hgroup]
    rfl
  have hnodes : pairTearingDown.campaignNodes pairGang.campaign = 2 := by
    rw [Db.campaignNodes, hgroup]
    rfl
  refine planned_valid_iff.mpr ?_
  change validateConfig nextOfPair.config ⟨pairTearingDown.validationGpuCount pairGang.campaign, "sglang",
    pairTearingDown.campaignNodes pairGang.campaign⟩ = .ok none
  rw [hcount, hnodes]
  rfl

/-- The page shows the pair as deployable with a VALID candidate waiting; nothing is placed. -/
theorem pair_promised_refused : ¬ pairGang.PromiseKept := by
  intro h
  have hmembers : pairGang.members = [pairMaster, pairWorker] := pairTearingDown_members
  have hshown : groupDeployable pairTearingDown (fun _ => "") "pair" = true := by
    rw [groupDeployable, groupBlockers, pairTearingDown_members]
    decide
  have hopen : pairGang.Open := {
    unreserved := fun _ _ => rfl
    unblocked := fun _ _ => List.not_mem_nil }
  have hplaces := h.deployable hshown hopen ⟨nextOfPair, List.mem_singleton.mpr rfl, pairGang_valid⟩
  have hmaster : pairMaster ∈ pairGang.members := by
    rw [hmembers]
    decide
  have hdying := (hplaces.cleared pairMaster hmaster).dying
  exact absurd hdying (by decide)


end AutoTune
