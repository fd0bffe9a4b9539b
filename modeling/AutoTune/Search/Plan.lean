import AutoTune.Search.Validation
import AutoTune.Recipe.Shape
import AutoTune.Supervisor.Admission

/-!
# From a declared config to a placed run

`_plan` judges a config by the cards its flags use, the queue places it by the cards its recipe's pods
claim. For a campaign without a recipe the two are one number.
-/

namespace AutoTune

open Lib

/-- `_group_for_campaign`, as the group's machines in rank order. -/
def Db.groupForCampaign (db : Db) (c : Campaign) : Option (List Machine) :=
  if c.nodeGroup = "" then none else some (db.membersByRank c.nodeGroup)

/-- `_validation_gpu_count`. -/
def Db.validationGpuCount (db : Db) (c : Campaign) : Nat :=
  let described := fun machines : List Machine => (machines.map Machine.gpuCount).filter (0 < ·)
  match db.groupForCampaign c with
  | some members => (described members).min?.getD 0 * (described members).length
  | none =>
      let machines := db.usableMachines c
      match (described machines).max? with
      | some most => most
      | none => if machines.isEmpty then 8 else 0

/-- `_campaign_nodes`. -/
def Db.campaignNodes (db : Db) (c : Campaign) : Nat :=
  match db.groupForCampaign c with
  | some members => max 1 members.length
  | none => 1

section Plan

variable {F : Type} [PyRuntime F]

/-- `config_cards`: the cards one launch of a config claims. -/
def configCards (recipe : Option (Recipe F)) (config : JsonDict F) : Except PyError Int :=
  match recipe with
  | none => cardsUsed config
  | some base => do
      let recipe ← base.apply config
      let pods ← shape recipe
      return pods.totalGpus

/-- The status `_plan` gives a new candidate, and its `validation_error`. -/
def planned (db : Db) (c : Campaign) (engine : String) (config : JsonDict F) :
    Except PyError (CandidateStatus × String) :=
  (validateConfig config ⟨db.validationGpuCount c, engine, db.campaignNodes c⟩).map fun error =>
    match error with
    | some text => (.invalid, text)
    | none => (.valid, "")

/-- Nobody is on a machine, waits for it to be cleared, has it reserved or holds its port. -/
structure Vacant (held : Reservations) (db : Db) (c : Campaign) (m : Machine) : Prop where
  live : db.liveRunsOn m.id = []
  dying : db.teardownPendingOn m.id = []
  reserved : reservationsOn held m.id c.id = []
  port : db.portBusy held m c.id = false

theorem Vacant.not_closedTo {held : Reservations} {db : Db} {c : Campaign} {m : Machine}
    (h : Vacant held db c m) : closedTo held [] db c m = false := by
  simp [closedTo, h.reserved, h.port, h.live, not_hostsGang_of_empty h.live,
    blockingNodes_of_empty h.live h.dying]

theorem Vacant.freeCards_length {held : Reservations} {db : Db} {c : Campaign} {m : Machine}
    (h : Vacant held db c m) : (freeCards held db c m).length = m.gpuCount := by
  simp [freeCards, freeIndices, blockingNodes_of_empty h.live h.dying, h.reserved]

/-- On a vacant machine with cards, `_start_one` places what `choose_next` returns. -/
theorem Vacant.packOn_isPlace {held : Reservations} {db : Db} {c : Campaign} {m : Machine}
    {placements : List Placement} (h : Vacant held db c m) (hgpu : 0 < m.gpuCount) :
    (packOn held [] db c placements m).isPlace = (chooseNext m.gpuCount placements).isSome := by
  unfold packOn
  rw [if_neg (by simp [h.not_closedTo]), if_neg (by omega), h.freeCards_length]
  cases chooseNext m.gpuCount placements with
  | none => rfl
  | some p => rfl

/-- On a vacant machine without cards it places whatever comes first. -/
theorem Vacant.packOn_cpuOnly {held : Reservations} {db : Db} {c : Campaign} {m : Machine}
    {p : Placement} (h : Vacant held db c m) (hgpu : m.gpuCount = 0) :
    (packOn held [] db c [p] m).isPlace = true := by
  unfold packOn
  rw [if_neg (by simp [h.not_closedTo]), if_pos hgpu, if_neg (by simp [h.live, h.dying, h.reserved])]
  rfl

/-- A width the queue places on a vacant machine. -/
def PlacedAlone (held : Reservations) (db : Db) (c : Campaign) (m : Machine) (candidate : CandidateId)
    (width : Int) : Prop :=
  (packOn held [] db c [⟨candidate, width.toNat⟩] m).isPlace = true ∧
    (0 < m.gpuCount →
      chooseNext m.gpuCount [⟨candidate, width.toNat⟩] = some ⟨candidate, width.toNat⟩)

theorem placedAlone_iff {held : Reservations} {db : Db} {c : Campaign} {m : Machine}
    {candidate : CandidateId} {width : Int} (h : Vacant held db c m) :
    PlacedAlone held db c m candidate width ↔
      m.gpuCount = 0 ∨ 0 < width ∧ width ≤ m.gpuCount := by
  unfold PlacedAlone
  by_cases hgpu : m.gpuCount = 0
  · simp [hgpu, h.packOn_cpuOnly hgpu]
  · have hpos : 0 < m.gpuCount := by omega
    rw [h.packOn_isPlace hpos, chooseNext_single]
    by_cases hfits : 0 < width.toNat ∧ width.toNat ≤ m.gpuCount
    · rw [if_pos hfits]
      simp only [Option.isSome_some, implies_true, and_self, true_iff]
      omega
    · rw [if_neg hfits]
      simp only [Option.isSome_none, Bool.false_eq_true, false_and, false_iff]
      omega

theorem planned_valid_iff {db : Db} {c : Campaign} {engine : String} {config : JsonDict F} :
    planned db c engine config = .ok (.valid, "") ↔
      validateConfig config ⟨db.validationGpuCount c, engine, db.campaignNodes c⟩ = .ok none := by
  unfold planned
  cases validateConfig config ⟨db.validationGpuCount c, engine, db.campaignNodes c⟩ with
  | error e => simp [Except.map]
  | ok error => cases error <;> simp [Except.map]

theorem configCards_recipe (base : Recipe F) (config : JsonDict F) :
    configCards (some base) config = (base.apply config).bind Recipe.claimedCards := by
  simp only [configCards, bind]
  cases base.apply config with
  | error e => rfl
  | ok r =>
      simp only [Except.bind]
      rw [← shape_totalGpus]
      cases shape r <;> rfl

/-- A valid config without a recipe is placed on a vacant machine with the most cards. -/
theorem valid_without_recipe {held : Reservations} {db : Db} {c : Campaign} {m : Machine}
    {engine : String} {config : JsonDict F} {candidate : CandidateId} (h : Vacant held db c m)
    (hmost : m.gpuCount = db.validationGpuCount c)
    (hvalid : planned db c engine config = .ok (.valid, "")) :
    ∃ width, configCards none config = .ok width ∧ PlacedAlone held db c m candidate width := by
  have hok := planned_valid_iff.mp hvalid
  rcases cardsUsed_ok hok with ⟨width, hwidth⟩
  refine ⟨width, hwidth, (placedAlone_iff h).mpr ?_⟩
  by_cases hgpu : m.gpuCount = 0
  · exact Or.inl hgpu
  · have hpos : 0 < ((db.validationGpuCount c : Nat) : Int) := by omega
    rcases validateConfig_fits hok hpos with ⟨n, hn, hle⟩
    have hsame : n = width := by
      rw [hn] at hwidth
      cases hwidth
      rfl
    have hle' : n ≤ (db.validationGpuCount c : Int) := hle
    exact Or.inr ⟨cardsUsed_pos hwidth, by omega⟩

/-- A config `_plan` marks VALID is placed on a vacant machine with the most cards exactly if its
campaign has no recipe, or the pods of the recipe it is written into claim at least one card and no
more than that machine has. -/
theorem planned_is_placed_iff (held : Reservations) (db : Db) (c : Campaign) (m : Machine)
    (engine : String) (recipe : Option (Recipe F)) (config : JsonDict F) (candidate : CandidateId)
    (hvacant : Vacant held db c m) (hmost : m.gpuCount = db.validationGpuCount c) :
    (planned db c engine config = .ok (.valid, "") →
      ∃ width, configCards recipe config = .ok width ∧ PlacedAlone held db c m candidate width) ↔
    ∀ base, recipe = some base → planned db c engine config = .ok (.valid, "") →
      ∃ r cards, base.apply config = .ok r ∧ r.claimedCards = .ok cards ∧
        (m.gpuCount = 0 ∨ 0 < cards ∧ cards ≤ m.gpuCount) := by
  constructor
  · rintro h base rfl hvalid
    rcases h hvalid with ⟨width, hwidth, hplaced⟩
    rw [configCards_recipe] at hwidth
    cases hr : base.apply config with
    | error e =>
        rw [hr] at hwidth
        cases hwidth
    | ok r =>
        rw [hr] at hwidth
        exact ⟨r, width, rfl, hwidth, (placedAlone_iff hvacant).mp hplaced⟩
  · intro h hvalid
    cases recipe with
    | none => exact valid_without_recipe hvacant hmost hvalid
    | some base =>
        rcases h base rfl hvalid with ⟨r, cards, hr, hcards, hfits⟩
        refine ⟨cards, ?_, (placedAlone_iff hvacant).mpr hfits⟩
        rw [configCards_recipe, hr]
        exact hcards

end Plan

/-! ## Sixteen cards on a fleet of eight -/

/-- The one machine of the fleet. -/
def eightCardBox : Machine where
  id := 1
  name := "box"
  gpuCount := 8
  state := .available

def eightCardFleet : Db where
  machines := .single eightCardBox
  campaigns := .single { id := 1 }

/-- A recipe of one pod with as many cards as its `--tp-size`. -/
def tensorParallel (cards : Nat) : Recipe Empty where
  values := [("model", .dict [("gpus", .str (toString cards))]),
    ("extraArgs", .list [.str ("--tp-size=" ++ toString cards)])]

/-- A config that leaves the parallelism to the recipe. -/
def pageSize : JsonDict Empty := [("page_size", .int 64)]

theorem eightCardFleet_vacant : Vacant (fun _ => []) eightCardFleet { id := 1 } eightCardBox where
  live := rfl
  dying := rfl
  reserved := rfl
  port := rfl

/-- The config uses one card by its own flags and is marked VALID; its recipe claims sixteen, and a
recipe that names no cards claims none. Neither is placed. -/
theorem valid_fits_nowhere :
    eightCardBox ∈ eightCardFleet.usableMachines { id := 1 } ∧
    eightCardBox.gpuCount = eightCardFleet.validationGpuCount { id := 1 } ∧
    Vacant (fun _ => []) eightCardFleet { id := 1 } eightCardBox ∧
    planned eightCardFleet { id := 1 } "sglang" pageSize = .ok (.valid, "") ∧
    configCards (some (tensorParallel 16)) pageSize = .ok 16 ∧
    configCards (some ({ } : Recipe Empty)) pageSize = .ok 0 ∧
    chooseNext eightCardBox.gpuCount [⟨7, 16⟩] = none ∧
    chooseNext eightCardBox.gpuCount [⟨7, 0⟩] = none :=
  ⟨by decide, by decide, eightCardFleet_vacant, by rfl, by rfl, by rfl, by decide, by decide⟩

/-- With eight it is placed. -/
theorem valid_fits_eight :
    ∃ width, configCards (some (tensorParallel 8)) pageSize = .ok width ∧
      PlacedAlone (fun _ => []) eightCardFleet { id := 1 } eightCardBox 7 width := by
  refine (planned_is_placed_iff _ _ _ _ "sglang" _ _ _ eightCardFleet_vacant (by decide)).mpr ?_ (by rfl)
  rintro base hbase -
  cases hbase
  exact ⟨_, 8, rfl, by rfl, by decide⟩

end AutoTune
