import AutoTune.Search.Plan

/-!
# Node groups as the page shows them

Why a member could not be part of a gang starting right now, member by member, and whether the whole
group could. The page that lists the groups reads these; `_start_gang` reads `_group_is_idle`.
-/

namespace AutoTune

/-- `member_blockers`; `reason` is the machines' `attention_reason` column. -/
def memberBlockers (db : Db) (reason : MachineId → String) (m : Machine) : List String :=
  (if m.needsAttention then
    [m.name ++ " is quarantined" ++ (if reason m.id = "" then "" else ": " ++ reason m.id)] else []) ++
  (if m.state = .away then [m.name ++ " is not leased"]
    else if acceptsNewWork m then [] else [m.name ++ " is being handed back"]) ++
  (if db.machineHasLiveSession m.id then [m.name ++ " is hosting a policy session"] else []) ++
  (if db.machineHostsLiveGang m.id then
    [m.name ++ " is already part of a live multi-node run"] else []) ++
  (if (db.liveRunsOn m.id).isEmpty then [] else [m.name ++ " is running work"])

/-- `group_blockers`, flattened in rank order. -/
def groupBlockers (db : Db) (reason : MachineId → String) (group : String) : List String :=
  (db.membersByRank group).flatMap (memberBlockers db reason)

/-- `group_deployable`. -/
def groupDeployable (db : Db) (reason : MachineId → String) (group : String) : Bool :=
  (groupBlockers db reason group).isEmpty

/-- What `_serialize` derives for the page. -/
structure MachineGroupOut where
  nodeCount : Nat
  deployable : Bool
  blockers : List String
deriving DecidableEq, Repr

/-- `_serialize`. -/
def serializeGroup (db : Db) (reason : MachineId → String) (group : String) : MachineGroupOut :=
  let blockers := groupBlockers db reason group
  { nodeCount := (db.membersByRank group).length, deployable := blockers.isEmpty, blockers }

/-! ## What an empty list of blockers means -/

/-- Every blocker names the machine it is about. -/
theorem memberBlockers_name {db : Db} {reason : MachineId → String} {m : Machine} {text : String}
    (h : text ∈ memberBlockers db reason m) : ∃ why, text = m.name ++ why := by
  simp only [memberBlockers, List.mem_append] at h
  rcases h with (((h | h) | h) | h) | h
  · split_ifs at h with hq hr
    · exact ⟨_, by simpa using h⟩
    · exact ⟨_, by simpa [String.append_assoc] using h⟩
    · cases h
  · split_ifs at h
    · exact ⟨_, by simpa using h⟩
    · cases h
    · exact ⟨_, by simpa using h⟩
  · split_ifs at h
    · exact ⟨_, by simpa using h⟩
    · cases h
  · split_ifs at h
    · exact ⟨_, by simpa using h⟩
    · cases h
  · split_ifs at h
    · cases h
    · exact ⟨_, by simpa using h⟩

/-- Ours, handed over, not quarantined, and nothing live on it. -/
structure ShownReady (db : Db) (m : Machine) : Prop where
  accepts : acceptsNewWork m = true
  sound : m.needsAttention = false
  session : db.machineHasLiveSession m.id = false
  live : db.liveRunsOn m.id = []

theorem memberBlockers_eq_nil {db : Db} {reason : MachineId → String} {m : Machine} :
    memberBlockers db reason m = [] ↔ ShownReady db m := by
  constructor
  · intro h
    simp only [memberBlockers, List.append_eq_nil_iff] at h
    rcases h with ⟨⟨⟨⟨hquarantined, hleased⟩, hsession⟩, _⟩, hlive⟩
    exact {
      accepts := by
        split_ifs at hleased with haway haccepts
        exact haccepts
      sound := by
        split_ifs at hquarantined with hattention
        exact Bool.eq_false_iff.mpr hattention
      session := by
        split_ifs at hsession with hhosts
        exact Bool.eq_false_iff.mpr hhosts
      live := by
        split_ifs at hlive with hempty
        exact List.isEmpty_iff.mp hempty }
  · intro h
    have haway : m.state ≠ .away := by
      intro haway
      have haccepts := h.accepts
      simp [acceptsNewWork, haway] at haccepts
    simp [memberBlockers, h.sound, haway, h.accepts, h.session, h.live, not_hostsGang_of_empty h.live]

/-- The page shows a group as deployable exactly if each of its members is shown ready. -/
theorem groupDeployable_iff {db : Db} {reason : MachineId → String} {group : String} :
    groupDeployable db reason group = true ↔ ∀ m ∈ db.membersByRank group, ShownReady db m := by
  simp only [groupDeployable, groupBlockers, List.isEmpty_iff, List.flatMap_eq_nil_iff,
    memberBlockers_eq_nil]

/-- The page's flag is `group_deployable`. -/
@[simp] theorem serializeGroup_deployable (db : Db) (reason : MachineId → String) (group : String) :
    (serializeGroup db reason group).deployable = groupDeployable db reason group := rfl

/-! ## What the scheduler asks for besides -/

/-- The machine has cards, and no container on it is still coming down. -/
structure Cleared (db : Db) (m : Machine) : Prop where
  cards : 0 < m.gpuCount
  dying : db.teardownPendingOn m.id = []

theorem groupIsIdle_iff {db : Db} {members : List Machine} :
    db.groupIsIdle members = true ↔ ∀ m ∈ members, ShownReady db m ∧ Cleared db m := by
  simp only [Db.groupIsIdle, List.all_eq_true, Bool.and_eq_true, Bool.not_eq_true',
    decide_eq_true_eq, List.isEmpty_iff]
  constructor
  · intro h m hm
    rcases h m hm with ⟨⟨⟨⟨⟨haccepts, hsound⟩, hcards⟩, hsession⟩, hlive⟩, hdying⟩
    exact ⟨⟨haccepts, hsound, hsession, hlive⟩, ⟨hcards, hdying⟩⟩
  · intro h m hm
    rcases h m hm with ⟨⟨haccepts, hsound, hsession, hlive⟩, ⟨hcards, hdying⟩⟩
    exact ⟨⟨⟨⟨⟨haccepts, hsound⟩, hcards⟩, hsession⟩, hlive⟩, hdying⟩

end AutoTune
