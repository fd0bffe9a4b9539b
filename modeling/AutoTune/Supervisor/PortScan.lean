import AutoTune.Supervisor.Placement
import Mathlib.Order.Interval.Finset.Nat

/-!
# The ports that are handed out

`_free_port`, `_free_port_across` and `_free_dist_port` walk over 256 ports, stay off those they count as taken
and off the NodePort range, and give up on the port they started from. The range is wider than the walk, and the
rendezvous scan does not count a run that listens on its campaign's port.
-/

namespace AutoTune

open Lib

/-! ## The walk -/

/-- A port the walk stops at. -/
def isOpen (taken : List Nat) (port : Nat) : Bool := !taken.contains port && !nodePortRange port

theorem isOpen_iff {taken : List Nat} {port : Nat} :
    isOpen taken port = true ↔ port ∉ taken ∧ nodePortRange port = false := by
  simp [isOpen]

/-- The walk is a search over consecutive ports. -/
theorem searchPort_eq (taken : List Nat) (tries port : Nat) :
    searchPort taken tries port = (List.range' port tries).find? (isOpen taken) := by
  induction tries generalizing port with
  | zero => rfl
  | succ tries ih =>
      rw [List.range'_succ, List.find?_cons, searchPort, ← ih]
      unfold isOpen
      cases !taken.contains port && !nodePortRange port with
      | false => rfl
      | true => rfl

/-- The walk finds the first open port. -/
theorem searchPort_some {taken : List Nat} {tries port p : Nat} :
    searchPort taken tries port = some p ↔
      isOpen taken p = true ∧ (port ≤ p ∧ p < port + tries) ∧ ∀ q, port ≤ q → q < p → isOpen taken q = false := by
  rw [searchPort_eq, List.find?_range'_eq_some, List.mem_range'_1]
  simp only [Bool.not_eq_true']

theorem searchPort_none {taken : List Nat} {tries port : Nat} :
    searchPort taken tries port = none ↔ ∀ q, port ≤ q → q < port + tries → isOpen taken q = false := by
  rw [searchPort_eq, List.find?_range'_eq_none]
  simp only [Bool.not_eq_true']

theorem searchPort_free {taken : List Nat} {tries port p : Nat} (h : searchPort taken tries port = some p) :
    p ∉ taken := (isOpen_iff.mp (searchPort_some.mp h).1).1

theorem searchPort_isSome {taken : List Nat} {tries port i : Nat} (hi : i < tries)
    (hfree : port + i ∉ taken) (hnode : nodePortRange (port + i) = false) :
    (searchPort taken tries port).isSome = true := by
  rw [Option.isSome_iff_ne_none]
  intro hnone
  have hclosed := searchPort_none.mp hnone (port + i) (Nat.le_add_right port i) (by omega)
  rw [isOpen_iff.mpr ⟨hfree, hnode⟩] at hclosed
  cases hclosed

/-! ## Room for a port -/

/-- One of the 256 ports from here on is not taken and no NodePort. -/
def HasRoom (taken : List Nat) (port : Nat) : Prop :=
  ∃ q, port ≤ q ∧ q < port + 256 ∧ q ∉ taken ∧ nodePortRange q = false

/-- A walk that gives up on its start ends at an open port exactly where there is room. -/
theorem isOpen_searchPort {taken : List Nat} {port : Nat} :
    isOpen taken ((searchPort taken 256 port).getD port) = true ↔ HasRoom taken port := by
  cases hfound : searchPort taken 256 port with
  | some p =>
      rcases searchPort_some.mp hfound with ⟨hopen, ⟨hle, hlt⟩, -⟩
      rcases isOpen_iff.mp hopen with ⟨hfree, hnode⟩
      exact ⟨fun _ => ⟨p, hle, hlt, hfree, hnode⟩, fun _ => hopen⟩
  | none =>
      have hclosed := searchPort_none.mp hfound
      constructor
      · intro hopen
        rw [Option.getD_none, hclosed port le_rfl (by omega)] at hopen
        cases hopen
      · rintro ⟨q, hle, hlt, hfree, hnode⟩
        have hq := hclosed q hle hlt
        rw [isOpen_iff.mpr ⟨hfree, hnode⟩] at hq
        cases hq

/-- Off the NodePort range there is room as long as fewer than 256 ports are taken. -/
theorem hasRoom_of_few {taken : List Nat} {port : Nat} (hfew : taken.toFinset.card < 256)
    (hoff : port + 256 ≤ 30000 ∨ 32767 < port) : HasRoom taken port := by
  by_contra hfull
  have hsub : Finset.Ico port (port + 256) ⊆ taken.toFinset := by
    intro q hq
    rcases Finset.mem_Ico.mp hq with ⟨hle, hlt⟩
    rw [List.mem_toFinset]
    by_contra hfree
    have hnode : nodePortRange q = false := by
      unfold nodePortRange
      simp
      omega
    exact hfull ⟨q, hle, hlt, hfree, hnode⟩
  have hcard := Finset.card_le_card hsub
  rw [Nat.card_Ico] at hcard
  omega

/-- A walk that starts in the NodePort range and does not leave it finds none. -/
theorem noRoom_inRange {port : Nat} (hfirst : 30000 ≤ port) (hlast : port + 255 ≤ 32767) (taken : List Nat) :
    ¬ HasRoom taken port := by
  rintro ⟨q, hle, hlt, -, hnode⟩
  simp [nodePortRange] at hnode
  omega

/-! ## Ports of runs -/

/-- The ports `_free_port` walks over. -/
def Db.usedPorts (db : Db) (live : List Run) (reserved : List Nat) : List Nat :=
  (live.map db.portOf ++ reserved).filter (· ≠ 0)

/-- The live and the teardown-pending runs of a machine. -/
def Db.holdersOn (db : Db) (m : Machine) : List Run := db.liveRunsOn m.id ++ db.teardownPendingOn m.id

/-- A port that can be handed out: none of the runs uses it, it is none of the ports that are kept for others,
and it is reachable from outside the machine. A port of 0 is no port. -/
structure IsUsable (db : Db) (runs : List Run) (kept : List Nat) (port : Nat) : Prop where
  unused : ∀ r ∈ runs, db.portOf r ≠ 0 → port ≠ db.portOf r
  notKept : ∀ q ∈ kept, q ≠ 0 → port ≠ q
  reachable : nodePortRange port = false

theorem isUsable_iff {db : Db} {runs : List Run} {kept : List Nat} {port : Nat} :
    IsUsable db runs kept port ↔ isOpen (db.usedPorts runs kept) port = true := by
  have hmem : port ∈ db.usedPorts runs kept ↔
      ((∃ r ∈ runs, db.portOf r = port) ∨ port ∈ kept) ∧ port ≠ 0 := by
    simp [Db.usedPorts, or_and_right]
  rw [isOpen_iff, hmem]
  constructor
  · rintro ⟨hunused, hkept, hreach⟩
    refine ⟨?_, hreach⟩
    rintro ⟨⟨r, hr, rfl⟩ | hin, hzero⟩
    · exact hunused r hr hzero rfl
    · exact hkept port hin hzero rfl
  · rintro ⟨hfree, hreach⟩
    refine ⟨fun r hr hzero heq => ?_, fun q hq hzero heq => ?_, hreach⟩
    · exact hfree ⟨.inl ⟨r, hr, heq.symm⟩, heq ▸ hzero⟩
    · exact hfree ⟨.inr (heq ▸ hq), heq ▸ hzero⟩

/-- `_free_port` hands out a usable port exactly where there is room. -/
theorem freePort_usable_iff (db : Db) (c : Campaign) (live : List Run) (reserved : List Nat) :
    IsUsable db live reserved (db.freePort c live reserved) ↔
      HasRoom (db.usedPorts live reserved) c.servicePort := by
  rw [isUsable_iff]
  exact isOpen_searchPort

/-! ## Rendezvous ports -/

/-- What `_free_dist_port` counts as taken: what it is told to exclude, and the ports the runs recorded. -/
def Db.distTaken (db : Db) (master : Machine) (excluded : List Nat) : List Nat :=
  excluded ++ (db.holdersOn master).flatMap fun r => [r.distPort, r.servicePort].filter (· ≠ 0)

/-- The 256 ports a rendezvous port is looked for in. -/
def IsDistPort (q : Nat) : Prop := distPortBase ≤ q ∧ q < distPortBase + 256

instance : DecidablePred IsDistPort := fun q =>
  inferInstanceAs (Decidable (distPortBase ≤ q ∧ q < distPortBase + 256))

/-- No run without a port of its own listens on the first rendezvous port that is not counted as taken; if all
are counted as taken, then the first of them neither by a service port nor as excluded. -/
structure DistRoom (db : Db) (master : Machine) (excluded : List Nat) : Prop where
  first : ∀ q, IsDistPort q → q ∉ db.distTaken master excluded →
    (∀ q', IsDistPort q' → q' < q → q' ∈ db.distTaken master excluded) →
      ∀ r ∈ db.holdersOn master, r.servicePort = 0 → db.portOf r ≠ q
  exhausted : (∀ q, IsDistPort q → q ∈ db.distTaken master excluded) →
    distPortBase ∉ excluded ∧ ∀ r ∈ db.holdersOn master, db.portOf r ≠ distPortBase

/-- The rendezvous ports lie below the NodePort range. -/
theorem IsDistPort.reachable {q : Nat} (h : IsDistPort q) : nodePortRange q = false := by
  unfold IsDistPort distPortBase at h
  unfold nodePortRange
  simp
  omega

theorem isOpen_distPort {taken : List Nat} {q : Nat} (h : IsDistPort q) :
    isOpen taken q = true ↔ q ∉ taken := by
  rw [isOpen_iff]
  exact and_iff_left h.reachable

theorem IsDistPort.ne_zero {q : Nat} (h : IsDistPort q) : q ≠ 0 := by
  unfold IsDistPort distPortBase at h
  omega

/-- What is not counted as taken is used by no run with a port of its own. -/
theorem portOf_recorded {db : Db} {master : Machine} {excluded : List Nat} {r : Run}
    (hr : r ∈ db.holdersOn master) (hown : r.servicePort ≠ 0) : db.portOf r ∈ db.distTaken master excluded := by
  refine List.mem_append_right _ (List.mem_flatMap.mpr ⟨r, hr, ?_⟩)
  simp [Db.portOf, hown]

/-- The first rendezvous port that is not counted as taken is handed out. -/
theorem freeDistPort_first {db : Db} {master : Machine} {excluded : List Nat} {p : Nat} (hp : IsDistPort p)
    (hfree : p ∉ db.distTaken master excluded)
    (hbefore : ∀ q, IsDistPort q → q < p → q ∈ db.distTaken master excluded) :
    db.freeDistPort master excluded = p := by
  have hfound : searchPort (db.distTaken master excluded) 256 distPortBase = some p := by
    refine searchPort_some.mpr ⟨(isOpen_distPort hp).mpr hfree, hp, fun q hle hlt => ?_⟩
    have hq : IsDistPort q := ⟨hle, hlt.trans hp.2⟩
    rw [Bool.eq_false_iff, ne_eq, isOpen_distPort hq, not_not]
    exact hbefore q hq hlt
  have heq : db.freeDistPort master excluded =
      (searchPort (db.distTaken master excluded) 256 distPortBase).getD distPortBase := rfl
  rw [heq, hfound, Option.getD_some]

/-- When all of them are counted as taken, the first one is handed out. -/
theorem freeDistPort_exhausted {db : Db} {master : Machine} {excluded : List Nat}
    (hall : ∀ q, IsDistPort q → q ∈ db.distTaken master excluded) :
    db.freeDistPort master excluded = distPortBase := by
  have hnone : searchPort (db.distTaken master excluded) 256 distPortBase = none := by
    refine searchPort_none.mpr fun q hle hlt => ?_
    rw [Bool.eq_false_iff, ne_eq, isOpen_distPort ⟨hle, hlt⟩, not_not]
    exact hall q ⟨hle, hlt⟩
  have heq : db.freeDistPort master excluded =
      (searchPort (db.distTaken master excluded) 256 distPortBase).getD distPortBase := rfl
  rw [heq, hnone, Option.getD_none]

/-- There is a first one, or all are counted as taken. -/
theorem firstDistPort_or (taken : List Nat) :
    (∃ p, IsDistPort p ∧ p ∉ taken ∧ ∀ q, IsDistPort q → q < p → q ∈ taken) ∨
      ∀ q, IsDistPort q → q ∈ taken := by
  by_cases h : ∃ p, IsDistPort p ∧ p ∉ taken
  · left
    refine ⟨Nat.find h, (Nat.find_spec h).1, (Nat.find_spec h).2, fun q hq hlt => ?_⟩
    by_contra hfree
    exact Nat.find_min h hlt ⟨hq, hfree⟩
  · right
    intro q hq
    by_contra hfree
    exact h ⟨q, hq, hfree⟩

/-- `_free_dist_port` hands out a usable port that is not excluded exactly where there is room for one. -/
theorem freeDistPort_usable_iff (db : Db) (master : Machine) (excluded : List Nat) :
    IsUsable db (db.holdersOn master) excluded (db.freeDistPort master excluded) ↔ DistRoom db master excluded := by
  have hbase : IsDistPort distPortBase := ⟨le_rfl, by omega⟩
  constructor
  · intro h
    have hunused : ∀ q, IsDistPort q → db.freeDistPort master excluded = q →
        ∀ r ∈ db.holdersOn master, db.portOf r ≠ q := by
      rintro q hq rfl r hr heq
      exact h.unused r hr (heq ▸ hq.ne_zero) heq.symm
    refine ⟨fun q hq hfree hbefore r hr _ => ?_, fun hall => ⟨fun hin => ?_, ?_⟩⟩
    · exact hunused q hq (freeDistPort_first hq hfree hbefore) r hr
    · exact h.notKept distPortBase hin hbase.ne_zero (freeDistPort_exhausted hall)
    · exact hunused distPortBase hbase (freeDistPort_exhausted hall)
  · intro h
    rcases firstDistPort_or (db.distTaken master excluded) with ⟨p, hp, hfree, hbefore⟩ | hall
    · rw [freeDistPort_first hp hfree hbefore]
      refine ⟨fun r hr _ heq => ?_, fun q hq _ heq => ?_, hp.reachable⟩
      · -- a run with a port of its own is counted, one without is left out by the condition
        by_cases hown : r.servicePort = 0
        · exact h.first p hp hfree hbefore r hr hown heq.symm
        · exact hfree (heq ▸ portOf_recorded hr hown)
      · exact hfree (List.mem_append_left _ (heq ▸ hq))
    · rw [freeDistPort_exhausted hall]
      rcases h.exhausted hall with ⟨hexcluded, hruns⟩
      exact ⟨fun r hr _ heq => hruns r hr heq.symm, fun q hq _ heq => hexcluded (heq ▸ hq), hbase.reachable⟩

/-- With fewer than 256 ports counted as taken, and every run on the master with a port of its own, the
rendezvous port is usable. -/
theorem distRoom_of_few {db : Db} {master : Machine} {excluded : List Nat}
    (hfew : (db.distTaken master excluded).toFinset.card < 256)
    (hown : ∀ r ∈ db.holdersOn master, r.servicePort ≠ 0) : DistRoom db master excluded where
  first _ _ _ _ r hr hzero := absurd hzero (hown r hr)
  exhausted hall := by
    have hroom : HasRoom (db.distTaken master excluded) distPortBase := hasRoom_of_few hfew (.inl (by decide))
    rcases hroom with ⟨q, hle, hlt, hfree, -⟩
    exact absurd (hall q ⟨hle, hlt⟩) hfree

/-! ## The three scans -/

/-- Each scan hands out a usable port exactly where there is room: the service ports in the 256 ports from the
campaign's own, on one machine or on every one of several, and the rendezvous port on the master. -/
theorem handedOut_usable_iff (db : Db) :
    (∀ (c : Campaign) (live : List Run) (reserved : List Nat),
      IsUsable db live reserved (db.freePort c live reserved) ↔
        HasRoom (db.usedPorts live reserved) c.servicePort) ∧
    (∀ (c : Campaign) (machines : List Machine),
      IsUsable db (machines.flatMap db.holdersOn) [] (db.freePortAcross c machines) ↔
        HasRoom (db.usedPorts (machines.flatMap db.holdersOn) []) c.servicePort) ∧
    ∀ (master : Machine) (excluded : List Nat),
      IsUsable db (db.holdersOn master) excluded (db.freeDistPort master excluded) ↔
        DistRoom db master excluded :=
  ⟨freePort_usable_iff db, fun c machines => freePort_usable_iff db c (machines.flatMap db.holdersOn) [],
    freeDistPort_usable_iff db⟩

/-- A box with one run that recorded no port: it listens on its campaign's, which is the first rendezvous port. -/
def unrecordedPort : Db where
  machines := .single { id := 1, name := "alpha" }
  campaigns := .single { id := 1, status := .active, servicePort := distPortBase }
  runs := .single
    { id := 1, campaignId := 1, candidateId := 1, machineId := some 1, status := .benching, gpuIndices := [0] }

/-- Few ports in use are not enough: a walk from 30000 gives up in the NodePort range with nothing on the machine,
and the rendezvous scan hands out the port of a run that recorded none. -/
theorem handedOut_notUsable :
    (¬ ∀ (db : Db) (c : Campaign) (live : List Run), (db.usedPorts live []).toFinset.card < 256 →
      IsUsable db live [] (db.freePort c live [])) ∧
    (¬ ∀ (db : Db) (c : Campaign) (machines : List Machine),
      (db.usedPorts (machines.flatMap db.holdersOn) []).toFinset.card < 256 →
        IsUsable db (machines.flatMap db.holdersOn) [] (db.freePortAcross c machines)) ∧
    ¬ ∀ (db : Db) (master : Machine) (port : Nat), (db.usedPorts (db.holdersOn master) []).toFinset.card < 256 →
      IsUsable db (db.holdersOn master) [port] (db.freeDistPort master [port]) := by
  have hwalk : searchPort [] 256 30000 = none := by decide +kernel
  refine ⟨fun h => ?_, fun h => ?_, fun h => ?_⟩
  · have hport := (h {} { id := 1, servicePort := 30000 } [] (by decide)).reachable
    simp [Db.freePort, hwalk, nodePortRange] at hport
  · have hport := (h {} { id := 1, servicePort := 30000 } [{ id := 1, name := "alpha" }] (by decide)).reachable
    have heq : ({} : Db).freePortAcross { id := 1, servicePort := 30000 } [{ id := 1, name := "alpha" }] = 30000 := by
      decide +kernel
    rw [heq] at hport
    cases hport
  · have hport := (h unrecordedPort { id := 1, name := "alpha" } 28200 (by decide)).unused
    revert hport
    decide

end AutoTune
