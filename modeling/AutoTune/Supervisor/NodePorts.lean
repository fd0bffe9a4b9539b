import AutoTune.Supervisor.TransitionSafety

/-!
# A cluster's fixed NodePort

A cluster whose firewall lets one port through puts every run's endpoint on that port, so of the runs
whose claims collide one at a time may be launched. The launch step asks `port_holder` for itself: it
waits for every colliding run past PENDING that is live or not torn down, and for those PENDING with a
smaller id. Collisions are by API server or by host, so they are not transitive.
-/

namespace AutoTune

open Lib

/-! ## Claims of runs -/

/-- The fixed port a run takes, on the machine it was placed on. -/
def Db.claimOfRun (db : Db) (r : Run) : Option NodePortClaim :=
  (r.machineId.bind db.machines.get?).bind claimOf

/-- Two runs whose claims collide. -/
def Db.portsCollide (db : Db) (r q : Run) : Bool :=
  (db.claimOfRun r).any fun claim => (db.claimOfRun q).any claim.collides

/-- Does `port_busy_reason(exclude_run=itself)` give this run a reason to wait? -/
def Db.portBlocked (db : Db) (r : Run) : Bool :=
  (r.machineId.bind db.machines.get?).any fun m => (db.portHolder m (some r.id)).isSome

/-- A run of a kind that takes the port, past PENDING and live or not torn down. -/
def Run.holdsPort (r : Run) : Bool := !r.kind.notOurs && r.status != .pending && r.holding

/-- Two names that are set and the same. -/
theorem sameName_comm (x y : String) : (x != "" && x == y) = (y != "" && y == x) := by
  rw [Bool.eq_iff_iff]
  simp only [Bool.and_eq_true, bne_iff_ne, beq_iff_eq]
  constructor
  · rintro ⟨hset, rfl⟩
    exact ⟨hset, rfl⟩
  · rintro ⟨hset, rfl⟩
    exact ⟨hset, rfl⟩

theorem NodePortClaim.collides_comm (a b : NodePortClaim) : a.collides b = b.collides a := by
  rw [NodePortClaim.collides, NodePortClaim.collides, sameName_comm a.server, sameName_comm a.host,
    Bool.beq_comm]

theorem Db.portsCollide_comm (db : Db) (r q : Run) : db.portsCollide r q = db.portsCollide q r := by
  unfold Db.portsCollide
  cases db.claimOfRun r with
  | none => cases db.claimOfRun q <;> rfl
  | some a =>
      cases db.claimOfRun q with
      | none => rfl
      | some b => exact NodePortClaim.collides_comm a b

theorem runClaims_eq (db : Db) (claim : NodePortClaim) (r : Run) :
    db.runClaims claim r = (db.claimOfRun r).any claim.collides := by
  unfold Db.runClaims Db.claimOfRun
  cases r.machineId.bind db.machines.get? with
  | none => rfl
  | some m =>
      by_cases hk : m.driver = .k8s
      · simp [hk]
      · simp [hk, claimOf]

theorem notOurs_eq (k : RunKind) : k.notOurs = !(k != .baseline && !k.isExternal) := by
  cases k <;> rfl

/-- What a run waits for: a colliding run past PENDING that is live or not torn down, or one that is
PENDING and was placed before it. -/
theorem portBlocked_iff {db : Db} {r : Run} :
    db.portBlocked r = true ↔
      ∃ q ∈ db.runs.rows, q.id ≠ r.id ∧ q.kind.notOurs = false ∧ q.holding = true ∧
        (q.status ≠ .pending ∨ q.id < r.id) ∧ db.portsCollide r q = true := by
  unfold Db.portBlocked Db.portsCollide
  have hclaim : db.claimOfRun r = (r.machineId.bind db.machines.get?).bind claimOf := rfl
  rw [hclaim]
  cases r.machineId.bind db.machines.get? with
  | none => simp
  | some m =>
      simp only [Option.any_some, Option.bind_some, Db.portHolder]
      cases claimOf m with
      | none => simp
      | some claim =>
          simp only [List.find?_isSome, Option.any_some, runClaims_eq, notOurs_eq, Run.holding,
            Bool.and_eq_true, Bool.or_eq_true, bne_iff_ne, decide_eq_true_eq, Bool.not_eq_true',
            Bool.not_eq_false', ne_eq]
          constructor
          · rintro ⟨q, hq, ⟨⟨⟨hhold, hbase⟩, hext⟩, hid, hfirst⟩, hcollide⟩
            exact ⟨q, hq, hid, ⟨hbase, hext⟩, hhold, hfirst, hcollide⟩
          · rintro ⟨q, hq, hid, ⟨hbase, hext⟩, hhold, hfirst, hcollide⟩
            exact ⟨q, hq, ⟨⟨⟨hhold, hbase⟩, hext⟩, hid, hfirst⟩, hcollide⟩

/-! ## Launches -/

/-- The runs that left PENDING for LAUNCHING. -/
def Db.launches (db : Db) : List RunId :=
  (db.transitions.filter fun e => e.target == .launching).map TransitionEvent.runId

theorem launches_moveRun (db : Db) (id : RunId) (source : RunStatus) {target : RunStatus}
    (h : target ≠ .launching) : (db.moveRun id source target).launches = db.launches := by
  simp [Db.launches, Db.moveRun, h]

theorem launches_launch (db : Db) (id : RunId) (source : RunStatus) :
    (db.moveRun id source .launching).launches = db.launches ++ [id] := by
  simp [Db.launches, Db.moveRun]

theorem transition_launches (db : Db) (id : RunId) {target : RunStatus} (h : target ≠ .launching) :
    (transition db id target).state.launches = db.launches := by
  unfold transition
  split
  · rfl
  · split
    · exact launches_moveRun db id _ h
    · rfl

theorem releaseMachineIfIdle_launches (db : Db) (m : MachineId) :
    (releaseMachineIfIdle db m).launches = db.launches := by
  unfold releaseMachineIfIdle
  split
  · rfl
  · split_ifs <;> rfl

theorem releaseRunMachines_launches (db : Db) (r : Run) :
    (releaseRunMachines db r).launches = db.launches := by
  unfold releaseRunMachines
  induction r.nodes.filterMap RunNode.machineId generalizing db with
  | nil => rfl
  | cons m l ih => exact (ih _).trans (releaseMachineIfIdle_launches db m)

section

variable (drivers : RunId → TeardownReplies) (now : Time)

theorem finishRow_launches (db : Db) (id : RunId) {status : RunStatus} (error : String)
    (h : status ≠ .launching) : (finishRow drivers now db id status error).state.launches = db.launches := by
  unfold finishRow
  split
  · rfl
  · refine Ran.andThen_preserves (I := fun db' : Db => db'.launches = db.launches)
      (transition_launches _ id h) ?_
    intro db' hdb'
    rw [Ran.done_state]
    split
    · exact (releaseRunMachines_launches db' _).trans hdb'
    · exact hdb'

theorem stopBenchmark_launches (launch : Run) (bench : RunId) (db : Db) :
    (stopBenchmark drivers now launch bench db).state.launches = db.launches := by
  unfold stopBenchmark
  split
  · exact finishRow_launches drivers now (db.setFailureClass bench _) bench _ (by decide)
  · exact finishRow_launches drivers now db bench _ (by decide)

theorem finish_launches (db : Db) (id : RunId) {status : RunStatus} (error : String)
    (h : status ≠ .launching) : (finish drivers now db id status error).state.launches = db.launches := by
  refine Ran.andThen_preserves (I := fun db' : Db => db'.launches = db.launches)
    (finishRow_launches drivers now db id error h) ?_
  intro db' hdb'
  split
  · exact hdb'
  · split
    · unfold stopBenchmarksOf
      split
      · exact hdb'
      · exact Ran.forEach_preserves (I := fun db' : Db => db'.launches = db.launches)
          (fun bench _ db'' h'' => (stopBenchmark_launches drivers now _ bench db'').trans h'') hdb'
    · exact hdb'

theorem fail_launches (db : Db) (id : RunId) (failureClass error : String) :
    (fail drivers now db id failureClass error).state.launches = db.launches := by
  refine Ran.andThen_preserves (I := fun db' : Db => db'.launches = db.launches)
    (finish_launches drivers now (db.setFailureClass id failureClass) id error (by decide)) ?_
  intro db' hdb'
  rw [Ran.done_state]
  unfold requeueIfInfrastructure
  split
  · exact hdb'
  · dsimp only
    split_ifs <;> exact hdb'

/-- Advancing a run launches nothing, or launches that run, which was PENDING and waits for nobody. -/
theorem advanceOne_launches (o : Observed) (db : Db) (id : RunId) :
    (advanceOne drivers now o db id).state.launches = db.launches ∨
      ∃ r, db.runs.get? id = some r ∧ r.status = .pending ∧ r.kind.notOurs = false ∧
        db.portBlocked r = false ∧
        (advanceOne drivers now o db id).state = db.moveRun id .pending .launching := by
  cases hget : db.runs.get? id with
  | none => simp [advanceOne, hget]
  | some r =>
      have hid : r.id = id := (Table.get?_eq_some_iff.mp hget).2
      subst hid
      have hadvances := advanceOne_advances drivers now hget (o := o)
      generalize advanceOne drivers now o db r.id = x at hadvances ⊢
      cases hadvances with
      | stay => exact Or.inl rfl
      | move target hcan hlaunch =>
          by_cases ht : target = .launching
          · subst ht
            have hs : r.status = .pending := by
              revert hcan
              cases r.status <;> decide
            refine Or.inr ⟨r, rfl, hs, (hlaunch rfl).1, (hlaunch rfl).2, ?_⟩
            simp [transition, hget, hs, canTransition, allowedTransitions]
          · exact Or.inl (transition_launches db r.id ht)
      | succeed _ => exact Or.inl (finish_launches drivers now db r.id _ (by decide))
      | fail failureClass error _ _ =>
          exact Or.inl (fail_launches drivers now db r.id failureClass error)

end

theorem reapTeardown_launches (drivers : RunId → ReapReplies) (clock : TeardownClock) (now : Time)
    (db : Db) (id : RunId) : (reapTeardown drivers clock now db id).launches = db.launches := by
  have hconfirm : (confirmTeardown db id).launches = db.launches := by
    unfold confirmTeardown
    split
    · rfl
    · exact releaseRunMachines_launches _ _
  have hstuck : ∀ (l : List MachineId) (db : Db), (l.foldl quarantineMachine db).launches = db.launches := by
    intro l
    induction l with
    | nil =>
        intro db
        rfl
    | cons m l ih =>
        intro db
        exact ih _
  unfold reapTeardown
  split
  · rfl
  · split
    · rfl
    · split
      · exact hconfirm
      · rfl
    · split
      · exact hstuck _ db
      · split
        · split <;> rfl
        · rfl

/-! ## Exclusion -/

/-- Of the runs that were launched and whose claims collide, one at a time is live or not torn down. -/
structure PortExclusive (db : Db) : Prop where
  known : ∀ id ∈ db.launches, ∃ r ∈ db.runs.rows, r.id = id ∧ r.status ≠ .pending
  apart : ∀ r ∈ db.runs.rows, ∀ q ∈ db.runs.rows, r.id ≠ q.id → r.kind.notOurs = false →
    q.kind.notOurs = false → r.id ∈ db.launches → q.id ∈ db.launches → r.holding = true →
    q.holding = true → db.portsCollide r q = false

/-- Nothing is launched, no run is held again or taken back to PENDING, and the claims stay. -/
structure Db.KeepsPorts (db db' : Db) : Prop where
  old : ∀ r' ∈ db'.runs.rows, ∃ r ∈ db.runs.rows, r'.id = r.id ∧ r'.kind = r.kind ∧
    r'.machineId = r.machineId ∧ (r'.holding = true → r.holding = true)
  kept : ∀ r ∈ db.runs.rows, r.status ≠ .pending →
    ∃ r' ∈ db'.runs.rows, r'.id = r.id ∧ r'.status ≠ .pending
  claims : ∀ m, (db'.machines.get? m).bind claimOf = (db.machines.get? m).bind claimOf
  launches : db'.launches = db.launches

theorem claimOfRun_congr {db db' : Db} {r r' : Run}
    (hclaims : ∀ m, (db'.machines.get? m).bind claimOf = (db.machines.get? m).bind claimOf)
    (hm : r'.machineId = r.machineId) : db'.claimOfRun r' = db.claimOfRun r := by
  unfold Db.claimOfRun
  rw [hm]
  cases r.machineId with
  | none => rfl
  | some m => exact hclaims m

theorem portsCollide_congr {db db' : Db} {r r' q q' : Run}
    (hclaims : ∀ m, (db'.machines.get? m).bind claimOf = (db.machines.get? m).bind claimOf)
    (hr : r'.machineId = r.machineId) (hq : q'.machineId = q.machineId) :
    db'.portsCollide r' q' = db.portsCollide r q := by
  rw [Db.portsCollide, Db.portsCollide, claimOfRun_congr hclaims hr, claimOfRun_congr hclaims hq]

theorem PortExclusive.keeps {db db' : Db} (h : PortExclusive db) (hk : Db.KeepsPorts db db') :
    PortExclusive db' where
  known := by
    intro id hid
    rw [hk.launches] at hid
    rcases h.known id hid with ⟨r, hr, rfl, hs⟩
    exact hk.kept r hr hs
  apart := by
    intro r' hr' q' hq' hne hkr hkq hlr hlq hhr hhq
    rcases hk.old r' hr' with ⟨r, hr, hrid, hrkind, hrm, hrhold⟩
    rcases hk.old q' hq' with ⟨q, hq, hqid, hqkind, hqm, hqhold⟩
    rw [hk.launches] at hlr hlq
    rw [hrid] at hne hlr
    rw [hqid] at hne hlq
    rw [hrkind] at hkr
    rw [hqkind] at hkq
    rw [portsCollide_congr hk.claims hrm hqm]
    exact h.apart r hr q hq hne hkr hkq hlr hlq (hrhold hhr) (hqhold hhq)

theorem setMachine_claims {db : Db} {id : MachineId} {f : Machine → Machine}
    {hf : ∀ m, (f m).id = m.id} (hclaim : ∀ m, claimOf (f m) = claimOf m) (m : MachineId) :
    ((db.setMachine id f hf).machines.get? m).bind claimOf = (db.machines.get? m).bind claimOf := by
  rw [Db.setMachine, Table.get?_modify]
  cases db.machines.get? m with
  | none => rfl
  | some x => by_cases hm : m = id <;> simp [hm, hclaim]

/-- No procedure writes a claim, or takes a run back to PENDING. -/
theorem writes_claims {db db' : Db} (h : Writes db db') (m : MachineId) :
    (db'.machines.get? m).bind claimOf = (db.machines.get? m).bind claimOf := by
  refine h.preserves
    (I := fun d : Db => (d.machines.get? m).bind claimOf = (db.machines.get? m).bind claimOf) ?_ rfl
  intro a b hw ha
  cases hw with
  | rebook => exact ha
  | move => exact ha
  | free id =>
      refine Eq.trans (setMachine_claims ?_ m) ha
      intro m
      rfl
  | quarantine id =>
      refine Eq.trans (setMachine_claims ?_ m) ha
      intro m
      rfl
  | candidate => exact ha

theorem canTransition_pending (s : RunStatus) : canTransition s .pending = false := by
  cases s <;> rfl

theorem writes_past_pending {db db' : Db} (h : Writes db db') {id : RunId}
    (hs : ∃ r ∈ db.runs.rows, r.id = id ∧ r.status ≠ .pending) :
    ∃ r ∈ db'.runs.rows, r.id = id ∧ r.status ≠ .pending := by
  refine h.preserves
    (I := fun d : Db => ∃ r ∈ d.runs.rows, r.id = id ∧ r.status ≠ .pending) ?_ hs
  rintro a b hw ⟨r, hr, hid, hpast⟩
  cases hw with
  | rebook j f hf hbook =>
      refine ⟨if r.id = j then f r else r, Db.mem_setRun.mpr ⟨r, hr, rfl⟩, ?_, ?_⟩
      · split
        · exact (hf r).trans hid
        · exact hid
      · split
        · rw [hbook r]
          exact hpast
        · exact hpast
  | move j r₀ target hget hcan =>
      refine ⟨if r.id = j then { r with status := target } else r,
        Db.mem_moveRun.mpr ⟨r, hr, rfl⟩, ?_, ?_⟩
      · split <;> exact hid
      · split
        · rintro rfl
          rw [canTransition_pending] at hcan
          cases hcan
        · exact hpast
  | free => exact ⟨r, hr, hid, hpast⟩
  | quarantine => exact ⟨r, hr, hid, hpast⟩
  | candidate => exact ⟨r, hr, hid, hpast⟩

theorem Db.KeepsPorts.of_writes {db db' : Db} (hs : Db.Settles db db') (hw : Writes db db')
    (hl : db'.launches = db.launches) : Db.KeepsPorts db db' where
  old := by
    intro r' hr'
    rcases hs.exists_run hr' with ⟨r, hr, hrr⟩
    exact ⟨r, hr, hrr.id, hrr.kind, hrr.machineId, hrr.holding⟩
  kept := fun r hr hpast => writes_past_pending hw ⟨r, hr, rfl, hpast⟩
  claims := writes_claims hw
  launches := hl

/-- One thing that happens to the store, as far as the port goes: a run is placed (PENDING, unless it
measures an endpoint the platform did not launch), `_advance_one` visits a run, a loop ends one, the
janitor visits one, or something writes elsewhere. -/
inductive PortStep (db : Db) : Db → Prop where
  | place (row : Run) (h : row.status = .pending ∨ row.kind.notOurs = true) :
      PortStep db { db with runs := db.runs.insert fun id => { row with id := id } }
  | advance (drivers : RunId → TeardownReplies) (now : Time) (o : Observed) (id : RunId)
      (h : Finishable db id) : PortStep db (advanceOne drivers now o db id).state
  | finish (drivers : RunId → TeardownReplies) (now : Time) (id : RunId) (status : RunStatus)
      (error : String) (h : Finishable db id) (hterm : status.terminal = true) :
      PortStep db (finish drivers now db id status error).state
  | reap (drivers : RunId → ReapReplies) (clock : TeardownClock) (now : Time) (id : RunId) :
      PortStep db (reapTeardown drivers clock now db id)
  | elsewhere (db' : Db) (h : Db.KeepsPorts db db') : PortStep db db'

/-- A run that waits for nobody is launched: whoever collides with it was never launched, or is torn
down. -/
theorem PortExclusive.launch {db : Db} (h : PortExclusive db) {r₀ : Run} {id : RunId}
    (hget : db.runs.get? id = some r₀) (hfree : db.portBlocked r₀ = false) :
    PortExclusive (db.moveRun id .pending .launching) := by
  rcases Table.get?_eq_some_iff.mp hget with ⟨hr₀, hid₀⟩
  -- a launched run that is live or not torn down blocks whoever it collides with
  have hblocks : ∀ q ∈ db.runs.rows, q.id ≠ id → q.kind.notOurs = false → q.id ∈ db.launches →
      q.holding = true → db.portsCollide r₀ q = false := by
    intro q hq hne hkind hlaunched hhold
    by_contra hcollide
    rcases h.known q.id hlaunched with ⟨q', hq', hid', hpast⟩
    rw [Table.eq_of_key_eq hq' hq hid'] at hpast
    have hblocked := portBlocked_iff.mpr
      ⟨q, hq, hid₀ ▸ hne, hkind, hhold, Or.inl hpast, by simpa using hcollide⟩
    rw [hfree] at hblocked
    cases hblocked
  have hmoved : ∀ r ∈ (db.moveRun id .pending .launching).runs.rows, ∃ q ∈ db.runs.rows,
      q.id = r.id ∧ q.kind = r.kind ∧ q.machineId = r.machineId ∧
        (r.holding = true → r.id ≠ id → q.holding = true) := by
    intro r hr
    rcases Db.mem_moveRun.mp hr with ⟨q, hq, rfl⟩
    by_cases hq' : q.id = id
    · rw [if_pos hq']
      exact ⟨q, hq, rfl, rfl, rfl, fun _ hne => absurd hq' hne⟩
    · rw [if_neg hq']
      exact ⟨q, hq, rfl, rfl, rfl, fun hhold _ => hhold⟩
  have hown : ∀ q ∈ db.runs.rows, q.id = id → q.machineId = r₀.machineId := by
    intro q hq hqid
    rw [Table.eq_of_key_eq hq hr₀ (hqid.trans hid₀.symm)]
  constructor
  · intro j hj
    rw [launches_launch] at hj
    rcases List.mem_append.mp hj with hold | hnew
    · rcases h.known j hold with ⟨r, hr, rfl, hpast⟩
      refine ⟨_, Db.mem_moveRun.mpr ⟨r, hr, rfl⟩, ?_, ?_⟩
      · split <;> rfl
      · split
        · intro hs
          cases hs
        · exact hpast
    · rw [List.mem_singleton.mp hnew]
      refine ⟨{ r₀ with status := .launching }, Db.mem_moveRun.mpr ⟨r₀, hr₀, by simp [hid₀]⟩, hid₀, ?_⟩
      intro hs
      cases hs
  · intro r hr q hq hne hkr hkq hlr hlq hhr hhq
    rcases hmoved r hr with ⟨r₁, hr₁, hrid, hrkind, hrm, hrhold⟩
    rcases hmoved q hq with ⟨q₁, hq₁, hqid, hqkind, hqm, hqhold⟩
    have hcongr : (db.moveRun id .pending .launching).portsCollide r q = db.portsCollide r₁ q₁ :=
      portsCollide_congr (fun _ => rfl) hrm.symm hqm.symm
    rw [hcongr]
    rw [launches_launch] at hlr hlq
    have hlaunched : ∀ j, j ≠ id → j ∈ db.launches ++ [id] → j ∈ db.launches := by
      intro j hj hmem
      rcases List.mem_append.mp hmem with hold | hnew
      · exact hold
      · exact absurd (List.mem_singleton.mp hnew) hj
    by_cases hr' : r.id = id
    · have hq' : q.id ≠ id := fun hq' => hne (hr'.trans hq'.symm)
      have hsame : db.portsCollide r₁ q₁ = db.portsCollide r₀ q₁ :=
        portsCollide_congr (fun _ => rfl) (hown r₁ hr₁ (hrid.trans hr')) rfl
      rw [hsame]
      exact hblocks q₁ hq₁ (hqid ▸ hq') (hqkind ▸ hkq) (hqid ▸ hlaunched q.id hq' hlq) (hqhold hhq hq')
    · by_cases hq' : q.id = id
      · have hsame : db.portsCollide q₁ r₁ = db.portsCollide r₀ r₁ :=
          portsCollide_congr (fun _ => rfl) (hown q₁ hq₁ (hqid.trans hq')) rfl
        rw [Db.portsCollide_comm, hsame]
        exact hblocks r₁ hr₁ (hrid ▸ hr') (hrkind ▸ hkr) (hrid ▸ hlaunched r.id hr' hlr) (hrhold hhr hr')
      · exact h.apart r₁ hr₁ q₁ hq₁ (by rw [hrid, hqid]; exact hne) (hrkind ▸ hkr) (hqkind ▸ hkq)
          (hrid ▸ hlaunched r.id hr' hlr) (hqid ▸ hlaunched q.id hq' hlq) (hrhold hhr hr') (hqhold hhq hq')

theorem PortExclusive.place {db : Db} (h : PortExclusive db) (row : Run) :
    PortExclusive { db with runs := db.runs.insert fun id => { row with id := id } } where
  known := by
    intro id hid
    rcases h.known id hid with ⟨r, hr, hrid, hpast⟩
    exact ⟨r, List.mem_append_left _ hr, hrid, hpast⟩
  apart := by
    -- a run that was just placed was never launched
    have hold : ∀ r ∈ db.runs.rows ++ [{ row with id := db.runs.nextKey }], r.id ∈ db.launches →
        r ∈ db.runs.rows := by
      intro r hr hlaunched
      rcases List.mem_append.mp hr with hr | hr
      · exact hr
      · rcases h.known r.id hlaunched with ⟨q, hq, hqid, -⟩
        rw [List.mem_singleton.mp hr] at hqid
        exact absurd hqid (Nat.ne_of_lt (Table.key_lt_nextKey hq))
    intro r hr q hq hne hkr hkq hlr hlq
    exact h.apart r (hold r hr hlr) q (hold q hq hlq) hne hkr hkq hlr hlq

theorem PortStep.exclusive {db db' : Db} (h : PortExclusive db) (hstep : PortStep db db') :
    PortExclusive db' := by
  cases hstep with
  | place row _ => exact h.place row
  | advance drivers now o id hlive =>
      rcases advanceOne_launches drivers now o db id with hl | ⟨r, hget, -, -, hfree, hstate⟩
      · exact h.keeps (.of_writes (advanceOne_moves drivers hlive).settles
          (advanceOne_writes drivers now o db id) hl)
      · rw [hstate]
        exact h.launch hget hfree
  | finish drivers now id status error hlive hterm =>
      have hnot : status ≠ .launching := by
        rintro rfl
        cases hterm
      exact h.keeps (.of_writes (finish_settles drivers now hlive status error)
        (finish_writes drivers now db id status error) (finish_launches drivers now db id error hnot))
  | reap drivers clock now id =>
      exact h.keeps (.of_writes (reapTeardown_settles drivers clock now db id)
        (reapTeardown_writes drivers clock now db id) (reapTeardown_launches drivers clock now db id))
  | elsewhere db' hk => exact h.keeps hk

/-- `_advance_runs` is a run of such steps. -/
theorem advanceRuns_portSteps (drivers : RunId → TeardownReplies) (clock : RunId → Time)
    (observed : RunId → Observed) (order : RowOrder RunId) (db : Db) :
    Relation.ReflTransGen PortStep db (advanceRuns drivers clock observed order db).state := by
  have hloop : ∀ (l : List RunId) (d : Db), l.Nodup → (∀ id ∈ l, Finishable d id) →
      Relation.ReflTransGen PortStep d
        (Ran.forEach (fun id db => advanceOne drivers (clock id) (observed id) db id) l d).state := by
    intro l
    induction l with
    | nil =>
        intro d _ _
        exact Relation.ReflTransGen.refl
    | cons id l ih =>
        intro d hnd hl
        rw [List.nodup_cons] at hnd
        have hlive := hl id List.mem_cons_self
        have hmoves : Moves d id (advanceOne drivers (clock id) (observed id) d id) :=
          advanceOne_moves drivers hlive
        rw [Ran.forEach_cons, Ran.andThen_of_returned hmoves.returned]
        refine Relation.ReflTransGen.head (.advance drivers _ _ id hlive) (ih _ hnd.2 ?_)
        intro j hj
        have hne : j ≠ id := by
          rintro rfl
          exact hnd.1 hj
        exact hmoves.finishable hne (hl j (List.mem_cons_of_mem id hj))
  refine hloop _ db (nodup_arranged List.filter_sublist order) ?_
  intro id hid r hr hrid
  rcases List.mem_map.mp ((order.perm _).mem_iff.mp hid) with ⟨q, hq, hqid⟩
  rcases Db.mem_liveRuns.mp hq with ⟨hq, hlive⟩
  left
  rw [Table.eq_of_key_eq hr hq (hrid.trans hqid.symm)]
  exact hlive

/-! ## Nobody waits in a circle -/

/-- With no holder and no earlier run for its claim, a run is not blocked. -/
theorem portBlocked_eq_false {db : Db} {r : Run}
    (hholder : ∀ q ∈ db.runs.rows, q.id ≠ r.id → q.holdsPort = true → db.portsCollide r q = false)
    (hfirst : ∀ q ∈ db.runs.rows, q.kind.notOurs = false → q.status = .pending →
      db.portsCollide r q = true → r.id ≤ q.id) : db.portBlocked r = false := by
  rw [Bool.eq_false_iff]
  intro hblocked
  rcases portBlocked_iff.mp hblocked with ⟨q, hq, hne, hkind, hhold, hwait, hcollide⟩
  by_cases hs : q.status = .pending
  · rcases hwait with hpast | hless
    · exact hpast hs
    · exact absurd (hfirst q hq hkind hs hcollide) (Nat.not_le.mpr hless)
  · have hholds : q.holdsPort = true := by simp [Run.holdsPort, hkind, hs, hhold]
    rw [hholder q hq hne hholds] at hcollide
    cases hcollide

/-- Following who waits for whom ends at a PENDING run that is free to launch, or that waits for a run
past PENDING. -/
theorem wait_ends {db : Db} {r : Run} (hr : r ∈ db.runs.rows) (hs : r.status = .pending)
    (hkind : r.kind.notOurs = false) :
    ∃ q ∈ db.runs.rows, q.status = .pending ∧ q.kind.notOurs = false ∧ q.id ≤ r.id ∧
      (db.portBlocked q = false ∨
        ∃ h ∈ db.runs.rows, h.holdsPort = true ∧ db.portsCollide q h = true) := by
  induction hn : r.id using Nat.strongRecOn generalizing r with
  | ind n ih =>
      by_cases hblocked : db.portBlocked r = true
      · rcases portBlocked_iff.mp hblocked with ⟨q, hq, -, hqkind, hhold, hwait, hcollide⟩
        by_cases hpast : q.status = .pending
        · have hless : q.id < r.id := hwait.resolve_left fun h => h hpast
          rcases ih q.id (hn ▸ hless) hq hpast hqkind rfl with ⟨q', hq', hs', hk', hle, hend⟩
          exact ⟨q', hq', hs', hk', Nat.le_trans hle (hn ▸ Nat.le_of_lt hless), hend⟩
        · have hholds : q.holdsPort = true := by simp [Run.holdsPort, hqkind, hpast, hhold]
          exact ⟨r, hr, hs, hkind, Nat.le_of_eq hn, Or.inr ⟨q, hq, hholds, hcollide⟩⟩
      · exact ⟨r, hr, hs, hkind, Nat.le_of_eq hn, Or.inl (Bool.eq_false_iff.mpr hblocked)⟩

/-- In every state reached, of the runs that were launched and whose claims collide at most one is live
or marked as tearing down; a PENDING run with no holder and no earlier PENDING run for its claim is
not blocked; and no waiting goes in a circle. -/
theorem node_port_exclusive {db db' : Db} (h : PortExclusive db)
    (hrun : Relation.ReflTransGen PortStep db db') :
    (∀ r ∈ db'.runs.rows, ∀ q ∈ db'.runs.rows, r.id ≠ q.id → r.kind.notOurs = false →
      q.kind.notOurs = false → r.id ∈ db'.launches → q.id ∈ db'.launches → r.holding = true →
      q.holding = true → db'.portsCollide r q = false) ∧
    (∀ r ∈ db'.runs.rows, r.status = .pending →
      (∀ q ∈ db'.runs.rows, q.id ≠ r.id → q.holdsPort = true → db'.portsCollide r q = false) →
      (∀ q ∈ db'.runs.rows, q.kind.notOurs = false → q.status = .pending →
        db'.portsCollide r q = true → r.id ≤ q.id) → db'.portBlocked r = false) ∧
    ∀ r ∈ db'.runs.rows, r.status = .pending → r.kind.notOurs = false →
      ∃ q ∈ db'.runs.rows, q.status = .pending ∧ q.kind.notOurs = false ∧ q.id ≤ r.id ∧
        (db'.portBlocked q = false ∨
          ∃ h ∈ db'.runs.rows, h.holdsPort = true ∧ db'.portsCollide q h = true) := by
  have hend : PortExclusive db' := by
    induction hrun with
    | refl => exact h
    | tail _ hstep ih => exact hstep.exclusive ih
  exact ⟨hend.apart, fun r _ _ => portBlocked_eq_false, fun r hr hs hk => wait_ends hr hs hk⟩

/-! ## Three registrations -/

/-- A machine of a cluster with the fixed port 31080. -/
def portMachine (id : MachineId) (server host : String) : Machine where
  id := id
  name := "node-" ++ toString id
  driver := .k8s
  nodePort := some { port := 31080, server := server, host := host }

/-- Machines 1 and 2 are reached on one host, machines 2 and 3 name one API server. -/
def registrations : Db where
  machines := ⟨[portMachine 1 "https://b" "10.1.1.1", portMachine 2 "https://a" "10.1.1.1",
                portMachine 3 "https://a" ""], by simp [portMachine]⟩

/-- A run of a campaign on one of them. -/
def portRun (m : MachineId) : Run where
  id := 0
  campaignId := 1
  candidateId := 1
  machineId := some m
  gpuIndices := [0]

/-- A driver that cannot be reached. -/
def unreachableTeardown : TeardownReplies where
  attach := .raised
  requestStop := .raised
  isGone := .raised
  releaseLeftovers := .raised

/-- Runs 1, 2 and 3 on machines 1, 2 and 3; run 1 is launched. -/
def firstLaunched : Db :=
  (advanceOne (fun _ => cleanTeardown) 5 allWell
    (((registrations.withRun (portRun 1)).withRun (portRun 2)).withRun (portRun 3)) 1).state

/-- Run 2 is then stopped while it waits, and its driver cannot be reached. -/
def secondStopped : Db :=
  (finish (fun _ => unreachableTeardown) 6 firstLaunched 2 .killed userStopError).state

theorem finishable_of_all {db : Db} {id : RunId}
    (h : (db.runs.rows.all fun r => r.id != id || r.live || r.kind.notOurs) = true) :
    Finishable db id := by
  intro r hr hid
  have := List.all_eq_true.mp h r hr
  simpa [hid] using this

theorem firstLaunched_reached : Relation.ReflTransGen PortStep registrations firstLaunched := by
  refine (((Relation.ReflTransGen.refl.tail (.place (portRun 1) (Or.inl rfl))).tail
    (.place (portRun 2) (Or.inl rfl))).tail (.place (portRun 3) (Or.inl rfl))).tail ?_
  exact .advance (fun _ => cleanTeardown) 5 allWell 1 (finishable_of_all (by decide))

theorem secondStopped_reached : Relation.ReflTransGen PortStep registrations secondStopped :=
  firstLaunched_reached.tail (.finish (fun _ => unreachableTeardown) 6 2 .killed userStopError
    (finishable_of_all (by decide)) rfl)

/-- Run 2, stopped while it waited for run 1, is past PENDING and not confirmed torn down beside it.
And before that, run 3 had no holder for its claim, but of the PENDING runs that collide with it the
first, run 2, was blocked by run 1. -/
theorem port_waits_across_registrations :
    (Relation.ReflTransGen PortStep registrations secondStopped ∧
      ∃ r ∈ secondStopped.runs.rows, ∃ q ∈ secondStopped.runs.rows, r.id ≠ q.id ∧
        r.holdsPort = true ∧ q.holdsPort = true ∧ secondStopped.portsCollide r q = true) ∧
    (Relation.ReflTransGen PortStep registrations firstLaunched ∧
      ∃ r ∈ firstLaunched.runs.rows, r.status = .pending ∧
        (∀ h ∈ firstLaunched.runs.rows, h.holdsPort = true → firstLaunched.portsCollide r h = false) ∧
        ∃ q ∈ firstLaunched.runs.rows, q.status = .pending ∧ firstLaunched.portsCollide r q = true ∧
          (∀ q' ∈ firstLaunched.runs.rows, q'.status = .pending →
            firstLaunched.portsCollide r q' = true → q.id ≤ q'.id) ∧
          firstLaunched.portBlocked q = true) :=
  ⟨⟨secondStopped_reached, by decide⟩, ⟨firstLaunched_reached, by decide⟩⟩

theorem registrations_exclusive : PortExclusive registrations where
  known := by
    intro id hid
    cases hid
  apart := by
    intro r hr
    cases hr

/-- In that state run 2 waits for run 1, which is past PENDING. -/
theorem node_port_exclusive_registrations :
    ∃ q ∈ firstLaunched.runs.rows, q.status = .pending ∧ q.kind.notOurs = false ∧ q.id ≤ 3 ∧
      (firstLaunched.portBlocked q = false ∨
        ∃ h ∈ firstLaunched.runs.rows, h.holdsPort = true ∧ firstLaunched.portsCollide q h = true) :=
  (node_port_exclusive registrations_exclusive firstLaunched_reached).2.2 { portRun 3 with id := 3 }
    (by decide) rfl rfl

end AutoTune
