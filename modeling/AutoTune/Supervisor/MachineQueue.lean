import AutoTune.Lib.Trace
import AutoTune.Policy.Allocation
import AutoTune.Supervisor.CardExclusivity
import Mathlib.Order.WellFounded
import Mathlib.Data.Prod.Lex

/-!
# The machine queue

One pass of `_schedule`: everything waiting to run, in ticket order, one run per turn. A waiter that
is not served holds the machines it found busy for the rest of the pass, and, when its runs take a
cluster's fixed NodePort, every machine sharing that port. A campaign that places a run goes to the
back. What plugins add to the queue is a parameter.
-/

namespace AutoTune

open Lib

/-! ## Tickets -/

/-- A row of `queue_tickets`, as far as it orders the queue. -/
structure Ticket where
  id : Nat
  arrival : Time
  rank : Int
  ident : Int
deriving DecidableEq, Repr

/-- The order of the queue: arrival, rank, ident, and the ticket's own id. -/
def Ticket.before (a b : Ticket) : Bool :=
  decide (a.arrival < b.arrival) || (a.arrival == b.arrival &&
    (decide (a.rank < b.rank) || (a.rank == b.rank &&
      (decide (a.ident < b.ident) || (a.ident == b.ident && decide (a.id ≤ b.id))))))

/-- Who waits: a campaign with a run to place, something of a plugin's, a session without a machine. -/
inductive Waiter where
  | campaign (id : CampaignId)
  | plugin (ident : Nat)
  | session (id : SessionId)
deriving DecidableEq, Repr

/-- One waiter in one pass, with the ticket that orders it. -/
structure Entry where
  ticket : Ticket
  waiter : Waiter
deriving DecidableEq, Repr

/-- A session's reservation takes cards only; its own launches queue for the port as runs. -/
def Entry.needsPort (e : Entry) : Bool :=
  match e.waiter with
  | .session _ => false
  | _ => true

/-- `TicketBook.order`. -/
def inTicketOrder (entries : List Entry) : List Entry :=
  entries.insertionSort fun a b => a.ticket.before b.ticket = true

/-! ## Plugins -/

/-- How a plugin's `try_admit` ends: what it wrote to the platform's rows and to its own, its answer,
the machines it found busy, and whether it raised. -/
structure PluginTurn (π : Type) where
  db : Db
  rows : π
  admitted : Bool
  busy : List MachineId
  raised : Bool := false

/-- The enabled plugins, over rows of their own. -/
structure Plugins (π : Type) where
  reservations : π → Db → Reservations
  tryAdmit : (waiter : Nat) → (blocked : List MachineId) → π → Db → PluginTurn π

/-- A run that was not there before has a node on this machine. -/
def PlacedOn (db db' : Db) (m : MachineId) : Prop :=
  ∃ r ∈ db'.runs.rows, r.onMachine m = true ∧ ∀ r₀ ∈ db.runs.rows, r₀.id ≠ r.id

/-- A session that was not on this machine before is. -/
def SessionOn (db db' : Db) (m : MachineId) : Prop :=
  ∃ s ∈ db'.sessions.rows, s.machineId = some m ∧
    ∀ s₀ ∈ db.sessions.rows, s₀.id = s.id → s₀.machineId ≠ some m

/-- What `QueueWaiter` asks of a plugin: `blocked` are machines an older waiter holds, and a waiter
takes none of them. -/
def Plugins.KeepOffBlocked {π : Type} (p : Plugins π) : Prop :=
  ∀ waiter blocked rows db, ∀ m ∈ blocked,
    let t := p.tryAdmit waiter blocked rows db
    ¬ PlacedOn db t.db m ∧ ¬ SessionOn db t.db m ∧
      ∀ r ∈ p.reservations t.rows t.db m, r ∈ p.reservations rows db m

/-! ## `_maybe_finish_campaign` -/

/-- A candidate `_schedule_confirmations` or `_schedule_verification` adds. -/
structure QueuedConfig where
  cards : Nat
  worldSize : Nat
  inPlaceBaseline : Bool := false
deriving DecidableEq, Repr

/-- What `_maybe_finish_campaign` finds: whether the plan has yet to run, the repeats and the
verifications the ranking asks for, and whether the dataset is still being built. -/
structure FinishFinds where
  notPlannedYet : Bool := false
  confirmations : List QueuedConfig := []
  waitingOnDataset : Bool := false
  verifications : List QueuedConfig := []
deriving DecidableEq, Repr

/-- Queue these configs as VALID candidates. -/
def Db.queueConfigs (db : Db) (c : CampaignId) (verify : Bool) (configs : List QueuedConfig) : Db :=
  configs.foldl (fun db q =>
    { db with
      candidates := db.candidates.insert fun id =>
        { id := id, campaignId := c, status := .valid, inPlaceBaseline := q.inPlaceBaseline,
          cards := q.cards, worldSize := q.worldSize, verify := verify } }) db

/-- `_maybe_finish_campaign`. -/
def maybeFinishCampaign (f : FinishFinds) (c : CampaignId) (db : Db) : Db :=
  let pending := db.candidates.rows.any fun k =>
    k.campaignId == c && (k.status == .pending || k.status == .valid)
  let live := db.runs.rows.any fun r => r.campaignId == c && r.live
  if pending || live then db
  else if f.notPlannedYet then db
  else if !f.confirmations.isEmpty then db.queueConfigs c false f.confirmations
  else if f.waitingOnDataset then db
  else if !f.verifications.isEmpty then db.queueConfigs c true f.verifications
  else db.setCampaign c fun c => { c with status := .done }

/-! ## A turn -/

/-- What a turn finds outside the rows: the stages the window still has room for, what a session's
policy asks of a machine, and what an idle campaign comes to. -/
structure TurnFinds where
  stageAllowed : Bool → Bool := fun _ => true
  needs : PolicyNeeds := {}
  finish : FinishFinds := {}

/-- How a waiter's turn ends. -/
structure Attempt (π : Type) where
  db : Db
  rows : π
  admitted : Bool
  busy : List MachineId

/-- Did `try_reserve` find a machine? -/
def reserves (held : Reservations) (blocked : List MachineId) (needs : PolicyNeeds)
    (session : SessionId) (db : Db) : Bool :=
  ((db.sessions.get? session).bind db.waitingFor).any fun c =>
    (firstAllocation held blocked needs db c (db.usableMachines c) []).1.isSome

/-- `port_siblings`: the machines whose runs take the same fixed NodePort as one of these. -/
def Db.portSiblings (db : Db) (ids : List MachineId) : List MachineId :=
  let wanted := (db.machines.rows.filter fun m => ids.contains m.id).filterMap claimOf
  (db.machines.rows.filter fun m =>
    (claimOf m).any fun claim => wanted.any claim.collides).map Machine.id

/-- What an unserved waiter holds: the machines it reported busy and, when it needs the port, the
machines that share it. -/
def Db.heldFor (db : Db) (e : Entry) (busy : List MachineId) : List MachineId :=
  if e.needsPort then busy ++ db.portSiblings busy else busy

section

variable {π : Type} (p : Plugins π)

/-- A waiter's turn. A plugin's runs in a savepoint: one that raised wrote nothing. -/
def attempt (f : TurnFinds) (blocked : List MachineId) (w : Waiter) (rows : π) (db : Db) : Attempt π :=
  match w with
  | .campaign id =>
      match db.campaigns.get? id with
      | none => ⟨db, rows, false, []⟩
      | some c =>
          let started := startOne (p.reservations rows db) blocked f.stageAllowed db c
          if started.pending then ⟨started.db, rows, started.placed, started.busy⟩
          else ⟨maybeFinishCampaign f.finish c.id started.db, rows, false, started.busy⟩
  | .plugin i =>
      let t := p.tryAdmit i blocked rows db
      if t.raised then ⟨db, rows, false, t.busy⟩ else ⟨t.db, t.rows, t.admitted, t.busy⟩
  | .session id =>
      let r := tryReserve (p.reservations rows db) blocked f.needs id db
      ⟨r.1, rows, reserves (p.reservations rows db) blocked f.needs id db, r.2⟩

/-- An unserved waiter, what it found busy and what it holds. -/
structure Unserved where
  ticket : Ticket
  busy : List MachineId
  held : List MachineId
deriving DecidableEq, Repr

/-- The pass: the rows, the queue, the machines held so far, the tickets served, and the waiters that
were turned away without one. -/
structure Pass (π : Type) where
  db : Db
  rows : π
  queue : List Entry
  blocked : List MachineId := []
  served : List Nat := []
  unserved : List Unserved := []

/-- The pass as it starts. -/
def Pass.start (db : Db) (rows : π) (entries : List Entry) : Pass π :=
  { db := db, rows := rows, queue := inTicketOrder entries }

/-- What the waiter at the head of the queue comes to. -/
def Pass.attempted (s : Pass π) (f : TurnFinds) (e : Entry) : Attempt π :=
  attempt p f s.blocked e.waiter s.rows s.db

/-- What it holds if it is not served. -/
def Pass.held (s : Pass π) (f : TurnFinds) (e : Entry) : List MachineId :=
  (s.attempted p f e).db.heldFor e (s.attempted p f e).busy

/-- One turn of the loop. -/
def Pass.turn (s : Pass π) (f : TurnFinds) : Pass π :=
  match s.queue with
  | [] => s
  | e :: rest =>
      let a := s.attempted p f e
      if a.admitted then
        { s with
          db := a.db
          rows := a.rows
          -- its next run waits behind everyone already waiting
          queue := match e.waiter with
            | .campaign _ => rest ++ [e]
            | _ => rest
          served := e.ticket.id :: s.served }
      else
        { s with
          db := a.db
          rows := a.rows
          queue := rest
          blocked := s.blocked ++ s.held p f e
          unserved := if s.served.contains e.ticket.id then s.unserved
            else s.unserved ++ [⟨e.ticket, a.busy, s.held p f e⟩] }

/-- The waiter whose turn it is takes this machine: it is placed on it, or reserves it. -/
def Pass.Takes (s : Pass π) (f : TurnFinds) (e : Entry) (m : MachineId) : Prop :=
  PlacedOn s.db (s.turn p f).db m ∨ SessionOn s.db (s.turn p f).db m ∨
    ∃ i, e.waiter = .plugin i ∧
      ∃ r ∈ p.reservations (s.turn p f).rows (s.turn p f).db m, r ∉ p.reservations s.rows s.db m

end

/-! ## What a turn can take -/

theorem not_placedOn_of_runs {db db' : Db} (h : db'.runs = db.runs) (m : MachineId) :
    ¬ PlacedOn db db' m := by
  rintro ⟨r, hr, -, hnew⟩
  rw [h] at hr
  exact hnew r hr rfl

theorem not_sessionOn_of_sessions {db db' : Db} (h : db'.sessions = db.sessions) (m : MachineId) :
    ¬ SessionOn db db' m := by
  rintro ⟨s, hs, hm, hnew⟩
  rw [h] at hs
  exact hnew s hs rfl hm

/-- The only new run is on the machines of the plan. -/
theorem Created.placedOn {db db' : Db} {c : Campaign} {plan : List (MachineId × List Nat)} {r : Run}
    (h : Created db db' c plan r) {m : MachineId} (hm : PlacedOn db db' m) : ∃ q ∈ plan, q.1 = m := by
  rcases hm with ⟨r', hr', hon, hnew⟩
  rw [h.rows] at hr'
  rcases List.mem_append.mp hr' with hold | hr'
  · exact absurd rfl (hnew r' hold)
  · rw [List.mem_singleton.mp hr', Run.onMachine, h.nodes] at hon
    simpa [planNodes] using hon

theorem queueConfigs_frame (db : Db) (c : CampaignId) (verify : Bool) (configs : List QueuedConfig) :
    ∃ t, db.queueConfigs c verify configs = { db with candidates := t } := by
  unfold Db.queueConfigs
  induction configs generalizing db with
  | nil => exact ⟨db.candidates, rfl⟩
  | cons q configs ih => exact ih _

theorem maybeFinishCampaign_frame (f : FinishFinds) (c : CampaignId) (db : Db) :
    (maybeFinishCampaign f c db).runs = db.runs ∧
      (maybeFinishCampaign f c db).sessions = db.sessions := by
  have hqueue : ∀ verify configs, (db.queueConfigs c verify configs).runs = db.runs ∧
      (db.queueConfigs c verify configs).sessions = db.sessions := by
    intro verify configs
    rcases queueConfigs_frame db c verify configs with ⟨t, ht⟩
    rw [ht]
    exact ⟨rfl, rfl⟩
  unfold maybeFinishCampaign
  dsimp only
  split
  · exact ⟨rfl, rfl⟩
  split
  · exact ⟨rfl, rfl⟩
  split
  · exact hqueue false f.confirmations
  split
  · exact ⟨rfl, rfl⟩
  split
  · exact hqueue true f.verifications
  · exact ⟨rfl, rfl⟩

/-- A campaign places only on machines that are open to it, and moves no session. -/
theorem startOne_takes (held : Reservations) (blocked : List MachineId) (stageAllowed : Bool → Bool)
    (db : Db) (c : Campaign) :
    (∀ m, PlacedOn db (startOne held blocked stageAllowed db c).db m → Unblocked held blocked c m) ∧
      (startOne held blocked stageAllowed db c).db.sessions = db.sessions := by
  rcases retireInPlace_frame db (db.validCandidates c) with ⟨t, ht⟩
  rcases startOne_spec held blocked stageAllowed db c with
    ⟨-, hdb⟩ | ⟨-, plan, port, dist, k, -, -, hplan, hopen, hdb⟩
  · rw [hdb, ht]
    exact ⟨fun m hm => absurd hm (not_placedOn_of_runs rfl m), rfl⟩
  · rw [ht] at hdb
    rcases createRun_created { db with candidates := t } c k.id hplan port dist with ⟨r, hr, -⟩
    rw [hdb]
    refine ⟨?_, hr.sessions⟩
    intro m hm
    rcases hr.placedOn hm with ⟨q, hq, rfl⟩
    exact hopen q hq

/-- A session takes a machine nobody older holds, and no run. -/
theorem tryReserve_takes (held : Reservations) (blocked : List MachineId) (needs : PolicyNeeds)
    (session : SessionId) (db : Db) :
    (∀ m, SessionOn db (tryReserve held blocked needs session db).1 m → m ∉ blocked) ∧
      (tryReserve held blocked needs session db).1.runs = db.runs := by
  rcases tryReserve_cases held blocked needs session db with
    hsame | ⟨s, c, target, cards, ports, -, -, htarget, -, hdb⟩
  · rw [hsame]
    exact ⟨fun m hm => absurd hm (not_sessionOn_of_sessions rfl m), rfl⟩
  · rw [hdb]
    refine ⟨?_, rfl⟩
    rintro m ⟨s', hs', hm, hnew⟩
    rcases Db.mem_setSession.mp hs' with ⟨s₀, hs₀, rfl⟩
    by_cases hid : s₀.id = session
    · rw [if_pos hid] at hm
      have hpred := List.find?_some htarget
      simp only [Bool.and_eq_true, Bool.not_eq_true'] at hpred
      have : target.id = m := Option.some.inj hm
      subst this
      exact fun hin => Bool.eq_false_iff.mp hpred.1.2 (List.contains_iff_mem.mpr hin)
    · rw [if_neg hid] at hm hnew
      exact absurd hm (hnew s₀ hs₀ rfl)

section

variable {π : Type} {p : Plugins π}

/-- Whose turn it is takes no machine that is held, unless it is a campaign admitted to it. -/
theorem Pass.takes_unblocked (hp : p.KeepOffBlocked) {s : Pass π} {f : TurnFinds} {e : Entry}
    {rest : List Entry} (hq : s.queue = e :: rest) {m : MachineId} (htakes : s.Takes p f e m)
    (hm : m ∈ s.blocked) :
    ∃ c, e.waiter = .campaign c ∧ holds (p.reservations s.rows s.db) m c = true := by
  have hdb : (s.turn p f).db = (s.attempted p f e).db ∧
      (s.turn p f).rows = (s.attempted p f e).rows := by
    unfold Pass.turn
    rw [hq]
    dsimp only
    split <;> exact ⟨rfl, rfl⟩
  unfold Pass.Takes at htakes
  rw [hdb.1, hdb.2] at htakes
  cases hw : e.waiter with
  | campaign id =>
      refine ⟨id, rfl, ?_⟩
      simp only [Pass.attempted, attempt, hw] at htakes
      cases hget : s.db.campaigns.get? id with
      | none =>
          simp only [hget] at htakes
          rcases htakes with hplaced | hsession | ⟨i, hi, -⟩
          · exact absurd hplaced (not_placedOn_of_runs rfl m)
          · exact absurd hsession (not_sessionOn_of_sessions rfl m)
          · cases hi
      | some c =>
          have hid : c.id = id := (Table.get?_eq_some_iff.mp hget).2
          rcases startOne_takes (p.reservations s.rows s.db) s.blocked f.stageAllowed s.db c with
            ⟨hopen, hsessions⟩
          simp only [hget] at htakes
          -- finishing the campaign adds neither a run nor a session
          have hframe := maybeFinishCampaign_frame f.finish c.id
            (startOne (p.reservations s.rows s.db) s.blocked f.stageAllowed s.db c).db
          rcases htakes with hplaced | hsession | ⟨i, hi, -⟩
          · rw [← hid]
            refine hopen m ?_ hm
            split at hplaced
            · exact hplaced
            · simpa only [PlacedOn, hframe.1] using hplaced
          · split at hsession
            · exact absurd hsession (not_sessionOn_of_sessions hsessions m)
            · exact absurd hsession (not_sessionOn_of_sessions (hframe.2.trans hsessions) m)
          · cases hi
  | plugin i =>
      rcases hp i s.blocked s.rows s.db m hm with ⟨hno, hno', hkeep⟩
      simp only [Pass.attempted, attempt, hw] at htakes
      split at htakes
      · rcases htakes with hplaced | hsession | ⟨-, -, r, hr, hnew⟩
        · exact absurd hplaced (not_placedOn_of_runs rfl m)
        · exact absurd hsession (not_sessionOn_of_sessions rfl m)
        · exact absurd hr hnew
      · rcases htakes with hplaced | hsession | ⟨-, -, r, hr, hnew⟩
        · exact absurd hplaced hno
        · exact absurd hsession hno'
        · exact absurd (hkeep r hr) hnew
  | session id =>
      rcases tryReserve_takes (p.reservations s.rows s.db) s.blocked f.needs id s.db with
        ⟨hoff, hruns⟩
      simp only [Pass.attempted, attempt, hw] at htakes
      rcases htakes with hplaced | hsession | ⟨i, hi, -⟩
      · exact absurd hplaced (not_placedOn_of_runs hruns m)
      · exact absurd hm (hoff m hsession)
      · cases hi

/-- What is held stays held. -/
theorem Pass.blocked_mono (s : Pass π) (f : TurnFinds) (m : MachineId) (hm : m ∈ s.blocked) :
    m ∈ (s.turn p f).blocked := by
  unfold Pass.turn
  split
  · exact hm
  · dsimp only
    split
    · exact hm
    · exact List.mem_append_left _ hm

/-- A waiter that is not served holds its machines from the next turn on. -/
theorem Pass.held_blocked {s : Pass π} {f : TurnFinds} {e : Entry} {rest : List Entry}
    (hq : s.queue = e :: rest) (hnot : (s.attempted p f e).admitted = false) {m : MachineId}
    (hm : m ∈ s.held p f e) : m ∈ (s.turn p f).blocked := by
  unfold Pass.turn
  rw [hq]
  dsimp only
  rw [if_neg (by simp [hnot])]
  exact List.mem_append_right _ hm

/-! ## The pass ends -/

/-- The candidates waiting to be placed. -/
def Db.validCount (db : Db) : Nat := db.candidates.rows.countP fun k => k.status == .valid

theorem validCount_setCandidate_le {db : Db} {id : CandidateId} {f : Candidate → Candidate}
    {hf : ∀ k, (f k).id = k.id} (hvalid : ∀ k, (f k).status ≠ .valid) :
    (db.setCandidate id f hf).validCount ≤ db.validCount :=
  Table.countP_modify_le hf fun k => by simpa using hvalid k

theorem validCount_setCandidate_lt {db : Db} {f : Candidate → Candidate} {k : Candidate}
    {hf : ∀ k, (f k).id = k.id} (hvalid : ∀ k, (f k).status ≠ .valid)
    (hk : k ∈ db.candidates.rows) (hstatus : k.status = .valid) :
    (db.setCandidate k.id f hf).validCount < db.validCount :=
  Table.countP_modify_lt hf (fun k => by simpa using hvalid k) hk rfl (by simp [hstatus])

theorem validCount_retireInPlace (db : Db) (pending : List Candidate) :
    (retireInPlace db pending).validCount ≤ db.validCount := by
  unfold retireInPlace
  induction pending.filter Candidate.inPlaceBaseline generalizing db with
  | nil => exact le_refl _
  | cons k l ih =>
      rw [List.foldl_cons]
      exact (ih _).trans (validCount_setCandidate_le fun _ h => by cases h)

/-- A candidate that is to be launched is not retired. -/
theorem mem_retireInPlace {db : Db} {pending : List Candidate}
    (hsub : ∀ k ∈ pending, k ∈ db.candidates.rows) {k : Candidate} (hk : k ∈ db.candidates.rows) (hplain : k.inPlaceBaseline = false) :
    k ∈ (retireInPlace db pending).candidates.rows := by
  have hother : ∀ k' ∈ pending.filter Candidate.inPlaceBaseline, k'.id ≠ k.id := by
    intro k' hk' hid
    rcases List.mem_filter.mp hk' with ⟨hmem, hbase⟩
    have : k' = k := Table.eq_of_key_eq (hsub k' hmem) hk hid
    rw [this, hplain] at hbase
    cases hbase
  have hloop : ∀ (l : List Candidate) (d : Db), k ∈ d.candidates.rows → (∀ k' ∈ l, k'.id ≠ k.id) →
      k ∈ (l.foldl (fun db k => db.setCandidate k.id fun k => { k with status := .exhausted })
        d).candidates.rows := by
    intro l
    induction l with
    | nil =>
        intro d hd _
        exact hd
    | cons k' l ih =>
        intro d hd hl
        refine ih _ ?_ fun k'' hk'' => hl k'' (List.mem_cons_of_mem k' hk'')
        exact Db.mem_setCandidate.mpr ⟨k, hd, by rw [if_neg (hl k' List.mem_cons_self).symm]⟩
  exact hloop _ db hk hother

theorem reserveMachines_candidates (db : Db) (plan : List (MachineId × List Nat)) :
    (reserveMachines db plan).candidates = db.candidates := by
  induction plan generalizing db with
  | nil => rfl
  | cons q plan ih => exact ih _

/-- A placed run uses up the candidate it was placed for. -/
theorem validCount_createRun {db : Db} {c : Campaign} {k : Candidate} (hk : k ∈ db.candidates.rows)
    (hvalid : k.status = .valid) {plan : List (MachineId × List Nat)} (hplan : plan ≠ [])
    (port dist : Nat) : (createRun db c k.id plan port dist).validCount < db.validCount := by
  cases plan with
  | nil => exact absurd rfl hplan
  | cons q plan =>
      have hcands := reserveMachines_candidates db (q :: plan)
      have hsame : (reserveMachines db (q :: plan)).validCount = db.validCount := by
        rw [Db.validCount, hcands, Db.validCount]
      rw [← hsame]
      have hless : ((reserveMachines db (q :: plan)).setCandidate k.id fun k =>
          { k with status := .exhausted }).validCount < (reserveMachines db (q :: plan)).validCount :=
        validCount_setCandidate_lt (fun _ h => by cases h) (by rw [hcands]; exact hk) hvalid
      exact hless

theorem startOne_validCount {held : Reservations} {blocked : List MachineId}
    {stageAllowed : Bool → Bool} {db : Db} {c : Campaign}
    (h : (startOne held blocked stageAllowed db c).placed = true) :
    (startOne held blocked stageAllowed db c).db.validCount < db.validCount := by
  rcases startOne_spec held blocked stageAllowed db c with
    ⟨hno, -⟩ | ⟨-, plan, port, dist, k, hk, hplain, hplan, -, hdb⟩
  · rw [h] at hno
    cases hno
  · rcases List.mem_filter.mp hk with ⟨hrow, hvalid⟩
    simp only [Bool.and_eq_true, beq_iff_eq] at hvalid
    have hsub : ∀ k ∈ db.validCandidates c, k ∈ db.candidates.rows :=
      fun k hk => (List.mem_filter.mp hk).1
    have hstill := mem_retireInPlace hsub hrow hplain
    rw [hdb]
    exact (validCount_createRun hstill hvalid.2 hplan port dist).trans_le
      (validCount_retireInPlace db (db.validCandidates c))

/-- How far the pass is from its end: the waiters left, then the candidates left. Only a campaign that
placed a run keeps its place in the queue, and it has one candidate less. -/
def Pass.left (s : Pass π) : Nat × Nat := (s.queue.length, s.db.validCount)

theorem Pass.turn_left (s : Pass π) (f : TurnFinds) (hq : s.queue ≠ []) :
    Prod.Lex (· < ·) (· < ·) (s.turn p f).left s.left := by
  rcases List.exists_cons_of_ne_nil hq with ⟨e, rest, hqueue⟩
  unfold Pass.left Pass.turn
  rw [hqueue]
  dsimp only
  split
  · rename_i hadmitted
    cases hw : e.waiter with
    | plugin i => exact Prod.Lex.left _ _ (by simp)
    | session id => exact Prod.Lex.left _ _ (by simp)
    | campaign id =>
        have hlen : (rest ++ [e]).length = (e :: rest).length := by simp
        simp only [hlen]
        apply Prod.Lex.right
        simp only [Pass.attempted, attempt, hw] at hadmitted ⊢
        cases hget : s.db.campaigns.get? id with
        | none => simp [hget] at hadmitted
        | some c =>
            simp only [hget] at hadmitted ⊢
            split at hadmitted
            · rename_i hpending
              rw [if_pos hpending]
              exact startOne_validCount hadmitted
            · cases hadmitted
  · exact Prod.Lex.left _ _ (by simp)

/-- The pass after `n` turns. -/
def passAfter (p : Plugins π) (finds : Nat → TurnFinds) (db : Db) (rows : π) (entries : List Entry)
    (n : Nat) : Pass π :=
  turns (Pass.turn p) finds (Pass.start db rows entries) n

/-- No queue-jumping within one pass, and the pass ends: what a waiter that was turned away holds,
nobody after it is placed on or reserves, except a campaign admitted to that machine. -/
theorem no_queue_jumping (hp : p.KeepOffBlocked) (finds : Nat → TurnFinds) (db : Db) (rows : π)
    (entries : List Entry) :
    (∀ i j, i < j → ∀ e e' rest rest',
      (passAfter p finds db rows entries i).queue = e :: rest →
      (passAfter p finds db rows entries j).queue = e' :: rest' →
      ((passAfter p finds db rows entries i).attempted p (finds i) e).admitted = false →
      ∀ m ∈ (passAfter p finds db rows entries i).held p (finds i) e,
        (passAfter p finds db rows entries j).Takes p (finds j) e' m →
        ∃ c, e'.waiter = .campaign c ∧
          holds (p.reservations (passAfter p finds db rows entries j).rows
            (passAfter p finds db rows entries j).db) m c = true) ∧
      ∃ n, (passAfter p finds db rows entries n).queue = [] := by
  constructor
  · intro i j hij e e' rest rest' hq hq' hnot m hm htakes
    have hnext : m ∈ (passAfter p finds db rows entries (i + 1)).blocked :=
      Pass.held_blocked hq hnot hm
    have hlater : m ∈ (passAfter p finds db rows entries j).blocked :=
      turns_mono (S := fun (s : Pass π) m => m ∈ s.blocked) Pass.blocked_mono finds
        (Pass.start db rows entries) hij hnext
    exact Pass.takes_unblocked hp hq' htakes hlater
  · exact turns_end (WellFounded.prod_lex wellFounded_lt wellFounded_lt) Pass.left
      (fun s => s.queue = []) (fun s f hq => Pass.turn_left s f hq) finds (Pass.start db rows entries)

end

/-- A plugin's request that could use machine 1 once it frees up. -/
def olderRequest : Plugins Unit where
  reservations _ _ _ := []
  tryAdmit _ _ rows db := ⟨db, rows, false, [1], false⟩

/-- A free machine, and a campaign with one config to run on it. -/
def freeMachine : Db where
  machines := .single { id := 1, name := "node-1", gpuCount := 2, state := .available }
  campaigns := .single { id := 1, status := .active, shareMachine := false }
  candidates := .single { id := 1, campaignId := 1, status := .valid, cards := 2, worldSize := 2 }

theorem olderRequest_keepsOff : olderRequest.KeepOffBlocked := by
  intro waiter blocked rows db m _
  exact ⟨not_placedOn_of_runs rfl m, not_sessionOn_of_sessions rfl m, fun r hr => hr⟩

/-- The request comes first and holds machine 1, so the campaign that would fit on it waits. -/
theorem no_queue_jumping_behind_request :
    let younger : Entry := ⟨⟨1, 50, 1, 1⟩, .campaign 1⟩
    let older : Entry := ⟨⟨2, 20, 0, 0⟩, .plugin 0⟩
    let pass := passAfter olderRequest (fun _ => {}) freeMachine () [younger, older]
    (pass 0).queue = [older, younger] ∧ (pass 1).queue = [younger] ∧
      ¬ (pass 1).Takes olderRequest {} younger 1 := by
  refine ⟨by decide, by decide, ?_⟩
  intro htakes
  have hjump := (no_queue_jumping olderRequest_keepsOff (fun _ => {}) freeMachine ()
    [⟨⟨1, 50, 1, 1⟩, .campaign 1⟩, ⟨⟨2, 20, 0, 0⟩, .plugin 0⟩]).1 0 1 (by decide)
    ⟨⟨2, 20, 0, 0⟩, .plugin 0⟩ ⟨⟨1, 50, 1, 1⟩, .campaign 1⟩ [⟨⟨1, 50, 1, 1⟩, .campaign 1⟩] []
    (by decide) (by decide) (by decide) 1 (by decide) htakes
  rcases hjump with ⟨c, -, hholds⟩
  cases hholds

end AutoTune
