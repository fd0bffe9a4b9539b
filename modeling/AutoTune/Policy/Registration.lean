import AutoTune.Lib.RowLock
import AutoTune.Policy.Verdicts

/-!
# Declaring contenders, any number at a time

A `PUT /contenders` checks that the session explores, judges its entries, and only then takes the
session's row to read the registered contenders and replace them. Whatever the worker does to the
session between the check and the lock is not asked about again.
-/

namespace AutoTune

open Lib

/-! ## Judging the entries -/

/-- One entry of a `PUT /contenders`. `validated` is what `_validated` makes of its config: the hash of
the canonical config and the spec that holds it, or the detail of the refusal. -/
structure ContenderIn where
  rank : Nat
  validated : Except String (String × LaunchSpec)
  evidence : String := ""
  trialIds : List Nat := []

/-- The claim an accepted entry makes. -/
def ContenderIn.claim (entry : ContenderIn) (configHash : String) (spec : LaunchSpec) : Claim where
  rank := entry.rank
  configHash := configHash
  launchSpec := spec
  evidence := entry.evidence
  trialIds := entry.trialIds

/-- The loop of `put_contenders`: what is accepted, what is refused and why, and the ranks met. -/
structure Judged where
  accepted : List Claim := []
  rejected : List (Nat × String) := []
  seenRanks : List Nat := []

def Judged.reject (j : Judged) (rank : Nat) (reason : String) : Judged :=
  { j with rejected := j.rejected ++ [(rank, reason)] }

/-- One entry: its rank is new, there is room under the cap, and its config is valid. -/
def judgeEntry (maxContenders : Nat) (j : Judged) (entry : ContenderIn) : Judged :=
  if j.seenRanks.contains entry.rank then j.reject entry.rank "duplicate rank"
  else
    let j := { j with seenRanks := entry.rank :: j.seenRanks }
    if maxContenders ≤ j.accepted.length then
      j.reject entry.rank ("over the campaign cap of " ++ toString maxContenders)
    else
      match entry.validated with
      | .error detail => j.reject entry.rank detail
      | .ok (configHash, spec) => { j with accepted := j.accepted ++ [entry.claim configHash spec] }

/-- The entries that are read: twice as many as may be accepted. -/
def readEntries (maxContenders : Nat) (entries : List ContenderIn) : List ContenderIn :=
  entries.take (maxContenders * 2)

def judge (maxContenders : Nat) (entries : List ContenderIn) : Judged :=
  (readEntries maxContenders entries).foldl (judgeEntry maxContenders) {}

/-- Nothing of a list that has entries was accepted: the previous list stands. -/
def allRejected (maxContenders : Nat) (entries : List ContenderIn) : Bool :=
  (judge maxContenders entries).accepted.isEmpty && !entries.isEmpty

/-- What judging has done so far: ranks are accepted once, not more than the cap, and each entry read
is in one of the two lists. -/
structure Judged.Of (maxContenders : Nat) (entries : List ContenderIn) (j : Judged) : Prop where
  ranks : (j.accepted.map Claim.rank).Nodup
  seen : ∀ c ∈ j.accepted, c.rank ∈ j.seenRanks
  bounded : j.accepted.length ≤ maxContenders
  reported : (j.accepted.map Claim.rank ++ j.rejected.map Prod.fst).Perm
    (entries.map ContenderIn.rank)

theorem Judged.Of.reject {maxContenders : Nat} {entries : List ContenderIn} {j : Judged}
    (h : j.Of maxContenders entries) (entry : ContenderIn) (reason : String) :
    (j.reject entry.rank reason).Of maxContenders (entries ++ [entry]) where
  ranks := h.ranks
  seen := h.seen
  bounded := h.bounded
  reported := by
    rw [Judged.reject, List.map_append, List.map_append, ← List.append_assoc]
    exact h.reported.append_right _

theorem Judged.Of.see {maxContenders : Nat} {entries : List ContenderIn} {j : Judged}
    (h : j.Of maxContenders entries) (rank : Nat) :
    Judged.Of maxContenders entries { j with seenRanks := rank :: j.seenRanks } :=
  ⟨h.ranks, fun c hc => List.mem_cons_of_mem _ (h.seen c hc), h.bounded, h.reported⟩

theorem judgeEntry_of {maxContenders : Nat} {entries : List ContenderIn} {j : Judged}
    (h : j.Of maxContenders entries) (entry : ContenderIn) :
    (judgeEntry maxContenders j entry).Of maxContenders (entries ++ [entry]) := by
  unfold judgeEntry
  split_ifs with hseen
  · exact h.reject entry _
  · dsimp only
    split_ifs with hfull
    · exact (h.see entry.rank).reject entry _
    · split
      · exact (h.see entry.rank).reject entry _
      · rename_i configHash spec _
        have hnew : entry.rank ∉ j.seenRanks := by simpa using hseen
        refine ⟨?_, ?_, ?_, ?_⟩
        · rw [List.map_append, List.nodup_append]
          refine ⟨h.ranks, by simp, ?_⟩
          intro r hr r' hr'
          rcases List.mem_map.mp hr with ⟨c, hc, rfl⟩
          have hr' : r' = entry.rank := by simpa [ContenderIn.claim] using hr'
          rw [hr']
          intro heq
          exact hnew (heq ▸ h.seen c hc)
        · intro c hc
          rcases List.mem_append.mp hc with hc | hc
          · exact List.mem_cons_of_mem _ (h.seen c hc)
          · rw [List.mem_singleton.mp hc]
            exact List.mem_cons_self
        · rw [List.length_append, List.length_singleton]
          omega
        · -- the accepted entry moves past the refused ones
          rw [List.map_append, List.map_append, List.append_assoc]
          calc
            _ = j.accepted.map Claim.rank ++ ([entry.rank] ++ j.rejected.map Prod.fst) := rfl
            List.Perm _ (j.accepted.map Claim.rank ++ (j.rejected.map Prod.fst ++ [entry.rank])) :=
              List.perm_append_comm.append_left _
            _ = (j.accepted.map Claim.rank ++ j.rejected.map Prod.fst) ++ [entry.rank] :=
              (List.append_assoc _ _ _).symm
            List.Perm _ (entries.map ContenderIn.rank ++ [entry.rank]) := h.reported.append_right _

/-- What `put_contenders` makes of its entries. -/
theorem judge_of (maxContenders : Nat) (entries : List ContenderIn) :
    (judge maxContenders entries).Of maxContenders (readEntries maxContenders entries) := by
  have hfold : ∀ (l read : List ContenderIn) (j : Judged), j.Of maxContenders read →
      (l.foldl (judgeEntry maxContenders) j).Of maxContenders (read ++ l) := by
    intro l
    induction l with
    | nil =>
        intro read j h
        rwa [List.append_nil]
    | cons entry l ih =>
        intro read j h
        have := ih (read ++ [entry]) _ (judgeEntry_of h entry)
        rwa [List.append_assoc] at this
  refine hfold _ [] {} ⟨List.nodup_nil, ?_, Nat.zero_le _, List.Perm.refl _⟩
  intro c hc
  exact absurd hc List.not_mem_nil

/-! ## Replacing the list -/

/-- A row takes the evidence, the trials and the spec of the entry that declares it again. -/
def Contender.takes (claims : List Claim) (k : Contender) : Claim :=
  match claims.find? fun c => c.rank == k.claim.rank && c.configHash == k.claim.configHash with
  | some fresh => { fresh with rank := k.claim.rank, configHash := k.claim.configHash }
  | none => k.claim

/-- Is the row one of those that were read? -/
def Contender.isIn (current : List Contender) (k : Contender) : Bool := current.any fun c => c.id == k.id

/-- A row that was read and is declared again. -/
def Contender.retaken (current : List Contender) (claims : List Claim) (k : Contender) : Contender :=
  { k with claim := if k.isIn current then k.takes claims else k.claim }

/-- A row that was read and is replaced. -/
def Contender.retired (current : List Contender) (k : Contender) : Contender :=
  { k with status := if k.isIn current then .superseded else k.status }

/-- Do the entries declare what the registered rows declare? -/
def sameSignature (current : List Contender) (claims : List Claim) : Bool :=
  (signature (current.map Contender.claim)).isPerm (signature claims)

/-- What `put_contenders` writes, given the registered rows it has read. -/
def putOver (session : SessionId) (current : List Contender) (claims : List Claim) (t : Contest) :
    Contest :=
  if sameSignature current claims then
    { t with contenders := t.contenders.update (Contender.retaken current claims) }
  else
    { t with
      contenders := addContenders session claims (t.contenders.update (Contender.retired current)) }

/-- The claims of the rows that are echoed as accepted. -/
def echoed (current : List Contender) (claims : List Claim) : List Claim :=
  if sameSignature current claims then current.map (Contender.takes claims) else claims

/-- What a `PUT /contenders` answers, beside what it was asked. -/
structure ContendersEcho where
  submitted : List ContenderIn
  accepted : List Claim
  rejected : List (Nat × String)

/-- The contest, and the answers that were given in it. -/
structure Declarations where
  contest : Contest
  echoes : List ContendersEcho := []

/-- A `PUT /contenders` that holds the session's row; `current` is what it has read. -/
structure OpenPut where
  submitted : List ContenderIn
  current : Option (List Contender) := none

/-- The requests of one session: those behind its row's lock, and those that passed the check and wait
for it. -/
structure Puts where
  declared : Locked Declarations Nat OpenPut
  checked : Nat → Bool := fun _ => false

/-- What can happen next: a statement of a request, the worker advancing the session, or anything else
that is written beside the contenders. -/
inductive PutStep where
  | check (k : Nat)
  | lock (k : Nat)
  | readCurrent (k : Nat)
  | commit (k : Nat)
  | advance (drivers : RunId → TeardownReplies) (now : Time) (order : RowOrder RunId) (f : SessionFinds)
  | other (db : Db)

/-- `_EXPLORING`. -/
def SessionStatus.exploring (status : SessionStatus) : Bool :=
  status == .starting || status == .searching

/-- Does the session explore? -/
def Db.explores (db : Db) (session : SessionId) : Bool :=
  (db.sessions.get? session).any fun s => s.status.exploring

/-- The detail of the 409 a `PUT /contenders` gets otherwise. -/
def frozenDetail (status : SessionStatus) : String :=
  "contenders are frozen once the session is " ++ status.value

def Declarations.setDb (st : Declarations) (db : Db) : Declarations :=
  { st with contest := { st.contest with db := db } }

namespace Puts

variable (session : SessionId) (maxContenders : Nat)

/-- The registered rows, read under the lock. -/
def readCurrentOf (st : Declarations) (t : OpenPut) : Progress Declarations OpenPut :=
  match t.current with
  | none => .more { t with current := some (st.contest.registered session) }
  | some _ => .more t

/-- The writes, the commit and the answer. -/
def commitOf (st : Declarations) (t : OpenPut) : Progress Declarations OpenPut :=
  match t.current with
  | none => .more t
  | some current =>
      let judged := judge maxContenders t.submitted
      .close
        { contest := putOver session current judged.accepted st.contest
          echoes := st.echoes ++ [⟨t.submitted, echoed current judged.accepted, judged.rejected⟩] }

/-- The check and the judgement: an update that is refused as a whole is answered at once. -/
def checkOf (requests : Nat → List ContenderIn) (d : Puts) (k : Nat) : Puts :=
  if d.checked k || !d.declared.store.contest.db.explores session then d
  else if allRejected maxContenders (requests k) then
    { d with declared := d.declared.elsewhere fun st =>
        { st with echoes := st.echoes ++
            [⟨requests k, [], (judge maxContenders (requests k)).rejected⟩] } }
  else { d with checked := Function.update d.checked k true }

/-- `SELECT .. FOR UPDATE`: it waits while another one holds the row. -/
def lockOf (requests : Nat → List ContenderIn) (d : Puts) (k : Nat) : Puts :=
  if d.checked k && d.declared.lock.isNone then
    { declared := d.declared.enter k fun _ => some { submitted := requests k }
      checked := Function.update d.checked k false }
  else d

/-- A write beside the contenders. -/
def writeDb (d : Puts) (g : Db → Db) : Puts :=
  { d with declared := d.declared.elsewhere fun st => st.setDb (g st.contest.db) }

/-- One step of the interleaving. -/
def step (requests : Nat → List ContenderIn) (d : Puts) : PutStep → Puts
  | .check k => checkOf session maxContenders requests d k
  | .lock k => lockOf requests d k
  | .readCurrent k => { d with declared := d.declared.proceed k (readCurrentOf session) }
  | .commit k => { d with declared := d.declared.proceed k (commitOf session maxContenders) }
  | .advance drivers now order f =>
      d.writeDb fun db => (advanceSession drivers now order f session db).state
  | .other db => d.writeDb fun _ => db

end Puts

/-! ## What replacing the list leaves registered -/

section Replacing

variable {session : SessionId} {claims : List Claim} {t : Contest}

theorem isIn_registered {k : Contender} (hk : k ∈ t.contenders.rows) :
    k.isIn (t.registered session) = k.registeredFor session := by
  rw [Bool.eq_iff_iff, Contender.isIn, List.any_eq_true]
  constructor
  · rintro ⟨c, hc, hid⟩
    rcases List.mem_filter.mp hc with ⟨hc, hreg⟩
    have hid : c.id = k.id := by simpa using hid
    rw [Table.eq_of_key_eq hk hc hid.symm]
    exact hreg
  · intro hreg
    exact ⟨k, List.mem_filter.mpr ⟨hk, hreg⟩, by simp⟩

theorem refreshed_claim (k : Contender) (hreg : k.registeredFor session = true) :
    (k.refreshed session claims).claim = k.takes claims := by
  unfold Contender.refreshed Contender.takes
  rw [hreg]
  cases claims.find? fun c => c.rank == k.claim.rank && c.configHash == k.claim.configHash with
  | none => rfl
  | some fresh => rfl

/-- Over the rows that are registered, `putOver` is `putContenders`. -/
theorem putOver_registered : putOver session (t.registered session) claims t =
    putContenders session claims t := by
  have htaken : ∀ k ∈ t.contenders.rows,
      k.retaken (t.registered session) claims = k.refreshed session claims := by
    intro k hk
    unfold Contender.retaken Contender.refreshed Contender.takes
    rw [isIn_registered hk]
    generalize claims.find?
      (fun c => c.rank == k.claim.rank && c.configHash == k.claim.configHash) = found
    cases found with
    | none => simp
    | some fresh => rfl
  have hretired : ∀ k ∈ t.contenders.rows,
      k.retired (t.registered session) = k.supersededBy session := by
    intro k hk
    unfold Contender.retired Contender.supersededBy
    rw [isIn_registered hk]
  unfold putOver putContenders sameSignature
  dsimp only
  split
  · exact congrArg (fun rows => { t with contenders := rows }) (Table.update_congr htaken)
  · exact congrArg (fun rows => { t with contenders := addContenders session claims rows })
      (Table.update_congr hretired)

/-- Rows declared again hold the entries that declare them. -/
theorem takes_perm {current : List Contender} (hsame : sameSignature current claims = true)
    (hranks : (claims.map Claim.rank).Nodup) : (current.map (Contender.takes claims)).Perm claims := by
  have hperm : (signature (current.map Contender.claim)).Perm (signature claims) :=
    List.isPerm_iff.mp hsame
  have hkept : signature (current.map (Contender.takes claims)) =
      signature (current.map Contender.claim) := by
    unfold signature
    rw [List.map_map, List.map_map]
    refine List.map_congr_left ?_
    intro k _
    simp only [Function.comp, Contender.takes]
    split <;> rfl
  have hsubset : ∀ c ∈ current.map (Contender.takes claims), c ∈ claims := by
    intro c hc
    rcases List.mem_map.mp hc with ⟨k, hk, rfl⟩
    -- the row's rank and config are declared, so an entry is found
    have hdeclared : (k.claim.rank, k.claim.configHash) ∈ signature claims :=
      hperm.mem_iff.mp (List.mem_map_of_mem (List.mem_map_of_mem hk))
    rcases List.mem_map.mp hdeclared with ⟨c, hc, hsig⟩
    rw [Prod.mk.injEq] at hsig
    unfold Contender.takes
    split
    · rename_i fresh hfind
      have hfresh := List.find?_some hfind
      simp only [Bool.and_eq_true, beq_iff_eq] at hfresh
      rw [← hfresh.1, ← hfresh.2]
      exact List.mem_of_find?_eq_some hfind
    · rename_i hfind
      have := List.find?_eq_none.mp hfind c hc
      simp [hsig.1, hsig.2] at this
  have hnodup : (signature claims).Nodup := by
    refine List.Nodup.of_map Prod.fst ?_
    unfold signature
    rw [List.map_map]
    exact hranks
  have hdistinct : (current.map (Contender.takes claims)).Nodup := by
    refine List.Nodup.of_map (fun c => (c.rank, c.configHash)) ?_
    show (signature (current.map (Contender.takes claims))).Nodup
    rw [hkept]
    exact hperm.nodup_iff.mpr hnodup
  refine (List.subperm_of_subset hdistinct hsubset).perm_of_length_le ?_
  have hlength := hperm.length_eq
  simp only [signature, List.length_map] at hlength ⊢
  omega

theorem echoed_perm (current : List Contender) (hranks : (claims.map Claim.rank).Nodup) :
    (echoed current claims).Perm claims := by
  unfold echoed
  split_ifs with hsame
  · exact takes_perm hsame hranks
  · exact List.Perm.refl _

theorem registered_addContenders (rows : Table Contender.id) :
    ((addContenders session claims rows).rows.filter (Contender.registeredFor session)).map
        Contender.claim =
      (rows.rows.filter (Contender.registeredFor session)).map Contender.claim ++ claims := by
  induction claims generalizing rows with
  | nil => exact (List.append_nil _).symm
  | cons claim claims ih =>
      show ((addContenders session claims _).rows.filter _).map _ = _
      rw [ih, Table.rows_insert, List.filter_append, List.map_append, List.append_assoc]
      congr 1
      simp [Contender.registeredFor]

/-- What a declaration leaves registered is what it declares. -/
theorem putContenders_registered (hranks : (claims.map Claim.rank).Nodup) :
    (((putContenders session claims t).registered session).map Contender.claim).Perm claims := by
  unfold putContenders
  dsimp only
  split
  · rename_i hsame
    have hkept : ((t.contenders.rows.map (Contender.refreshed session claims)).filter
        (Contender.registeredFor session)).map Contender.claim =
        (t.registered session).map (Contender.takes claims) := by
      rw [List.filter_map, List.map_map]
      show (t.registered session).map _ = _
      refine List.map_congr_left ?_
      intro k hk
      exact refreshed_claim k (List.mem_filter.mp hk).2
    show (((t.contenders.rows.map (Contender.refreshed session claims)).filter _).map _).Perm _
    rw [hkept]
    exact takes_perm hsame hranks
  · have hnone : (t.contenders.rows.map (Contender.supersededBy session)).filter
        (Contender.registeredFor session) = [] := by
      rw [List.filter_eq_nil_iff]
      intro k' hk' hreg
      rcases List.mem_map.mp hk' with ⟨k, -, rfl⟩
      by_cases hk : k.registeredFor session = true
      · have hstatus : (k.supersededBy session).status = .superseded := by
          simp only [Contender.supersededBy, hk, if_true]
        simp [Contender.registeredFor, hstatus] at hreg
      · have : k.supersededBy session = k := by simp [Contender.supersededBy, hk]
        rw [this] at hreg
        exact hk hreg
    show ((addContenders session claims _).rows.filter _ |>.map _).Perm _
    rw [registered_addContenders]
    show (((t.contenders.rows.map (Contender.supersededBy session)).filter _).map _ ++ claims).Perm _
    rw [hnone, List.map_nil, List.nil_append]

end Replacing

/-! ## The invariant -/

/-- An answer that replaced the list: something was accepted, or nothing was asked for. -/
def ContendersEcho.replaces (e : ContendersEcho) : Bool :=
  !e.accepted.isEmpty || e.submitted.isEmpty

/-- What the last answer that replaced the list accepted. -/
def lastDeclared (echoes : List ContendersEcho) : List Claim :=
  ((echoes.filter ContendersEcho.replaces).getLast?.map ContendersEcho.accepted).getD []

theorem lastDeclared_concat (echoes : List ContendersEcho) (e : ContendersEcho) :
    lastDeclared (echoes ++ [e]) = if e.replaces then e.accepted else lastDeclared echoes := by
  unfold lastDeclared
  rw [List.filter_append]
  by_cases h : e.replaces = true
  · simp [h]
  · simp [h]

/-- An answer accounts for every entry that was read. -/
structure ContendersEcho.Honest (maxContenders : Nat) (e : ContendersEcho) : Prop where
  accepted : e.accepted.Perm (judge maxContenders e.submitted).accepted
  rejected : e.rejected = (judge maxContenders e.submitted).rejected

/-- The registered contenders are what was declared last, and every answer is honest. -/
structure Declared (session : SessionId) (maxContenders : Nat) (st : Declarations) : Prop where
  current : ((st.contest.registered session).map Contender.claim).Perm (lastDeclared st.echoes)
  ranks : ((lastDeclared st.echoes).map Claim.rank).Nodup
  bounded : (lastDeclared st.echoes).length ≤ maxContenders
  honest : ∀ e ∈ st.echoes, e.Honest maxContenders

/-- What an open request knows: it was not refused as a whole, and what it has read is registered. -/
structure OpenPut.Fresh (session : SessionId) (maxContenders : Nat) (st : Declarations) (t : OpenPut) :
    Prop where
  some : allRejected maxContenders t.submitted = false
  current : ∀ current, t.current = .some current → current = st.contest.registered session

/-- The invariant of the interleaving. -/
structure PutsSafe (session : SessionId) (maxContenders : Nat) (requests : Nat → List ContenderIn)
    (d : Puts) : Prop where
  declared : d.declared.Guarded (Declared session maxContenders)
    (fun st t => t.Fresh session maxContenders st)
  checked : ∀ k, d.checked k = true → allRejected maxContenders (requests k) = false

section Steps

variable {session : SessionId} {maxContenders : Nat}

/-- An answer that leaves the list alone. -/
theorem Declared.refuse {st : Declarations} (h : Declared session maxContenders st)
    {entries : List ContenderIn} (hall : allRejected maxContenders entries = true) :
    Declared session maxContenders
      { st with echoes := st.echoes ++ [⟨entries, [], (judge maxContenders entries).rejected⟩] } := by
  simp only [allRejected, Bool.and_eq_true, Bool.not_eq_true'] at hall
  have hlast : lastDeclared (st.echoes ++ [⟨entries, [], (judge maxContenders entries).rejected⟩]) =
      lastDeclared st.echoes := by
    rw [lastDeclared_concat, if_neg]
    simp [ContendersEcho.replaces, hall.2]
  refine ⟨?_, ?_, ?_, ?_⟩
  · rw [hlast]
    exact h.current
  · rw [hlast]
    exact h.ranks
  · rw [hlast]
    exact h.bounded
  · intro e he
    rcases List.mem_append.mp he with he | he
    · exact h.honest e he
    · rw [List.mem_singleton.mp he]
      refine ⟨?_, rfl⟩
      rw [List.isEmpty_iff.mp hall.1]

/-- An answer that replaces the list. -/
theorem Declared.replace {st : Declarations} (h : Declared session maxContenders st)
    {entries : List ContenderIn} (hsome : allRejected maxContenders entries = false) :
    Declared session maxContenders
      { contest := putOver session (st.contest.registered session)
          (judge maxContenders entries).accepted st.contest
        echoes := st.echoes ++ [⟨entries, echoed (st.contest.registered session)
          (judge maxContenders entries).accepted, (judge maxContenders entries).rejected⟩] } := by
  have hjudged := judge_of maxContenders entries
  have hecho := echoed_perm (st.contest.registered session) hjudged.ranks
  have hlast : lastDeclared (st.echoes ++ [⟨entries, echoed (st.contest.registered session)
      (judge maxContenders entries).accepted, (judge maxContenders entries).rejected⟩]) =
      echoed (st.contest.registered session) (judge maxContenders entries).accepted := by
    rw [lastDeclared_concat, if_pos]
    simp only [allRejected, Bool.and_eq_false_iff, Bool.not_eq_false'] at hsome
    simp only [ContendersEcho.replaces, Bool.or_eq_true, Bool.not_eq_true']
    refine hsome.imp ?_ id
    intro hne
    rw [List.isEmpty_eq_false_iff] at hne ⊢
    intro hnil
    rw [hnil] at hecho
    exact hne hecho.symm.eq_nil
  refine ⟨?_, ?_, ?_, ?_⟩
  · rw [hlast, putOver_registered]
    exact (putContenders_registered hjudged.ranks).trans hecho.symm
  · rw [hlast]
    exact (hecho.map Claim.rank).nodup_iff.mpr hjudged.ranks
  · rw [hlast, hecho.length_eq]
    exact hjudged.bounded
  · intro e he
    rcases List.mem_append.mp he with he | he
    · exact h.honest e he
    · rw [List.mem_singleton.mp he]
      exact ⟨hecho, rfl⟩

namespace PutsSafe

variable {requests : Nat → List ContenderIn} {d : Puts}

/-- Whatever is written beside the contenders. -/
theorem writeDb (h : PutsSafe session maxContenders requests d) (g : Db → Db) :
    PutsSafe session maxContenders requests (d.writeDb g) := by
  refine ⟨?_, h.checked⟩
  show Locked.Guarded _ _ (d.declared.elsewhere fun st => st.setDb (g st.contest.db))
  refine h.declared.elsewhere ?_ ?_
  · exact ⟨h.declared.inv.current, h.declared.inv.ranks, h.declared.inv.bounded, h.declared.inv.honest⟩
  · intro t ht
    exact ⟨ht.some, ht.current⟩

theorem check (h : PutsSafe session maxContenders requests d) (k : Nat) :
    PutsSafe session maxContenders requests (Puts.checkOf session maxContenders requests d k) := by
  unfold Puts.checkOf
  split_ifs with hclosed hall
  · exact h
  · refine ⟨?_, h.checked⟩
    show Locked.Guarded _ _ (d.declared.elsewhere fun st =>
      { st with echoes := st.echoes ++ [⟨requests k, [], (judge maxContenders (requests k)).rejected⟩] })
    refine h.declared.elsewhere (h.declared.inv.refuse hall) ?_
    intro t ht
    exact ⟨ht.some, ht.current⟩
  · refine ⟨h.declared, ?_⟩
    intro j hj
    by_cases hjk : j = k
    · rw [hjk]
      exact Bool.eq_false_iff.mpr hall
    · exact h.checked j (by simpa [hjk] using hj)

theorem lock (h : PutsSafe session maxContenders requests d) (k : Nat) :
    PutsSafe session maxContenders requests (Puts.lockOf requests d k) := by
  unfold Puts.lockOf
  split_ifs with hopen
  · simp only [Bool.and_eq_true] at hopen
    refine ⟨?_, ?_⟩
    · show Locked.Guarded _ _ (d.declared.enter k fun _ => some { submitted := requests k })
      refine h.declared.enter k ?_
      intro t ht
      cases ht
      refine ⟨h.checked k hopen.1, ?_⟩
      intro current hcurrent
      cases hcurrent
    · intro j hj
      by_cases hjk : j = k
      · simp [hjk] at hj
      · exact h.checked j (by simpa [hjk] using hj)
  · exact h

theorem readCurrent (h : PutsSafe session maxContenders requests d) (k : Nat) :
    PutsSafe session maxContenders requests
      { d with declared := d.declared.proceed k (Puts.readCurrentOf session) } := by
  refine ⟨h.declared.proceed k ?_ ?_, h.checked⟩
  · intro t t' ht hmore
    unfold Puts.readCurrentOf at hmore
    split at hmore
    · cases hmore
      refine ⟨ht.some, ?_⟩
      intro current hcurrent
      exact (Option.some.inj hcurrent).symm
    · cases hmore
      exact ht
  · intro t st _ hclose
    unfold Puts.readCurrentOf at hclose
    split at hclose <;> cases hclose

theorem commit (h : PutsSafe session maxContenders requests d) (k : Nat) :
    PutsSafe session maxContenders requests
      { d with declared := d.declared.proceed k (Puts.commitOf session maxContenders) } := by
  refine ⟨h.declared.proceed k ?_ ?_, h.checked⟩
  · intro t t' ht hmore
    unfold Puts.commitOf at hmore
    split at hmore
    · cases hmore
      exact ht
    · cases hmore
  · intro t st ht hclose
    unfold Puts.commitOf at hclose
    split at hclose
    · cases hclose
    · rename_i current hcurrent
      cases hclose
      -- nobody else has declared anything since the row was locked
      rw [ht.current current hcurrent]
      exact h.declared.inv.replace ht.some

end PutsSafe

/-- One step keeps the declared list. -/
theorem step_putsSafe {requests : Nat → List ContenderIn} {d : Puts}
    (h : PutsSafe session maxContenders requests d) (a : PutStep) :
    PutsSafe session maxContenders requests (d.step session maxContenders requests a) := by
  cases a with
  | check k => exact h.check k
  | lock k => exact h.lock k
  | readCurrent k => exact h.readCurrent k
  | commit k => exact h.commit k
  | advance drivers now order f =>
      exact h.writeDb fun db => (advanceSession drivers now order f session db).state
  | other db => exact h.writeDb fun _ => db

end Steps

/-! ## The freeze -/

/-- Exploration is over, and no request that passed its check before is still under way. -/
structure Frozen (session : SessionId) (d : Puts) : Prop where
  explored : (d.declared.store.contest.db.sessions.get? session).any (fun s => s.status.explored) = true
  idle : ∀ k, d.checked k = false ∧ d.declared.working k = none

/-- Only the worker's own step moves the session's status. -/
def KeepsStatus (session : SessionId) (d : Puts) : PutStep → Prop
  | .other db => (db.sessions.get? session).map PolicySession.status =
      (d.declared.store.contest.db.sessions.get? session).map PolicySession.status
  | _ => True

section Freeze

variable {session : SessionId} {maxContenders : Nat} {requests : Nat → List ContenderIn} {d : Puts}

theorem Frozen.not_explores (h : Frozen session d) :
    d.declared.store.contest.db.explores session = false := by
  have hover := h.explored
  unfold Db.explores
  cases hs : d.declared.store.contest.db.sessions.get? session with
  | none => rfl
  | some s =>
      rw [hs] at hover
      simp only [Option.any_some] at hover ⊢
      cases hst : s.status <;> simp [hst, SessionStatus.explored, SessionStatus.exploring] at hover ⊢

theorem Frozen.proceed_eq (h : Frozen session d) (k : Nat)
    (f : Declarations → OpenPut → Progress Declarations OpenPut) : d.declared.proceed k f = d.declared := by
  unfold Locked.proceed
  rw [(h.idle k).2]

/-- A session whose status moves at most to one after exploration is still past it. -/
theorem explored_of_statusMoves {db db' : Db} {s : PolicySession} (hget : db.sessions.get? session = some s)
    (hover : s.status.explored = true) (h : StatusMoves session (fun st => st.explored = true) db db') :
    (db'.sessions.get? session).any (fun s => s.status.explored) = true := by
  rcases Table.get?_eq_some_iff.mp hget with ⟨hs, hid⟩
  rcases exists_mem_of_forall₂ h.flip hs with ⟨s', hs', hid', hstatus⟩
  rw [Table.get?_eq_some_iff.mpr ⟨hs', hid'.trans hid⟩]
  rcases hstatus with hsame | ⟨-, hmoved⟩
  · simpa [hsame] using hover
  · simpa using hmoved

/-- A frozen list stays frozen, and as it is. -/
theorem Frozen.step (h : Frozen session d) (a : PutStep) (hkeeps : KeepsStatus session d a) :
    Frozen session (d.step session maxContenders requests a) ∧
      (d.step session maxContenders requests a).declared.store.contest.contenders =
        d.declared.store.contest.contenders := by
  cases a with
  | check k =>
      have hrefused : Puts.checkOf session maxContenders requests d k = d := by
        unfold Puts.checkOf
        rw [if_pos]
        simp [h.not_explores]
      show Frozen session (Puts.checkOf session maxContenders requests d k) ∧
        (Puts.checkOf session maxContenders requests d k).declared.store.contest.contenders = _
      rw [hrefused]
      exact ⟨h, rfl⟩
  | lock k =>
      have hnone : Puts.lockOf requests d k = d := by
        unfold Puts.lockOf
        rw [if_neg]
        simp [(h.idle k).1]
      show Frozen session (Puts.lockOf requests d k) ∧
        (Puts.lockOf requests d k).declared.store.contest.contenders = _
      rw [hnone]
      exact ⟨h, rfl⟩
  | readCurrent k =>
      simp only [Puts.step, h.proceed_eq]
      exact ⟨h, trivial⟩
  | commit k =>
      simp only [Puts.step, h.proceed_eq]
      exact ⟨h, trivial⟩
  | advance drivers now order f =>
      have hover := h.explored
      cases hs : d.declared.store.contest.db.sessions.get? session with
      | none => simp [hs] at hover
      | some s =>
          rw [hs, Option.any_some] at hover
          exact ⟨⟨explored_of_statusMoves hs hover (advanceSession_explored drivers now order f hs hover),
            h.idle⟩, rfl⟩
  | other db =>
      refine ⟨⟨?_, h.idle⟩, rfl⟩
      have hover := h.explored
      show (db.sessions.get? session).any (fun s => s.status.explored) = true
      have hany : ∀ o : Option PolicySession, o.any (fun s => s.status.explored) =
          (o.map PolicySession.status).any SessionStatus.explored := by
        intro o
        cases o <;> rfl
      rw [hany] at hover ⊢
      rwa [show (db.sessions.get? session).map PolicySession.status = _ from hkeeps]

theorem Frozen.run (h : Frozen session d) (steps : List PutStep)
    (hsteps : Along (Puts.step session maxContenders requests) (KeepsStatus session) d steps) :
    (runFrom (Puts.step session maxContenders requests) d steps).declared.store.contest.contenders =
      d.declared.store.contest.contenders := by
  induction steps generalizing d with
  | nil => rfl
  | cons a steps ih =>
      have hstep := @Frozen.step _ maxContenders requests _ h a hsteps.1
      rw [runFrom_cons, ih hstep.1 hsteps.2, hstep.2]

end Freeze

/-- A session that explores and has declared nothing. -/
def undeclared : Declarations where
  contest := { db := { sessions := .single { id := 1, campaignId := 1, status := .searching }
                       campaigns := .single { id := 1, status := .active } } }

theorem undeclared_declared (maxContenders : Nat) : Declared 1 maxContenders undeclared where
  current := List.Perm.refl _
  ranks := List.nodup_nil
  bounded := Nat.zero_le _
  honest := by simp [undeclared]

/-- An entry with a valid config. -/
def validEntry (rank : Nat) (configHash : String) : ContenderIn where
  rank := rank
  validated := .ok (configHash, {})

end AutoTune
