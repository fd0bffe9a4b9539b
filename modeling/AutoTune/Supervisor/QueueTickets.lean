import AutoTune.Lib.Dict
import AutoTune.Lib.Trace
import AutoTune.Supervisor.MachineQueue

/-!
# Places in the machine queue

A waiter takes a ticket at the first pass of `_schedule` that lists it and keeps it until it is served
or has not been seen for a while. The pass orders the waiters by their tickets, whatever the keys they
were listed under this time, and shows each its place among those that wait for the same machines.
-/

namespace AutoTune

open Lib

/-! ## The tickets -/

/-- A row of `queue_tickets`. -/
structure QueueTicket extends Ticket where
  waiter : String
  label : String
  campaignId : Option CampaignId := none
  issuedAt : Time
  seenAt : Time
  position : Nat := 0
  waitingFor : String := ""
  reason : String := ""
deriving DecidableEq, Repr

/-- The table: the column `waiter` is unique. -/
structure QueueTickets where
  table : Table fun t : QueueTicket => t.id
  oneEach : (table.rows.map QueueTicket.waiter).Nodup

namespace QueueTickets

def rows (q : QueueTickets) : List QueueTicket := q.table.rows

/-- The ticket of a waiter. -/
def find? (q : QueueTickets) (waiter : String) : Option QueueTicket :=
  q.rows.find? fun t => t.waiter = waiter

/-- Write columns that neither order a ticket nor say whose it is. -/
def edit (q : QueueTickets) (f : QueueTicket → QueueTicket)
    (hf : ∀ t, (f t).toTicket = t.toTicket ∧ (f t).waiter = t.waiter) : QueueTickets where
  table := q.table.update f fun t => congrArg Ticket.id (hf t).1
  oneEach := by
    have hwaiters : (q.table.rows.map f).map QueueTicket.waiter =
        q.table.rows.map QueueTicket.waiter := by
      rw [List.map_map]
      exact List.map_congr_left fun t _ => (hf t).2
    exact hwaiters ▸ q.oneEach

/-- Delete the tickets that fail a test. -/
def keepOnly (q : QueueTickets) (p : QueueTicket → Bool) : QueueTickets where
  table := q.table.filter p
  oneEach := q.oneEach.sublist (List.filter_sublist.map QueueTicket.waiter)

end QueueTickets

/-- `GRACE`. -/
def ticketGrace : Time := 600

theorem justSeen (now : Time) : now - ticketGrace ≤ now := Int.sub_le_self now (by decide)

/-! ## One pass -/

/-- A waiter as a pass lists it, and what its turns come to: whether it was served, the machines it
found busy, and the machines it holds. -/
structure Listed where
  waiter : String
  arrival : Option Time
  rank : Int
  ident : Int
  label : String
  campaignId : Option CampaignId := none
  served : Bool := false
  busy : List MachineId := []
  held : List MachineId := []
deriving DecidableEq, Repr

/-- What a pass comes to list: a waiter, or a plugin whose listing failed. -/
inductive Listing where
  | waiter (w : Listed)
  | failed (plugin : String)
deriving DecidableEq, Repr

/-- One pass of `_schedule`, as far as it touches the tickets. The turns themselves are `Pass.turn`;
`why` is `_why_queued`. -/
structure QueuePass where
  now : Time
  listing : List Listing
  why : QueueTicket → String × String := fun _ => ("", "")

/-- The waiters a pass lists. -/
def QueuePass.listed (p : QueuePass) : List Listed :=
  p.listing.filterMap fun
    | .waiter w => some w
    | .failed _ => none

/-- What the names of the waiters start with that could not be listed. -/
def QueuePass.kept (p : QueuePass) : List String :=
  p.listing.filterMap fun
    | .waiter _ => none
    | .failed plugin => some ("plugin:" ++ plugin ++ ":")

/-- `TicketBook.take`. -/
def QueueTickets.take (q : QueueTickets) (now : Time) (w : Listed) : QueueTickets :=
  match h : q.find? w.waiter with
  | none =>
      { table := q.table.insert fun id =>
          { id := id, arrival := w.arrival.getD now, rank := w.rank, ident := w.ident,
            waiter := w.waiter, label := takeText 255 w.label, campaignId := w.campaignId,
            issuedAt := now, seenAt := now }
        oneEach := by
          have hnew : w.waiter ∉ q.table.rows.map QueueTicket.waiter := by
            intro hmem
            rcases List.mem_map.mp hmem with ⟨t, ht, heq⟩
            have hnot := List.find?_eq_none.mp h t ht
            simp [heq] at hnot
          simpa using q.oneEach.concat hnew }
  | some _ =>
      q.edit (fun t => if t.waiter = w.waiter then
          { t with seenAt := now, label := takeText 255 w.label } else t) fun t => by
        split <;> exact ⟨rfl, rfl⟩

/-- The tickets once every waiter has been listed. -/
def QueueTickets.listAll (q : QueueTickets) (p : QueuePass) : QueueTickets :=
  p.listed.foldl (fun q w => q.take p.now w) q

/-- `Entry`: a waiter with the ticket that orders it. -/
structure InLine where
  ticket : QueueTicket
  listed : Listed
deriving DecidableEq, Repr

/-- `TicketBook.order`. -/
def QueueTickets.lineup (q : QueueTickets) (p : QueuePass) : List InLine :=
  let book := q.listAll p
  (p.listed.filterMap fun w => (book.find? w.waiter).map fun t => ⟨t, w⟩).insertionSort
    fun a b => a.ticket.before b.ticket.toTicket = true

/-- Is the waiter turned away, and does it hold a machine? -/
def InLine.waits (e : InLine) : Bool := !e.listed.served && !e.listed.held.isEmpty

/-- Do the two hold a machine in common? -/
def InLine.shares (e other : InLine) : Bool := other.listed.held.any fun m => e.listed.held.contains m

/-- The loop of `place_in_line`, over the waiters behind those already looked at. -/
def placesFrom (ahead : List InLine) (out : List (Nat × Nat)) : List InLine → List (Nat × Nat)
  | [] => out
  | e :: rest =>
      placesFrom (ahead ++ [e]) (dictSet out e.ticket.id (ahead.countP e.shares + 1)) rest

/-- `place_in_line`. -/
def placeInLine (entries : List InLine) : List (Nat × Nat) :=
  placesFrom [] [] (entries.filter InLine.waits)

/-- `TicketBook.record`, for a waiter that was turned away. -/
def QueueTickets.record (q : QueueTickets) (why : QueueTicket → String × String)
    (places : List (Nat × Nat)) (e : InLine) : QueueTickets :=
  q.edit (fun t => if t.id = e.ticket.id then
      { t with
        position := (dictGet places t.id).getD 0
        waitingFor := (why e.ticket).1
        reason := takeText 2000 (why e.ticket).2 } else t) fun t => by
    split <;> exact ⟨rfl, rfl⟩

/-- Does `sweep` let a ticket go? -/
def QueuePass.letsGo (p : QueuePass) (t : QueueTicket) : Bool :=
  !(p.kept.any fun start => startsWith t.waiter start) && t.seenAt < p.now - ticketGrace

/-- What a pass of `_schedule` leaves of the tickets. -/
def QueueTickets.schedule (q : QueueTickets) (p : QueuePass) : QueueTickets :=
  let line := q.lineup p
  -- served: the ticket is given up
  let left := (q.listAll p).keepOnly fun t => !(line.any fun e => e.listed.served && e.ticket.id == t.id)
  let recorded := (line.filter fun e => !e.listed.served).foldl
    (fun q e => q.record p.why (placeInLine line) e) left
  recorded.keepOnly fun t => !p.letsGo t

/-! ## Runs -/

/-- What touches the tickets: a pass, or the end of a campaign's row, which takes its tickets along. -/
inductive QueueEvent where
  | pass (p : QueuePass)
  | campaignDeleted (c : CampaignId)

def QueueTickets.after (q : QueueTickets) : QueueEvent → QueueTickets
  | .pass p => q.schedule p
  | .campaignDeleted c => q.keepOnly fun t => t.campaignId != some c

/-! ## The order of tickets -/

/-- Of two items of a list one stands before the other. -/
theorem pair_sublist_or {α : Type} {l : List α} {a b : α} (ha : a ∈ l) (hb : b ∈ l) (hne : a ≠ b) :
    [a, b].Sublist l ∨ [b, a].Sublist l := by
  rcases List.append_of_mem ha with ⟨l₁, l₂, rfl⟩
  rcases List.mem_append.mp hb with hfront | hback
  · right
    exact (List.singleton_sublist.mpr hfront).append (List.singleton_sublist.mpr List.mem_cons_self)
  · left
    have hrest : b ∈ l₂ := (List.mem_cons.mp hback).resolve_left hne.symm
    exact ((List.singleton_sublist.mpr hrest).cons_cons a).trans (List.sublist_append_right l₁ _)

/-- What a ticket is ordered by. -/
def Ticket.sortKey (t : Ticket) : Time ×ₗ Int ×ₗ Int ×ₗ Nat :=
  toLex (t.arrival, toLex (t.rank, toLex (t.ident, t.id)))

theorem Ticket.before_iff (a b : Ticket) : a.before b = true ↔ a.sortKey ≤ b.sortKey := by
  simp [Ticket.before, Ticket.sortKey, Prod.Lex.toLex_le_toLex]

theorem Ticket.before_antisymm {a b : Ticket} (h : a.before b = true) (h' : b.before a = true) :
    a.id = b.id := by
  have hkey := le_antisymm ((a.before_iff b).mp h) ((b.before_iff a).mp h')
  simp only [Ticket.sortKey, EmbeddingLike.apply_eq_iff_eq, Prod.mk.injEq] at hkey
  exact hkey.2.2.2

/-! ## One ticket -/

namespace QueueTickets

variable {q : QueueTickets}

theorem find?_eq_some_iff {x : String} {t : QueueTicket} :
    q.find? x = some t ↔ t ∈ q.rows ∧ t.waiter = x := by
  constructor
  · intro h
    exact ⟨List.mem_of_find?_eq_some h, by simpa using List.find?_some h⟩
  · rintro ⟨ht, rfl⟩
    cases hfind : q.find? t.waiter with
    | none =>
        have hnot := List.find?_eq_none.mp hfind t ht
        simp at hnot
    | some u =>
        have hu : u.waiter = t.waiter := by simpa using List.find?_some hfind
        rw [List.inj_on_of_nodup_map q.oneEach (List.mem_of_find?_eq_some hfind) ht hu]

/-- The waiter holds the ticket `t`, last seen at `seen`. -/
def Holds (q : QueueTickets) (x : String) (t : Ticket) (seen : Time) : Prop :=
  ∃ row ∈ q.rows, row.waiter = x ∧ row.toTicket = t ∧ row.seenAt = seen

theorem Holds.find {x : String} {t : Ticket} {seen : Time} (h : q.Holds x t seen) :
    ∃ row, q.find? x = some row ∧ row.toTicket = t ∧ row.seenAt = seen := by
  rcases h with ⟨row, hrow, hx, ht, hseen⟩
  exact ⟨row, find?_eq_some_iff.mpr ⟨hrow, hx⟩, ht, hseen⟩

/-- A waiter holds one ticket. -/
theorem Holds.eq {x : String} {t t' : Ticket} {seen seen' : Time} (h : q.Holds x t seen)
    (h' : q.Holds x t' seen') : t = t' ∧ seen = seen' := by
  rcases h.find with ⟨row, hrow, ht, hseen⟩
  rcases h'.find with ⟨row', hrow', ht', hseen'⟩
  rw [hrow] at hrow'
  cases hrow'
  exact ⟨ht.symm.trans ht', hseen.symm.trans hseen'⟩

theorem Holds.exactly_one {x : String} {t : Ticket} {seen : Time} (h : q.Holds x t seen) :
    ∃! row, row ∈ q.rows ∧ row.waiter = x := by
  rcases h with ⟨row, hrow, hx, -, -⟩
  refine ⟨row, ⟨hrow, hx⟩, fun other hother => ?_⟩
  exact List.inj_on_of_nodup_map q.oneEach hother.1 hrow (hother.2.trans hx.symm)

theorem Holds.edit {x : String} {t : Ticket} {seen : Time} (h : q.Holds x t seen)
    {f : QueueTicket → QueueTicket} (hf : ∀ t, (f t).toTicket = t.toTicket ∧ (f t).waiter = t.waiter)
    (hseen : ∀ row, row.waiter = x → row.seenAt = seen → (f row).seenAt = seen) :
    (q.edit f hf).Holds x t seen := by
  rcases h with ⟨row, hrow, hx, ht, hs⟩
  exact ⟨f row, List.mem_map_of_mem hrow, (hf row).2.trans hx, (hf row).1.trans ht, hseen row hx hs⟩

theorem Holds.keepOnly {x : String} {t : Ticket} {seen : Time} (h : q.Holds x t seen)
    {p : QueueTicket → Bool}
    (hp : ∀ row ∈ q.rows, row.waiter = x → row.seenAt = seen → p row = true) :
    (q.keepOnly p).Holds x t seen := by
  rcases h with ⟨row, hrow, hx, ht, hs⟩
  exact ⟨row, List.mem_filter.mpr ⟨hrow, hp row hrow hx hs⟩, hx, ht, hs⟩

/-! ## Listing -/

/-- A waiter that is listed has a ticket, seen now. -/
theorem take_holds (q : QueueTickets) (now : Time) (w : Listed) :
    ∃ t, (q.take now w).Holds w.waiter t now := by
  unfold take
  split
  · refine ⟨_, _, List.mem_append_right _ (List.mem_singleton_self _), rfl, rfl, rfl⟩
  · rename_i row hrow
    rcases find?_eq_some_iff.mp hrow with ⟨hmem, hx⟩
    refine ⟨row.toTicket, _, List.mem_map_of_mem hmem, ?_⟩
    simp [hx]

/-- The ticket of a waiter stays what it was when a waiter is listed. -/
theorem Holds.take {x : String} {t : Ticket} {seen : Time} (h : q.Holds x t seen) (now : Time)
    (w : Listed) : (q.take now w).Holds x t (if w.waiter = x then now else seen) := by
  rcases h with ⟨row, hrow, hx, ht, hs⟩
  unfold QueueTickets.take
  split
  · rename_i hnone
    have hne : w.waiter ≠ x := by
      intro heq
      have hnot := List.find?_eq_none.mp hnone row hrow
      simp [hx, heq] at hnot
    rw [if_neg hne]
    exact ⟨row, List.mem_append_left _ hrow, hx, ht, hs⟩
  · refine ⟨_, List.mem_map_of_mem hrow, ?_⟩
    by_cases hw : w.waiter = x
    · have hrowx : row.waiter = w.waiter := hx.trans hw.symm
      simpa [hrowx, hw] using ht
    · have hrowx : row.waiter ≠ w.waiter := fun heq => hw (heq.symm.trans hx)
      simp only [hrowx, if_false, hw]
      exact ⟨hx, ht, hs⟩

end QueueTickets

/-- Does a pass list the waiter? -/
def QueuePass.Lists (p : QueuePass) (x : String) : Prop := ∃ w ∈ p.listed, w.waiter = x

instance (p : QueuePass) (x : String) : Decidable (p.Lists x) :=
  inferInstanceAs (Decidable (∃ w ∈ p.listed, w.waiter = x))

/-- Does it serve the waiter? -/
def QueuePass.Serves (p : QueuePass) (x : String) : Prop :=
  ∃ w ∈ p.listed, w.waiter = x ∧ w.served = true

instance (p : QueuePass) (x : String) : Decidable (p.Serves x) :=
  inferInstanceAs (Decidable (∃ w ∈ p.listed, w.waiter = x ∧ w.served = true))

namespace QueueTickets

variable {q : QueueTickets}

theorem Holds.foldl_take {x : String} {t : Ticket} {seen : Time} (now : Time) (l : List Listed)
    (h : q.Holds x t seen) : (l.foldl (fun q w => q.take now w) q).Holds x t
      (if ∃ w ∈ l, w.waiter = x then now else seen) := by
  induction l generalizing q seen with
  | nil => simpa using h
  | cons w l ih =>
      have hnext := ih (h.take now w)
      rw [List.foldl_cons]
      by_cases hw : w.waiter = x
      · simpa [hw] using hnext
      · simpa [hw] using hnext

theorem Holds.listAll {x : String} {t : Ticket} {seen : Time} (h : q.Holds x t seen) (p : QueuePass) :
    (q.listAll p).Holds x t (if p.Lists x then p.now else seen) :=
  h.foldl_take p.now p.listed

/-- Every waiter a pass lists holds a ticket once all are listed. -/
theorem listAll_holds (q : QueueTickets) {p : QueuePass} {x : String} (h : p.Lists x) :
    ∃ t, (q.listAll p).Holds x t p.now := by
  rcases h with ⟨w, hw, rfl⟩
  rcases List.append_of_mem hw with ⟨l, l', hsplit⟩
  unfold QueueTickets.listAll
  rw [hsplit, List.foldl_append, List.foldl_cons]
  rcases take_holds (l.foldl (fun q w => q.take p.now w) q) p.now w with ⟨t, ht⟩
  refine ⟨t, ?_⟩
  simpa using ht.foldl_take p.now l'

/-! ## Ordering -/

theorem mem_lineup {p : QueuePass} {e : InLine} : e ∈ q.lineup p ↔
    e.listed ∈ p.listed ∧ (q.listAll p).find? e.listed.waiter = some e.ticket := by
  unfold lineup
  rw [(List.perm_insertionSort _ _).mem_iff, List.mem_filterMap]
  constructor
  · rintro ⟨w, hw, hmap⟩
    rcases Option.map_eq_some_iff.mp hmap with ⟨t, ht, rfl⟩
    exact ⟨hw, ht⟩
  · rintro ⟨hw, ht⟩
    exact ⟨e.listed, hw, by rw [ht]; rfl⟩

theorem lineup_sorted (q : QueueTickets) (p : QueuePass) : (q.lineup p).Pairwise fun a b =>
    a.ticket.before b.ticket.toTicket = true := by
  have : Std.Total fun a b : InLine => a.ticket.before b.ticket.toTicket = true :=
    ⟨fun a b => by rw [Ticket.before_iff, Ticket.before_iff]; exact le_total _ _⟩
  have : IsTrans InLine fun a b => a.ticket.before b.ticket.toTicket = true :=
    ⟨fun a b c => by rw [Ticket.before_iff, Ticket.before_iff, Ticket.before_iff]; exact le_trans⟩
  exact List.pairwise_insertionSort _ _

/-- The waiters in ticket order. -/
def order (q : QueueTickets) (p : QueuePass) : List String := (q.lineup p).map fun e => e.listed.waiter

theorem mem_order {p : QueuePass} {x : String} : x ∈ q.order p ↔ p.Lists x := by
  constructor
  · intro h
    rcases List.mem_map.mp h with ⟨e, he, rfl⟩
    exact ⟨e.listed, (mem_lineup.mp he).1, rfl⟩
  · intro h
    rcases q.listAll_holds h with ⟨t, ht⟩
    rcases ht.find with ⟨row, hrow, -, -⟩
    rcases h with ⟨w, hw, rfl⟩
    exact List.mem_map.mpr ⟨⟨row, w⟩, mem_lineup.mpr ⟨hw, hrow⟩, rfl⟩

/-- Two waiters that a pass lists stand in the order of their tickets. -/
theorem order_iff {p : QueuePass} {x y : String} (hne : x ≠ y) {t u : Ticket} {seen seen' : Time}
    (ht : (q.listAll p).Holds x t seen) (hu : (q.listAll p).Holds y u seen') (hx : p.Lists x)
    (hy : p.Lists y) : [x, y].Sublist (q.order p) ↔ t.before u = true := by
  -- in the lineup the ticket of a waiter is the one it holds
  have hsorted : (q.order p).Pairwise fun a b => ∀ t u seen seen',
      (q.listAll p).Holds a t seen → (q.listAll p).Holds b u seen' → t.before u = true := by
    unfold order
    rw [List.pairwise_map]
    refine (q.lineup_sorted p).imp_of_mem ?_
    intro a b ha hb hab t u seen seen' ht hu
    rcases ht.find with ⟨row, hrow, rfl, -⟩
    rcases hu.find with ⟨row', hrow', rfl, -⟩
    rw [(mem_lineup.mp ha).2] at hrow
    rw [(mem_lineup.mp hb).2] at hrow'
    cases hrow
    cases hrow'
    exact hab
  constructor
  · intro hsub
    have hpair := hsorted.sublist hsub
    exact (List.pairwise_cons.mp hpair).1 y (List.mem_singleton_self y) t u seen seen' ht hu
  · intro hbefore
    rcases pair_sublist_or (mem_order.mpr hx) (mem_order.mpr hy) hne with hsub | hsub
    · exact hsub
    · -- the other way round the two tickets would be one
      have hpair := hsorted.sublist hsub
      have hback := (List.pairwise_cons.mp hpair).1 x (List.mem_singleton_self x) u t seen' seen hu ht
      have hid := Ticket.before_antisymm hbefore hback
      rcases ht with ⟨row, hrow, hrowx, rfl, -⟩
      rcases hu with ⟨row', hrow', hrowy, rfl, -⟩
      have hsame := (q.listAll p).table.eq_of_key_eq hrow hrow' hid
      exact absurd (hrowx.symm.trans ((congrArg QueueTicket.waiter hsame).trans hrowy)) hne

/-! ## A whole pass -/

theorem Holds.foldl_record {x : String} {t : Ticket} {seen : Time}
    (why : QueueTicket → String × String) (places : List (Nat × Nat)) (l : List InLine)
    (h : q.Holds x t seen) : (l.foldl (fun q e => q.record why places e) q).Holds x t seen := by
  induction l generalizing q with
  | nil => exact h
  | cons e l ih =>
      refine ih (h.edit _ fun row _ hs => ?_)
      split <;> exact hs

/-- A waiter that is not served keeps its ticket, if it was listed, if it was seen not too long ago, or
if its plugin's listing failed. -/
theorem Holds.schedule {p : QueuePass} {x : String} {t : Ticket} {seen : Time}
    (h : (q.listAll p).Holds x t seen) (hserved : ¬ p.Serves x)
    (hkept : p.now - ticketGrace ≤ seen ∨ (p.kept.any fun start => startsWith x start) = true) :
    (q.schedule p).Holds x t seen := by
  unfold QueueTickets.schedule
  refine Holds.keepOnly (Holds.foldl_record _ _ _ (h.keepOnly ?_)) ?_
  · intro row hrow hx _
    rw [Bool.not_eq_true', List.any_eq_false]
    intro e he hboth
    rw [Bool.and_eq_true, beq_iff_eq] at hboth
    rcases mem_lineup.mp he with ⟨hlisted, hticket⟩
    rcases find?_eq_some_iff.mp hticket with ⟨hmem, hwaiter⟩
    have hsame := (q.listAll p).table.eq_of_key_eq hmem hrow hboth.2
    exact hserved ⟨e.listed, hlisted, by rw [← hwaiter, hsame, hx], hboth.1⟩
  · intro row _ hx hs
    rw [QueuePass.letsGo, hx, hs, Bool.not_eq_true', Bool.and_eq_false_iff]
    rcases hkept with hrecent | hfailed
    · exact Or.inr (by simpa using hrecent)
    · exact Or.inl (by rw [hfailed]; rfl)

end QueueTickets

/-- The waiter stays in the queue: no pass serves it, its campaign is not deleted, and a pass that does
not list it comes no later than `GRACE` after it was last listed, or failed to list its plugin. -/
def StaysInLine (x : String) : QueueTickets → Time → List QueueEvent → Prop
  | _, _, [] => True
  | q, seen, .pass p :: l =>
      ¬ p.Serves x ∧
        (p.Lists x ∨ p.now - ticketGrace ≤ seen ∨ (p.kept.any fun start => startsWith x start) = true) ∧
          StaysInLine x (q.after (.pass p)) (if p.Lists x then p.now else seen) l
  | q, seen, .campaignDeleted c :: l =>
      (∀ t ∈ q.rows, t.waiter = x → t.campaignId ≠ some c) ∧
        StaysInLine x (q.after (.campaignDeleted c)) seen l

/-- A waiter that stays in the queue keeps its ticket. -/
theorem StaysInLine.keeps {x : String} {t : Ticket} (l : List QueueEvent) {q : QueueTickets}
    {seen : Time} (h : q.Holds x t seen) (hstays : StaysInLine x q seen l) :
    ∃ seen', (runFrom QueueTickets.after q l).Holds x t seen' := by
  induction l generalizing q seen with
  | nil => exact ⟨seen, h⟩
  | cons event l ih =>
      cases event with
      | pass p =>
          rcases hstays with ⟨hserved, hkept, hrest⟩
          refine ih ((h.listAll p).schedule hserved ?_) hrest
          by_cases hlists : p.Lists x
          · rw [if_pos hlists]
            exact Or.inl (justSeen p.now)
          · rw [if_neg hlists]
            exact hkept.resolve_left hlists
      | campaignDeleted c =>
          rcases hstays with ⟨hother, hrest⟩
          refine ih (h.keepOnly fun row hrow hx _ => ?_) hrest
          simpa using hother row hrow hx

/-! ## Places -/

/-- The place of a waiter behind `ahead`: one more than those of them that wait and share a machine
with it. -/
def InLine.placeBehind (e : InLine) (ahead : List InLine) : Nat :=
  (ahead.filter InLine.waits).countP e.shares + 1

theorem dictGet_placesFrom_other (ahead : List InLine) (out : List (Nat × Nat)) {rest : List InLine}
    {id : Nat} (h : ∀ e ∈ rest, e.ticket.id ≠ id) : dictGet (placesFrom ahead out rest) id = dictGet out id := by
  induction rest generalizing ahead out with
  | nil => rfl
  | cons e rest ih =>
      rw [placesFrom, ih _ _ fun e' he' => h e' (List.mem_cons_of_mem _ he'), dictGet_set,
        if_neg (h e List.mem_cons_self).symm]

theorem dictGet_placesFrom (ahead : List InLine) (out : List (Nat × Nat)) (front : List InLine)
    {e : InLine} {back : List InLine} (h : ∀ e' ∈ back, e'.ticket.id ≠ e.ticket.id) :
    dictGet (placesFrom ahead out (front ++ e :: back)) e.ticket.id =
      some ((ahead ++ front).countP e.shares + 1) := by
  induction front generalizing ahead out with
  | nil =>
      rw [List.nil_append, placesFrom, dictGet_placesFrom_other _ _ h, dictGet_set, if_pos rfl,
        List.append_nil]
  | cons e' front ih =>
      rw [List.cons_append, placesFrom, ih, List.append_assoc]
      rfl

/-- A waiter that holds a machine gets its place. -/
theorem placeInLine_eq {line front back : List InLine} {e : InLine} (hline : line = front ++ e :: back)
    (hwaits : e.waits = true) (hlast : ∀ e' ∈ back, e'.ticket.id ≠ e.ticket.id) :
    dictGet (placeInLine line) e.ticket.id = some (e.placeBehind front) := by
  unfold placeInLine InLine.placeBehind
  rw [hline, List.filter_append, List.filter_cons_of_pos hwaits]
  exact dictGet_placesFrom [] [] _ fun e' he' => hlast e' (List.mem_filter.mp he').1

/-- Behind a waiter it shares a machine with, a waiter is not first. -/
theorem placeBehind_shared {front mid : List InLine} {a b : InLine} (ha : a.waits = true)
    (hshare : b.shares a = true) : 2 ≤ b.placeBehind (front ++ a :: mid) := by
  unfold InLine.placeBehind
  have hpos : 0 < ((front ++ a :: mid).filter InLine.waits).countP b.shares := by
    rw [List.countP_pos_iff]
    exact ⟨a, List.mem_filter.mpr ⟨List.mem_append_right _ List.mem_cons_self, ha⟩, hshare⟩
  omega

/-- Its place is beyond the other's if it shares a machine with all that are ahead of the other. -/
theorem placeBehind_lt {front mid : List InLine} {a b : InLine} (ha : a.waits = true)
    (hshare : b.shares a = true)
    (hahead : ∀ e ∈ front, e.waits = true → a.shares e = true → b.shares e = true) :
    a.placeBehind front < b.placeBehind (front ++ a :: mid) := by
  unfold InLine.placeBehind
  have hfront : (front.filter InLine.waits).countP a.shares ≤ (front.filter InLine.waits).countP b.shares :=
    List.countP_mono_left fun e he hae =>
      hahead e (List.mem_filter.mp he).1 (List.mem_filter.mp he).2 hae
  rw [List.filter_append, List.countP_append, List.filter_cons_of_pos ha,
    List.countP_cons_of_pos hshare]
  omega

/-! ## Places do not drift -/

/-- Two waiters that stay in the queue keep their order, whatever keys they are listed under; a waiter
a pass does not serve is left with one ticket; and a waiter that holds a machine is shown how many of
those ahead of it share one with it. -/
theorem queue_places_kept (q : QueueTickets) (first : QueuePass) (events : List QueueEvent)
    (last : QueuePass) (x y : String) (hne : x ≠ y) (hx : first.Lists x) (hy : first.Lists y)
    (hxs : StaysInLine x q first.now (.pass first :: events))
    (hys : StaysInLine y q first.now (.pass first :: events)) (hxl : last.Lists x) (hyl : last.Lists y) :
    ([x, y].Sublist (q.order first) ↔
      [x, y].Sublist ((runFrom QueueTickets.after q (.pass first :: events)).order last)) ∧
    (∀ (q : QueueTickets) (p : QueuePass) (z : String), p.Lists z → ¬ p.Serves z →
      ∃! row, row ∈ (q.schedule p).rows ∧ row.waiter = z) ∧
    (∀ (q : QueueTickets) (p : QueuePass) (front back : List InLine) (e : InLine),
      q.lineup p = front ++ e :: back → e.waits = true →
      (∀ e' ∈ back, e'.ticket.id ≠ e.ticket.id) →
        dictGet (placeInLine (q.lineup p)) e.ticket.id = some (e.placeBehind front)) ∧
    ∀ (front mid : List InLine) (a b : InLine), a.waits = true → b.shares a = true →
      2 ≤ b.placeBehind (front ++ a :: mid) ∧
      ((∀ e ∈ front, e.waits = true → a.shares e = true → b.shares e = true) →
        a.placeBehind front < b.placeBehind (front ++ a :: mid)) := by
  refine ⟨?_, ?_, fun q p front back e hline hwaits hlast => placeInLine_eq hline hwaits hlast,
    fun front mid a b ha hshare => ⟨placeBehind_shared ha hshare, placeBehind_lt ha hshare⟩⟩
  · -- both tickets are the ones of the first pass
    have hkeeps : ∀ z, first.Lists z → StaysInLine z q first.now (.pass first :: events) →
        ∃ t seen, (q.listAll first).Holds z t first.now ∧
          (runFrom QueueTickets.after q (.pass first :: events)).Holds z t seen := by
      intro z hz hstays
      rcases q.listAll_holds hz with ⟨t, ht⟩
      rcases hstays with ⟨hserved, -, hrest⟩
      rw [if_pos hz] at hrest
      rcases hrest.keeps events (ht.schedule hserved (Or.inl (justSeen first.now))) with ⟨seen, hend⟩
      exact ⟨t, seen, ht, hend⟩
    rcases hkeeps x hx hxs with ⟨t, _, ht, htend⟩
    rcases hkeeps y hy hys with ⟨u, _, hu, huend⟩
    rw [QueueTickets.order_iff hne ht hu hx hy,
      QueueTickets.order_iff hne (htend.listAll last) (huend.listAll last) hxl hyl]
  · intro q p z hz hserved
    rcases q.listAll_holds hz with ⟨t, ht⟩
    exact (ht.schedule hserved (Or.inl (justSeen p.now))).exactly_one

/-- A campaign that is turned away, and the machines it holds. -/
def turnedAway (id : Nat) (arrival : Time) (held : List MachineId) : Listed where
  waiter := "campaign:" ++ toString id
  arrival := some arrival
  rank := 1
  ident := id
  label := "campaign"
  campaignId := some id
  busy := held
  held := held

/-- It, with the ticket it takes at 100. -/
def firstSeen (id : Nat) (arrival : Time) (held : List MachineId) : InLine where
  ticket :=
    { id := id, arrival := arrival, rank := 1, ident := id, waiter := "campaign:" ++ toString id,
      label := "campaign", campaignId := some id, issuedAt := 100, seenAt := 100 }
  listed := turnedAway id arrival held

def noTickets : QueueTickets := ⟨.empty, List.nodup_nil⟩

/-- The first campaign waits for machine 1, the second for machine 1 or 2, the third for machine 2. -/
def crossedPass : QueuePass where
  now := 100
  listing := [.waiter (turnedAway 1 10 [1]), .waiter (turnedAway 2 20 [1, 2]),
    .waiter (turnedAway 3 30 [2])]

/-- The second and the third share machine 2 and are both second in line. -/
theorem crossed_waiters_same_place :
    ¬ ∀ (q : QueueTickets) (p : QueuePass) (front mid back : List InLine) (a b : InLine),
      q.lineup p = front ++ a :: (mid ++ b :: back) → a.waits = true → b.waits = true →
      b.shares a = true →
        dictGet (placeInLine (q.lineup p)) a.ticket.id ≠
          dictGet (placeInLine (q.lineup p)) b.ticket.id := by
  intro h
  have hline : noTickets.lineup crossedPass =
      [firstSeen 1 10 [1]] ++ firstSeen 2 20 [1, 2] :: ([] ++ firstSeen 3 30 [2] :: []) := by
    decide
  exact h noTickets crossedPass _ _ _ _ _ hline (by decide) (by decide) (by decide) (by decide)

/-- A pass that lists the first and the second, under these arrivals. -/
def pairPass (now first second : Time) : QueuePass where
  now := now
  listing := [.waiter (turnedAway 1 first [1]), .waiter (turnedAway 2 second [1])]

/-- A pass that lists neither of them. -/
def gapPass : QueuePass where
  now := 400
  listing := []

/-- Ten minutes later the second is listed as the one that came first, and is still behind. -/
theorem queue_places_kept_afterGap :
    (["campaign:1", "campaign:2"].Sublist (noTickets.order (pairPass 100 10 20)) ↔
      ["campaign:1", "campaign:2"].Sublist
        ((runFrom QueueTickets.after noTickets [.pass (pairPass 100 10 20), .pass gapPass]).order
          (pairPass 700 60 5))) := by
  refine (queue_places_kept noTickets (pairPass 100 10 20) [.pass gapPass] (pairPass 700 60 5)
    "campaign:1" "campaign:2" (by decide) (by decide) (by decide) ?_ ?_ (by decide) (by decide)).1
  · exact ⟨by decide, Or.inl (by decide), by decide, Or.inr (Or.inl (by decide)), trivial⟩
  · exact ⟨by decide, Or.inl (by decide), by decide, Or.inr (Or.inl (by decide)), trivial⟩

end AutoTune
