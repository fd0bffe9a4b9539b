import AutoTune.Lib.Fallible
import Mathlib.Data.List.Chain
import Mathlib.Data.List.Nodup
import Mathlib.Data.Finset.Card
import Mathlib.Logic.Relation

/-!
# Dependency order

A depth-first walk puts every element behind those it requires, and reports the chain it went down
when it meets an element it is still in the middle of. It succeeds exactly if no element requires
itself through others, and then it changes the given order only where a requirement asks for it.
-/

namespace AutoTune.Lib

variable {α : Type} [DecidableEq α]

/-! ## The walk -/

/-- What is in order so far, and what the walk is in the middle of. -/
structure OrderWalk (α : Type) where
  ordered : List α := []
  visiting : List α := []

/-- One element, after those it requires; `chain` is how the walk came to it. -/
def visit (requires : α → List α) : Nat → List α → α → OrderWalk α → Except (List α) (OrderWalk α)
  | 0, chain, a, _ => .error (chain ++ [a])
  | fuel + 1, chain, a, w =>
      if a ∈ w.ordered then .ok w
      else if a ∈ w.visiting then .error (chain ++ [a])
      else do
        let inner ← (requires a).foldlM (fun w b => visit requires fuel (chain ++ [a]) b w)
          { w with visiting := a :: w.visiting }
        .ok { ordered := inner.ordered ++ [a], visiting := inner.visiting.erase a }

/-- Several elements, one after the other. -/
def visitAll (requires : α → List α) (fuel : Nat) (chain l : List α) (w : OrderWalk α) :
    Except (List α) (OrderWalk α) :=
  l.foldlM (fun w b => visit requires fuel chain b w) w

theorem visit_succ (requires : α → List α) (fuel : Nat) (chain : List α) (a : α) (w : OrderWalk α) :
    visit requires (fuel + 1) chain a w =
      if a ∈ w.ordered then .ok w
      else if a ∈ w.visiting then .error (chain ++ [a])
      else
        visitAll requires fuel (chain ++ [a]) (requires a) { w with visiting := a :: w.visiting } >>=
          fun inner => .ok { ordered := inner.ordered ++ [a], visiting := inner.visiting.erase a } := rfl

theorem visitAll_cons (requires : α → List α) (fuel : Nat) (chain : List α) (b : α) (l : List α)
    (w : OrderWalk α) :
    visitAll requires fuel chain (b :: l) w =
      visit requires fuel chain b w >>= fun w => visitAll requires fuel chain l w := by
  simp [visitAll]

/-- All elements. A chain of distinct elements is no longer than their list, so the fuel suffices. -/
def dependencyOrder (requires : α → List α) (nodes : List α) : Except (List α) (List α) :=
  (visitAll requires (nodes.length + 1) [] nodes {}).map OrderWalk.ordered

/-! ## What it is to be in order -/

/-- `b` is required by `a`, through any number of others. -/
def Reaches (requires : α → List α) : α → α → Prop := Relation.ReflTransGen fun a b => b ∈ requires a

/-- Every element stands behind all it requires. -/
def InOrder (requires : α → List α) (l : List α) : Prop :=
  ∀ before a after, l = before ++ a :: after → ∀ b ∈ requires a, b ∈ before

/-- A chain of requirements that comes back to one of its own elements. -/
structure IsCycle (requires : α → List α) (c : List α) : Prop where
  chain : c.IsChain fun a b => b ∈ requires a
  closes : ∃ before a, c = before ++ [a] ∧ a ∈ before

variable {requires : α → List α}

omit [DecidableEq α] in
theorem inOrder_nil : InOrder requires [] := by
  intro before a after h
  simp at h

omit [DecidableEq α] in
theorem InOrder.snoc {l : List α} {a : α} (h : InOrder requires l) (ha : ∀ b ∈ requires a, b ∈ l) :
    InOrder requires (l ++ [a]) := by
  intro before c after heq b hb
  rcases List.eq_nil_or_concat after with rfl | ⟨after, d, rfl⟩
  · have hlast := List.append_inj' heq rfl
    obtain ⟨rfl, hca⟩ := hlast
    have hca : a = c := by simpa using hca
    exact ha b (hca ▸ hb)
  · have hsplit : l ++ [a] = (before ++ c :: after) ++ [d] := by simpa using heq
    exact h before c after (List.append_inj_left' hsplit rfl) b hb

omit [DecidableEq α] in
theorem InOrder.of_append {l l' : List α} (h : InOrder requires (l ++ l')) : InOrder requires l := by
  intro before a after heq
  exact h before a (after ++ l') (by simp [heq])

/-- What an element of an ordered list requires comes before it. -/
theorem InOrder.idxOf_lt {l : List α} (h : InOrder requires l) {a b : α} (ha : a ∈ l) (hb : b ∈ requires a) :
    b ∈ l ∧ l.idxOf b < l.idxOf a := by
  rcases List.eq_append_cons_of_mem ha with ⟨before, after, heq, hfirst⟩
  have hbefore := h before a after heq b hb
  have hidx : l.idxOf a = before.length := by
    simp [heq, List.idxOf_append, hfirst]
  refine ⟨by simp [heq, hbefore], ?_⟩
  calc l.idxOf b
      = before.idxOf b := by rw [heq, List.idxOf_append_of_mem hbefore]
    _ < before.length := List.idxOf_lt_length_of_mem hbefore
    _ = l.idxOf a := hidx.symm

/-- In an ordered list nothing requires itself. -/
theorem InOrder.acyclic {l : List α} (h : InOrder requires l) {a b : α} (ha : a ∈ l)
    (hab : Relation.TransGen (fun a b => b ∈ requires a) a b) : b ∈ l ∧ l.idxOf b < l.idxOf a := by
  induction hab with
  | single hb => exact h.idxOf_lt ha hb
  | tail _ hb ih =>
      have hnext := h.idxOf_lt ih.1 hb
      exact ⟨hnext.1, lt_trans hnext.2 ih.2⟩

omit [DecidableEq α] in
/-- A chain leads from its first element to its last. -/
theorem transGen_of_isChain {a b : α} {l : List α}
    (h : (a :: (l ++ [b])).IsChain fun a b => b ∈ requires a) :
    Relation.TransGen (fun a b => b ∈ requires a) a b := by
  induction l generalizing a with
  | nil =>
      have hab : b ∈ requires a := by simpa using h
      exact Relation.TransGen.single hab
  | cons c l ih =>
      have hparts : c ∈ requires a ∧ (c :: (l ++ [b])).IsChain fun a b => b ∈ requires a := by
        simpa using h
      exact Relation.TransGen.head hparts.1 (ih hparts.2)

omit [DecidableEq α] in
/-- A cycle is an element that requires itself. -/
theorem IsCycle.transGen {c : List α} (h : IsCycle requires c) :
    ∃ a ∈ c, Relation.TransGen (fun a b => b ∈ requires a) a a := by
  obtain ⟨before, a, rfl, ha⟩ := h.closes
  obtain ⟨s, t, rfl⟩ := List.append_of_mem ha
  have hchain : (s ++ (a :: (t ++ [a]))).IsChain fun a b => b ∈ requires a := by simpa using h.chain
  exact ⟨a, by simp, transGen_of_isChain (List.IsChain.right_of_append hchain)⟩

/-! ## What a walk that succeeds has done -/

/-- In order, each element once, and apart from those the walk is in the middle of. -/
structure OrderWalk.Sound (requires : α → List α) (w : OrderWalk α) : Prop where
  inOrder : InOrder requires w.ordered
  nodup : w.ordered.Nodup
  apart : ∀ a ∈ w.ordered, a ∉ w.visiting

/-- The walk from `w` to `w'` went over `roots`: they are in order now, after what was in order before,
and with nothing more than what they require. -/
structure Visited (requires : α → List α) (roots : List α) (w w' : OrderWalk α) : Prop where
  added : ∃ more, w'.ordered = w.ordered ++ more ∧ ∀ b ∈ more, ∃ a ∈ roots, Reaches requires a b
  visiting : w'.visiting = w.visiting
  has : ∀ a ∈ roots, a ∈ w'.ordered
  sound : w'.Sound requires

section

omit [DecidableEq α]

theorem Visited.mem_of_mem {roots : List α} {w w' : OrderWalk α} (h : Visited requires roots w w')
    {a : α} (ha : a ∈ w.ordered) : a ∈ w'.ordered := by
  obtain ⟨more, heq, _⟩ := h.added
  simp [heq, ha]

theorem Visited.nil {w : OrderWalk α} (hw : w.Sound requires) : Visited requires [] w w where
  added := ⟨[], by simp, by simp⟩
  visiting := rfl
  has := by simp
  sound := hw

theorem Visited.append {l l' : List α} {w w' w'' : OrderWalk α} (h : Visited requires l w w')
    (h' : Visited requires l' w' w'') : Visited requires (l ++ l') w w'' where
  added := by
    obtain ⟨more, heq, hmore⟩ := h.added
    obtain ⟨more', heq', hmore'⟩ := h'.added
    refine ⟨more ++ more', by simp [heq', heq], ?_⟩
    intro b hb
    rcases List.mem_append.mp hb with hb | hb
    · obtain ⟨a, ha, hab⟩ := hmore b hb
      exact ⟨a, by simp [ha], hab⟩
    · obtain ⟨a, ha, hab⟩ := hmore' b hb
      exact ⟨a, by simp [ha], hab⟩
  visiting := h'.visiting.trans h.visiting
  has := by
    intro a ha
    rcases List.mem_append.mp ha with ha | ha
    · exact h'.mem_of_mem (h.has a ha)
    · exact h'.has a ha
  sound := h'.sound

end

/-- Several elements, where each single one is known to be visited. -/
theorem visitAll_visited {fuel : Nat} {chain : List α}
    (hvisit : ∀ (b : α) (w w' : OrderWalk α), w.Sound requires →
      visit requires fuel chain b w = .ok w' → Visited requires [b] w w')
    {l : List α} {w w' : OrderWalk α} (hw : w.Sound requires)
    (h : visitAll requires fuel chain l w = .ok w') : Visited requires l w w' := by
  induction l generalizing w with
  | nil =>
      have h : Except.ok w = (Except.ok w' : Except (List α) (OrderWalk α)) := h
      obtain rfl := Except.ok.inj h
      exact Visited.nil hw
  | cons b l ih =>
      obtain ⟨w₁, hb, hl⟩ := bind_eq_ok.mp (visitAll_cons requires .. ▸ h)
      have hfirst := hvisit b w w₁ hw hb
      exact hfirst.append (ih hfirst.sound hl)

/-- The walk that closes `a`, once all it requires is in order. -/
theorem Visited.close {a : α} {w inner : OrderWalk α} (hidle : a ∉ w.visiting)
    (h : Visited requires (requires a) { w with visiting := a :: w.visiting } inner) :
    Visited requires [a] w { ordered := inner.ordered ++ [a], visiting := inner.visiting.erase a } := by
  obtain ⟨more, heq, hmore⟩ := h.added
  have hvisiting : inner.visiting = a :: w.visiting := h.visiting
  have hnew : a ∉ inner.ordered := fun ha => h.sound.apart a ha (by simp [hvisiting])
  refine ⟨⟨more ++ [a], by simp [heq], ?_⟩, by simp [hvisiting], by simp, ?_, ?_, ?_⟩
  · intro b hb
    refine ⟨a, by simp, ?_⟩
    rcases List.mem_append.mp hb with hb | hb
    · obtain ⟨c, hc, hcb⟩ := hmore b hb
      exact Relation.ReflTransGen.head hc hcb
    · obtain rfl : b = a := by simpa using hb
      exact Relation.ReflTransGen.refl
  · exact h.sound.inOrder.snoc h.has
  · simpa [List.nodup_append, h.sound.nodup] using fun b hb (hba : b = a) => hnew (hba ▸ hb)
  · intro b hb
    rcases List.mem_append.mp hb with hb | hb
    · have hapart := h.sound.apart b hb
      simp [hvisiting] at hapart ⊢
      exact hapart.2
    · obtain rfl : b = a := by simpa using hb
      simpa [hvisiting] using hidle

/-- One element: it is visited after those it requires. -/
theorem visit_visited {fuel : Nat} {chain : List α} {a : α} {w w' : OrderWalk α}
    (hw : w.Sound requires) (h : visit requires fuel chain a w = .ok w') :
    Visited requires [a] w w' := by
  induction fuel generalizing chain a w w' with
  | zero => cases h
  | succ fuel ih =>
      rw [visit_succ] at h
      split_ifs at h with hin hbusy
      · -- already in order
        cases h
        exact { added := ⟨[], by simp, by simp⟩, visiting := rfl, has := by simpa using hin, sound := hw }
      · obtain ⟨inner, hall, hlast⟩ := bind_eq_ok.mp h
        cases hlast
        have hstart : ({ w with visiting := a :: w.visiting } : OrderWalk α).Sound requires :=
          { inOrder := hw.inOrder, nodup := hw.nodup,
            apart := by
              intro b hb
              have hne : b ≠ a := fun hba => hin (hba ▸ hb)
              simp [hne, hw.apart b hb] }
        exact Visited.close hbusy (visitAll_visited (fun b w w' hw h => ih hw h) hstart hall)

/-! ## What a walk that fails has found -/

/-- How far down a walk may be: what it is in the middle of is its chain, of distinct elements, and the
fuel lasts for the others. -/
structure Descends (requires : α → List α) (nodes : List α) (fuel : Nat) (chain : List α) (w : OrderWalk α) :
    Prop where
  visiting : ∀ a, a ∈ w.visiting ↔ a ∈ chain
  nodup : chain.Nodup
  within : ∀ a ∈ chain, a ∈ nodes
  fuel : nodes.length < fuel + chain.length

/-- Distinct elements of a list are no more than the list has. -/
theorem Descends.fuel_pos {nodes chain : List α} {w : OrderWalk α} (h : Descends requires nodes 0 chain w) :
    False := by
  have hle : chain.length ≤ nodes.length := by
    calc chain.length
        = chain.toFinset.card := (List.toFinset_card_of_nodup h.nodup).symm
      _ ≤ nodes.toFinset.card := Finset.card_le_card fun a ha => by simpa using h.within a (by simpa using ha)
      _ ≤ nodes.length := List.toFinset_card_le nodes
  have hfuel := h.fuel
  omega

omit [DecidableEq α] in
theorem Descends.down {nodes chain : List α} {fuel : Nat} {w : OrderWalk α} {a : α}
    (h : Descends requires nodes (fuel + 1) chain w) (ha : a ∈ nodes) (hidle : a ∉ w.visiting) :
    Descends requires nodes fuel (chain ++ [a]) { w with visiting := a :: w.visiting } where
  visiting := by
    intro b
    simp [h.visiting b, or_comm]
  nodup := by
    have hfresh : a ∉ chain := fun hc => hidle ((h.visiting a).mpr hc)
    simpa [List.nodup_append, h.nodup] using fun b hb (hba : b = a) => hfresh (hba ▸ hb)
  within := by
    intro b hb
    rcases List.mem_append.mp hb with hb | hb
    · exact h.within b hb
    · obtain rfl : b = a := by simpa using hb
      exact ha
  fuel := by
    have hfuel := h.fuel
    simp only [List.length_append, List.length_singleton]
    omega

omit [DecidableEq α] in
/-- The same chain at another moment, with the same elements under way. -/
theorem Descends.keep {nodes chain : List α} {fuel : Nat} {w w' : OrderWalk α}
    (h : Descends requires nodes fuel chain w) (hvisiting : w'.visiting = w.visiting) :
    Descends requires nodes fuel chain w' where
  visiting := by simpa [hvisiting] using h.visiting
  nodup := h.nodup
  within := h.within
  fuel := h.fuel

/-- One element after another, where a failure of each single one is a cycle. -/
theorem visitAll_cycle {nodes chain c : List α} {fuel : Nat}
    (hvisit : ∀ (b : α) (w : OrderWalk α), b ∈ nodes → w.Sound requires →
      Descends requires nodes fuel chain w → (chain ++ [b]).IsChain (fun a b => b ∈ requires a) →
      visit requires fuel chain b w = .error c → IsCycle requires c ∧ ∀ a ∈ c, a ∈ nodes)
    {l : List α} {w : OrderWalk α} (hl : ∀ b ∈ l, b ∈ nodes)
    (hchain : ∀ b ∈ l, (chain ++ [b]).IsChain fun a b => b ∈ requires a) (hw : w.Sound requires)
    (hdown : Descends requires nodes fuel chain w) (h : visitAll requires fuel chain l w = .error c) :
    IsCycle requires c ∧ ∀ a ∈ c, a ∈ nodes := by
  induction l generalizing w with
  | nil => cases h
  | cons b l ih =>
      rcases bind_eq_error.mp (visitAll_cons requires .. ▸ h) with hfirst | ⟨w₁, hfirst, hrest⟩
      · exact hvisit b w (hl b (by simp)) hw hdown (hchain b (by simp)) hfirst
      · have hvisited := visit_visited hw hfirst
        exact ih (fun b hb => hl b (by simp [hb])) (fun b hb => hchain b (by simp [hb])) hvisited.sound
          (hdown.keep hvisited.visiting) hrest

/-- A failure is a chain of requirements that comes back to itself. -/
theorem visit_cycle {nodes : List α} (hclosed : ∀ a ∈ nodes, ∀ b ∈ requires a, b ∈ nodes) {fuel : Nat}
    {chain c : List α} {a : α} {w : OrderWalk α} (ha : a ∈ nodes) (hw : w.Sound requires)
    (hdown : Descends requires nodes fuel chain w)
    (hchain : (chain ++ [a]).IsChain fun a b => b ∈ requires a)
    (h : visit requires fuel chain a w = .error c) : IsCycle requires c ∧ ∀ b ∈ c, b ∈ nodes := by
  induction fuel generalizing chain a w with
  | zero => exact hdown.fuel_pos.elim
  | succ fuel ih =>
      rw [visit_succ] at h
      split_ifs at h with hin hbusy
      · -- the walk came back to an element of its chain
        cases h
        have hback : a ∈ chain := (hdown.visiting a).mp hbusy
        refine ⟨⟨hchain, chain, a, rfl, hback⟩, fun b hb => ?_⟩
        rcases List.mem_append.mp hb with hb | hb
        · exact hdown.within b hb
        · obtain rfl : b = a := by simpa using hb
          exact ha
      · have hstart : ({ w with visiting := a :: w.visiting } : OrderWalk α).Sound requires :=
          { inOrder := hw.inOrder, nodup := hw.nodup,
            apart := by
              intro b hb
              have hne : b ≠ a := fun hba => hin (hba ▸ hb)
              simp [hne, hw.apart b hb] }
        have hinner : visitAll requires fuel (chain ++ [a]) (requires a)
            { w with visiting := a :: w.visiting } = .error c := by
          rcases bind_eq_error.mp h with hinner | ⟨inner, -, hclosing⟩
          · exact hinner
          · cases hclosing
        refine visitAll_cycle (fun _ _ hb hw hd hc h => ih hb hw hd hc h) (hclosed a ha) ?_ hstart
          (hdown.down ha hbusy) hinner
        intro b hb
        have hlast : (chain ++ [a] ++ [b]).IsChain fun a b => b ∈ requires a := by
          simpa [List.isChain_append_cons_cons] using ⟨hchain, hb⟩
        exact hlast

/-! ## The order -/

omit [DecidableEq α] in
theorem sound_start : ({} : OrderWalk α).Sound requires where
  inOrder := inOrder_nil
  nodup := List.nodup_nil
  apart := by simp

omit [DecidableEq α] in
theorem descends_start (nodes : List α) : Descends requires nodes (nodes.length + 1) [] {} where
  visiting := by simp
  nodup := List.nodup_nil
  within := by simp
  fuel := by simp

theorem dependencyOrder_visited {nodes l : List α} (h : dependencyOrder requires nodes = .ok l) :
    ∃ w, visitAll requires (nodes.length + 1) [] nodes {} = .ok w ∧ w.ordered = l ∧
      Visited requires nodes {} w := by
  obtain ⟨w, hw, rfl⟩ := map_eq_ok.mp h
  exact ⟨w, hw, rfl, visitAll_visited (fun _ _ _ => visit_visited) sound_start hw⟩

/-- What comes out has every element once, and each behind those it requires. -/
theorem dependencyOrder_inOrder {nodes l : List α} (h : dependencyOrder requires nodes = .ok l) :
    InOrder requires l ∧ l.Nodup := by
  obtain ⟨w, -, rfl, hw⟩ := dependencyOrder_visited h
  exact ⟨hw.sound.inOrder, hw.sound.nodup⟩

omit [DecidableEq α] in
/-- What an element of a closed list reaches is in the list. -/
theorem Reaches.mem {nodes : List α} (hclosed : ∀ a ∈ nodes, ∀ b ∈ requires a, b ∈ nodes) {a b : α}
    (ha : a ∈ nodes) (h : Reaches requires a b) : b ∈ nodes := by
  induction h with
  | refl => exact ha
  | tail _ hb ih => exact hclosed _ ih _ hb

section Closed

variable {nodes : List α} (hclosed : ∀ a ∈ nodes, ∀ b ∈ requires a, b ∈ nodes)
include hclosed

/-- What comes out is what went in, where everything required is among it. -/
theorem mem_dependencyOrder {l : List α} (h : dependencyOrder requires nodes = .ok l) (a : α) :
    a ∈ l ↔ a ∈ nodes := by
  obtain ⟨w, -, rfl, hw⟩ := dependencyOrder_visited h
  constructor
  · intro ha
    obtain ⟨more, heq, hmore⟩ := hw.added
    obtain ⟨root, hroot, hreach⟩ := hmore a (by simpa [heq] using ha)
    exact hreach.mem hclosed hroot
  · exact hw.has a

/-- A refusal names a cycle. -/
theorem dependencyOrder_cycle {c : List α} (h : dependencyOrder requires nodes = .error c) :
    IsCycle requires c ∧ ∀ a ∈ c, a ∈ nodes := by
  have hall : visitAll requires (nodes.length + 1) [] nodes {} = .error c := by
    unfold dependencyOrder at h
    cases hwalk : visitAll requires (nodes.length + 1) [] nodes {} with
    | error c' => simpa [hwalk, Except.map] using h
    | ok w => simp [hwalk, Except.map] at h
  exact visitAll_cycle (fun _ _ hb hw hd hc h => visit_cycle hclosed hb hw hd hc h) (fun b hb => hb)
    (by simp) sound_start (descends_start nodes) hall

/-- There is an order exactly if nothing requires itself. -/
theorem dependencyOrder_ok_iff :
    (∃ l, dependencyOrder requires nodes = .ok l) ↔
      ∀ a ∈ nodes, ¬ Relation.TransGen (fun a b => b ∈ requires a) a a := by
  constructor
  · rintro ⟨l, hl⟩ a ha hself
    have hin : a ∈ l := (mem_dependencyOrder hclosed hl a).mpr ha
    exact absurd ((dependencyOrder_inOrder hl).1.acyclic hin hself).2 (lt_irrefl _)
  · intro hacyclic
    cases h : dependencyOrder requires nodes with
    | ok l => exact ⟨l, rfl⟩
    | error c =>
        obtain ⟨hcycle, hnodes⟩ := dependencyOrder_cycle hclosed h
        obtain ⟨a, ha, hself⟩ := hcycle.transGen
        exact absurd hself (hacyclic a (hnodes a ha))

end Closed

/-- What comes out before an element was listed no later, or something listed no later requires it. -/
theorem dependencyOrder_listed {earlier later l : List α} {p q : α}
    (h : dependencyOrder requires (earlier ++ p :: later) = .ok l) (hbefore : l.idxOf q < l.idxOf p) :
    ∃ r ∈ earlier ++ [p], Reaches requires r q := by
  obtain ⟨w, hall, rfl, -⟩ := dependencyOrder_visited h
  have hsplit : earlier ++ p :: later = (earlier ++ [p]) ++ later := by simp
  rw [hsplit] at hall
  unfold visitAll at hall
  rw [List.foldlM_append] at hall
  obtain ⟨middle, hfirst, hrest⟩ := bind_eq_ok.mp hall
  have hmiddle := visitAll_visited (fun _ _ _ => visit_visited) sound_start hfirst
  obtain ⟨more, heq, hmore⟩ := hmiddle.added
  obtain ⟨rest, heq', -⟩ := (visitAll_visited (fun _ _ _ => visit_visited) hmiddle.sound hrest).added
  have hp : p ∈ middle.ordered := hmiddle.has p (by simp)
  -- `p` is in order once it was visited, so what comes before it is there by then too
  have hq : q ∈ middle.ordered := by
    by_contra hq
    have hlt : w.ordered.idxOf p < middle.ordered.length := by
      rw [heq', List.idxOf_append_of_mem hp]
      exact List.idxOf_lt_length_of_mem hp
    have hge : middle.ordered.length ≤ w.ordered.idxOf q := by
      rw [heq', List.idxOf_append_of_notMem hq]
      exact Nat.le_add_right _ _
    omega
  exact hmore q (by simpa [heq] using hq)

end AutoTune.Lib
