import Mathlib.Data.List.Sort

/-!
# Places in a ranking

A ranking sorts a list by a value and keeps the order of equal values. Who stands among the first `k`
can be read off the list before it is sorted: fewer than `k` come ahead.
-/

namespace AutoTune.Lib

variable {α β : Type*} [LinearOrder β]

/-- `a` comes before `b` in a ranking by `value` of a list in which `first a b` means that `a` is first. -/
def Ahead (value : α → β) (first : α → α → Prop) (a b : α) : Prop :=
  value a < value b ∨ value a = value b ∧ first a b

theorem pairwise_orderedInsert_ahead {value : α → β} {first : α → α → Prop} {a : α} {l : List α}
    (hfirst : ∀ b ∈ l, first a b) (h : l.Pairwise (Ahead value first)) :
    (l.orderedInsert (fun a b => value a ≤ value b) a).Pairwise (Ahead value first) := by
  induction l with
  | nil => simp
  | cons b l ih =>
      rcases List.pairwise_cons.mp h with ⟨hb, hl⟩
      rw [List.orderedInsert_cons]
      split
      · -- `a` goes in front, and nothing behind it is better
        rename_i hle
        refine List.pairwise_cons.mpr ⟨fun c hc => ?_, h⟩
        have hac : value a ≤ value c := by
          rcases List.mem_cons.mp hc with rfl | hc
          · exact hle
          · rcases hb c hc with hlt | ⟨heq, -⟩
            · exact hle.trans hlt.le
            · exact hle.trans heq.le
        rcases hac.lt_or_eq with hlt | heq
        · exact Or.inl hlt
        · exact Or.inr ⟨heq, hfirst c hc⟩
      · rename_i hle
        refine List.pairwise_cons.mpr ⟨fun c hc => ?_, ih (fun c hc => hfirst c (List.mem_cons_of_mem _ hc)) hl⟩
        rcases List.mem_cons.mp ((List.perm_orderedInsert _ a l).mem_iff.mp hc) with rfl | hc
        · exact Or.inl (not_le.mp hle)
        · exact hb c hc

/-- Sorting by insertion ranks. -/
theorem pairwise_insertionSort_ahead {value : α → β} {first : α → α → Prop} {l : List α}
    (h : l.Pairwise first) :
    (l.insertionSort fun a b => value a ≤ value b).Pairwise (Ahead value first) := by
  induction l with
  | nil => exact List.Pairwise.nil
  | cons a l ih =>
      rcases List.pairwise_cons.mp h with ⟨ha, hl⟩
      refine pairwise_orderedInsert_ahead (fun b hb => ha b ?_) (ih hl)
      exact (List.perm_insertionSort _ l).mem_iff.mp hb

/-- Who is among the first `k` of a ranking. -/
theorem mem_take_iff {ahead : α → α → Bool} (hasymm : ∀ a b, ahead a b = true → ahead b a = false)
    {l : List α} (h : l.Pairwise fun a b => ahead a b = true) {a : α} (k : Nat) :
    a ∈ l.take k ↔ a ∈ l ∧ l.countP (fun b => ahead b a) < k := by
  induction l generalizing k with
  | nil => simp
  | cons b l ih =>
      rcases List.pairwise_cons.mp h with ⟨hb, hl⟩
      have hself : ∀ c, ahead c c = false := by
        intro c
        cases hc : ahead c c with
        | false => rfl
        | true => exact hc.symm.trans (hasymm c c hc)
      cases k with
      | zero => simp
      | succ k =>
          rw [List.take_succ_cons, List.mem_cons, List.mem_cons, List.countP_cons, ih hl k]
          by_cases hab : a = b
          · -- nothing is ahead of the first
            have hnone : l.countP (fun c => ahead c b) = 0 := by
              rw [List.countP_eq_zero]
              intro c hc hcb
              rw [hasymm b c (hb c hc)] at hcb
              cases hcb
            subst hab
            simp [hnone, hself]
          · constructor
            · rintro (hsame | ⟨hin, hlt⟩)
              · exact absurd hsame hab
              · rw [if_pos (hb a hin)]
                exact ⟨Or.inr hin, Nat.succ_lt_succ hlt⟩
            · rintro ⟨hsame | hin, hlt⟩
              · exact absurd hsame hab
              · rw [if_pos (hb a hin)] at hlt
                exact Or.inr ⟨hin, Nat.lt_of_succ_lt_succ hlt⟩

end AutoTune.Lib
