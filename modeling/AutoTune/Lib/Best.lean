import Mathlib.Data.List.Induction
import Mathlib.Order.Lattice

/-!
# The first of the best

`max(l, key=...)` keeps the first of the entries with the greatest key. It is the entry that is above
everything before it and not below anything behind it.
-/

namespace AutoTune.Lib

variable {α β : Type*} [LinearOrder β]

/-- The better of two, the first one if neither is. -/
def better (key : α → β) (best a : α) : α := if key best < key a then a else best

/-- `max(l, key=key)`. -/
def firstMax (key : α → β) : List α → Option α
  | [] => none
  | a :: l => some (l.foldl (better key) a)

/-- The entry stands in the list above what is before it and not below what is behind it. -/
def FirstOfBest (key : α → β) (l : List α) (a : α) : Prop :=
  ∃ before behind, l = before ++ a :: behind ∧ (∀ b ∈ before, key b < key a) ∧ ∀ b ∈ behind, key b ≤ key a

variable {key : α → β} {l : List α} {a b : α}

theorem FirstOfBest.mem (h : FirstOfBest key l a) : a ∈ l := by
  rcases h with ⟨before, behind, rfl, -, -⟩
  simp

theorem FirstOfBest.le (h : FirstOfBest key l a) : ∀ b ∈ l, key b ≤ key a := by
  rcases h with ⟨before, behind, rfl, hbefore, hbehind⟩
  intro b hb
  rcases List.mem_append.mp hb with hb | hb
  · exact (hbefore b hb).le
  · rcases List.mem_cons.mp hb with rfl | hb
    · exact le_rfl
    · exact hbehind b hb

/-- One entry more: it is best if it is above the best so far. -/
theorem foldl_better (a : α) (l : List α) : FirstOfBest key (a :: l) (l.foldl (better key) a) := by
  induction l using List.reverseRecOn with
  | nil => exact ⟨[], [], rfl, by simp, by simp⟩
  | append_singleton l b ih =>
      rw [List.foldl_append, List.foldl_cons, List.foldl_nil]
      generalize l.foldl (better key) a = best at ih ⊢
      by_cases hb : key best < key b
      · -- everything so far is below the new entry
        refine ⟨a :: l, [], by simp [better, hb], fun c hc => ?_, by simp⟩
        simpa [better, hb] using (ih.le c hc).trans_lt hb
      · rcases ih with ⟨before, behind, hl, hbefore, hbehind⟩
        have hkept : better key best b = best := by simp [better, hb]
        rw [hkept]
        refine ⟨before, behind ++ [b], by rw [← List.cons_append, hl]; simp, hbefore, fun c hc => ?_⟩
        rcases List.mem_append.mp hc with hc | hc
        · exact hbehind c hc
        · rw [List.mem_singleton.mp hc]
          exact not_lt.mp hb

/-- It stays the first of the best among fewer. -/
theorem FirstOfBest.filter {p : α → Bool} (h : FirstOfBest key l a) (ha : p a = true) :
    FirstOfBest key (l.filter p) a := by
  rcases h with ⟨before, behind, rfl, hbefore, hbehind⟩
  refine ⟨before.filter p, behind.filter p, by simp [ha], fun b hb => ?_, fun b hb => ?_⟩
  · exact hbefore b ((List.mem_filter.mp hb).1)
  · exact hbehind b ((List.mem_filter.mp hb).1)

theorem firstMax_eq_none : firstMax key l = none ↔ l = [] := by
  cases l <;> simp [firstMax]

/-- There is one such entry at most. -/
theorem FirstOfBest.unique (ha : FirstOfBest key l a) (hb : FirstOfBest key l b) : a = b := by
  have hsame : key a = key b := le_antisymm (hb.le a ha.mem) (ha.le b hb.mem)
  rcases ha with ⟨pre, post, hl, hpre, -⟩
  rcases hb with ⟨pre', post', hl', hpre', -⟩
  have hnot : ∀ {c d : α} {l : List α}, key c = key d → c ∈ l → (∀ e ∈ l, key e < key d) → False :=
    fun hcd hc hall => absurd (hall _ hc) (by rw [hcd]; exact lt_irrefl _)
  rcases List.append_eq_append_iff.mp (hl.symm.trans hl') with ⟨mid, hmid, hrest⟩ | ⟨mid, hmid, hrest⟩
  · cases mid with
    | nil => exact (List.cons.inj hrest).1
    | cons d mid =>
        rw [List.cons_append, List.cons.injEq] at hrest
        exact (hnot hsame (by rw [hmid, hrest.1]; simp) hpre').elim
  · cases mid with
    | nil => exact (List.cons.inj hrest).1.symm
    | cons d mid =>
        rw [List.cons_append, List.cons.injEq] at hrest
        exact (hnot hsame.symm (by rw [hmid, hrest.1]; simp) hpre).elim

theorem firstMax_eq_some : firstMax key l = some a ↔ FirstOfBest key l a := by
  have hfold : ∀ a, firstMax key l = some a → FirstOfBest key l a := by
    intro a h
    cases l with
    | nil => cases h
    | cons b l =>
        cases h
        exact foldl_better b l
  refine ⟨hfold a, fun h => ?_⟩
  cases hmax : firstMax key l with
  | none =>
      rw [firstMax_eq_none.mp hmax] at h
      exact absurd h.mem (by simp)
  | some b => rw [(hfold b hmax).unique h]

end AutoTune.Lib
