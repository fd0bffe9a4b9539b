import AutoTune.Lib.Ran

/-!
# Sweeps that stop items with side effects

A sweep stops every item of a list read beforehand. Stopping an item may drag other items down with
it, and stopping an item that is already down is an error. The sweep therefore returns exactly when
no item stands in the list behind one that drags it.
-/

namespace AutoTune.Lib

universe u v w

/-- A stop operation on a class `inv` of states: it succeeds on what is up, fails on what is down,
and takes down the item together with those it drags. -/
structure Stopping (σ : Type u) (ι : Type v) (ε : Type w) where
  stop : ι → σ → Ran σ ε
  item : ι → Prop
  up : σ → ι → Prop
  drags : ι → ι → Prop
  inv : σ → Prop
  inv_stop : ∀ s i, inv s → up s i → inv (stop i s).state
  stop_up : ∀ s i, inv s → up s i → (stop i s).raised = none
  stop_down : ∀ s i, inv s → item i → ¬ up s i → (stop i s).raised ≠ none
  up_stop : ∀ s i j, inv s → up s i →
    (up (stop i s).state j ↔ up s j ∧ j ≠ i ∧ ¬ drags i j)

namespace Stopping

variable {σ : Type u} {ι : Type v} {ε : Type w} (S : Stopping σ ι ε)

/-- A sweep whose list holds an item that is already down does not return. -/
theorem raises_of_down {l : List ι} {s : σ} {j : ι} (hs : S.inv s) (hitem : ∀ i ∈ l, S.item i)
    (hj : j ∈ l) (hdown : ¬ S.up s j) : (Ran.forEach S.stop l s).raised ≠ none := by
  induction l generalizing s with
  | nil => cases hj
  | cons i l ih =>
      rw [Ran.forEach_cons]
      by_cases hi : S.up s i
      · have hne : j ≠ i := by
          rintro rfl
          exact hdown hi
        rw [Ran.andThen_of_returned (S.stop_up s i hs hi)]
        refine ih (S.inv_stop s i hs hi) (fun k hk => hitem k (List.mem_cons_of_mem i hk))
          ((List.mem_cons.mp hj).resolve_left hne) ?_
        intro hup
        exact hdown ((S.up_stop s i j hs hi).mp hup).1
      · intro hnone
        have hraised := S.stop_down s i hs (hitem i List.mem_cons_self) hi
        cases h : (S.stop i s).raised with
        | none => exact hraised h
        | some e =>
            rw [Ran.andThen_of_raised h, h] at hnone
            cases hnone

/-- A sweep over items that are up returns exactly when none stands behind one that drags it. -/
theorem returns_iff {l : List ι} {s : σ} (hs : S.inv s) (hitem : ∀ i ∈ l, S.item i)
    (hnd : l.Nodup) (hup : ∀ i ∈ l, S.up s i) :
    (Ran.forEach S.stop l s).raised = none ↔ l.Pairwise fun i j => ¬ S.drags i j := by
  induction l generalizing s with
  | nil => simp
  | cons i l ih =>
      rw [List.nodup_cons] at hnd
      have hi : S.up s i := hup i List.mem_cons_self
      have hrest : ∀ j ∈ l, S.up s j := fun j hj => hup j (List.mem_cons_of_mem i hj)
      have hitem' : ∀ j ∈ l, S.item j := fun j hj => hitem j (List.mem_cons_of_mem i hj)
      have hs' := S.inv_stop s i hs hi
      rw [Ran.forEach_cons, Ran.andThen_of_returned (S.stop_up s i hs hi), List.pairwise_cons]
      have hup' : ∀ j ∈ l, (S.up (S.stop i s).state j ↔ ¬ S.drags i j) := by
        intro j hj
        have hne : j ≠ i := by
          rintro rfl
          exact hnd.1 hj
        rw [S.up_stop s i j hs hi]
        exact ⟨fun h => h.2.2, fun h => ⟨hrest j hj, hne, h⟩⟩
      constructor
      · intro hnone
        have hfree : ∀ j ∈ l, ¬ S.drags i j := by
          intro j hj hdrag
          exact S.raises_of_down hs' hitem' hj (fun h => (hup' j hj).mp h hdrag) hnone
        exact ⟨hfree, (ih hs' hitem' hnd.2 fun j hj => (hup' j hj).mpr (hfree j hj)).mp hnone⟩
      · rintro ⟨hfree, hpair⟩
        exact (ih hs' hitem' hnd.2 fun j hj => (hup' j hj).mpr (hfree j hj)).mpr hpair

/-- A loop that stops some of its items is the sweep over those items. -/
theorem forEach_filter {f : ι → σ → Ran σ ε} {sel : ι → Bool}
    (hf : ∀ i s, S.inv s → f i s = if sel i then S.stop i s else Ran.done s) {l : List ι}
    (hitem : ∀ i ∈ l, S.item i) {s : σ} (hs : S.inv s) :
    Ran.forEach f l s = Ran.forEach S.stop (l.filter sel) s := by
  induction l generalizing s with
  | nil => rfl
  | cons i l ih =>
      have hitem' : ∀ j ∈ l, S.item j := fun j hj => hitem j (List.mem_cons_of_mem i hj)
      rw [Ran.forEach_cons, hf i s hs]
      by_cases hsel : sel i = true
      · rw [if_pos hsel, List.filter_cons_of_pos hsel, Ran.forEach_cons]
        by_cases hi : S.up s i
        · rw [Ran.andThen_of_returned (S.stop_up s i hs hi),
            Ran.andThen_of_returned (S.stop_up s i hs hi), ih hitem' (S.inv_stop s i hs hi)]
        · cases h : (S.stop i s).raised with
          | none => exact absurd h (S.stop_down s i hs (hitem i List.mem_cons_self) hi)
          | some e => rw [Ran.andThen_of_raised h, Ran.andThen_of_raised h]
      · rw [if_neg hsel, List.filter_cons_of_neg hsel, Ran.andThen_done]
        exact ih hitem' hs

end Stopping

end AutoTune.Lib
