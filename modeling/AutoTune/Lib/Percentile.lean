import Mathlib.Data.List.Sort
import Mathlib.Order.Basic

/-!
# The value at a rank

What stands at a position of a sorted list, told by counting: it lies above a bound exactly when enough of
the list does.
-/

namespace AutoTune.Lib

variable {α : Type*} [LinearOrder α]

theorem countP_above_of_lt {l : List α} (hsorted : l.Pairwise (· ≤ ·)) {k : Nat} (hk : k < l.length) {bound : α}
    (h : bound < l[k]) : l.length - k ≤ l.countP (fun x => bound < x) := by
  -- everything from the position on is above the bound
  have habove : ∀ x ∈ l.drop k, decide (bound < x) = true := by
    intro x hx
    rcases List.mem_drop_iff_getElem.mp hx with ⟨i, hi, rfl⟩
    have hle : l[k] ≤ l[k + i] := by
      rcases Nat.eq_zero_or_pos i with rfl | hpos
      · exact le_refl _
      · exact List.pairwise_iff_getElem.mp hsorted k (k + i) hk (by omega) (by omega)
    exact decide_eq_true (lt_of_lt_of_le h hle)
  calc
    l.length - k = (l.drop k).length := by rw [List.length_drop]
    _ = (l.drop k).countP (fun x => bound < x) := (List.countP_eq_length.mpr habove).symm
    _ ≤ l.countP (fun x => bound < x) := (List.drop_sublist k l).countP_le

theorem countP_above_of_le {l : List α} (hsorted : l.Pairwise (· ≤ ·)) {k : Nat} (hk : k < l.length) {bound : α}
    (h : l[k] ≤ bound) : l.countP (fun x => bound < x) < l.length - k := by
  -- nothing up to the position is above the bound
  have hbelow : (l.take (k + 1)).countP (fun x => bound < x) = 0 := by
    refine List.countP_eq_zero.mpr fun x hx => ?_
    rcases List.mem_take_iff_getElem.mp hx with ⟨i, hi, rfl⟩
    have hle : l[i] ≤ l[k] := by
      rcases Nat.lt_or_ge i k with hlt | hge
      · exact List.pairwise_iff_getElem.mp hsorted i k _ hk hlt
      · have hik : i = k := by omega
        subst hik
        exact le_refl _
    simpa using le_trans hle h
  have hsplit : l.countP (fun x => bound < x) = (l.drop (k + 1)).countP (fun x => bound < x) := by
    conv_lhs => rw [← List.take_append_drop (k + 1) l]
    rw [List.countP_append, hbelow, Nat.zero_add]
  have hrest := List.countP_le_length (p := fun x => decide (bound < x)) (l := l.drop (k + 1))
  rw [List.length_drop] at hrest
  omega

/-- The value at a position of the sorted list is above a bound when as many are as stand from there on. -/
theorem lt_sorted_iff {l : List α} {k : Nat} (hk : k < (l.insertionSort (· ≤ ·)).length) (bound : α) :
    bound < (l.insertionSort (· ≤ ·))[k] ↔ l.length - k ≤ l.countP (fun x => bound < x) := by
  have hsorted : (l.insertionSort (· ≤ ·)).Pairwise (· ≤ ·) := List.pairwise_insertionSort _ l
  have hcount : (l.insertionSort (· ≤ ·)).countP (fun x => bound < x) = l.countP (fun x => bound < x) :=
    (List.perm_insertionSort _ l).countP_eq _
  have hlen : (l.insertionSort (· ≤ ·)).length = l.length := List.length_insertionSort _ l
  constructor
  · intro h
    have hmany := countP_above_of_lt hsorted hk h
    rwa [hcount, hlen] at hmany
  · intro h
    by_contra hnot
    have hfew := countP_above_of_le hsorted hk (not_lt.mp hnot)
    rw [hcount, hlen] at hfew
    omega

end AutoTune.Lib
