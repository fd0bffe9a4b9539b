import Mathlib

/-!
# Numbers given out one after another

A log whose entries should carry the numbers `1..n`. What is appended to it continues the numbers exactly when each
new entry carries the number of its place, and an entry can only carry too small a number when it was counted
before the log grew.
-/

namespace AutoTune.Lib

universe u

variable {α : Type u}

/-- The numbers are `1..n`, each of them once. -/
def Numbered (l : List Nat) : Prop := l.Perm (List.range' 1 l.length)

theorem numbered_range' (n : Nat) : Numbered (List.range' 1 n) := by
  unfold Numbered
  rw [List.length_range']

/-- What a numbered log can be continued with. -/
theorem Numbered.rest {l q : List Nat} (h : Numbered l) (hall : Numbered (l ++ q)) :
    q.Perm (List.range' (l.length + 1) q.length) := by
  have hsplit : List.range' 1 (l ++ q).length = List.range' 1 l.length ++ List.range' (l.length + 1) q.length := by
    rw [List.length_append, Nat.add_comm l.length 1, List.range'_append_1]
  have hboth : (List.range' 1 l.length ++ q).Perm (List.range' 1 l.length ++ List.range' (l.length + 1) q.length) := by
    rw [← hsplit]
    exact ((List.Perm.append_right q h).symm).trans hall
  exact (List.perm_append_left_iff _).mp hboth

/-- Of two lists with one sum, where no entry of the first is above its partner, none is below it. -/
theorem eq_of_sum_eq {l : List α} {f g : α → Nat} (hle : ∀ x ∈ l, f x ≤ g x)
    (hsum : (l.map f).sum = (l.map g).sum) : ∀ x ∈ l, f x = g x := by
  induction l with
  | nil =>
      intro x hx
      cases hx
  | cons a l ih =>
      have htail : (l.map f).sum ≤ (l.map g).sum :=
        List.sum_le_sum fun x hx => hle x (List.mem_cons_of_mem a hx)
      have hhead : f a ≤ g a := hle a List.mem_cons_self
      rw [List.map_cons, List.map_cons, List.sum_cons, List.sum_cons] at hsum
      intro x hx
      rcases List.mem_cons.mp hx with rfl | hx
      · omega
      · exact ih (fun y hy => hle y (List.mem_cons_of_mem a hy)) (by omega) x hx

/-- Entries counted before they were appended continue a numbered log only with the numbers of their places. -/
theorem Numbered.placed {l : List Nat} {q : List α} (number place : α → Nat) (h : Numbered l)
    (hall : Numbered (l ++ q.map number)) (hplace : q.map place = List.range' (l.length + 1) q.length)
    (hle : ∀ x ∈ q, number x ≤ place x) : ∀ x ∈ q, number x = place x := by
  refine eq_of_sum_eq hle ?_
  rw [hplace, (h.rest hall).sum_eq, List.length_map]

end AutoTune.Lib
