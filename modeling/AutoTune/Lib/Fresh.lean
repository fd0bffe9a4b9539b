import Mathlib.Data.List.Nodup
import Mathlib.Data.List.Perm.Subperm
import Mathlib.Logic.Function.Iterate

/-!
# Looking for a free name

A loop takes the next candidate while the one it has is taken. If the candidates after the first are all
different it ends, within as many turns as there are names taken and one more.
-/

namespace AutoTune.Lib

universe u v

variable {σ : Type u} {α : Type v} (next : σ → σ) (name : σ → α)

/-- The loop from one candidate ends at another. -/
inductive EndsAt (taken : List α) : σ → σ → Prop where
  | done {s : σ} (h : name s ∉ taken) : EndsAt taken s s
  | again {s r : σ} (h : name s ∈ taken) (rest : EndsAt taken (next s) r) : EndsAt taken s r

variable {next name}

/-- Where it ends the name is free. -/
theorem EndsAt.free {taken : List α} {s r : σ} (h : EndsAt next name taken s r) : name r ∉ taken := by
  induction h with
  | done h => exact h
  | again _ _ ih => exact ih

/-- It ends at one candidate only. -/
theorem EndsAt.unique {taken : List α} {s r r' : σ} (h : EndsAt next name taken s r)
    (h' : EndsAt next name taken s r') : r = r' := by
  induction h with
  | done h =>
      cases h' with
      | done => rfl
      | again htaken => exact absurd htaken h
  | again htaken _ ih =>
      cases h' with
      | done h => exact absurd htaken h
      | again _ rest => exact ih rest

variable (next name) [DecidableEq α]

/-- The loop, stopped after so many turns. -/
def seekFree (taken : List α) : Nat → σ → σ
  | 0, s => s
  | turns + 1, s => if name s ∈ taken then seekFree taken turns (next s) else s

variable {next name}

/-- If it has not ended, every candidate so far is taken. -/
theorem seekFree_endsAt_or {taken : List α} (turns : Nat) (s : σ) :
    EndsAt next name taken s (seekFree next name taken turns s) ∨ ∀ i ≤ turns, name (next^[i] s) ∈ taken := by
  induction turns generalizing s with
  | zero =>
      by_cases h : name s ∈ taken
      · right
        intro i hi
        rw [Nat.le_zero.mp hi]
        exact h
      · exact Or.inl (EndsAt.done h)
  | succ turns ih =>
      unfold seekFree
      by_cases h : name s ∈ taken
      · rw [if_pos h]
        rcases ih (next s) with hends | hall
        · exact Or.inl (EndsAt.again h hends)
        · right
          intro i hi
          cases i with
          | zero => exact h
          | succ i => exact hall i (Nat.le_of_succ_le_succ hi)
      · rw [if_neg h]
        exact Or.inl (EndsAt.done h)

/-- Different candidates cannot all be taken. -/
theorem seekFree_endsAt {taken : List α} {s : σ}
    (hdiffer : Function.Injective fun i => name (next^[i] s)) :
    EndsAt next name taken s (seekFree next name taken taken.length s) := by
  have hor : EndsAt next name taken s (seekFree next name taken taken.length s) ∨
      ∀ i ≤ taken.length, name (next^[i] s) ∈ taken := seekFree_endsAt_or taken.length s
  rcases hor with h | hall
  · exact h
  · have hnd : ((List.range (taken.length + 1)).map fun i => name (next^[i] s)).Nodup :=
      List.nodup_range.map hdiffer
    have hsub : ((List.range (taken.length + 1)).map fun i => name (next^[i] s)) ⊆ taken := by
      intro a ha
      rcases List.mem_map.mp ha with ⟨i, hi, rfl⟩
      exact hall i (Nat.le_of_lt_succ (List.mem_range.mp hi))
    have hle := (hnd.subperm hsub).length_le
    rw [List.length_map, List.length_range] at hle
    exact absurd hle (Nat.not_succ_le_self _)

/-- The first candidate may be one of the later ones: it costs one turn more. -/
theorem seekFree_succ_endsAt {taken : List α} {s : σ}
    (hdiffer : Function.Injective fun i => name (next^[i] (next s))) :
    EndsAt next name taken s (seekFree next name taken (taken.length + 1) s) := by
  unfold seekFree
  by_cases h : name s ∈ taken
  · rw [if_pos h]
    exact EndsAt.again h (seekFree_endsAt hdiffer)
  · rw [if_neg h]
    exact EndsAt.done h

end AutoTune.Lib
