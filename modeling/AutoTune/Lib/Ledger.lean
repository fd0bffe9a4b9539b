import Mathlib.Data.List.Lemmas
import Mathlib.Tactic.Common

/-!
# Exclusive holdings

Numbered units handed out to holders. A ledger is exclusive when no unit has two holders, no unit
lies past the bound, and a holder that recorded no units (an unknown set, read as all of them) has
no company. Releases keep this, and so does a grant from what nobody holds.
-/

namespace AutoTune.Lib

universe u

variable {α : Type u} {units : α → List Nat} {bound : Nat} {l l' : List α}

structure Exclusive (units : α → List Nat) (bound : Nat) (l : List α) : Prop where
  disjoint : l.Pairwise fun a b => List.Disjoint (units a) (units b)
  bounded : ∀ a ∈ l, ∀ i ∈ units a, i < bound
  alone : 0 < bound → ∀ a ∈ l, units a = [] → l = [a]

namespace Exclusive

theorem nil : Exclusive units bound [] where
  disjoint := List.Pairwise.nil
  bounded := by simp
  alone := by simp

/-- A release leaves a sublist of the holders. -/
theorem sublist (h : Exclusive units bound l) (hs : l'.Sublist l) : Exclusive units bound l' where
  disjoint := h.disjoint.sublist hs
  bounded := fun a ha => h.bounded a (hs.subset ha)
  alone := by
    intro hb a ha he
    have hl : l = [a] := h.alone hb a (hs.subset ha) he
    rw [hl] at hs
    rcases List.sublist_singleton.mp hs with rfl | rfl
    · simp at ha
    · rfl

/-- A grant of units nobody holds, next to holders that all recorded theirs. -/
theorem grant (h : Exclusive units bound l) {a : α}
    (hknown : ∀ b ∈ l, units b ≠ []) (hsome : units a ≠ [])
    (hfree : ∀ i ∈ units a, i < bound ∧ ∀ b ∈ l, i ∉ units b) :
    Exclusive units bound (l ++ [a]) where
  disjoint := by
    refine List.pairwise_append.mpr ⟨h.disjoint, List.pairwise_singleton _ _, ?_⟩
    intro b hb c hc i hib hic
    have hc' : c = a := by simpa using hc
    exact (hfree i (hc' ▸ hic)).2 b hb hib
  bounded := by
    intro b hb i hi
    rcases List.mem_append.mp hb with hb | hb
    · exact h.bounded b hb i hi
    · have hb' : b = a := by simpa using hb
      exact (hfree i (hb' ▸ hi)).1
  alone := by
    intro _ b hb he
    rcases List.mem_append.mp hb with hb | hb
    · exact absurd he (hknown b hb)
    · have hb' : b = a := by simpa using hb
      exact absurd (hb' ▸ he) hsome

/-- A first holder, with units under the bound. -/
theorem single {a : α} (hb : ∀ i ∈ units a, i < bound) : Exclusive units bound [a] where
  disjoint := List.pairwise_singleton _ _
  bounded := by simpa using hb
  alone := by
    intro _ b hb _
    have hb' : b = a := by simpa using hb
    rw [hb']

end Exclusive

end AutoTune.Lib
