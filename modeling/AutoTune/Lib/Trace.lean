import Mathlib.Order.Monotone.Basic
import Mathlib.Tactic.Common

/-!
# Runs of a step function

A run is a fold of a step function over a list of actions. `Along P s l` says that `P` holds of
every (state, action) pair the run from `s` meets: with `P` a condition on steps it states an
assumption about a whole run, with `P` a property it states a conclusion about a whole run.
-/

namespace AutoTune.Lib

universe u v

variable {σ : Type u} {ι : Type v} {step : σ → ι → σ}

/-- The state a run ends in. -/
def runFrom (step : σ → ι → σ) (s : σ) (l : List ι) : σ :=
  l.foldl step s

@[simp] theorem runFrom_nil (s : σ) : runFrom step s [] = s := rfl

@[simp] theorem runFrom_cons (s : σ) (i : ι) (l : List ι) :
    runFrom step s (i :: l) = runFrom step (step s i) l := rfl

/-- `P` holds of each step of the run from `s`, at the state the step starts in. -/
def Along (step : σ → ι → σ) (P : σ → ι → Prop) : σ → List ι → Prop
  | _, [] => True
  | s, i :: l => P s i ∧ Along step P (step s i) l

@[simp] theorem along_nil (P : σ → ι → Prop) (s : σ) : Along step P s [] := trivial

@[simp] theorem along_cons (P : σ → ι → Prop) (s : σ) (i : ι) (l : List ι) :
    Along step P s (i :: l) ↔ P s i ∧ Along step P (step s i) l := Iff.rfl

/-- A condition that can be decided of every step can be decided of a run. -/
instance decidableAlong {P : σ → ι → Prop} [∀ s i, Decidable (P s i)] :
    ∀ (s : σ) (l : List ι), Decidable (Along step P s l)
  | _, [] => inferInstanceAs (Decidable True)
  | s, i :: l =>
      have : Decidable (Along step P (step s i) l) := decidableAlong (step s i) l
      inferInstanceAs (Decidable (P s i ∧ Along step P (step s i) l))

theorem runFrom_append (s : σ) (l l' : List ι) :
    runFrom step s (l ++ l') = runFrom step (runFrom step s l) l' :=
  List.foldl_append

theorem along_append {P : σ → ι → Prop} {s : σ} {l l' : List ι} :
    Along step P s (l ++ l') ↔ Along step P s l ∧ Along step P (runFrom step s l) l' := by
  induction l generalizing s with
  | nil => simp
  | cons i l ih =>
      rw [List.cons_append, along_cons, along_cons, ih, runFrom_cons, and_assoc]

/-- Invariant rule: what every permitted step preserves holds at the end of every permitted run. -/
theorem invariant_runFrom {P : σ → ι → Prop} {I : σ → Prop}
    (hstep : ∀ s i, I s → P s i → I (step s i)) :
    ∀ {s : σ} {l : List ι}, I s → Along step P s l → I (runFrom step s l) := by
  intro s l
  induction l generalizing s with
  | nil =>
      intro hs _
      exact hs
  | cons i l ih =>
      intro hs hl
      exact ih (hstep s i hs hl.1) hl.2

/-- The unconditional case of the invariant rule. -/
theorem invariant_of_step {I : σ → Prop} (hstep : ∀ s i, I s → I (step s i)) {s : σ}
    (hs : I s) (l : List ι) : I (runFrom step s l) := by
  induction l generalizing s with
  | nil => exact hs
  | cons i l ih => exact ih (hstep s i hs)

/-- The same rule for what each step does, not only for the state it leaves. -/
theorem along_of_invariant {P Q : σ → ι → Prop} {I : σ → Prop}
    (hstep : ∀ s i, I s → P s i → I (step s i) ∧ Q s i) :
    ∀ {s : σ} {l : List ι}, I s → Along step P s l → Along step Q s l := by
  intro s l
  induction l generalizing s with
  | nil =>
      intro _ _
      trivial
  | cons i l ih =>
      intro hs hl
      have h := hstep s i hs hl.1
      exact ⟨h.2, ih h.1 hl.2⟩

/-! ## Turns

A loop that reads something new at every turn: the state after `n` of them. -/

/-- The state after `n` turns, turn `k` reading `input k`. -/
def turns (step : σ → ι → σ) (input : Nat → ι) (s : σ) : Nat → σ
  | 0 => s
  | n + 1 => step (turns step input s n) (input n)

@[simp] theorem turns_zero (input : Nat → ι) (s : σ) : turns step input s 0 = s := rfl

theorem turns_succ (input : Nat → ι) (s : σ) (n : Nat) :
    turns step input s (n + 1) = step (turns step input s n) (input n) := rfl

/-- The first turn taken apart from the rest. -/
theorem turns_succ_eq (input : Nat → ι) (s : σ) (n : Nat) :
    turns step input s (n + 1) = turns step (fun k => input (k + 1)) (step s (input 0)) n := by
  induction n with
  | zero => rfl
  | succ n ih =>
      rw [turns_succ, ih, ← @turns_succ _ _ step (fun k => input (k + 1))]

/-- What no turn takes away is there at every later one. -/
theorem turns_mono {α : Type*} {S : σ → α → Prop} (hstep : ∀ s i a, S s a → S (step s i) a)
    (input : Nat → ι) (s : σ) {i j : Nat} (hij : i ≤ j) {a : α} (h : S (turns step input s i) a) :
    S (turns step input s j) a := by
  induction hij with
  | refl => exact h
  | step _ ih => exact hstep _ _ a ih

/-- A loop ends if every turn before its end goes down in a well-founded order. -/
theorem turns_end {α : Type*} {r : α → α → Prop} (hr : WellFounded r) (measure : σ → α)
    (ended : σ → Prop) (hstep : ∀ s i, ¬ ended s → r (measure (step s i)) (measure s))
    (input : Nat → ι) (s : σ) : ∃ n, ended (turns step input s n) := by
  induction hs : measure s using hr.induction generalizing s input with
  | h a ih =>
      by_cases hended : ended s
      · exact ⟨0, hended⟩
      · have hless : r (measure (step s (input 0))) a := hs ▸ hstep s (input 0) hended
        rcases ih _ hless (fun k => input (k + 1)) _ rfl with ⟨n, hn⟩
        exact ⟨n + 1, by rwa [turns_succ_eq]⟩

/-- A number that never goes down and stays below a bound stops changing. -/
theorem bounded_settles (f : Nat → Nat) (bound : Nat) (hup : ∀ n, f n ≤ f (n + 1))
    (hbound : ∀ n, f n ≤ bound) : ∃ N, ∀ n, N ≤ n → f n = f N := by
  have hmono : ∀ m n, m ≤ n → f m ≤ f n := fun m n hmn => monotone_nat_of_le_succ hup hmn
  induction hgap : bound - f 0 using Nat.strong_induction_on generalizing f with
  | _ gap ih =>
      by_cases hmoves : ∃ n, f 0 < f n
      · rcases hmoves with ⟨n, hn⟩
        have hbn := hbound n
        -- from `n` on there is less room below the bound
        rcases ih (bound - f n) (by omega) (fun k => f (n + k)) (fun k => hup (n + k))
          (fun k => hbound (n + k)) (fun a b hab => hmono _ _ (by omega)) (by simp) with ⟨N, hN⟩
        refine ⟨n + N, fun m hm => ?_⟩
        have hrest := hN (m - n) (by omega)
        rwa [show n + (m - n) = m by omega] at hrest
      · rw [not_exists] at hmoves
        exact ⟨0, fun n _ => le_antisymm (not_lt.mp (hmoves n)) (hmono 0 n (Nat.zero_le n))⟩

end AutoTune.Lib
