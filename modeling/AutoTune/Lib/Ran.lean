import Mathlib.Tactic.Common

/-!
# Procedures that may raise

A procedure acts on a state and may stop with an exception; the writes it made before the exception
stay in the state. Whether they survive is the caller's business: it may catch the exception and go
on, or let it propagate to a rollback.
-/

namespace AutoTune.Lib

universe u v w

variable {σ : Type u} {ε : Type v} {ι : Type w}

/-- The state a procedure leaves, and the exception it stopped with, if any. -/
structure Ran (σ : Type u) (ε : Type v) where
  state : σ
  raised : Option ε

namespace Ran

/-- A procedure that returned. -/
def done (s : σ) : Ran σ ε := ⟨s, none⟩

/-- A procedure stopped by an exception. -/
def raise (s : σ) (e : ε) : Ran σ ε := ⟨s, some e⟩

/-- Sequencing: the second part runs only when the first returned. -/
def andThen (r : Ran σ ε) (f : σ → Ran σ ε) : Ran σ ε :=
  match r.raised with
  | none => f r.state
  | some _ => r

/-- A loop over a list read before the loop started. -/
def forEach (f : ι → σ → Ran σ ε) : List ι → σ → Ran σ ε
  | [], s => done s
  | i :: l, s => (f i s).andThen (forEach f l)

@[simp] theorem done_state (s : σ) : (done s : Ran σ ε).state = s := rfl
@[simp] theorem done_raised (s : σ) : (done s : Ran σ ε).raised = none := rfl
@[simp] theorem raise_state (s : σ) (e : ε) : (raise s e).state = s := rfl
@[simp] theorem raise_raised (s : σ) (e : ε) : (raise s e).raised = some e := rfl
@[simp] theorem andThen_done (s : σ) (f : σ → Ran σ ε) : (done s).andThen f = f s := rfl
@[simp] theorem andThen_raise (s : σ) (e : ε) (f : σ → Ran σ ε) :
    (raise s e).andThen f = raise s e := rfl
@[simp] theorem forEach_nil (f : ι → σ → Ran σ ε) (s : σ) : forEach f [] s = done s := rfl
@[simp] theorem forEach_cons (f : ι → σ → Ran σ ε) (i : ι) (l : List ι) (s : σ) :
    forEach f (i :: l) s = (f i s).andThen (forEach f l) := rfl

theorem eq_done {r : Ran σ ε} (h : r.raised = none) : r = done r.state := by
  cases r
  simp_all [done]

theorem andThen_of_returned {r : Ran σ ε} (h : r.raised = none) (f : σ → Ran σ ε) :
    r.andThen f = f r.state := by
  rw [eq_done h]
  rfl

theorem andThen_of_raised {r : Ran σ ε} {e : ε} (h : r.raised = some e) (f : σ → Ran σ ε) :
    r.andThen f = r := by
  simp [andThen, h]

/-- Whatever both parts keep, the sequence keeps, whether or not it raises. -/
theorem andThen_preserves {I : σ → Prop} {r : Ran σ ε} {f : σ → Ran σ ε} (hr : I r.state)
    (hf : ∀ s, I s → I (f s).state) : I (r.andThen f).state := by
  cases h : r.raised with
  | none => simpa [andThen_of_returned h] using hf _ hr
  | some e => simpa [andThen_of_raised h] using hr

/-- Loop rule: what every iteration keeps, the loop keeps. -/
theorem forEach_preserves {I : σ → Prop} {f : ι → σ → Ran σ ε} {l : List ι}
    (hf : ∀ i ∈ l, ∀ s, I s → I (f i s).state) {s : σ} (hs : I s) : I (forEach f l s).state := by
  induction l generalizing s with
  | nil => exact hs
  | cons i l ih =>
      rw [forEach_cons]
      apply andThen_preserves (hf i (List.mem_cons_self) s hs)
      intro s' hs'
      exact ih (fun j hj => hf j (List.mem_cons_of_mem i hj)) hs'

/-- A loop whose every iteration returns, returns. -/
theorem forEach_returns {f : ι → σ → Ran σ ε} (hf : ∀ i s, (f i s).raised = none) (l : List ι)
    (s : σ) : (forEach f l s).raised = none := by
  induction l generalizing s with
  | nil => rfl
  | cons i l ih =>
      rw [forEach_cons, andThen_of_returned (hf i s)]
      exact ih _

end Ran

end AutoTune.Lib
