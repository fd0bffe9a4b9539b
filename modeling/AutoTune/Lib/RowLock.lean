import Mathlib.Logic.Function.Basic
import Mathlib.Tactic.Common

/-!
# Transactions behind one row lock

Transactions that begin by writing one shared row. The write takes the row's lock and the lock is
held to the end of the transaction, so a second transaction waits at its first write. What a
transaction has read since then stays true of the store as long as nothing outside the lock changes
it.
-/

namespace AutoTune.Lib

universe u v w

variable {σ : Type u} {κ : Type v} {τ : Type w}

/-- The committed store, who holds the row, and the private data of the open transactions. -/
structure Locked (σ : Type u) (κ : Type v) (τ : Type w) where
  store : σ
  lock : Option κ := none
  working : κ → Option τ := fun _ => none

/-- How one statement of a transaction leaves it. -/
inductive Progress (σ : Type u) (τ : Type w) where
  | more (t : τ)
  | close (s : σ)

namespace Locked

/-- The first write of transaction `k`: it waits while another one holds the row. -/
def enter [DecidableEq κ] (d : Locked σ κ τ) (k : κ) (start : σ → Option τ) : Locked σ κ τ :=
  match d.lock, start d.store with
  | none, some t => { d with lock := some k, working := Function.update d.working k (some t) }
  | _, _ => d

/-- The next statement of transaction `k`, if it is open. -/
def proceed [DecidableEq κ] (d : Locked σ κ τ) (k : κ) (f : σ → τ → Progress σ τ) : Locked σ κ τ :=
  match d.working k with
  | none => d
  | some t =>
      match f d.store t with
      | .more t' => { d with working := Function.update d.working k (some t') }
      | .close s => ⟨s, none, Function.update d.working k none⟩

/-- A write by somebody who does not take the lock. -/
def elsewhere (d : Locked σ κ τ) (g : σ → σ) : Locked σ κ τ := { d with store := g d.store }

@[simp] theorem enter_store [DecidableEq κ] (d : Locked σ κ τ) (k : κ) (start : σ → Option τ) :
    (d.enter k start).store = d.store := by
  unfold enter
  split <;> rfl

/-- A statement leaves the store alone unless it ends its transaction. -/
theorem proceed_store [DecidableEq κ] (d : Locked σ κ τ) (k : κ) (f : σ → τ → Progress σ τ) :
    (d.proceed k f).store = d.store ∨
      ∃ t s, d.working k = some t ∧ f d.store t = .close s ∧ (d.proceed k f).store = s := by
  unfold proceed
  cases hk : d.working k with
  | none => exact Or.inl rfl
  | some t =>
      dsimp only
      cases hf : f d.store t with
      | more t' => exact Or.inl rfl
      | close s => exact Or.inr ⟨t, s, rfl, hf, rfl⟩

/-- `I` holds of the store, and whoever is open holds the row and has read what `J` says. -/
structure Guarded (I : σ → Prop) (J : σ → τ → Prop) (d : Locked σ κ τ) : Prop where
  inv : I d.store
  held : ∀ k t, d.working k = some t → d.lock = some k ∧ J d.store t

variable {I : σ → Prop} {J : σ → τ → Prop} {d : Locked σ κ τ}

theorem Guarded.initial {s : σ} (h : I s) : Guarded I J (⟨s, none, fun _ => none⟩ : Locked σ κ τ) :=
  ⟨h, by simp⟩

theorem Guarded.enter [DecidableEq κ] (h : Guarded I J d) (k : κ) {start : σ → Option τ}
    (hstart : ∀ t, start d.store = some t → J d.store t) :
    Guarded I J (d.enter k start) := by
  unfold Locked.enter
  split
  · rename_i t hlock ht
    refine ⟨h.inv, ?_⟩
    intro j t' hj
    by_cases hjk : j = k
    · subst hjk
      have : t = t' := by simpa using hj
      subst this
      exact ⟨rfl, hstart t ht⟩
    · -- nobody else was open, since nobody held the row
      have hj' : d.working j = some t' := by simpa [hjk] using hj
      have := (h.held j t' hj').1
      simp [hlock] at this
  · exact h

theorem Guarded.proceed [DecidableEq κ] (h : Guarded I J d) (k : κ) {f : σ → τ → Progress σ τ}
    (hmore : ∀ t t', J d.store t → f d.store t = .more t' → J d.store t')
    (hclose : ∀ t s, J d.store t → f d.store t = .close s → I s) :
    Guarded I J (d.proceed k f) := by
  unfold Locked.proceed
  cases hk : d.working k with
  | none => exact h
  | some t =>
      rcases h.held k t hk with ⟨hlock, hJ⟩
      -- the transaction that moves holds the row, so no other one is open
      have honly : ∀ j t', d.working j = some t' → j = k := by
        intro j t' hj
        have := (h.held j t' hj).1
        rw [hlock] at this
        exact (Option.some.inj this).symm
      dsimp only
      cases hf : f d.store t with
      | more t' =>
          refine ⟨h.inv, ?_⟩
          intro j t'' hj
          by_cases hjk : j = k
          · subst hjk
            have : t' = t'' := by simpa using hj
            subst this
            exact ⟨hlock, hmore t t' hJ hf⟩
          · exact absurd (honly j t'' (by simpa [hjk] using hj)) hjk
      | close s =>
          refine ⟨hclose t s hJ hf, ?_⟩
          intro j t'' hj
          by_cases hjk : j = k
          · subst hjk
            simp at hj
          · exact absurd (honly j t'' (by simpa [hjk] using hj)) hjk

theorem Guarded.elsewhere (h : Guarded I J d) {g : σ → σ} (hI : I (g d.store))
    (hJ : ∀ t, J d.store t → J (g d.store) t) : Guarded I J (d.elsewhere g) := by
  refine ⟨hI, ?_⟩
  intro k t hk
  exact ⟨(h.held k t hk).1, hJ t (h.held k t hk).2⟩

end Locked

end AutoTune.Lib
