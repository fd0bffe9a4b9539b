import Mathlib.Data.List.Basic

/-!
# Computations that may raise

A bind returns if both of its parts do, and a loop if each of its turns does.
-/

namespace AutoTune.Lib

variable {ε α β : Type}

theorem bind_eq_ok {x : Except ε α} {f : α → Except ε β} {b : β} :
    (x >>= f) = .ok b ↔ ∃ a, x = .ok a ∧ f a = .ok b := by
  cases x with
  | error e =>
      constructor
      · intro h
        cases h
      · rintro ⟨a, h, -⟩
        cases h
  | ok a =>
      constructor
      · intro h
        exact ⟨a, rfl, h⟩
      · rintro ⟨a', h, hf⟩
        cases h
        exact hf

/-- A bind raises if its first part does, or else its second. -/
theorem bind_eq_error {x : Except ε α} {f : α → Except ε β} {e : ε} :
    (x >>= f) = .error e ↔ x = .error e ∨ ∃ a, x = .ok a ∧ f a = .error e := by
  cases x with
  | error e' => simp [bind, Except.bind]
  | ok a => simp [bind, Except.bind]

theorem map_eq_ok {x : Except ε α} {f : α → β} {b : β} : x.map f = .ok b ↔ ∃ a, x = .ok a ∧ f a = b := by
  cases x with
  | error e =>
      constructor
      · intro h
        cases h
      · rintro ⟨a, h, -⟩
        cases h
  | ok a =>
      constructor
      · intro h
        exact ⟨a, rfl, Except.ok.inj h⟩
      · rintro ⟨a', h, rfl⟩
        cases h
        rfl

/-- What a loop returns is related to what it went over, turn by turn. -/
theorem mapM_eq_ok {f : α → Except ε β} {l : List α} {l' : List β} :
    l.mapM f = .ok l' ↔ List.Forall₂ (fun a b => f a = .ok b) l l' := by
  induction l generalizing l' with
  | nil =>
      rw [List.mapM_nil]
      constructor
      · intro h
        cases h
        exact List.Forall₂.nil
      · intro h
        cases h
        rfl
  | cons a l ih =>
      rw [List.mapM_cons, bind_eq_ok]
      constructor
      · rintro ⟨b, hb, h⟩
        rcases bind_eq_ok.mp h with ⟨m, hm, h⟩
        cases h
        exact List.Forall₂.cons hb (ih.mp hm)
      · intro h
        cases h with
        | cons hb hl => exact ⟨_, hb, bind_eq_ok.mpr ⟨_, ih.mpr hl, rfl⟩⟩

/-- The same for a loop that may end without a value. -/
theorem mapM_eq_some {f : α → Option β} {l : List α} {l' : List β} :
    l.mapM f = some l' ↔ List.Forall₂ (fun a b => f a = some b) l l' := by
  induction l generalizing l' with
  | nil =>
      rw [List.mapM_nil]
      constructor
      · intro h
        cases h
        exact List.Forall₂.nil
      · intro h
        cases h
        rfl
  | cons a l ih =>
      rw [List.mapM_cons, Option.bind_eq_bind, Option.bind_eq_some_iff]
      constructor
      · rintro ⟨b, hb, h⟩
        rcases Option.bind_eq_some_iff.mp h with ⟨m, hm, h⟩
        cases h
        exact List.Forall₂.cons hb (ih.mp hm)
      · intro h
        cases h with
        | cons hb hl => exact ⟨_, hb, Option.bind_eq_some_iff.mpr ⟨_, ih.mpr hl, rfl⟩⟩

/-- A loop returns if every turn does. -/
theorem mapM_returns {f : α → Except ε β} {P : β → Prop} {l : List α}
    (h : ∀ a ∈ l, ∃ b, f a = .ok b ∧ P b) : ∃ l', l.mapM f = .ok l' ∧ ∀ b ∈ l', P b := by
  induction l with
  | nil => exact ⟨[], rfl, fun b hb => absurd hb List.not_mem_nil⟩
  | cons a l ih =>
      rcases h a List.mem_cons_self with ⟨b, hb, hP⟩
      rcases ih fun a' ha' => h a' (List.mem_cons_of_mem a ha') with ⟨m, hm, hall⟩
      refine ⟨b :: m, mapM_eq_ok.mpr (List.Forall₂.cons hb (mapM_eq_ok.mp hm)), fun c hc => ?_⟩
      rcases List.mem_cons.mp hc with rfl | hc
      · exact hP
      · exact hall c hc

/-- A loop that returns has returned at every turn. -/
theorem mapM_turns {f : α → Except ε β} {l : List α} {l' : List β} (h : l.mapM f = .ok l') :
    ∀ a ∈ l, ∃ b, f a = .ok b := by
  have hall := mapM_eq_ok.mp h
  clear h
  induction hall with
  | nil => exact fun a ha => absurd ha List.not_mem_nil
  | @cons a b l l' hab _ ih =>
      intro c hc
      rcases List.mem_cons.mp hc with rfl | hc
      · exact ⟨b, hab⟩
      · exact ih c hc

end AutoTune.Lib
