import Mathlib.Data.List.Forall2
import Mathlib.Data.List.Induction
import Mathlib.Data.List.Nodup

/-!
# Steps that are undone when one fails

A procedure acts on a state and may raise; what it did before stays done. A saga makes its steps one after another,
and when one raises it undoes those that were made, the last one first. Each step has a place of its own in the
state: then a saga that returns leaves every place as its step left it, and one that raises leaves nothing of the
steps it made, wherever undoing works.
-/

namespace AutoTune.Lib

/-- What is told of the one list is told of the other. -/
theorem map_eq_of_forall₂ {α β γ : Type} {R : α → β → Prop} {f : β → γ} {g : α → γ} {l : List α} {l' : List β}
    (h : List.Forall₂ R l l') (hR : ∀ a b, R a b → f b = g a) : l'.map f = l.map g := by
  induction h with
  | nil => rfl
  | cons hhead _ ih => rw [List.map_cons, List.map_cons, hR _ _ hhead, ih]

/-! ## Procedures -/

section Procedures

variable {σ ε α β : Type}

/-- A procedure that returns or raises, and the state it leaves. -/
def Proc (σ ε α : Type) : Type := σ → Except ε α × σ

namespace Proc

/-- One after the other, unless the first raised. -/
def andThen (m : Proc σ ε α) (f : α → Proc σ ε β) : Proc σ ε β := fun s =>
  match m s with
  | (.ok a, s) => f a s
  | (.error e, s) => (.error e, s)

instance : Monad (Proc σ ε) where
  pure a s := (.ok a, s)
  bind := andThen

def raise (e : ε) : Proc σ ε α := fun s => (.error e, s)

def current : Proc σ ε σ := fun s => (.ok s, s)

/-- What it raises is dropped. -/
def swallow (m : Proc σ ε Unit) : Proc σ ε Unit := fun s => (.ok (), (m s).2)

theorem pure_run (a : α) (s : σ) : (pure a : Proc σ ε α) s = (.ok a, s) := rfl

theorem bind_run (m : Proc σ ε α) (f : α → Proc σ ε β) (s : σ) : (m >>= f) s =
    match m s with
    | (.ok a, s) => f a s
    | (.error e, s) => (.error e, s) := rfl

/-- A sequence returns where both parts do. -/
theorem bind_ok {m : Proc σ ε α} {f : α → Proc σ ε β} {s s' : σ} {b : β} :
    (m >>= f) s = (.ok b, s') ↔ ∃ a s₁, m s = (.ok a, s₁) ∧ f a s₁ = (.ok b, s') := by
  rw [bind_run]
  rcases h : m s with ⟨a | a, s₁⟩
  · simp
  · simp

/-- And raises where one of them does. -/
theorem bind_error {m : Proc σ ε α} {f : α → Proc σ ε β} {s s' : σ} {e : ε} :
    (m >>= f) s = (.error e, s') ↔ m s = (.error e, s') ∨ ∃ a s₁, m s = (.ok a, s₁) ∧ f a s₁ = (.error e, s') := by
  rw [bind_run]
  rcases h : m s with ⟨a | a, s₁⟩
  · simp
  · simp

/-- All that a procedure raises is of a kind. -/
def Raises (E : ε → Prop) (m : Proc σ ε α) : Prop := ∀ s e s', m s = (.error e, s') → E e

variable {E : ε → Prop}

theorem Raises.pure (a : α) : Raises E (Pure.pure a : Proc σ ε α) := by
  intro s e s' h
  cases h

theorem Raises.raise {e : ε} (he : E e) : Raises E (Proc.raise e : Proc σ ε α) := by
  intro s e' s' h
  cases h
  exact he

theorem Raises.current : Raises E (Proc.current : Proc σ ε σ) := by
  intro s e s' h
  cases h

theorem Raises.bind {m : Proc σ ε α} {f : α → Proc σ ε β} (hm : Raises E m) (hf : ∀ a, Raises E (f a)) :
    Raises E (m >>= f) := by
  intro s e s' h
  rcases bind_error.mp h with hfirst | ⟨a, s₁, -, hsecond⟩
  · exact hm s e s' hfirst
  · exact hf a s₁ e s' hsecond

/-- The states a procedure leaves stand in a relation to those it was begun in. -/
def Within (R : σ → σ → Prop) (m : Proc σ ε α) : Prop := ∀ s, R s (m s).2

variable {R : σ → σ → Prop}

theorem Within.pure (hrefl : ∀ s, R s s) (a : α) : Within R (Pure.pure a : Proc σ ε α) := hrefl

theorem Within.raise (hrefl : ∀ s, R s s) (e : ε) : Within R (Proc.raise e : Proc σ ε α) := hrefl

theorem Within.current (hrefl : ∀ s, R s s) : Within R (Proc.current : Proc σ ε σ) := hrefl

theorem Within.bind (htrans : ∀ {s₁ s₂ s₃}, R s₁ s₂ → R s₂ s₃ → R s₁ s₃) {m : Proc σ ε α} {f : α → Proc σ ε β}
    (hm : Within R m) (hf : ∀ a, Within R (f a)) : Within R (m >>= f) := by
  intro s
  have hfirst := hm s
  rw [bind_run]
  rcases h : m s with ⟨e | a, s₁⟩
  · rw [h] at hfirst
    exact hfirst
  · rw [h] at hfirst
    exact htrans hfirst (hf a s₁)

theorem Within.swallow {m : Proc σ ε Unit} (hm : Within R m) : Within R (Proc.swallow m) := hm

end Proc

end Procedures

/-! ## Sagas -/

section Sagas

variable {σ ε ι κ : Type}

/-- A step is made, then confirmed; what was made can be undone. -/
structure Saga (σ ε ι κ : Type) where
  act : ι → Proc σ ε κ
  confirm : ι → κ → Proc σ ε Unit
  undo : κ → Proc σ ε Unit

namespace Saga

/-- Undo what was made, the last first; what raises is left behind. -/
def undoAll (S : Saga σ ε ι κ) (made : List κ) (s : σ) : σ :=
  made.reverse.foldl (fun s k => ((S.undo k).swallow s).2) s

/-- The steps from one on, behind those that were made. -/
def runBehind (S : Saga σ ε ι κ) (made : List κ) : List ι → Proc σ ε (List κ)
  | [], s => (.ok made, s)
  | i :: rest, s =>
      match S.act i s with
      | (.error e, s) => (.error e, S.undoAll made s)
      | (.ok k, s) =>
          match S.confirm i k s with
          | (.error e, s) => (.error e, S.undoAll (made ++ [k]) s)
          | (.ok _, s) => S.runBehind (made ++ [k]) rest s

theorem undoAll_append (S : Saga σ ε ι κ) (made : List κ) (k : κ) (s : σ) :
    S.undoAll (made ++ [k]) s = S.undoAll made (S.undo k s).2 := by
  simp [undoAll, Proc.swallow]

def run (S : Saga σ ε ι κ) (steps : List ι) : Proc σ ε (List κ) := S.runBehind [] steps

end Saga

/-- A saga whose steps each work at a place of their own. `Up` is what stands at the place of a step that was made,
`Clean` that undoing will work there from here on. -/
structure PlacedSaga (σ ε ι κ π α : Type) extends Saga σ ε ι κ where
  place : ι → π
  placeOf : κ → π
  look : σ → π → α
  Made : ι → κ → Prop
  Up : κ → α → Prop
  Gone : α → Prop
  Clean : π → σ → Prop
  acts : ∀ {i s k s'}, act i s = (.ok k, s') → placeOf k = place i ∧ Made i k ∧ Up k (look s' (placeOf k))
  act_others : ∀ i s p, p ≠ place i → look (act i s).2 p = look s p
  confirm_all : ∀ i k s p, look (confirm i k s).2 p = look s p
  undo_others : ∀ k s p, p ≠ placeOf k → look (undo k s).2 p = look s p
  undo_gone : ∀ k s, Clean (placeOf k) s → Gone (look (undo k s).2 (placeOf k))
  undo_clean : ∀ k s p, Clean p s → Clean p (undo k s).2

namespace PlacedSaga

variable {π α : Type} (P : PlacedSaga σ ε ι κ π α)

theorem undoAll_others (made : List κ) (s : σ) {p : π} (hp : p ∉ made.map P.placeOf) :
    P.look (P.undoAll made s) p = P.look s p := by
  induction made using List.reverseRecOn generalizing s with
  | nil => rfl
  | append_singleton made k ih =>
      rw [List.map_append, List.mem_append, not_or] at hp
      have hne : p ≠ P.placeOf k := by simpa using hp.2
      rw [P.undoAll_append, ih _ hp.1]
      exact P.undo_others k s p hne

/-- What was made is gone where undoing works. -/
theorem undoAll_gone {made : List κ} (hplaces : (made.map P.placeOf).Nodup) {s : σ} {k : κ} (hk : k ∈ made)
    (hclean : P.Clean (P.placeOf k) s) : P.Gone (P.look (P.undoAll made s) (P.placeOf k)) := by
  induction made using List.reverseRecOn generalizing s with
  | nil => cases hk
  | append_singleton made k' ih =>
      rw [List.map_append, List.nodup_append'] at hplaces
      obtain ⟨hfirst, -, hapart⟩ := hplaces
      rw [P.undoAll_append]
      rcases List.mem_append.mp hk with hk | hk
      · exact ih hfirst hk (P.undo_clean k' s (P.placeOf k) hclean)
      · obtain rfl := List.mem_singleton.mp hk
        have hnot : P.placeOf k ∉ made.map P.placeOf := fun hmem => hapart hmem (by simp)
        rw [P.undoAll_others made _ hnot]
        exact P.undo_gone k s hclean

/-- The steps that were made so far, and what they left. -/
structure Progress (start : σ) (done : List ι) (made : List κ) (s : σ) : Prop where
  step : List.Forall₂ (fun i k => P.placeOf k = P.place i ∧ P.Made i k) done made
  up : ∀ k ∈ made, P.Up k (P.look s (P.placeOf k))
  others : ∀ p, p ∉ done.map P.place → P.look s p = P.look start p

/-- A saga that failed at a step, while it was made or confirmed: what was made was undone from the state in which it
failed, and no place was touched but those of the steps up to that one. -/
structure Unwound (start : σ) (steps : List ι) (e : ε) (before : List ι) (i : ι) (after : List ι) (made : List κ)
    (failed s : σ) : Prop where
  steps_eq : steps = before ++ i :: after
  cause : (∃ s₀, P.act i s₀ = (.error e, failed)) ∧
      List.Forall₂ (fun i k => P.placeOf k = P.place i ∧ P.Made i k) before made ∨
    (∃ k s₀, P.confirm i k s₀ = (.error e, failed)) ∧
      List.Forall₂ (fun i k => P.placeOf k = P.place i ∧ P.Made i k) (before ++ [i]) made
  undone : s = P.undoAll made failed
  others : ∀ p, p ∉ (before ++ [i]).map P.place → P.look s p = P.look start p

variable {P} {start : σ}

theorem place_fresh {done rest : List ι} {i : ι} (h : ((done ++ i :: rest).map P.place).Nodup) :
    P.place i ∉ done.map P.place := by
  intro hmem
  rw [List.map_append, List.map_cons, List.nodup_append'] at h
  exact h.2.2 hmem List.mem_cons_self

theorem placeOf_made {done : List ι} {made : List κ}
    (h : List.Forall₂ (fun i k => P.placeOf k = P.place i ∧ P.Made i k) done made) :
    made.map P.placeOf = done.map P.place := map_eq_of_forall₂ h fun _ _ hstep => hstep.1

/-- One more step. -/
theorem Progress.act {done : List ι} {made : List κ} {s s' : σ} {i : ι} {k : κ} (h : P.Progress start done made s)
    (hplaces : P.place i ∉ done.map P.place) (hact : P.act i s = (.ok k, s')) :
    P.Progress start (done ++ [i]) (made ++ [k]) s' := by
  obtain ⟨hplace, hmade, hup⟩ := P.acts hact
  have hothers : ∀ p, p ≠ P.place i → P.look s' p = P.look s p := by
    intro p hp
    have hframe := P.act_others i s p hp
    rwa [hact] at hframe
  refine ⟨List.rel_append h.step (.cons ⟨hplace, hmade⟩ .nil), fun k' hk' => ?_, fun p hp => ?_⟩
  · rcases List.mem_append.mp hk' with hk' | hk'
    · -- the steps made before stand at other places
      have hne : P.placeOf k' ≠ P.place i := fun heq =>
        hplaces (heq ▸ placeOf_made h.step ▸ List.mem_map_of_mem hk')
      rw [hothers _ hne]
      exact h.up k' hk'
    · obtain rfl := List.mem_singleton.mp hk'
      exact hup
  · rw [List.map_append, List.mem_append, not_or] at hp
    rw [hothers p (by simpa using hp.2)]
    exact h.others p hp.1

theorem Progress.confirm {done : List ι} {made : List κ} {s s' : σ} {i : ι} {k : κ} {r : Except ε Unit}
    (h : P.Progress start done made s) (hconfirm : P.confirm i k s = (r, s')) : P.Progress start done made s' := by
  have hsame : ∀ p, P.look s' p = P.look s p := by
    intro p
    have hframe := P.confirm_all i k s p
    rwa [hconfirm] at hframe
  exact ⟨h.step, fun k hk => by simpa [hsame] using h.up k hk, fun p hp => (hsame p).trans (h.others p hp)⟩

/-- Undoing what was made touches no other place. -/
theorem Progress.undone {done : List ι} {made : List κ} {s : σ} (h : P.Progress start done made s) {p : π}
    (hp : p ∉ done.map P.place) : P.look (P.undoAll made s) p = P.look start p :=
  (P.undoAll_others made s (placeOf_made h.step ▸ hp)).trans (h.others p hp)

theorem runBehind_ok {steps done : List ι} {made ks : List κ} {s s' : σ}
    (hplaces : ((done ++ steps).map P.place).Nodup) (h : P.Progress start done made s)
    (hrun : P.runBehind made steps s = (.ok ks, s')) : P.Progress start (done ++ steps) ks s' := by
  induction steps generalizing done made s with
  | nil =>
      obtain ⟨rfl, rfl⟩ : made = ks ∧ s = s' := by simpa [Saga.runBehind] using hrun
      simpa using h
  | cons i rest ih =>
      have happend : done ++ i :: rest = (done ++ [i]) ++ rest := by simp
      have hfresh : P.place i ∉ done.map P.place := place_fresh hplaces
      rw [happend] at hplaces ⊢
      rw [Saga.runBehind] at hrun
      rcases hact : P.act i s with ⟨e | k, s₁⟩
      · rw [hact] at hrun
        cases hrun
      · rw [hact] at hrun
        rcases hconfirm : P.confirm i k s₁ with ⟨e | u, s₂⟩
        · simp only [hconfirm] at hrun
          cases hrun
        · simp only [hconfirm] at hrun
          exact ih hplaces ((h.act hfresh hact).confirm hconfirm) hrun

theorem runBehind_error {steps done : List ι} {made : List κ} {s s' : σ} {e : ε}
    (hplaces : ((done ++ steps).map P.place).Nodup) (h : P.Progress start done made s)
    (hrun : P.runBehind made steps s = (.error e, s')) :
    ∃ before i after made failed, P.Unwound start (done ++ steps) e before i after made failed s' := by
  induction steps generalizing done made s with
  | nil => simp [Saga.runBehind] at hrun
  | cons i rest ih =>
      have happend : done ++ i :: rest = (done ++ [i]) ++ rest := by simp
      have hfresh : P.place i ∉ done.map P.place := place_fresh hplaces
      rw [Saga.runBehind] at hrun
      rcases hact : P.act i s with ⟨e' | k, s₁⟩
      · -- the step itself failed, at its own place
        rw [hact] at hrun
        obtain ⟨rfl, rfl⟩ : e' = e ∧ P.undoAll made s₁ = s' := by simpa using hrun
        refine ⟨done, i, rest, made, s₁, rfl, Or.inl ⟨⟨s, hact⟩, h.step⟩, rfl, fun p hp => ?_⟩
        rw [List.map_append, List.mem_append, not_or] at hp
        have hframe := P.act_others i s p (by simpa using hp.2)
        rw [hact] at hframe
        rw [P.undoAll_others made s₁ (placeOf_made h.step ▸ hp.1), hframe]
        exact h.others p hp.1
      · rw [hact] at hrun
        have hstep := h.act hfresh hact
        rcases hconfirm : P.confirm i k s₁ with ⟨e' | u, s₂⟩
        · simp only [hconfirm] at hrun
          obtain ⟨rfl, rfl⟩ : e' = e ∧ P.undoAll (made ++ [k]) s₂ = s' := by simpa using hrun
          have hconfirmed := hstep.confirm hconfirm
          exact ⟨done, i, rest, made ++ [k], s₂, rfl, Or.inr ⟨⟨k, s₁, hconfirm⟩, hconfirmed.step⟩, rfl, fun p hp =>
            hconfirmed.undone hp⟩
        · simp only [hconfirm] at hrun
          rw [happend] at hplaces ⊢
          exact ih hplaces (hstep.confirm hconfirm) hrun

theorem progress_start (start : σ) : P.Progress start [] [] start :=
  ⟨.nil, by simp, fun _ _ => rfl⟩

/-- A saga that returns made every step, and each stands at its place. -/
theorem run_ok {steps : List ι} (hplaces : (steps.map P.place).Nodup) {ks : List κ} {s s' : σ}
    (hrun : P.run steps s = (.ok ks, s')) : P.Progress s steps ks s' := by
  simpa using @runBehind_ok _ _ _ _ _ _ P s steps [] [] ks s s' (by simpa using hplaces) (progress_start s) hrun

/-- A saga that raises was unwound. -/
theorem run_error {steps : List ι} (hplaces : (steps.map P.place).Nodup) {e : ε} {s s' : σ}
    (hrun : P.run steps s = (.error e, s')) :
    ∃ before i after made failed, P.Unwound s steps e before i after made failed s' := by
  simpa using @runBehind_error _ _ _ _ _ _ P s steps [] [] s s' e (by simpa using hplaces) (progress_start s) hrun

variable {steps before after : List ι} {i : ι} {made : List κ} {failed s : σ} {e : ε}

/-- What was made stands at the places of the first steps. -/
theorem Unwound.places (h : P.Unwound start steps e before i after made failed s) :
    made.map P.placeOf = before.map P.place ∨ made.map P.placeOf = (before ++ [i]).map P.place :=
  h.cause.imp (fun hact => placeOf_made hact.2) fun hconfirm => placeOf_made hconfirm.2

theorem Unwound.nodup (h : P.Unwound start steps e before i after made failed s) (hplaces : (steps.map P.place).Nodup) :
    ((before ++ [i]).map P.place).Nodup := by
  refine hplaces.sublist (List.Sublist.map P.place ?_)
  rw [h.steps_eq]
  simp

/-- Of what was made nothing is left where undoing worked. -/
theorem Unwound.gone_made (h : P.Unwound start steps e before i after made failed s)
    (hplaces : (steps.map P.place).Nodup) {k : κ} (hk : k ∈ made) (hclean : P.Clean (P.placeOf k) failed) :
    P.Gone (P.look s (P.placeOf k)) := by
  have hnodup : (made.map P.placeOf).Nodup := by
    rcases h.places with hmade | hmade
    · rw [hmade]
      exact (h.nodup hplaces).sublist (List.Sublist.map P.place (List.sublist_append_left _ _))
    · rw [hmade]
      exact h.nodup hplaces
  rw [h.undone]
  exact P.undoAll_gone hnodup hk hclean

theorem Unwound.gone (h : P.Unwound start steps e before i after made failed s) (hplaces : (steps.map P.place).Nodup)
    {j : ι} (hj : j ∈ before) (hclean : P.Clean (P.place j) failed) : P.Gone (P.look s (P.place j)) := by
  have hmem : P.place j ∈ made.map P.placeOf := by
    rcases h.places with hmade | hmade
    · rw [hmade]
      exact List.mem_map_of_mem hj
    · rw [hmade]
      exact List.mem_map_of_mem (List.mem_append_left _ hj)
  obtain ⟨k, hk, hplace⟩ := List.mem_map.mp hmem
  rw [← hplace]
  exact h.gone_made hplaces hk (hplace ▸ hclean)

/-- A step that failed while it was made left its place as it is. -/
theorem Unwound.at_failed (h : P.Unwound start steps e before i after made failed s)
    (hplaces : (steps.map P.place).Nodup) :
    (∃ s₀, P.act i s₀ = (.error e, failed)) ∧ P.look s (P.place i) = P.look failed (P.place i) ∨
      (∃ k s₀, P.confirm i k s₀ = (.error e, failed)) ∧
        (P.Clean (P.place i) failed → P.Gone (P.look s (P.place i))) := by
  rcases h.cause with ⟨hact, hmade⟩ | ⟨hconfirm, hmade⟩
  · refine Or.inl ⟨hact, ?_⟩
    have hnodup := h.nodup hplaces
    rw [List.map_append, List.nodup_append'] at hnodup
    rw [h.undone, P.undoAll_others made failed]
    rw [placeOf_made hmade]
    exact fun hmem => hnodup.2.2 hmem (by simp)
  · refine Or.inr ⟨hconfirm, fun hclean => ?_⟩
    have hmem : P.place i ∈ made.map P.placeOf := by
      rw [placeOf_made hmade]
      simp
    obtain ⟨k, hk, hplace⟩ := List.mem_map.mp hmem
    rw [← hplace]
    exact h.gone_made hplaces hk (hplace ▸ hclean)

end PlacedSaga

end Sagas

end AutoTune.Lib
