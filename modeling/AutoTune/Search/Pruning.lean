import AutoTune.Lib.Table
import AutoTune.Search.Space

/-!
# What pruning leaves

A set of parameters supports itself when every conditional parameter in it has its condition met by
the parameters in it. Pruning removes a parameter only when its condition fails, so it never touches a
set that supports itself, and it stops when what is left does: it leaves the largest such set.
-/

namespace AutoTune

open Lib

/-! ## Sets that support themselves -/

/-- Every parameter of `K` is in the config, and the ones with a condition have it met inside `K`. -/
structure Supports (declared : List (String × Clause)) (config : Config) (K : String → Prop) : Prop where
  present : ∀ k, K k → config.has k = true
  met : ∀ gate ∈ declared, K gate.1 → ∀ c ∈ gate.2, K c.1 ∧
    ((config.get? c.1).any fun v => c.2.any fun w => sameValue v w) = true

/-- Every conditional parameter that is there has its condition met. -/
def Stable (declared : List (String × Clause)) (config : Config) : Prop :=
  ∀ gate ∈ declared, config.has gate.1 = true → clauseHolds gate.2 config = true

/-- `small` is `big` with some parameters removed. -/
def Config.Restricts (small big : Config) : Prop :=
  ∀ k, small.get? k = none ∨ small.get? k = big.get? k

theorem Config.Restricts.refl (config : Config) : config.Restricts config := fun _ => Or.inr rfl

theorem Config.Restricts.trans {a b c : Config} (h : a.Restricts b) (h' : b.Restricts c) :
    a.Restricts c := by
  intro k
  rcases h k with hk | hk
  · exact Or.inl hk
  · rw [hk]
    exact h' k

theorem Config.Restricts.erase (config : Config) (k : String) :
    Config.Restricts (config.erase k) config := by
  intro k'
  rw [Dict.get?_erase]
  split
  · exact Or.inl rfl
  · exact Or.inr rfl

/-- What is left of a parameter is its value. -/
theorem Config.Restricts.get? {small big : Config} (h : small.Restricts big) {k : String}
    (hk : small.has k = true) : small.get? k = big.get? k := by
  rcases h k with hnone | hsame
  · rw [Dict.has, hnone] at hk
    simp at hk
  · exact hsame

theorem Config.Restricts.has {small big : Config} (h : small.Restricts big) {k : String}
    (hk : small.has k = true) : big.has k = true := by
  rw [Dict.has, ← h.get? hk]
  exact hk

theorem clauseHolds_iff {clause : Clause} {config : Config} :
    clauseHolds clause config = true ↔
      ∀ c ∈ clause, ((config.get? c.1).any fun v => c.2.any fun w => sameValue v w) = true := by
  simp [clauseHolds]

/-- The parameters of a stable config support themselves. -/
theorem Stable.supports {declared : List (String × Clause)} {config : Config}
    (h : Stable declared config) : Supports declared config fun k => config.has k = true where
  present := fun _ hk => hk
  met := by
    intro gate hgate hk c hc
    have hmet := clauseHolds_iff.mp (h gate hgate hk) c hc
    refine ⟨?_, hmet⟩
    rcases Option.any_eq_true _ _ |>.mp hmet with ⟨v, hv, _⟩
    exact Dict.has_iff.mpr ⟨v, hv⟩

/-- Only the values of the parameters in it matter to a set that supports itself. -/
theorem Supports.transfer {declared : List (String × Clause)} {config : Config}
    {K : String → Prop} (h : Supports declared config K) (other : Config)
    (hsame : ∀ k, K k → other.get? k = config.get? k) : Supports declared other K where
  present := by
    intro k hk
    rw [Dict.has, hsame k hk]
    exact h.present k hk
  met := by
    intro gate hgate hk c hc
    rcases h.met gate hgate hk c hc with ⟨hin, hmet⟩
    refine ⟨hin, ?_⟩
    rw [hsame c.1 hin]
    exact hmet

/-- A config keeps every set that supports itself when it loses parameters outside of it. -/
theorem Supports.clauseHolds {declared : List (String × Clause)} {config active : Config}
    {K : String → Prop} (h : Supports declared config K) (hr : active.Restricts config)
    (hin : ∀ k, K k → active.has k = true) {gate : String × Clause} (hgate : gate ∈ declared)
    (hk : K gate.1) : AutoTune.clauseHolds gate.2 active = true := by
  refine clauseHolds_iff.mpr fun c hc => ?_
  rcases h.met gate hgate hk c hc with ⟨hcin, hmet⟩
  rw [hr.get? (hin c.1 hcin)]
  exact hmet

/-! ## One pass -/

/-- What a pass over `l` does to `active`; `removed` is whether something was removed before. -/
structure Passes (declared l : List (String × Clause)) (config active : Config) (removed : Bool)
    (after : Config × Bool) : Prop where
  restricts : after.1.Restricts active
  quiet : after.2 = false → removed = false ∧ after.1 = active ∧
    ∀ gate ∈ l, active.has gate.1 = true → clauseHolds gate.2 active = true
  removes : after.2 = true → removed = true ∨
    ∃ gate ∈ l, active.has gate.1 = true ∧ after.1.has gate.1 = false
  keeps : active.Restricts config → ∀ K, Supports declared config K →
    (∀ k, K k → active.has k = true) → ∀ k, K k → after.1.has k = true

theorem pruneStep_skips (state : Config × Bool) {gate : String × Clause}
    (h : state.1.has gate.1 = true → clauseHolds gate.2 state.1 = true) : pruneStep state gate = state := by
  unfold pruneStep
  by_cases hk : state.1.has gate.1 = true
  · simp [hk, h hk]
  · simp [hk]

theorem pruneStep_removes (state : Config × Bool) {gate : String × Clause}
    (hk : state.1.has gate.1 = true) (h : clauseHolds gate.2 state.1 = false) :
    pruneStep state gate = (state.1.erase gate.1, true) := by
  simp [pruneStep, hk, h]

theorem has_erase (config : Config) (k k' : String) :
    (config.erase k).has k' = true ↔ k' ≠ k ∧ config.has k' = true := by
  rw [Dict.has, Dict.get?_erase]
  by_cases h : k' = k <;> simp [h, Dict.has]

theorem passes_foldl {declared : List (String × Clause)} (config : Config) (l : List (String × Clause))
    (hl : ∀ gate ∈ l, gate ∈ declared) (active : Config) (removed : Bool) :
    Passes declared l config active removed (l.foldl pruneStep (active, removed)) := by
  induction l generalizing active removed with
  | nil =>
      refine ⟨Config.Restricts.refl active, ?_, ?_, ?_⟩
      · intro h
        exact ⟨h, rfl, by simp⟩
      · exact fun h => Or.inl h
      · exact fun _ _ _ hin => hin
  | cons gate l ih =>
      have hgate : gate ∈ declared := hl gate List.mem_cons_self
      have hrest : ∀ g ∈ l, g ∈ declared := fun g hg => hl g (List.mem_cons_of_mem gate hg)
      rw [List.foldl_cons]
      by_cases hskip : active.has gate.1 = true → clauseHolds gate.2 active = true
      · rw [pruneStep_skips (active, removed) hskip]
        have hih := ih hrest active removed
        refine ⟨hih.restricts, ?_, ?_, hih.keeps⟩
        · intro h
          rcases hih.quiet h with ⟨hremoved, hsame, hall⟩
          exact ⟨hremoved, hsame, List.forall_mem_cons.mpr ⟨hskip, hall⟩⟩
        · intro h
          rcases hih.removes h with hremoved | ⟨g, hg, hbefore, hafter⟩
          · exact Or.inl hremoved
          · exact Or.inr ⟨g, List.mem_cons_of_mem gate hg, hbefore, hafter⟩
      · have hpresent : active.has gate.1 = true := by
          by_contra hno
          exact hskip fun hk => absurd hk hno
        have hfails : clauseHolds gate.2 active = false := by
          by_contra hyes
          exact hskip fun _ => by simpa using hyes
        rw [pruneStep_removes (active, removed) hpresent hfails]
        have hih := ih hrest (active.erase gate.1) true
        refine ⟨hih.restricts.trans (Config.Restricts.erase active gate.1), ?_, ?_, ?_⟩
        · intro h
          exact absurd (hih.quiet h).1 (by simp)
        · intro _
          refine Or.inr ⟨gate, List.mem_cons_self, hpresent, ?_⟩
          by_contra hstill
          have hin := hih.restricts.has (k := gate.1) (by simpa using hstill)
          exact ((has_erase active gate.1 gate.1).mp hin).1 rfl
        · intro hr K hK hin
          -- a set that supports itself does not contain the parameter whose condition fails
          have hout : ¬ K gate.1 := by
            intro hk
            rw [hK.clauseHolds hr hin hgate hk] at hfails
            cases hfails
          refine hih.keeps ((Config.Restricts.erase active gate.1).trans hr) K hK ?_
          intro k hk
          refine (has_erase active gate.1 k).mpr ⟨?_, hin k hk⟩
          rintro rfl
          exact hout hk

theorem passes_pruneRound (declared : List (String × Clause)) (config active : Config) :
    Passes declared declared config active false (pruneRound declared active) :=
  passes_foldl config declared (fun _ h => h) active false

/-! ## All passes -/

/-- How many conditions are on parameters that are still there. -/
def conditionsLeft (declared : List (String × Clause)) (active : Config) : Nat :=
  declared.countP fun gate => active.has gate.1

theorem conditionsLeft_pruneRound {declared : List (String × Clause)} {active : Config}
    (h : (pruneRound declared active).2 = true) :
    conditionsLeft declared (pruneRound declared active).1 < conditionsLeft declared active := by
  have hpass := passes_pruneRound declared active active
  rcases hpass.removes h with hfalse | ⟨gate, hgate, hbefore, hafter⟩
  · cases hfalse
  · exact countP_lt_countP (fun g _ hg => hpass.restricts.has hg) hgate hbefore hafter

/-- What all the passes together leave of `active`. -/
structure Prunes (declared : List (String × Clause)) (config active after : Config) : Prop where
  restricts : after.Restricts active
  stable : Stable declared after
  keeps : active.Restricts config → ∀ K, Supports declared config K →
    (∀ k, K k → active.has k = true) → ∀ k, K k → after.has k = true

theorem prunePasses_prunes {declared : List (String × Clause)} (config : Config) (passes : Nat)
    (active : Config) (henough : conditionsLeft declared active < passes) :
    Prunes declared config active (prunePasses declared passes active) := by
  induction passes generalizing active with
  | zero => omega
  | succ passes ih =>
      have hpass := passes_pruneRound declared config active
      unfold prunePasses
      by_cases hremoved : (pruneRound declared active).2 = true
      · have hleft := conditionsLeft_pruneRound hremoved
        have hih := ih (pruneRound declared active).1 (by omega)
        simp only [hremoved, if_true]
        refine ⟨hih.restricts.trans hpass.restricts, hih.stable, ?_⟩
        intro hr K hK hin
        exact hih.keeps (hpass.restricts.trans hr) K hK (hpass.keeps hr K hK hin)
      · have hquiet := hpass.quiet (by simpa using hremoved)
        simp only [hremoved]
        refine ⟨hpass.restricts, ?_, hpass.keeps⟩
        intro gate hgate hk
        rw [hquiet.2.1] at hk ⊢
        exact hquiet.2.2 gate hgate hk

theorem pruneInactive_prunes (config : Config) (space : SearchSpace) :
    Prunes space.gates config config (pruneInactive config space) := by
  unfold pruneInactive
  by_cases hnone : space.gates.isEmpty = true
  · rw [if_pos hnone]
    have hgates : space.gates = [] := List.isEmpty_iff.mp hnone
    refine ⟨Config.Restricts.refl config, ?_, fun _ _ _ hin => hin⟩
    intro gate hgate
    rw [hgates] at hgate
    cases hgate
  · rw [if_neg hnone]
    have hle : conditionsLeft space.gates config ≤ space.gates.length := List.countP_le_length
    exact prunePasses_prunes config _ config (by omega)

/-- Pruning leaves the parameters of some set that supports itself. -/
theorem pruneInactive_has {config : Config} {space : SearchSpace} {k : String} :
    (pruneInactive config space).has k = true ↔
      ∃ K : String → Prop, Supports space.gates config K ∧ K k := by
  have hprunes := pruneInactive_prunes config space
  constructor
  · intro hk
    have hsupports := hprunes.stable.supports.transfer config fun k hk =>
      (hprunes.restricts.get? hk).symm
    exact ⟨_, hsupports, hk⟩
  · rintro ⟨K, hK, hk⟩
    exact hprunes.keeps (Config.Restricts.refl config) K hK hK.present k hk

theorem pruneInactive_restricts (config : Config) (space : SearchSpace) :
    (pruneInactive config space).Restricts config :=
  (pruneInactive_prunes config space).restricts

theorem pruneInactive_stable (config : Config) (space : SearchSpace) :
    Stable space.gates (pruneInactive config space) :=
  (pruneInactive_prunes config space).stable

/-! ## Configs that pruning leaves alone -/

theorem pruneRound_of_stable {declared : List (String × Clause)} {active : Config}
    (h : Stable declared active) : pruneRound declared active = (active, false) := by
  have hfold : ∀ l : List (String × Clause), (∀ gate ∈ l, gate ∈ declared) →
      l.foldl pruneStep (active, false) = (active, false) := by
    intro l
    induction l with
    | nil => exact fun _ => rfl
    | cons gate l ih =>
        intro hl
        rw [List.foldl_cons, pruneStep_skips (active, false) (h gate (hl gate List.mem_cons_self))]
        exact ih fun g hg => hl g (List.mem_cons_of_mem gate hg)
  exact hfold declared fun _ hg => hg

/-- Nothing is removed from a stable config. -/
theorem pruneInactive_of_stable {config : Config} {space : SearchSpace}
    (h : Stable space.gates config) : pruneInactive config space = config := by
  unfold pruneInactive prunePasses
  rw [pruneRound_of_stable h]
  split <;> rfl

theorem pruneInactive_idempotent (config : Config) (space : SearchSpace) :
    pruneInactive (pruneInactive config space) space = pruneInactive config space :=
  pruneInactive_of_stable (pruneInactive_stable config space)

/-- A config is left as it is exactly if every condition on it is met. -/
theorem pruneInactive_same_iff {config : Config} {space : SearchSpace} :
    (pruneInactive config space).Same config ↔ Stable space.gates config := by
  constructor
  · intro hsame gate hgate hk
    have hprunes := pruneInactive_stable config space gate hgate (by rw [hsame.has]; exact hk)
    rw [clauseHolds_iff] at hprunes ⊢
    intro c hc
    rw [← hsame c.1]
    exact hprunes c hc
  · intro h
    rw [pruneInactive_of_stable h]
    exact Dict.Same.refl config

/-- Nothing is missing from a config that pruning does not change. -/
theorem pruneInactive_same_of_has {config : Config} {space : SearchSpace}
    (h : ∀ k, config.has k = true → (pruneInactive config space).has k = true) :
    (pruneInactive config space).Same config := by
  intro k
  rcases pruneInactive_restricts config space k with hnone | hsame
  · have hno : ¬ config.has k = true := by
      intro hk
      have := h k hk
      rw [Dict.has, hnone] at this
      simp at this
    rw [hnone, eq_comm, ← Option.not_isSome_iff_eq_none]
    exact hno
  · exact hsame

/-! ## The largest consistent part -/

/-- A part of a config that holds together: it has every parameter without conditions, and whatever in it
has conditions has them all met by the part itself. -/
structure Consistent (declared : List (String × Clause)) (config part : Config) : Prop where
  within : part.Restricts config
  ungated : ∀ k, dictHas declared k = false → part.get? k = config.get? k
  met : Stable declared part

/-- Removing entries leaves the others in their order. -/
theorem pruneRound_sublist (declared : List (String × Clause)) (state : Config × Bool) :
    (declared.foldl pruneStep state).1.entries.Sublist state.1.entries := by
  induction declared generalizing state with
  | nil => exact List.Sublist.refl _
  | cons gate declared ih =>
      have hstep : (pruneStep state gate).1.entries.Sublist state.1.entries := by
        unfold pruneStep
        split
        · exact List.Sublist.refl _
        · split
          · exact List.Sublist.refl _
          · exact List.filter_sublist
      exact (ih (pruneStep state gate)).trans hstep

theorem prunePasses_sublist (declared : List (String × Clause)) (passes : Nat) (active : Config) :
    (prunePasses declared passes active).entries.Sublist active.entries := by
  induction passes generalizing active with
  | zero => exact List.Sublist.refl _
  | succ passes ih =>
      have hround : (pruneRound declared active).1.entries.Sublist active.entries :=
        pruneRound_sublist declared (active, false)
      unfold prunePasses
      dsimp only
      split
      · exact (ih (pruneRound declared active).1).trans hround
      · exact hround

/-- Two parts of one config that have the same parameters are one and the same. -/
theorem part_unique {config part other : Config} (h : part.entries.Sublist config.entries)
    (h' : other.entries.Sublist config.entries) (hhas : ∀ k, part.has k = other.has k) : part = other := by
  have hfilter : ∀ {part : Config}, part.entries.Sublist config.entries →
      part.entries = config.entries.filter fun e => part.has e.1 := by
    intro part hpart
    have hself : part.entries.filter (fun e => part.has e.1) = part.entries := by
      refine List.filter_eq_self.mpr fun e he => ?_
      exact Dict.mem_keys.mp (List.mem_map_of_mem he)
    have hsub : part.entries.Sublist (config.entries.filter fun e => part.has e.1) := by
      simpa [hself] using hpart.filter fun e => part.has e.1
    -- an entry of the config under a key of the part is the part's own entry
    have hin : (config.entries.filter fun e => part.has e.1) ⊆ part.entries := by
      intro e he
      have hmem := (List.mem_filter.mp he).1
      rcases Dict.has_iff.mp (List.mem_filter.mp he).2 with ⟨v, hv⟩
      have hown : (e.1, v) ∈ part.entries := Dict.mem_entries.mpr hv
      have hvalue : config.get? e.1 = some v := Dict.mem_entries.mp (hpart.subset hown)
      have hsame : config.get? e.1 = some e.2 := Dict.mem_entries.mp hmem
      have hv' : v = e.2 := Option.some.inj (hvalue.symm.trans hsame)
      simpa [hv'] using hown
    have hnodup : (config.entries.filter fun e => part.has e.1).Nodup :=
      (List.Nodup.of_map _ config.nodup).filter _
    exact hsub.eq_of_length_le (List.subperm_of_subset hnodup hin).length_le
  have hentries : part.entries = other.entries := by
    rw [hfilter h, hfilter h']
    exact List.filter_congr fun e _ => hhas e.1
  cases part
  cases other
  cases hentries
  rfl

/-- What is left is known by what supports itself. -/
theorem Prunes.has {declared : List (String × Clause)} {config after : Config}
    (h : Prunes declared config config after) {k : String} :
    after.has k = true ↔ ∃ K : String → Prop, Supports declared config K ∧ K k := by
  constructor
  · intro hk
    have hsupports := h.stable.supports.transfer config fun k hk => (h.restricts.get? hk).symm
    exact ⟨_, hsupports, hk⟩
  · rintro ⟨K, hK, hk⟩
    exact h.keeps (Config.Restricts.refl config) K hK hK.present k hk

/-- A consistent part is inside of what is left. -/
theorem Prunes.largest {declared : List (String × Clause)} {config after : Config}
    (h : Prunes declared config config after) {part : Config} (hwithin : part.Restricts config)
    (hmet : Stable declared part) : part.Restricts after := by
  have hsupports := hmet.supports.transfer config fun k hk => (hwithin.get? hk).symm
  intro k
  by_cases hk : part.has k = true
  · have hafter : after.has k = true := h.has.mpr ⟨_, hsupports, hk⟩
    exact Or.inr ((hwithin.get? hk).trans (h.restricts.get? hafter).symm)
  · exact Or.inl (Option.not_isSome_iff_eq_none.mp hk)

/-- Parameters without conditions support themselves. -/
theorem Supports.ungated (declared : List (String × Clause)) (config : Config) :
    Supports declared config fun k => config.has k = true ∧ dictHas declared k = false where
  present := fun _ hk => hk.1
  met := by
    intro gate hgate hk
    have hin : dictHas declared gate.1 = true :=
      List.any_eq_true.mpr ⟨gate, hgate, decide_eq_true rfl⟩
    exact absurd hin (by simp [hk.2])

theorem Prunes.consistent {declared : List (String × Clause)} {config after : Config}
    (h : Prunes declared config config after) : Consistent declared config after where
  within := h.restricts
  met := h.stable
  ungated := by
    intro k hfree
    by_cases hk : config.has k = true
    · have hafter : after.has k = true := h.has.mpr ⟨_, Supports.ungated declared config, hk, hfree⟩
      exact h.restricts.get? hafter
    · have hnone : config.get? k = none := Option.not_isSome_iff_eq_none.mp hk
      rcases h.restricts k with hafter | hafter
      · exact hafter.trans hnone.symm
      · exact hafter

/-- The conditions matter as a set. -/
theorem Supports.congr {declared declared' : List (String × Clause)} {config : Config} {K : String → Prop}
    (hsame : ∀ gate, gate ∈ declared' → gate ∈ declared) (h : Supports declared config K) :
    Supports declared' config K where
  present := h.present
  met := fun gate hgate => h.met gate (hsame gate hgate)

theorem Prunes.has_congr {declared declared' : List (String × Clause)} {config after after' : Config}
    (hsame : ∀ gate, gate ∈ declared ↔ gate ∈ declared') (h : Prunes declared config config after)
    (h' : Prunes declared' config config after') (k : String) : after.has k = after'.has k := by
  rw [Bool.eq_iff_iff, h.has, h'.has]
  constructor
  · rintro ⟨K, hK, hk⟩
    exact ⟨K, hK.congr fun gate hgate => (hsame gate).mpr hgate, hk⟩
  · rintro ⟨K, hK, hk⟩
    exact ⟨K, hK.congr fun gate hgate => (hsame gate).mp hgate, hk⟩

theorem pruneInactive_sublist (config : Config) (space : SearchSpace) :
    (pruneInactive config space).entries.Sublist config.entries := by
  unfold pruneInactive
  split
  · exact List.Sublist.refl _
  · exact prunePasses_sublist _ _ _

theorem mem_gates_of_same {space space' : SearchSpace} (h : space.conditions.Same space'.conditions)
    (gate : String × Clause) : gate ∈ space.gates ↔ gate ∈ space'.gates :=
  ((h.perm.filter _).map _).mem_iff

/-- Pruning leaves the largest consistent part of a config, whatever the order of the conditions, and more
passes than it makes would remove nothing. -/
theorem pruned_is_largest (config : Config) (space : SearchSpace) :
    Consistent space.gates config (pruneInactive config space) ∧
      (∀ part : Config, part.Restricts config → Stable space.gates part →
        part.Restricts (pruneInactive config space)) ∧
      (∀ reordered : SearchSpace, reordered.conditions.Same space.conditions →
        pruneInactive config reordered = pruneInactive config space) ∧
      pruneInactive (pruneInactive config space) space = pruneInactive config space ∧
      ∀ more, prunePasses space.gates (space.gates.length + 1 + more) config = pruneInactive config space := by
  have hprunes := pruneInactive_prunes config space
  refine ⟨hprunes.consistent, fun part => hprunes.largest, ?_, pruneInactive_idempotent config space, ?_⟩
  · intro reordered hsame
    refine part_unique (pruneInactive_sublist _ _) (pruneInactive_sublist _ _) fun k => ?_
    exact (pruneInactive_prunes config reordered).has_congr (mem_gates_of_same hsame) hprunes k
  · intro more
    have hle : conditionsLeft space.gates config ≤ space.gates.length := List.countP_le_length
    have hmore : Prunes space.gates config config
        (prunePasses space.gates (space.gates.length + 1 + more) config) :=
      prunePasses_prunes config _ config (by omega)
    refine part_unique (prunePasses_sublist _ _ _) (pruneInactive_sublist _ _) fun k => ?_
    exact hmore.has_congr (fun _ => Iff.rfl) hprunes k

end AutoTune
