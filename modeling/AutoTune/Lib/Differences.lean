import AutoTune.Lib.Dict

/-!
# What turns one table into another

The differences of two tables are the entries that are new or changed, then the keys that go. A store is read
and written key by key; where a write is read back and leaves the other keys as they are, writing the
differences makes the store say what the new table says.
-/

namespace AutoTune.Lib

section Differences

variable {κ α : Type} [DecidableEq κ]

/-- The differences of two tables: what is new or changed, in the order of the new table, then what goes. -/
def differences (same : α → α → Bool) (old new : List (κ × α)) : List (κ × Option α) :=
  ((new.filter fun e => !(dictGet old e.1).any fun v => same v e.2).map fun e => (e.1, some e.2)) ++
    (old.filter fun e => !dictHas new e.1).map fun e => (e.1, none)

variable {same : α → α → Bool} {old new : List (κ × α)}

theorem mem_differences_some {k : κ} {v : α} :
    (k, some v) ∈ differences same old new ↔ (k, v) ∈ new ∧ (dictGet old k).any (fun w => same w v) = false := by
  simp [differences, List.mem_append]

theorem mem_differences_none {k : κ} :
    (k, none) ∈ differences same old new ↔ k ∈ old.map Prod.fst ∧ dictHas new k = false := by
  simp [differences, List.mem_append]

/-- A key is written once. -/
theorem nodup_differences (hold : (old.map Prod.fst).Nodup) (hnew : (new.map Prod.fst).Nodup) :
    ((differences same old new).map Prod.fst).Nodup := by
  have hkeys : (differences same old new).map Prod.fst =
      (new.filter fun e => !(dictGet old e.1).any fun v => same v e.2).map Prod.fst ++
        (old.filter fun e => !dictHas new e.1).map Prod.fst := by
    simp [differences, List.map_append, List.map_map, Function.comp_def]
  rw [hkeys]
  refine List.Nodup.append (hnew.sublist (List.filter_sublist.map _)) (hold.sublist (List.filter_sublist.map _)) ?_
  intro k hchanged hgone
  obtain ⟨e, he, rfl⟩ := List.mem_map.mp hchanged
  obtain ⟨e', he', hkey⟩ := List.mem_map.mp hgone
  -- what goes is no key of the new table
  have habsent : dictHas new e'.1 = false := by simpa using (List.mem_filter.mp he').2
  have hpresent : (dictGet new e.1).isSome = true :=
    dictGet_isSome.mpr (List.mem_map_of_mem (List.mem_filter.mp he).1)
  rw [hkey, dictHas_eq, hpresent] at habsent
  cases habsent

/-- A key that is not written says the same in both tables. -/
theorem rel_of_unwritten {k : κ} (hk : k ∉ (differences same old new).map Prod.fst) :
    Option.Rel (fun v w => same v w = true) (dictGet old k) (dictGet new k) := by
  cases hw : dictGet new k with
  | some w =>
      have hsame : (dictGet old k).any (fun v => same v w) = true := by
        by_contra hne
        have hmem : (k, some w) ∈ differences same old new :=
          mem_differences_some.mpr ⟨mem_of_dictGet hw, by simpa using hne⟩
        exact hk (List.mem_map.mpr ⟨_, hmem, rfl⟩)
      cases hv : dictGet old k with
      | none => simp [hv] at hsame
      | some v => exact .some (by simpa [hv] using hsame)
  | none =>
      cases hv : dictGet old k with
      | none => exact .none
      | some v =>
          have hkey : k ∈ old.map Prod.fst := dictGet_isSome.mp (by simp [hv])
          have hmem : (k, none) ∈ differences same old new :=
            mem_differences_none.mpr ⟨hkey, by simp [dictHas_eq, hw]⟩
          exact absurd (List.mem_map.mpr ⟨_, hmem, rfl⟩) hk

/-- Two tables have no differences if they say the same under every key. -/
theorem differences_eq_nil (hnew : (new.map Prod.fst).Nodup) :
    differences same old new = [] ↔
      ∀ k, Option.Rel (fun v w => same v w = true) (dictGet old k) (dictGet new k) := by
  constructor
  · intro h k
    exact rel_of_unwritten (by simp [h])
  · intro h
    rw [List.eq_nil_iff_forall_not_mem]
    rintro ⟨k, v⟩ hmem
    cases v with
    | some w =>
        obtain ⟨hw, hdiffers⟩ := mem_differences_some.mp hmem
        have hget : dictGet new k = some w := dictGet_of_mem hnew hw
        have hrel := h k
        rw [hget] at hrel
        cases hv : dictGet old k with
        | none =>
            rw [hv] at hrel
            cases hrel
        | some v =>
            rw [hv] at hrel hdiffers
            cases hrel with
            | some hsame => simp [hsame] at hdiffers
    | none =>
        obtain ⟨hkey, hgone⟩ := mem_differences_none.mp hmem
        obtain ⟨v, hv⟩ := Option.isSome_iff_exists.mp (dictGet_isSome.mpr hkey)
        have hnone : dictGet new k = none := by simpa [dictHas_eq] using hgone
        have hrel := h k
        rw [hv, hnone] at hrel
        cases hrel

end Differences

/-! ## A store written key by key -/

section Slots

variable {σ κ α : Type}

/-- A store that is read and written one key at a time. -/
structure Slots (σ κ α : Type) where
  read : σ → κ → Option α
  write : σ → κ → Option α → σ

/-- A list of writes, in its order. -/
def Slots.writeAll (S : Slots σ κ α) (s : σ) (changes : List (κ × Option α)) : σ :=
  changes.foldl (fun s c => S.write s c.1 c.2) s

/-- A write that is ready is read back and leaves the other keys as they are, and what is ready under another
key stays so. -/
structure Slots.Keeps (S : Slots σ κ α) (same : α → α → Bool) (Ready : σ → κ → Option α → Prop) : Prop where
  back : ∀ {s k v}, Ready s k v → Option.Rel (fun v w => same v w = true) (S.read (S.write s k v) k) v
  others : ∀ {s k v}, Ready s k v → ∀ k', k' ≠ k → S.read (S.write s k v) k' = S.read s k'
  ready : ∀ {s k v}, Ready s k v → ∀ {k' v'}, k' ≠ k → Ready s k' v' → Ready (S.write s k v) k' v'

variable {S : Slots σ κ α} {same : α → α → Bool} {Ready : σ → κ → Option α → Prop}

theorem Slots.Keeps.writeAll_others (h : S.Keeps same Ready) {changes : List (κ × Option α)} {s : σ}
    (hnd : (changes.map Prod.fst).Nodup) (hready : ∀ c ∈ changes, Ready s c.1 c.2) {k : κ}
    (hk : k ∉ changes.map Prod.fst) : S.read (S.writeAll s changes) k = S.read s k := by
  induction changes generalizing s with
  | nil => rfl
  | cons c changes ih =>
      rw [List.map_cons, List.nodup_cons] at hnd
      rw [List.map_cons, List.mem_cons, not_or] at hk
      have hc := hready c List.mem_cons_self
      have hrest : ∀ c' ∈ changes, Ready (S.write s c.1 c.2) c'.1 c'.2 := fun c' hc' =>
        h.ready hc (fun heq => hnd.1 (heq ▸ List.mem_map_of_mem hc')) (hready c' (List.mem_cons_of_mem _ hc'))
      calc S.read (S.writeAll s (c :: changes)) k
          = S.read (S.writeAll (S.write s c.1 c.2) changes) k := rfl
        _ = S.read (S.write s c.1 c.2) k := ih hnd.2 hrest hk.2
        _ = S.read s k := h.others hc k hk.1

/-- Each write of a list is read back behind all of them. -/
theorem Slots.Keeps.writeAll_back (h : S.Keeps same Ready) {changes : List (κ × Option α)} {s : σ}
    (hnd : (changes.map Prod.fst).Nodup) (hready : ∀ c ∈ changes, Ready s c.1 c.2) {k : κ} {v : Option α}
    (hmem : (k, v) ∈ changes) :
    Option.Rel (fun v w => same v w = true) (S.read (S.writeAll s changes) k) v := by
  induction changes generalizing s with
  | nil => cases hmem
  | cons c changes ih =>
      rw [List.map_cons, List.nodup_cons] at hnd
      have hc := hready c List.mem_cons_self
      have hrest : ∀ c' ∈ changes, Ready (S.write s c.1 c.2) c'.1 c'.2 := fun c' hc' =>
        h.ready hc (fun heq => hnd.1 (heq ▸ List.mem_map_of_mem hc')) (hready c' (List.mem_cons_of_mem _ hc'))
      rcases List.mem_cons.mp hmem with rfl | hmem
      · have hread := h.writeAll_others hnd.2 hrest hnd.1
        have hback := h.back hc
        rwa [← hread] at hback
      · exact ih hnd.2 hrest hmem

variable [DecidableEq κ]

/-- A store that says what the old table says, with the differences written, says what the new one says. -/
theorem Slots.Keeps.settles (h : S.Keeps same Ready) {s : σ} {old new : List (κ × α)}
    (hs : ∀ k, S.read s k = dictGet old k) (hold : (old.map Prod.fst).Nodup) (hnew : (new.map Prod.fst).Nodup)
    (hready : ∀ c ∈ differences same old new, Ready s c.1 c.2) (k : κ) :
    Option.Rel (fun v w => same v w = true) (S.read (S.writeAll s (differences same old new)) k) (dictGet new k) := by
  have hnd : ((differences same old new).map Prod.fst).Nodup := nodup_differences hold hnew
  by_cases hk : k ∈ (differences same old new).map Prod.fst
  · obtain ⟨⟨k', v⟩, hmem, rfl⟩ := List.mem_map.mp hk
    have hback := h.writeAll_back hnd hready hmem
    cases v with
    | some v => simpa [dictGet_of_mem hnew (mem_differences_some.mp hmem).1] using hback
    | none =>
        have hgone : dictGet new k' = none := by simpa [dictHas_eq] using (mem_differences_none.mp hmem).2
        simpa [hgone] using hback
  · simpa [h.writeAll_others hnd hready hk, hs] using rel_of_unwritten hk

end Slots

end AutoTune.Lib
