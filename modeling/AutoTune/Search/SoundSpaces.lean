import AutoTune.Search.Space
import Mathlib.Data.List.Flatten
import Mathlib.Data.List.Perm.Subperm

/-!
# Spaces without mistakes

`space_errors` notes where every swept parameter stands. When it finds nothing wrong, no parameter is
swept in two places: every axis of the space has parameters of its own.
-/

namespace AutoTune

open Lib

/-! ## The keys of an axis -/

/-- The parameters an axis sets. -/
def axisKeys (axis : List Part) : List String := (axis.head?.getD []).map Prod.fst

/-- The columns of a tied group that have values. -/
def filledKeys (group : Dict (List Value)) : List String :=
  (group.entries.filter fun e => !e.2.isEmpty).map Prod.fst

/-- Every column of a tied group has values. -/
def FullTie (group : Dict (List Value)) : Prop := ∀ e ∈ group.entries, e.2 ≠ []

instance (group : Dict (List Value)) : Decidable (FullTie group) :=
  inferInstanceAs (Decidable (∀ e ∈ group.entries, e.2 ≠ []))

theorem axisKeys_column (k : String) {values : List Value} (h : values ≠ []) :
    axisKeys (values.map fun v => [(k, v)]) = [k] := by
  cases values with
  | nil => exact absurd rfl h
  | cons v values => rfl

/-- The rows a tied group is zipped to. -/
def tiedRows (group : Dict (List Value)) : Nat :=
  ((sortEntries group.entries).map fun c => c.2.length).min?.getD 0

theorem tiedAxis_eq (group : Dict (List Value)) :
    tiedAxis group = (List.range (tiedRows group)).map (tiedRow (sortEntries group.entries)) := rfl

theorem tiedRow_keys (columns : List (String × List Value)) (row : Nat) :
    (tiedRow columns row).map Prod.fst = columns.map Prod.fst := by
  simp [tiedRow]

/-- No row lies beyond a column. -/
theorem tiedRows_le {group : Dict (List Value)} {e : String × List Value} (he : e ∈ group.entries) :
    tiedRows group ≤ e.2.length := by
  unfold tiedRows
  have hmem : e.2.length ∈ (sortEntries group.entries).map fun c => c.2.length :=
    List.mem_map.mpr ⟨e, mem_sortEntries.mpr he, rfl⟩
  cases hmin : ((sortEntries group.entries).map fun c => c.2.length).min? with
  | none => simp
  | some m => exact (List.min?_eq_some_iff.mp hmin).2 _ hmem

theorem fullTie_of_rows {group : Dict (List Value)} (h : tiedRows group ≠ 0) : FullTie group := by
  intro e he hempty
  have hle := tiedRows_le he
  rw [hempty] at hle
  exact h (Nat.le_zero.mp hle)

/-- A tied group with a value in every column has a row. -/
theorem rows_of_fullTie {group : Dict (List Value)} (hne : group.entries ≠ []) (h : FullTie group) :
    tiedRows group ≠ 0 := by
  unfold tiedRows
  cases hmin : ((sortEntries group.entries).map fun c => c.2.length).min? with
  | none =>
      rw [List.min?_eq_none_iff, List.map_eq_nil_iff] at hmin
      have hlen := (perm_sortEntries group.entries).length_eq
      rw [hmin, List.length_nil] at hlen
      exact absurd (List.length_eq_zero_iff.mp hlen.symm) hne
  | some m =>
      have hmem := (List.min?_eq_some_iff.mp hmin).1
      rcases List.mem_map.mp hmem with ⟨e, he, rfl⟩
      have := h e (mem_sortEntries.mp he)
      simpa using this

theorem filledKeys_of_fullTie {group : Dict (List Value)} (h : FullTie group) :
    filledKeys group = group.keys := by
  unfold filledKeys Dict.keys
  rw [List.filter_eq_self.mpr]
  intro e he
  simpa using h e he

/-- A tied group with a value in every column sets all of them. -/
theorem axisKeys_tiedAxis_of_full {group : Dict (List Value)} (hne : group.entries ≠ [])
    (h : FullTie group) : axisKeys (tiedAxis group) = (sortEntries group.entries).map Prod.fst := by
  rw [tiedAxis_eq]
  cases hrows : tiedRows group with
  | zero => exact absurd hrows (rows_of_fullTie hne h)
  | succ n =>
      rw [List.range_succ_eq_map]
      simp [axisKeys, tiedRow_keys]

/-- A tied axis sets filled columns only. -/
theorem axisKeys_tiedAxis (group : Dict (List Value)) :
    (axisKeys (tiedAxis group)).Subperm (filledKeys group) := by
  by_cases hrows : tiedRows group = 0
  · rw [tiedAxis_eq, hrows]
    exact List.nil_subperm
  · have hfull := fullTie_of_rows hrows
    have hne : group.entries ≠ [] := by
      intro hempty
      exact hrows (by simp [tiedRows, hempty, sortEntries])
    rw [axisKeys_tiedAxis_of_full hne hfull, filledKeys_of_fullTie hfull]
    exact ((perm_sortEntries group.entries).map Prod.fst).subperm

theorem flatMap_subperm {ι α : Type} {f g : ι → List α} {l : List ι}
    (h : ∀ i ∈ l, (f i).Subperm (g i)) : (l.flatMap f).Subperm (l.flatMap g) := by
  induction l with
  | nil => exact List.Subperm.refl []
  | cons i l ih =>
      exact (h i (List.mem_cons_self ..)).append (ih fun j hj => h j (List.mem_cons_of_mem _ hj))

/-! ## What the check notes -/

/-- If nothing is wrong after, nothing was before, and `added` was noted in between. -/
def SpaceCheck.Notes (before after : SpaceCheck) (added : List String) : Prop :=
  after.errors = [] → before.errors = [] ∧ after.seen.keys = before.seen.keys ++ added

theorem SpaceCheck.Notes.refl (check : SpaceCheck) : check.Notes check [] := by
  intro h
  exact ⟨h, by simp⟩

theorem SpaceCheck.Notes.trans {a b c : SpaceCheck} {l l' : List String} (h : a.Notes b l)
    (h' : b.Notes c l') : a.Notes c (l ++ l') := by
  intro hc
  rcases h' hc with ⟨hb, hkeys'⟩
  rcases h hb with ⟨ha, hkeys⟩
  exact ⟨ha, by rw [hkeys', hkeys, List.append_assoc]⟩

/-- Errors that are found stay. -/
theorem SpaceCheck.Notes.of_errors {before : SpaceCheck} {errors : List String} :
    before.Notes { before with errors := before.errors ++ errors } [] := by
  intro h
  exact ⟨(List.append_eq_nil_iff.mp h).1, by simp⟩

theorem SpaceCheck.sweep_notes (check : SpaceCheck) (param place : String) :
    check.Notes (check.sweep param place) [param] := by
  unfold SpaceCheck.sweep
  cases hseen : check.seen.get? param with
  | some other =>
      intro h
      simp at h
  | none =>
      intro h
      refine ⟨h, ?_⟩
      have hnew : param ∉ check.seen.keys := by
        rw [Dict.mem_keys, Dict.has, hseen]
        simp
      change (check.seen.set param place).keys = _
      rw [Dict.keys_set, if_neg hnew]

/-- A loop notes what its rounds note. -/
theorem SpaceCheck.foldl_notes {ι : Type} (f : SpaceCheck → ι → SpaceCheck) (added : ι → List String)
    (hf : ∀ (check : SpaceCheck) (i : ι), check.Notes (f check i) (added i)) (l : List ι)
    (check : SpaceCheck) : check.Notes (l.foldl f check) (l.flatMap added) := by
  induction l generalizing check with
  | nil => exact SpaceCheck.Notes.refl check
  | cons i l ih => exact (hf check i).trans (ih (f check i))

theorem checkTied_notes (check : SpaceCheck) (group : Dict (List Value)) (index : Nat) :
    check.Notes (checkTied check group index) (filledKeys group) := by
  unfold checkTied
  dsimp only
  rw [List.append_assoc]
  have hsweeps := SpaceCheck.foldl_notes
    (fun check (e : String × Nat) => check.sweep e.1 ("tied group " ++ toString index))
    (fun e => [e.1]) (fun check e => check.sweep_notes e.1 _)
    ((group.entries.filter fun e => !e.2.isEmpty).map fun e => (e.1, e.2.length))
  have hkeys : ((group.entries.filter fun e => !e.2.isEmpty).map fun e => (e.1, e.2.length)).flatMap
      (fun e : String × Nat => [e.1]) = filledKeys group := by
    simp [filledKeys, List.flatMap_map, ← List.map_eq_flatMap]
  rw [hkeys] at hsweeps
  exact SpaceCheck.Notes.of_errors.trans (hsweeps _)

/-- The name of a range that is one. -/
def rangeNames (entry : String × Config) : List String :=
  ((SearchSpace.rangeSpecOf entry).map RangeSpec.name).toList

theorem checkRange_notes (check : SpaceCheck) (entry : String × Config) :
    check.Notes (checkRange check entry) (rangeNames entry) := by
  unfold checkRange
  split
  · rename_i low high step hlow hhigh hstep
    by_cases hpositive : step ≤ 0
    · intro h
      simp [hpositive] at h
    · by_cases horder : high < low
      · intro h
        simp [hpositive, horder] at h
      · have hname : rangeNames entry = [entry.1] := by
          simp [rangeNames, SearchSpace.rangeSpecOf, hlow, hhigh, hstep, hpositive, horder]
        rw [hname]
        simp only [hpositive, horder, if_false]
        exact SpaceCheck.Notes.of_errors.trans (SpaceCheck.sweep_notes _ entry.1 _)
  · intro h
    simp at h
  · intro h
    simp at h

namespace SearchSpace

variable (space : SearchSpace)

theorem sweepCheck_keys (h : space.sweepCheck.errors = []) :
    space.sweepCheck.seen.keys = space.gridValues.keys ++ space.tiedGroups.flatMap filledKeys ++
      space.rangeSpecs.map RangeSpec.name := by
  have htied := SpaceCheck.foldl_notes
    (fun check (g : Dict (List Value) × Nat) => checkTied check g.1 (g.2 + 1))
    (fun g => filledKeys g.1) (fun check g => checkTied_notes check g.1 (g.2 + 1))
    space.tiedGroups.zipIdx
  have hrange := SpaceCheck.foldl_notes checkRange rangeNames checkRange_notes
    (sortEntries space.range.entries)
  have hall := (((htied _).trans (hrange _)) h).2
  have htiedKeys : space.tiedGroups.zipIdx.flatMap (fun g => filledKeys g.1) =
      space.tiedGroups.flatMap filledKeys := by
    have hmap := List.flatMap_map Prod.fst filledKeys space.tiedGroups.zipIdx
    rw [List.zipIdx_map_fst] at hmap
    exact hmap.symm
  have hrangeKeys : (sortEntries space.range.entries).flatMap rangeNames =
      space.rangeSpecs.map RangeSpec.name := by
    unfold rangeSpecs
    rw [List.map_filterMap, List.filterMap_eq_flatMap_toList]
    rfl
  have hgrid : (Dict.empty.setAll (space.gridValues.keys.map fun k => (k, "the grid"))).keys =
      space.gridValues.keys := by
    have hfst : (space.gridValues.keys.map fun k => (k, "the grid")).map Prod.fst =
        space.gridValues.keys := by
      rw [List.map_map]
      exact List.map_id _
    rw [Dict.keys_setAll (by rw [hfst]; exact space.gridValues.nodup), hfst]
    rfl
  rw [htiedKeys, hrangeKeys, hgrid, ← List.append_assoc] at hall
  exact hall

/-- Where nothing is wrong, no parameter is swept twice. -/
theorem swept_nodup (h : space.sweepCheck.errors = []) :
    (space.gridValues.keys ++ space.tiedGroups.flatMap filledKeys ++
      space.rangeSpecs.map RangeSpec.name).Nodup := by
  rw [← space.sweepCheck_keys h]
  exact space.sweepCheck.seen.nodup

/-- The axes before the empty ones are dropped. -/
def allAxes : List (List Part) :=
  (sortEntries space.gridValues.entries).map (fun e => e.2.map fun v => [(e.1, v)]) ++
    space.tiedGroups.map tiedAxis ++
    space.rangeSpecs.map fun r => r.values.map fun v => [(r.name, v)]

theorem axes_eq : space.axes = space.allAxes.filter fun axis => !axis.isEmpty := rfl

/-- Every part of an axis sets the same parameters. -/
theorem part_keys {axis : List Part} (h : axis ∈ space.allAxes) {part : Part} (hpart : part ∈ axis) :
    part.map Prod.fst = axisKeys axis := by
  have hcolumn : ∀ (k : String) (values : List Value),
      part ∈ (values.map fun v => [(k, v)]) → part.map Prod.fst = [k] ∧ values ≠ [] := by
    intro k values hmem
    rcases List.mem_map.mp hmem with ⟨v, hv, rfl⟩
    exact ⟨rfl, List.ne_nil_of_mem hv⟩
  unfold allAxes at h
  rcases List.mem_append.mp h with hdeclared | hrange
  · rcases List.mem_append.mp hdeclared with hgrid | htied
    · rcases List.mem_map.mp hgrid with ⟨e, -, rfl⟩
      rcases hcolumn e.1 e.2 hpart with ⟨hkeys, hne⟩
      rw [hkeys, axisKeys_column e.1 hne]
    · rcases List.mem_map.mp htied with ⟨group, -, rfl⟩
      rw [tiedAxis_eq] at hpart ⊢
      rcases List.mem_map.mp hpart with ⟨row, hrow, rfl⟩
      cases hrows : tiedRows group with
      | zero => simp [hrows] at hrow
      | succ n => simp [axisKeys, tiedRow_keys, List.range_succ_eq_map]
  · rcases List.mem_map.mp hrange with ⟨r, -, rfl⟩
    rcases hcolumn r.name r.values hpart with ⟨hkeys, hne⟩
    rw [hkeys, axisKeys_column r.name hne]

theorem axisKeys_column_sublist (k : String) (values : List Value) :
    (axisKeys (values.map fun v => [(k, v)])).Sublist [k] := by
  cases values with
  | nil => exact List.nil_sublist _
  | cons v values => exact List.Sublist.refl _

/-- The axes set the swept parameters, each at most once. -/
theorem allAxes_keys : (space.allAxes.flatMap axisKeys).Subperm
    (space.gridValues.keys ++ space.tiedGroups.flatMap filledKeys ++
      space.rangeSpecs.map RangeSpec.name) := by
  unfold allAxes
  rw [List.flatMap_append, List.flatMap_append]
  refine List.Subperm.append (List.Subperm.append ?_ ?_) ?_
  · rw [List.flatMap_map]
    have hsub := flatMap_subperm (l := sortEntries space.gridValues.entries)
      (fun e _ => (axisKeys_column_sublist e.1 e.2).subperm)
    refine hsub.trans ?_
    rw [← List.map_eq_flatMap]
    exact ((perm_sortEntries _).map Prod.fst).subperm
  · rw [List.flatMap_map]
    exact flatMap_subperm fun group _ => axisKeys_tiedAxis group
  · rw [List.flatMap_map, List.map_eq_flatMap]
    exact flatMap_subperm fun r _ => (axisKeys_column_sublist r.name r.values).subperm

theorem mem_axes {axis : List Part} : axis ∈ space.axes ↔ axis ∈ space.allAxes ∧ axis ≠ [] := by
  rw [axes_eq, List.mem_filter]
  simp

/-- Where nothing is wrong, every axis has parameters of its own. -/
theorem axes_keys_nodup (h : space.sweepCheck.errors = []) : (space.axes.flatMap axisKeys).Nodup := by
  rcases space.allAxes_keys with ⟨keys, hperm, hsublist⟩
  have hall : (space.allAxes.flatMap axisKeys).Nodup :=
    hperm.nodup_iff.mp (hsublist.nodup (space.swept_nodup h))
  have hsub : (space.axes.flatMap axisKeys).Sublist (space.allAxes.flatMap axisKeys) := by
    rw [axes_eq]
    exact List.filter_sublist.flatMap axisKeys
  exact hsub.nodup hall

end SearchSpace

end AutoTune
