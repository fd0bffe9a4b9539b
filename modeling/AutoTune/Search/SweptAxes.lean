import AutoTune.Search.Points

/-!
# What is declared and what is swept

`swept_keys` reads the declaration and `expand` the axes. The two agree except where a tied group has an
empty column: its keys count as swept and the check finds nothing wrong with it, but the group has no rows and
its axis is dropped. Such a group is carried only by a base that has all it declares.
-/

namespace AutoTune

open Lib

/-! ## What the check says of a tied group -/

/-- If nothing is wrong after a loop, nothing was wrong after any of its rounds. -/
theorem SpaceCheck.errors_round {ι : Type} (f : SpaceCheck → ι → SpaceCheck) (added : ι → List String)
    (hf : ∀ (check : SpaceCheck) (i : ι), check.Notes (f check i) (added i)) {l : List ι}
    {check : SpaceCheck} (h : (l.foldl f check).errors = []) {i : ι} (hi : i ∈ l) :
    ∃ before : SpaceCheck, (f before i).errors = [] := by
  induction l generalizing check with
  | nil => cases hi
  | cons j l ih =>
      rcases List.mem_cons.mp hi with rfl | hin
      · exact ⟨check, (SpaceCheck.foldl_notes f added hf l (f check i) h).1⟩
      · exact ih h hin

/-- The columns of a tied group that have values have the same number of them. -/
theorem checkTied_even {check : SpaceCheck} {group : Dict (List Value)} {index : Nat}
    (h : (checkTied check group index).errors = []) {c c' : String × List Value} (hc : c ∈ group.entries)
    (hc' : c' ∈ group.entries) (hne : c.2 ≠ []) (hne' : c'.2 ≠ []) : c.2.length = c'.2.length := by
  unfold checkTied at h
  dsimp only at h
  have hstart := (SpaceCheck.foldl_notes
    (fun check (e : String × Nat) => check.sweep e.1 ("tied group " ++ toString index))
    (fun e => [e.1]) (fun check e => check.sweep_notes e.1 _) _ _ h).1
  have hragged := (List.append_eq_nil_iff.mp hstart).2
  have hlengths : ∀ e ∈ group.entries, e.2 ≠ [] → e.2.length ∈
      ((group.entries.filter fun e => !e.2.isEmpty).map fun e => (e.1, e.2.length)).map Prod.snd := by
    intro e he hfilled
    rw [List.map_map]
    exact List.mem_map.mpr ⟨e, List.mem_filter.mpr ⟨he, by simpa using hfilled⟩, rfl⟩
  by_contra hdiffer
  -- two lengths would make the check say so
  have hmany : 1 < (((group.entries.filter fun e => !e.2.isEmpty).map fun e =>
      (e.1, e.2.length)).map Prod.snd).dedup.length := by
    have hpair : [c.2.length, c'.2.length].Nodup := by simpa using hdiffer
    have hsub : [c.2.length, c'.2.length] ⊆ (((group.entries.filter fun e => !e.2.isEmpty).map fun e =>
        (e.1, e.2.length)).map Prod.snd).dedup := by
      intro n hn
      rw [List.mem_dedup]
      rcases List.mem_cons.mp hn with rfl | hn
      · exact hlengths c hc hne
      · rw [List.mem_singleton.mp hn]
        exact hlengths c' hc' hne'
    exact (List.subperm_of_subset hpair hsub).length_le
  rw [if_pos hmany] at hragged
  exact List.cons_ne_nil _ _ hragged

namespace SearchSpace

variable {space : SearchSpace}

theorem tied_even (h : space.sweepCheck.errors = []) {group : Dict (List Value)}
    (hgroup : group ∈ space.tiedGroups) {c c' : String × List Value} (hc : c ∈ group.entries)
    (hc' : c' ∈ group.entries) (hne : c.2 ≠ []) (hne' : c'.2 ≠ []) : c.2.length = c'.2.length := by
  have htied := (SpaceCheck.foldl_notes checkRange rangeNames checkRange_notes
    (sortEntries space.range.entries) _ h).1
  rcases List.getElem_of_mem hgroup with ⟨i, hi, hat⟩
  have hin : (group, i) ∈ space.tiedGroups.zipIdx := by
    rw [List.mk_mem_zipIdx_iff_getElem?, List.getElem?_eq_getElem hi, hat]
  rcases SpaceCheck.errors_round
    (fun check (g : Dict (List Value) × Nat) => checkTied check g.1 (g.2 + 1))
    (fun g => filledKeys g.1) (fun check g => checkTied_notes check g.1 (g.2 + 1)) htied hin with ⟨before, hround⟩
  exact checkTied_even hround hc hc' hne hne'

/-- A group without an empty column has as many rows as values in each. -/
theorem tiedRows_eq (h : space.sweepCheck.errors = []) {group : Dict (List Value)}
    (hgroup : group ∈ space.tiedGroups) (hfull : FullTie group) {c : String × List Value}
    (hc : c ∈ group.entries) : tiedRows group = c.2.length := by
  refine Nat.le_antisymm (tiedRows_le hc) ?_
  unfold tiedRows
  cases hmin : ((sortEntries group.entries).map fun c => c.2.length).min? with
  | none =>
      have hempty : sortEntries group.entries = [] := by
        simpa [List.min?_eq_none_iff] using hmin
      have hin := mem_sortEntries.mpr hc
      rw [hempty] at hin
      cases hin
  | some m =>
      rcases List.mem_map.mp (List.min?_eq_some_iff.mp hmin).1 with ⟨e, he, rfl⟩
      have heq := tied_even h hgroup (mem_sortEntries.mp he) hc (hfull e (mem_sortEntries.mp he)) (hfull c hc)
      simp [heq]

/-! ## The swept parameters -/

theorem mem_append_new {keys names : List String} {k : String} :
    k ∈ keys ++ names.filter (fun k => !keys.contains k) ↔ k ∈ keys ∨ k ∈ names := by
  rw [List.mem_append, List.mem_filter]
  by_cases hin : k ∈ keys <;> simp [hin]

/-- A parameter is swept by declaration: it is in the grid, in a tied group or in a range. -/
theorem mem_sweptKeys {k : String} : k ∈ space.sweptKeys ↔ space.gridValues.has k = true ∨
    (∃ group ∈ space.tiedGroups, group.has k = true) ∨ ∃ r ∈ space.rangeSpecs, r.name = k := by
  have hfold : ∀ (groups : List (Dict (List Value))) (keys : List String),
      k ∈ groups.foldl (fun keys group => keys ++ group.keys.filter fun k => !keys.contains k) keys ↔
        k ∈ keys ∨ ∃ group ∈ groups, group.has k = true := by
    intro groups
    induction groups with
    | nil => simp
    | cons group groups ih =>
        intro keys
        rw [List.foldl_cons, ih, mem_append_new, Dict.mem_keys, List.exists_mem_cons_iff, or_assoc]
  have hnames : k ∈ space.rangeSpecs.map RangeSpec.name ↔ ∃ r ∈ space.rangeSpecs, r.name = k := List.mem_map
  unfold sweptKeys
  rw [(List.perm_insertionSort _ _).mem_iff, mem_append_new, hfold, Dict.mem_keys, hnames, or_assoc]

theorem swept_of_source {k : String} {v : Value} (h : space.Source k v) : space.Swept k := by
  cases h with
  | grid values hget _ => exact Or.inl (Dict.has_iff.mpr ⟨values, hget⟩)
  | tied group hgroup hfull column hget _ =>
      exact Or.inr (Or.inl ⟨group, hgroup, hfull, Dict.has_iff.mpr ⟨column, hget⟩⟩)
  | range r hr hname _ => exact Or.inr (Or.inr ⟨r, hr, hname⟩)

/-- A filled column of a group with an empty one is swept by no axis. -/
theorem not_swept_of_emptied (h : space.sweepCheck.errors = []) {group : Dict (List Value)}
    (hgroup : group ∈ space.tiedGroups) (hempty : ¬ FullTie group) {k : String} (hk : k ∈ filledKeys group) :
    ¬ space.Swept k := by
  have hapart := List.nodup_append.mp (space.swept_nodup h)
  have hdeclared := List.nodup_append.mp hapart.1
  have hin : k ∈ space.tiedGroups.flatMap filledKeys := List.mem_flatMap.mpr ⟨group, hgroup, hk⟩
  rintro (hgrid | ⟨other, hother, hfull, hhas⟩ | ⟨r, hr, hname⟩)
  · exact hdeclared.2.2 k (Dict.mem_keys.mpr hgrid) k hin rfl
  · have hne : group ≠ other := fun heq => hempty (heq ▸ hfull)
    have : Std.Symm (Function.onFun List.Disjoint filledKeys) := ⟨fun _ _ h => List.Disjoint.symm h⟩
    have hdisjoint := (List.nodup_flatMap.mp hdeclared.2.1).2.forall
    have hkey : k ∈ filledKeys other := by
      rw [filledKeys_of_fullTie hfull]
      exact Dict.mem_keys.mpr hhas
    exact hdisjoint hgroup hother hne hk hkey
  · refine hapart.2.2 k (List.mem_append_right _ hin) k ?_ rfl
    exact List.mem_map.mpr ⟨r, hr, hname⟩

/-! ## Points of the expansion -/

theorem mem_expand_iff (hgates : space.gates = []) {config : Config} :
    config ∈ space.expand ↔ ∃ combo ∈ product space.axes, space.mergedWith combo = config := by
  unfold expand
  simp [hgates]

theorem axes_ne_nil : ∀ axis ∈ space.axes, axis ≠ [] := fun _ haxis => (space.mem_axes.mp haxis).2

/-- What a part of an axis writes is what the config holds. -/
theorem get?_of_part (h : space.sweepCheck.errors = []) {combo : List Part}
    (hcombo : combo ∈ product space.axes) {part : Part} (hpart : part ∈ combo) {k : String} {v : Value}
    (hkv : (k, v) ∈ part) : (space.mergedWith combo).get? k = some v := by
  have hnodup : (combo.flatten.map Prod.fst).Nodup := by
    rw [space.combo_keys hcombo]
    exact space.axes_keys_nodup h
  have hget := dictGet_of_mem hnodup (List.mem_flatten.mpr ⟨part, hpart, hkv⟩)
  rw [space.get?_mergedWith h hcombo, hget]
  rfl

/-- A parameter no axis sets has its value from the base. -/
theorem get?_of_not_swept (h : space.sweepCheck.errors = []) {combo : List Part}
    (hcombo : combo ∈ product space.axes) {k : String} (hk : ¬ space.Swept k) :
    (space.mergedWith combo).get? k = space.base.get? k := by
  rw [space.get?_mergedWith h hcombo]
  cases hfrom : dictGet combo.flatten k with
  | none => rfl
  | some v =>
      rcases List.mem_flatten.mp (mem_of_dictGet hfrom) with ⟨part, hpart, hkv⟩
      rcases mem_product hcombo hpart with ⟨axis, haxis, hin⟩
      exact absurd (swept_of_source (source_of_axis (space.mem_axes.mp haxis).1 hin hkv)) hk

theorem has_of_swept (h : space.sweepCheck.errors = []) {combo : List Part}
    (hcombo : combo ∈ product space.axes) {k : String} (hk : space.Swept k) :
    (space.mergedWith combo).has k = true := by
  have hin : k ∈ combo.flatten.map Prod.fst := by
    rw [space.combo_keys hcombo]
    exact swept_keys hk
  rcases List.mem_map.mp hin with ⟨e, he, rfl⟩
  rcases List.mem_flatten.mp he with ⟨part, hpart, hkv⟩
  exact Dict.has_iff.mpr ⟨e.2, get?_of_part h hcombo hpart hkv⟩

/-- Some config has what a part of an axis writes. -/
theorem expand_carries (h : space.sweepCheck.errors = []) (hgates : space.gates = []) {axis : List Part}
    (haxis : axis ∈ space.allAxes) {part : Part} (hpart : part ∈ axis) :
    ∃ config ∈ space.expand, ∀ k v, (k, v) ∈ part → config.get? k = some v := by
  have hin : axis ∈ space.axes := space.mem_axes.mpr ⟨haxis, List.ne_nil_of_mem hpart⟩
  rcases exists_product_of_mem axes_ne_nil hin hpart with ⟨combo, hcombo, hmem⟩
  exact ⟨_, (mem_expand_iff hgates).mpr ⟨combo, hcombo, rfl⟩,
    fun k v hkv => get?_of_part h hcombo hmem hkv⟩

/-! ## The axes of each kind -/

theorem gridAxis_mem {k : String} {values : List Value} (hget : space.gridValues.get? k = some values) :
    (values.map fun v => [(k, v)]) ∈ space.allAxes := by
  refine List.mem_append_left _ (List.mem_append_left _ ?_)
  exact List.mem_map.mpr ⟨(k, values), mem_sortEntries.mpr (Dict.mem_entries.mpr hget), rfl⟩

theorem tiedAxis_mem {group : Dict (List Value)} (hgroup : group ∈ space.tiedGroups) :
    tiedAxis group ∈ space.allAxes :=
  List.mem_append_left _ (List.mem_append_right _ (List.mem_map_of_mem hgroup))

theorem rangeAxis_mem {r : RangeSpec} (hr : r ∈ space.rangeSpecs) :
    (r.values.map fun v => [(r.name, v)]) ∈ space.allAxes :=
  List.mem_append_right _ (List.mem_map.mpr ⟨r, hr, rfl⟩)

/-- A row of a tied group has the value of that row in every column. -/
theorem mem_tiedRow {group : Dict (List Value)} {row : Nat} {c : String × List Value}
    (hc : c ∈ group.entries) {v : Value} (hv : c.2[row]? = some v) :
    (c.1, v) ∈ tiedRow (sortEntries group.entries) row := by
  refine List.mem_map.mpr ⟨c, mem_sortEntries.mpr hc, ?_⟩
  rw [hv]
  rfl

/-! ## The whole expansion -/

/-- The configs carry all that is declared: every swept parameter is in each of them, every value of the grid
and of a range and every row of a tied group is in some, no config mixes two rows of a group, and no
parameter is set by two axes. -/
structure SweepsAll (space : SearchSpace) : Prop where
  present : ∀ config ∈ space.expand, ∀ k ∈ space.sweptKeys, config.has k = true
  grid : ∀ e ∈ space.gridValues.entries, ∀ v ∈ e.2, ∃ config ∈ space.expand, config.get? e.1 = some v
  range : ∀ r ∈ space.rangeSpecs, ∀ v ∈ r.values, ∃ config ∈ space.expand, config.get? r.name = some v
  rows : ∀ group ∈ space.tiedGroups, ∀ e ∈ group.entries, ∀ row < e.2.length,
    ∃ config ∈ space.expand, ∀ c ∈ group.entries, c.2 ≠ [] → config.get? c.1 = c.2[row]?
  unmixed : ∀ config ∈ space.expand, ∀ group ∈ space.tiedGroups, ∃ row : Nat, ∀ c ∈ group.entries, c.2 ≠ [] →
    ∀ v : Value, config.get? c.1 = some v → c.2[row]? = some v
  apart : (space.axes.flatMap axisKeys).Nodup

/-- A tied group without an empty column, or one the base carries: the base has every value of each of its
columns, and a parameter without values is in the base or swept elsewhere. -/
def Carried (space : SearchSpace) (group : Dict (List Value)) : Prop :=
  FullTie group ∨ ∀ c ∈ group.entries, (∀ v ∈ c.2, space.base.get? c.1 = some v) ∧
    (c.2 = [] → space.base.has c.1 = true ∨ space.Swept c.1)

theorem mem_filledKeys {group : Dict (List Value)} {c : String × List Value} (hc : c ∈ group.entries)
    (hne : c.2 ≠ []) : c.1 ∈ filledKeys group :=
  List.mem_map_of_mem (List.mem_filter.mpr ⟨hc, by simpa using hne⟩)

/-- A filled column of a group the base carries is in every config with the base's value. -/
theorem get?_of_carried (h : space.sweepCheck.errors = []) {group : Dict (List Value)}
    (hgroup : group ∈ space.tiedGroups) (hempty : ¬ FullTie group) {c : String × List Value}
    (hc : c ∈ group.entries) (hne : c.2 ≠ []) {combo : List Part} (hcombo : combo ∈ product space.axes) :
    (space.mergedWith combo).get? c.1 = space.base.get? c.1 :=
  get?_of_not_swept h hcombo (not_swept_of_emptied h hgroup hempty (mem_filledKeys hc hne))

/-- A key that is swept anywhere is in every config: swept there, or in the base. -/
theorem present_of_carried (h : space.sweepCheck.errors = []) (hgates : space.gates = [])
    (hcarried : ∀ group ∈ space.tiedGroups, space.Carried group) {config : Config} (hconfig : config ∈ space.expand)
    {k : String} (hk : k ∈ space.sweptKeys) : config.has k = true := by
  rcases (mem_expand_iff hgates).mp hconfig with ⟨combo, hcombo, rfl⟩
  have hbase : space.base.has k = true → (space.mergedWith combo).has k = true := by
    intro hhas
    rw [mergedWith_eq]
    exact (Dict.has_setAll _ _ _).mpr (Or.inr hhas)
  rcases mem_sweptKeys.mp hk with hgrid | ⟨group, hgroup, hhas⟩ | hrange
  · exact has_of_swept h hcombo (Or.inl hgrid)
  · by_cases hfull : FullTie group
    · exact has_of_swept h hcombo (Or.inr (Or.inl ⟨group, hgroup, hfull, hhas⟩))
    · rcases Dict.has_iff.mp hhas with ⟨column, hcolumn⟩
      rcases (hcarried group hgroup).resolve_left hfull _ (Dict.mem_entries.mpr hcolumn) with
        ⟨hvalues, hnone⟩
      cases column with
      | nil => exact (hnone rfl).elim hbase fun hswept => has_of_swept h hcombo hswept
      | cons v column => exact hbase (Dict.has_iff.mpr ⟨v, hvalues v List.mem_cons_self⟩)
  · exact has_of_swept h hcombo (Or.inr (Or.inr hrange))

/-- A row of a tied group is in some config: one of the group's axis, or any where the base carries it. -/
theorem row_of_carried (h : space.sweepCheck.errors = []) (hgates : space.gates = [])
    (hcarried : ∀ group ∈ space.tiedGroups, space.Carried group) {group : Dict (List Value)}
    (hgroup : group ∈ space.tiedGroups) {e : String × List Value} (he : e ∈ group.entries) {row : Nat}
    (hrow : row < e.2.length) :
    ∃ config ∈ space.expand, ∀ c ∈ group.entries, c.2 ≠ [] → config.get? c.1 = c.2[row]? := by
  by_cases hfull : FullTie group
  · have hlt : row < tiedRows group := by
      rw [tiedRows_eq h hgroup hfull he]
      exact hrow
    have hpart : tiedRow (sortEntries group.entries) row ∈ tiedAxis group := by
      rw [tiedAxis_eq]
      exact List.mem_map_of_mem (List.mem_range.mpr hlt)
    rcases expand_carries h hgates (tiedAxis_mem hgroup) hpart with ⟨config, hconfig, hall⟩
    refine ⟨config, hconfig, fun c hc _ => ?_⟩
    have hin : row < c.2.length := tiedRows_eq h hgroup hfull hc ▸ hlt
    have hvalue := List.getElem?_eq_getElem hin
    rw [hall c.1 _ (mem_tiedRow hc hvalue), hvalue]
  · have hvalues := (hcarried group hgroup).resolve_left hfull
    have hne : e.2 ≠ [] := List.ne_nil_of_length_pos (by omega)
    rcases List.exists_mem_of_ne_nil _ (product_ne_nil (@axes_ne_nil space)) with ⟨combo, hcombo⟩
    refine ⟨_, (mem_expand_iff hgates).mpr ⟨combo, hcombo, rfl⟩, fun c hc hcne => ?_⟩
    have hin : row < c.2.length := tied_even h hgroup he hc hne hcne ▸ hrow
    rw [get?_of_carried h hgroup hfull hc hcne hcombo, List.getElem?_eq_getElem hin]
    exact (hvalues c hc).1 _ (List.getElem_mem hin)

/-- No config mixes two rows of a tied group. -/
theorem unmixed_of_carried (h : space.sweepCheck.errors = []) (hgates : space.gates = [])
    (hcarried : ∀ group ∈ space.tiedGroups, space.Carried group) {config : Config} (hconfig : config ∈ space.expand)
    {group : Dict (List Value)} (hgroup : group ∈ space.tiedGroups) :
    ∃ row : Nat, ∀ c ∈ group.entries, c.2 ≠ [] → ∀ v : Value, config.get? c.1 = some v → c.2[row]? = some v := by
  rcases (mem_expand_iff hgates).mp hconfig with ⟨combo, hcombo, rfl⟩
  by_cases hfull : FullTie group
  · by_cases hrows : tiedAxis group = []
    · refine ⟨0, fun c hc hne => ?_⟩
      have hnone : tiedRows group = 0 := by simpa [tiedAxis_eq] using hrows
      rw [tiedRows_eq h hgroup hfull hc] at hnone
      exact absurd (List.length_eq_zero_iff.mp hnone) hne
    · -- the config's row is the one its part of the group's axis was made of
      rcases exists_mem_of_product hcombo (space.mem_axes.mpr ⟨tiedAxis_mem hgroup, hrows⟩) with
        ⟨part, hpart, hin⟩
      rw [tiedAxis_eq] at hpart
      rcases List.mem_map.mp hpart with ⟨row, hrow, rfl⟩
      refine ⟨row, fun c hc _ v hv => ?_⟩
      have hlt : row < c.2.length := tiedRows_eq h hgroup hfull hc ▸ List.mem_range.mp hrow
      have hvalue := List.getElem?_eq_getElem hlt
      rw [get?_of_part h hcombo hin (mem_tiedRow hc hvalue)] at hv
      rw [hvalue, hv]
  · have hvalues := (hcarried group hgroup).resolve_left hfull
    refine ⟨0, fun c hc hne v hv => ?_⟩
    rw [get?_of_carried h hgroup hfull hc hne hcombo] at hv
    have hlt : 0 < c.2.length := List.length_pos_of_ne_nil hne
    have hfirst := (hvalues c hc).1 _ (List.getElem_mem hlt)
    rw [List.getElem?_eq_getElem hlt, ← hv, hfirst]

theorem sweepsAll_of_carried (h : space.sweepCheck.errors = []) (hgates : space.gates = [])
    (hcarried : ∀ group ∈ space.tiedGroups, space.Carried group) : space.SweepsAll where
  apart := space.axes_keys_nodup h
  grid := by
    intro e he v hv
    rcases expand_carries h hgates (gridAxis_mem (Dict.mem_entries.mp he)) (List.mem_map_of_mem hv) with
      ⟨config, hconfig, hall⟩
    exact ⟨config, hconfig, hall _ _ (List.mem_singleton_self _)⟩
  range := by
    intro r hr v hv
    rcases expand_carries h hgates (rangeAxis_mem hr) (List.mem_map_of_mem hv) with ⟨config, hconfig, hall⟩
    exact ⟨config, hconfig, hall _ _ (List.mem_singleton_self _)⟩
  present := fun _ hconfig _ hk => present_of_carried h hgates hcarried hconfig hk
  rows := fun _ hgroup _ he _ hrow => row_of_carried h hgates hcarried hgroup he hrow
  unmixed := fun _ hconfig _ hgroup => unmixed_of_carried h hgates hcarried hconfig hgroup

theorem carried_of_sweepsAll (h : space.sweepCheck.errors = []) (hgates : space.gates = [])
    (hall : space.SweepsAll) {group : Dict (List Value)} (hgroup : group ∈ space.tiedGroups) :
    space.Carried group := by
  by_cases hfull : FullTie group
  · exact Or.inl hfull
  · refine Or.inr fun c hc => ⟨fun v hv => ?_, fun hnone => ?_⟩
    · -- some config has the value, and only the base can have given it
      rcases List.getElem_of_mem hv with ⟨row, hrow, rfl⟩
      have hne : c.2 ≠ [] := List.ne_nil_of_length_pos (by omega)
      rcases hall.rows group hgroup c hc row hrow with ⟨config, hconfig, hvalues⟩
      rcases (mem_expand_iff hgates).mp hconfig with ⟨combo, hcombo, rfl⟩
      rw [← get?_of_carried h hgroup hfull hc hne hcombo, hvalues c hc hne, List.getElem?_eq_getElem hrow]
    · rcases List.exists_mem_of_ne_nil _ (product_ne_nil (@axes_ne_nil space)) with ⟨combo, hcombo⟩
      have hkey : group.has c.1 = true := Dict.has_iff.mpr ⟨c.2, Dict.mem_entries.mp hc⟩
      have hhas := hall.present _ ((mem_expand_iff hgates).mpr ⟨combo, hcombo, rfl⟩) c.1
        (mem_sweptKeys.mpr (Or.inr (Or.inl ⟨group, hgroup, hkey⟩)))
      by_cases hswept : space.Swept c.1
      · exact Or.inr hswept
      · refine Or.inl ?_
        rw [Dict.has, ← get?_of_not_swept h hcombo hswept]
        exact hhas

/-- A space without mistakes and without conditions sweeps all it declares exactly if each of its tied groups
has no empty column or is carried by the base. -/
theorem sweeps_all_iff (space : SearchSpace) (h : space.spaceErrors = []) (hgates : space.gates = []) :
    space.SweepsAll ↔ ∀ group ∈ space.tiedGroups, space.Carried group := by
  have hsound := (space.sound_of_spaceErrors h).1
  constructor
  · intro hall group hgroup
    exact carried_of_sweepsAll hsound hgates hall hgroup
  · exact sweepsAll_of_carried hsound hgates

end SearchSpace

/-! ## A group that vanishes -/

/-- Two parameters tied with values, and a third without. -/
def tiedWith (third : List Value) : SearchSpace where
  tied := [.ofEntries [("tp", [.int 1, .int 2]), ("mem_fraction_static", [.float (9 / 10), .float (4 / 5)]),
    ("page_size", third)]]

theorem tiedWith_groups (third : List Value) : (tiedWith third).tiedGroups = (tiedWith third).tied := rfl

/-- A third column filled like the others is swept with them. -/
theorem full_group_swept : (tiedWith [.int 16, .int 32]).SweepsAll := by
  refine ((tiedWith [.int 16, .int 32]).sweeps_all_iff (by decide) rfl).mpr fun group hgroup => ?_
  rw [tiedWith_groups] at hgroup
  rcases List.mem_singleton.mp hgroup with rfl
  refine Or.inl fun c hc => ?_
  have hfilled : ∀ c ∈ ([("tp", [.int 1, .int 2]), ("mem_fraction_static", [.float (9 / 10), .float (4 / 5)]),
      ("page_size", [.int 16, .int 32])] : List (String × List Value)), c.2 ≠ [] := by simp
  exact hfilled c hc

/-- With an empty third column the check says nothing, and no config has the other two. -/
theorem emptied_group_vanishes :
    (tiedWith []).spaceErrors = [] ∧ (tiedWith []).gates = [] ∧ ¬ (tiedWith []).SweepsAll := by
  refine ⟨by decide, rfl, fun h => ?_⟩
  have hempty : Dict.empty ∈ (tiedWith []).expand := by
    rw [show (tiedWith []).expand = [Dict.empty] by with_unfolding_all rfl]
    exact List.mem_singleton_self _
  have hhas := h.present _ hempty "tp" (by with_unfolding_all decide)
  exact absurd hhas (by decide)

end AutoTune
