import AutoTune.Search.Coverage
import AutoTune.Search.Deviations
import AutoTune.Api.ConfigChecks
import Mathlib.Tactic.Linarith
import Mathlib.Tactic.Positivity

/-!
# The platform's own points

A point the platform expands a space to is read again by the deviation badges, by the normal form of
what a policy submits, and by coverage. The three agree on it unless one of three things happens: a
tied group with an empty column was dropped, a stepped value was rounded over its bound, or merging the
base into the point again brings conditional parameters back that hold each other up.
-/

namespace AutoTune

open Lib

namespace SearchSpace

variable {space : SearchSpace}

/-! ## Where a value of a point comes from -/

/-- The places a parameter can get its value from. -/
inductive Source (space : SearchSpace) (k : String) (v : Value) : Prop where
  | grid (values : List Value) (hget : space.gridValues.get? k = some values) (hv : v ∈ values)
  | tied (group : Dict (List Value)) (hgroup : group ∈ space.tiedGroups) (hfull : FullTie group)
      (column : List Value) (hget : group.get? k = some column) (hv : v ∈ column)
  | range (r : RangeSpec) (hr : r ∈ space.rangeSpecs) (hname : r.name = k) (hv : v ∈ r.values)

/-- What an axis sets comes from the declaration it was made of. -/
theorem source_of_axis {axis : List Part} (haxis : axis ∈ space.allAxes) {part : Part}
    (hpart : part ∈ axis) {k : String} {v : Value} (hkv : (k, v) ∈ part) : space.Source k v := by
  unfold allAxes at haxis
  rcases List.mem_append.mp haxis with hdeclared | hrange
  · rcases List.mem_append.mp hdeclared with hgrid | htied
    · rcases List.mem_map.mp hgrid with ⟨e, he, rfl⟩
      rcases List.mem_map.mp hpart with ⟨w, hw, rfl⟩
      cases List.mem_singleton.mp hkv
      exact .grid e.2 (Dict.mem_entries.mp (mem_sortEntries.mp he)) hw
    · rcases List.mem_map.mp htied with ⟨group, hgroup, rfl⟩
      rw [tiedAxis_eq] at hpart
      rcases List.mem_map.mp hpart with ⟨row, hrow, rfl⟩
      rw [List.mem_range] at hrow
      rcases List.mem_map.mp hkv with ⟨e, he, heq⟩
      have hmem := mem_sortEntries.mp he
      have hlt : row < e.2.length := Nat.lt_of_lt_of_le hrow (tiedRows_le hmem)
      rw [List.getElem?_eq_getElem hlt, Option.getD_some] at heq
      cases heq
      exact .tied group hgroup (fullTie_of_rows (by omega)) e.2 (Dict.mem_entries.mp hmem)
        (List.getElem_mem hlt)
  · rcases List.mem_map.mp hrange with ⟨r, hr, rfl⟩
    rcases List.mem_map.mp hpart with ⟨w, hw, rfl⟩
    cases List.mem_singleton.mp hkv
    exact .range r hr rfl hw

/-- A range has a first value. -/
theorem values_ne_nil {r : RangeSpec} (h : r ∈ space.rangeSpecs) : r.values ≠ [] := by
  unfold rangeSpecs at h
  rcases List.mem_filterMap.mp h with ⟨e, -, hspec⟩
  unfold rangeSpecOf at hspec
  split at hspec
  · rename_i low high step _ _ _
    split at hspec
    · cases hspec
    · rename_i hbounds
      rw [not_or, not_le, not_lt] at hbounds
      cases hspec
      have hfirst : ¬ high + step / 10 ^ 9 < low + (0 : Nat) * step := by
        have : 0 < step / 10 ^ 9 := div_pos hbounds.1 (by positivity)
        rw [Nat.cast_zero, zero_mul, add_zero]
        linarith [hbounds.2]
      unfold RangeSpec.values RangeSpec.valuesFrom
      dsimp only
      rw [if_neg hfirst]
      exact List.cons_ne_nil _ _
  · cases hspec

/-- The parameters that some axis sets. -/
def Swept (space : SearchSpace) (k : String) : Prop :=
  space.gridValues.has k = true ∨ (∃ group ∈ space.tiedGroups, FullTie group ∧ group.has k = true) ∨
    ∃ r ∈ space.rangeSpecs, r.name = k

theorem swept_keys {k : String} (h : space.Swept k) : k ∈ space.axes.flatMap axisKeys := by
  have hin : ∀ axis ∈ space.allAxes, k ∈ axisKeys axis → k ∈ space.axes.flatMap axisKeys := by
    intro axis haxis hk
    refine List.mem_flatMap.mpr ⟨axis, space.mem_axes.mpr ⟨haxis, ?_⟩, hk⟩
    rintro rfl
    cases hk
  unfold allAxes at hin
  rcases h with hgrid | ⟨group, hgroup, hfull, hk⟩ | ⟨r, hr, rfl⟩
  · rcases Dict.has_iff.mp hgrid with ⟨values, hget⟩
    have hmem := Dict.mem_entries.mpr hget
    have hne : values ≠ [] := by
      simpa using (List.mem_filter.mp hmem).2
    refine hin (values.map fun v => [(k, v)]) ?_ ?_
    · refine List.mem_append_left _ (List.mem_append_left _ ?_)
      exact List.mem_map.mpr ⟨(k, values), mem_sortEntries.mpr hmem, rfl⟩
    · rw [axisKeys_column k hne]
      exact List.mem_singleton_self k
  · refine hin (tiedAxis group) ?_ ?_
    · exact List.mem_append_left _ (List.mem_append_right _ (List.mem_map_of_mem hgroup))
    · have hkeys := Dict.mem_keys.mpr hk
      have hne : group.entries ≠ [] := by
        intro hempty
        rw [Dict.keys, hempty] at hkeys
        cases hkeys
      rw [axisKeys_tiedAxis_of_full hne hfull]
      exact ((perm_sortEntries group.entries).map Prod.fst).mem_iff.mpr hkeys
  · refine hin (r.values.map fun v => [(r.name, v)]) ?_ ?_
    · exact List.mem_append_right _ (List.mem_map.mpr ⟨r, hr, rfl⟩)
    · rw [axisKeys_column r.name (values_ne_nil hr)]
      exact List.mem_singleton_self r.name

/-- Where nothing is wrong, a parameter in a range has no values of its own elsewhere. -/
theorem range_apart (h : space.sweepCheck.errors = []) {r : RangeSpec} (hr : r ∈ space.rangeSpecs) :
    space.gridValues.has r.name = false ∧
      ∀ group ∈ space.tiedGroups, FullTie group → group.has r.name = false := by
  have hname : r.name ∈ space.rangeSpecs.map RangeSpec.name := List.mem_map_of_mem hr
  have hapart := (List.nodup_append.mp (space.swept_nodup h)).2.2
  constructor
  · rw [← Bool.not_eq_true, ← Dict.mem_keys]
    intro hk
    exact hapart _ (List.mem_append_left _ hk) _ hname rfl
  · intro group hgroup hfull
    rw [← Bool.not_eq_true, ← Dict.mem_keys]
    intro hk
    rw [← filledKeys_of_fullTie hfull] at hk
    exact hapart _ (List.mem_append_right _ (List.mem_flatMap.mpr ⟨group, hgroup, hk⟩)) _ hname rfl

/-- A value of a point was declared for its parameter, or stands in the base and is swept nowhere. -/
theorem value_source (h : space.sweepCheck.errors = []) {combo : List Part}
    (hcombo : combo ∈ product space.axes) {k : String} {v : Value}
    (hget : (space.mergedWith combo).get? k = some v) :
    space.Source k v ∨ (¬ space.Swept k ∧ space.base.get? k = some v) := by
  rw [space.get?_mergedWith h hcombo, Option.or_eq_some_iff] at hget
  rcases hget with hfrom | ⟨hnone, hbase⟩
  · rcases List.mem_flatten.mp (mem_of_dictGet hfrom) with ⟨part, hpart, hkv⟩
    rcases mem_product hcombo hpart with ⟨axis, haxis, hin⟩
    exact Or.inl (source_of_axis (space.mem_axes.mp haxis).1 hin hkv)
  · refine Or.inr ⟨fun hswept => ?_, hbase⟩
    have hkeys := swept_keys hswept
    rw [← space.combo_keys hcombo, ← dictGet_isSome, hnone] at hkeys
    cases hkeys

/-! ## What its value is judged by -/

/-- Does a parameter stand in a tied group? -/
def InTie (space : SearchSpace) (k : String) : Prop := ∃ group ∈ space.tiedGroups, group.has k = true

/-- The values in the tied columns of a parameter. -/
def tiedValues (space : SearchSpace) (k : String) : List Value :=
  (space.tiedGroups.filterMap fun group => group.get? k).flatten

theorem mem_tiedValues {group : Dict (List Value)} (hgroup : group ∈ space.tiedGroups) {k : String}
    {column : List Value} (hget : group.get? k = some column) {v : Value} (hv : v ∈ column) :
    v ∈ space.tiedValues k :=
  List.mem_flatten.mpr ⟨column, List.mem_filterMap.mpr ⟨group, hgroup, hget⟩, hv⟩

theorem declaredValues_grid {k : String} {values : List Value}
    (hget : space.gridValues.get? k = some values) :
    space.declaredValues k = some (values ++ space.tiedValues k) := by
  unfold declaredValues
  rw [hget]
  rfl

theorem columns_nil_iff {k : String} :
    (space.tiedGroups.filterMap fun group => group.get? k) = [] ↔ ¬ space.InTie k := by
  rw [List.filterMap_eq_nil_iff]
  constructor
  · rintro h ⟨group, hgroup, hk⟩
    rw [Dict.has, h group hgroup] at hk
    cases hk
  · intro h group hgroup
    rw [← Option.not_isSome_iff_eq_none]
    exact fun hk => h ⟨group, hgroup, hk⟩

theorem declaredValues_tied {k : String} (hgrid : space.gridValues.has k = false)
    (htie : space.InTie k) : space.declaredValues k = some (space.tiedValues k) := by
  have hnone : space.gridValues.get? k = none := by simpa [Dict.has] using hgrid
  have hcolumns : (space.tiedGroups.filterMap fun group => group.get? k) ≠ [] :=
    fun h => columns_nil_iff.mp h htie
  unfold declaredValues
  rw [hnone]
  simp [hcolumns, tiedValues]

theorem declaredValues_none {k : String} (hgrid : space.gridValues.has k = false)
    (htie : ¬ space.InTie k) : space.declaredValues k = none := by
  have hnone : space.gridValues.get? k = none := by simpa [Dict.has] using hgrid
  unfold declaredValues
  rw [hnone, columns_nil_iff.mpr htie]
  rfl

/-- A declared value is not judged further. -/
theorem valueDeviation_declared {k : String} {v : Value} {values : List Value}
    (hdeclared : space.declaredValues k = some values) :
    space.valueDeviation k v = none ↔ ∃ w ∈ values, sameValue v w = true := by
  unfold valueDeviation
  rw [hdeclared]
  simp

/-- The value lies between the bounds of the range. -/
def Within (r : RangeSpec) (v : Value) : Prop :=
  ∃ x, asFloat v = some x ∧ r.minimum ≤ x ∧ x ≤ r.maximum

/-- A stepped value has its bounds left to be judged by. -/
theorem valueDeviation_range {k : String} {v : Value} {r : RangeSpec}
    (hdeclared : space.declaredValues k = none) (hrange : space.rangeOf k = some r)
    (hv : v ∈ r.values) : space.valueDeviation k v = none ↔ Within r v := by
  have hany : (r.values.any fun w => sameValue v w) = true :=
    List.any_eq_true.mpr ⟨v, hv, sameValue_refl v⟩
  unfold valueDeviation Within
  rw [hdeclared, hrange]
  dsimp only
  rw [hany]
  cases hx : asFloat v with
  | none => simp
  | some x => simp

theorem rangeOf_eq_some (h : space.sweepCheck.errors = []) {r : RangeSpec} (hr : r ∈ space.rangeSpecs) :
    space.rangeOf r.name = some r := by
  have hnames : (space.rangeSpecs.map RangeSpec.name).Nodup :=
    (List.nodup_append.mp (space.swept_nodup h)).2.1
  cases hfind : space.rangeOf r.name with
  | none =>
      unfold rangeOf at hfind
      have := List.find?_eq_none.mp hfind r hr
      simp at this
  | some found =>
      unfold rangeOf at hfind
      have hname : found.name = r.name := by simpa using List.find?_some hfind
      rw [List.inj_on_of_nodup_map hnames (List.mem_of_find?_eq_some hfind) hr hname]

theorem rangeOf_none {k : String} (h : ¬ ∃ r ∈ space.rangeSpecs, r.name = k) :
    space.rangeOf k = none := by
  unfold rangeOf
  rw [List.find?_eq_none]
  intro r hr hname
  exact h ⟨r, hr, by simpa using hname⟩

/-- Of a value of a point two things can be wrong: it was written over a column of a tied group that is
not swept, or it was rounded over a bound of its range. -/
theorem point_value_iff (h : space.sweepCheck.errors = []) {combo : List Part}
    (hcombo : combo ∈ product space.axes) {k : String} {v : Value}
    (hget : (space.mergedWith combo).get? k = some v) :
    space.valueDeviation k v = none ↔
      (space.gridValues.has k = false →
        (∃ group ∈ space.tiedGroups, group.has k = true ∧ ¬ FullTie group) →
          ∃ w ∈ space.tiedValues k, sameValue v w = true) ∧
        ∀ r ∈ space.rangeSpecs, r.name = k → ¬ space.InTie k → Within r v := by
  have hsource := value_source h hcombo hget
  cases hgrid : space.gridValues.has k with
  | true =>
      rcases Dict.has_iff.mp hgrid with ⟨values, hvalues⟩
      have hdeclared : ∃ w ∈ values ++ space.tiedValues k, sameValue v w = true := by
        rcases hsource with hfrom | ⟨hnot, -⟩
        · cases hfrom with
          | grid others hothers hv =>
              rw [hvalues] at hothers
              cases hothers
              exact ⟨v, List.mem_append_left _ hv, sameValue_refl v⟩
          | tied group hgroup hfull column hcolumn hv =>
              exact ⟨v, List.mem_append_right _ (mem_tiedValues hgroup hcolumn hv), sameValue_refl v⟩
          | range r hr hname hv =>
              have hapart := (range_apart h hr).1
              rw [hname, hgrid] at hapart
              cases hapart
        · exact absurd (Or.inl hgrid) hnot
      rw [valueDeviation_declared (declaredValues_grid hvalues)]
      constructor
      · intro _
        refine ⟨fun hno => (by cases hno), fun r hr hname => ?_⟩
        have hapart := (range_apart h hr).1
        rw [hname, hgrid] at hapart
        cases hapart
      · exact fun _ => hdeclared
  | false =>
      by_cases htie : space.InTie k
      · -- the columns of swept groups list the value; a group with an empty column is not swept
        have hswept : (¬ ∃ group ∈ space.tiedGroups, group.has k = true ∧ ¬ FullTie group) →
            ∃ w ∈ space.tiedValues k, sameValue v w = true := by
          intro hfull
          rcases htie with ⟨group, hgroup, hk⟩
          have hgroupFull : FullTie group := by
            by_contra hnot
            exact hfull ⟨group, hgroup, hk, hnot⟩
          rcases hsource with hfrom | ⟨hnot, -⟩
          · cases hfrom with
            | grid values hvalues hv =>
                rw [Dict.has, hvalues] at hgrid
                cases hgrid
            | tied other hother _ column hcolumn hv =>
                exact ⟨v, mem_tiedValues hother hcolumn hv, sameValue_refl v⟩
            | range r hr hname hv =>
                have hapart := (range_apart h hr).2 group hgroup hgroupFull
                rw [hname, hk] at hapart
                cases hapart
          · exact absurd (Or.inr (Or.inl ⟨group, hgroup, hgroupFull, hk⟩)) hnot
        rw [valueDeviation_declared (declaredValues_tied hgrid htie)]
        constructor
        · intro hany
          exact ⟨fun _ _ => hany, fun _ _ _ hnot => absurd htie hnot⟩
        · rintro ⟨hunswept, -⟩
          by_cases hfull : ∃ group ∈ space.tiedGroups, group.has k = true ∧ ¬ FullTie group
          · exact hunswept rfl hfull
          · exact hswept hfull
      · have hdeclared := declaredValues_none hgrid htie
        have hnoTie : ¬ ∃ group ∈ space.tiedGroups, group.has k = true ∧ ¬ FullTie group := by
          rintro ⟨group, hgroup, hk, -⟩
          exact htie ⟨group, hgroup, hk⟩
        by_cases hranged : ∃ r ∈ space.rangeSpecs, r.name = k
        · rcases hranged with ⟨r, hr, rfl⟩
          have hrangeOf := rangeOf_eq_some h hr
          have hv : v ∈ r.values := by
            rcases hsource with hfrom | ⟨hnot, -⟩
            · cases hfrom with
              | grid values hvalues hv =>
                  rw [Dict.has, hvalues] at hgrid
                  cases hgrid
              | tied group hgroup _ column hcolumn hv =>
                  exact absurd ⟨group, hgroup, Dict.has_iff.mpr ⟨column, hcolumn⟩⟩ htie
              | range other hother hname hv =>
                  have hsame := rangeOf_eq_some h hother
                  rw [hname, hrangeOf] at hsame
                  cases hsame
                  exact hv
            · exact absurd (Or.inr (Or.inr ⟨r, hr, rfl⟩)) hnot
          rw [valueDeviation_range hdeclared hrangeOf hv]
          constructor
          · intro hwithin
            refine ⟨fun _ hno => absurd hno hnoTie, fun other hother hname _ => ?_⟩
            have hsame := rangeOf_eq_some h hother
            rw [hname, hrangeOf] at hsame
            cases hsame
            exact hwithin
          · exact fun hboth => hboth.2 r hr rfl htie
        · have hbase : space.base.get? k = some v := by
            rcases hsource with hfrom | ⟨-, hbase⟩
            · cases hfrom with
              | grid values hvalues hv =>
                  rw [Dict.has, hvalues] at hgrid
                  cases hgrid
              | tied group hgroup _ column hcolumn hv =>
                  exact absurd ⟨group, hgroup, Dict.has_iff.mpr ⟨column, hcolumn⟩⟩ htie
              | range r hr hname hv => exact absurd ⟨r, hr, hname⟩ hranged
            · exact hbase
          have hnone : space.valueDeviation k v = none := by
            unfold valueDeviation
            rw [hdeclared, rangeOf_none hranged, hbase]
            simp [sameValue_refl]
          constructor
          · intro _
            exact ⟨fun _ hno => absurd hno hnoTie, fun r hr hname => absurd ⟨r, hr, hname⟩ hranged⟩
          · exact fun _ => hnone

/-! ## Merging the base again -/

/-- Parameters of the base that `c` lacks, and whose conditions are all met by `c` together with them. -/
structure Revives (space : SearchSpace) (c : Config) (D : String → Prop) : Prop where
  missing : ∀ k, D k → space.base.has k = true ∧ c.has k = false
  met : ∀ gate ∈ space.gates, D gate.1 → ∀ part ∈ gate.2, (c.has part.1 = true ∨ D part.1) ∧
    (((c.get? part.1).or (space.base.get? part.1)).any fun v => part.2.any fun w => sameValue v w) = true

theorem has_baseMerge {c : Config} {k : String} :
    (space.base.merge c).has k = true ↔ c.has k = true ∨ space.base.has k = true := by
  unfold Dict.has
  rw [Dict.get?_merge, Option.isSome_or, Bool.or_eq_true]

theorem get?_baseMerge {c : Config} {k : String} (hk : c.has k = true) :
    (space.base.merge c).get? k = c.get? k := by
  rcases Dict.has_iff.mp hk with ⟨v, hv⟩
  rw [Dict.get?_merge, hv]
  rfl

/-- What the base brings back into a stable config holds itself up. -/
theorem canonicalConfig_has {c : Config} (hstable : Stable space.gates c) {k : String} :
    (canonicalConfig c space).has k = true ↔ c.has k = true ∨ ∃ D, space.Revives c D ∧ D k := by
  have hc : Supports space.gates (space.base.merge c) fun j => c.has j = true :=
    hstable.supports.transfer _ fun j hj => get?_baseMerge hj
  constructor
  · intro hk
    by_cases hin : c.has k = true
    · exact Or.inl hin
    · refine Or.inr ⟨fun j => (canonicalConfig c space).has j = true ∧ c.has j = false, ⟨?_, ?_⟩, hk, by
        simpa using hin⟩
      · rintro j ⟨hj, hout⟩
        have hmerged := (pruneInactive_restricts (space.base.merge c) space).has hj
        rcases has_baseMerge.mp hmerged with hcj | hbase
        · rw [hcj] at hout
          cases hout
        · exact ⟨hbase, hout⟩
      · rintro gate hgate ⟨hgateIn, -⟩ part hpart
        have hleft := pruneInactive_stable (space.base.merge c) space
        rcases hleft.supports.met gate hgate hgateIn part hpart with ⟨hin, hmet⟩
        rw [(pruneInactive_restricts (space.base.merge c) space).get? hin, Dict.get?_merge] at hmet
        refine ⟨?_, hmet⟩
        by_cases hpartIn : c.has part.1 = true
        · exact Or.inl hpartIn
        · exact Or.inr ⟨hin, by simpa using hpartIn⟩
  · rintro (hk | ⟨D, hD, hk⟩)
    · exact pruneInactive_has.mpr ⟨_, hc, hk⟩
    · refine pruneInactive_has.mpr ⟨fun j => c.has j = true ∨ D j, ⟨?_, ?_⟩, Or.inr hk⟩
      · rintro j (hj | hj)
        · exact has_baseMerge.mpr (Or.inl hj)
        · exact has_baseMerge.mpr (Or.inr (hD.missing j hj).1)
      · rintro gate hgate (hgateIn | hgateIn) part hpart
        · rcases hc.met gate hgate hgateIn part hpart with ⟨hin, hmet⟩
          exact ⟨Or.inl hin, hmet⟩
        · rw [Dict.get?_merge]
          exact hD.met gate hgate hgateIn part hpart

/-- A stable config is its own normal form exactly if the base brings nothing back. -/
theorem canonicalConfig_same_iff {c : Config} (hstable : Stable space.gates c) :
    (canonicalConfig c space).Same c ↔ ∀ D, space.Revives c D → ∀ k, ¬ D k := by
  constructor
  · intro hsame D hD k hk
    have hin := (canonicalConfig_has hstable).mpr (Or.inr ⟨D, hD, hk⟩)
    rw [hsame.has, (hD.missing k hk).2] at hin
    cases hin
  · intro hnone k
    by_cases hk : c.has k = true
    · have hleft : (canonicalConfig c space).has k = true :=
        (canonicalConfig_has hstable).mpr (Or.inl hk)
      exact ((pruneInactive_restricts (space.base.merge c) space).get? hleft).trans (get?_baseMerge hk)
    · have hout : ¬ (canonicalConfig c space).has k = true := by
        intro hleft
        rcases (canonicalConfig_has hstable).mp hleft with hin | ⟨D, hD, hDk⟩
        · exact hk hin
        · exact hnone D hD k hDk
      unfold Dict.has at hk hout
      rw [Option.not_isSome_iff_eq_none] at hk hout
      rw [hk, hout]

/-! ## The four readings of a point -/

/-- A point of the expansion is a pruned choice. -/
theorem expand_point {c : Config} (hc : c ∈ space.expand) :
    ∃ combo ∈ product space.axes, c = pruneInactive (space.mergedWith combo) space := by
  unfold expand at hc
  dsimp only at hc
  by_cases hgates : space.gates.isEmpty = true
  · rw [if_pos hgates] at hc
    rcases List.mem_map.mp hc with ⟨combo, hcombo, rfl⟩
    refine ⟨combo, hcombo, ?_⟩
    rw [pruneInactive, if_pos hgates]
  · rw [if_neg hgates] at hc
    rcases List.mem_map.mp (mem_of_keepFirst hc) with ⟨merged, hmerged, rfl⟩
    rcases List.mem_map.mp hmerged with ⟨combo, hcombo, rfl⟩
    exact ⟨combo, hcombo, rfl⟩

/-- A config without inactive parameters deviates nowhere exactly if none of its values does. -/
theorem deviations_nil_iff {c : Config} (hstable : Stable space.gates c) :
    deviations c space = [] ↔ ∀ k v, c.get? k = some v → space.valueDeviation k v = none := by
  unfold deviations
  rw [pruneInactive_of_stable hstable, List.filterMap_eq_nil_iff]
  have hentry : ∀ e ∈ c.entries, space.deviationOf c e = none ↔ space.valueDeviation e.1 e.2 = none := by
    intro e he
    rw [deviationOf_left (Dict.has_iff.mpr ⟨_, Dict.mem_entries.mp he⟩), Option.map_eq_none_iff]
  constructor
  · intro h k v hget
    have hmem := Dict.mem_entries.mpr hget
    exact (hentry _ hmem).mp (h _ (mem_sortEntries.mpr hmem))
  · intro h e he
    have hmem := mem_sortEntries.mp he
    exact (hentry e hmem).mpr (h _ _ (Dict.mem_entries.mp hmem))

/-- When the readings of a point agree: it holds a declared value under every parameter of a tied group
that is not swept, no value of it was rounded over a bound, and the base brings nothing back into it. -/
structure Inside (space : SearchSpace) (c : Config) : Prop where
  tied : ∀ k v, c.get? k = some v → space.gridValues.has k = false →
    (∃ group ∈ space.tiedGroups, group.has k = true ∧ ¬ FullTie group) →
      ∃ w ∈ space.tiedValues k, sameValue v w = true
  range : ∀ r ∈ space.rangeSpecs, ¬ space.InTie r.name → ∀ v, c.get? r.name = some v → Within r v
  base : ∀ D, space.Revives c D → ∀ k, ¬ D k

end SearchSpace

/-! ## A step rounded under its bound -/

/-- Memory shares from `low` to `high` in steps of a twentieth. -/
def sharesBetween (low high : ℚ) : SearchSpace where
  range := .ofEntries [("gpu_memory_utilization",
    .ofEntries [("min", .float low), ("max", .float high), ("step", .float (1 / 20))])]

/-- A memory share. -/
def share (x : ℚ) : Config := .ofEntries [("gpu_memory_utilization", .float x)]

theorem share_mem_expand : share (4 / 5) ∈ (sharesBetween (4 / 5) (9 / 10)).expand := by
  have hfirst : (sharesBetween (4 / 5) (9 / 10)).expand.head? = some (share (4 / 5)) := by
    with_unfolding_all rfl
  exact List.mem_of_mem_head? hfirst

theorem share_isInside : (sharesBetween (4 / 5) (9 / 10)).Inside (share (4 / 5)) where
  tied := by
    rintro k v - - ⟨group, hgroup, -⟩
    cases hgroup
  range := by
    intro r hr _ v hget
    have hspecs : (sharesBetween (4 / 5) (9 / 10)).rangeSpecs =
        [⟨"gpu_memory_utilization", 4 / 5, 9 / 10, 1 / 20⟩] := by
      with_unfolding_all rfl
    rw [hspecs, List.mem_singleton] at hr
    rw [hr] at hget ⊢
    cases hget
    exact ⟨4 / 5, rfl, by norm_num, by norm_num⟩
  base := by
    intro D hD k hk
    cases (hD.missing k hk).1

end AutoTune
