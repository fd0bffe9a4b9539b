import AutoTune.Search.PageAxes

/-!
# Where the page and the platform read a space alike

A range is read alike step by step; the axes of the page are then the axes of the platform, in another order.
Gates change no axis but its gate.
-/

namespace AutoTune

open Lib

/-! ## One range -/

/-- A number both readers take from a saved value is the same. -/
theorem scriptNumber_agrees {v : Value} {x y : ℚ} (h : asFloat v = some x) (h' : v.scriptNumber = some y) :
    x = y := by
  cases v with
  | int n => exact Option.some.inj (h.symm.trans h')
  | float z => exact Option.some.inj (h.symm.trans h')
  | str s => exact numberOfText_agrees h h'
  | null => cases h
  | bool b => cases h
  | list items => cases h
  | dict entries => cases h

theorem pageBound_agrees {spec : Config} {bound : String} {x y : ℚ} (h : rangeBound spec bound = some x)
    (h' : pageBound spec bound = some y) : x = y := by
  rcases Option.bind_eq_some_iff.mp h with ⟨v, hv, hx⟩
  rcases Option.bind_eq_some_iff.mp h' with ⟨w, hw, hy⟩
  cases hv.symm.trans hw
  exact scriptNumber_agrees hx hy

/-- `toFixed` picks what Python's `round` picks exactly where the step is alike to their decimals. -/
theorem toFixed_eq_roundTo_iff {p q : Nat} (hq : q ≤ 100) {x : ℚ} :
    toFixed q x = some (roundTo p x) ↔ StepAlike p q x := by
  unfold toFixed StepAlike
  rw [if_neg (by omega)]
  split
  · rw [Option.some_inj, eq_comm]
    exact roundTo_self_iff
  · rw [Option.some_inj, eq_comm]
    exact roundTo_eq_fixedTo_iff

namespace RangeSpec

variable (r : RangeSpec)

/-- The number of a value is the step rounded to the decimals of the range. -/
theorem valueAt_number (i : Nat) :
    (r.valueAt i).number = some (roundTo (rangeDecimals r.step) (r.point i)) := by
  by_cases hint : r.isInteger = true
  · rcases r.point_whole hint i with ⟨k, hk⟩
    have hout : WritesOut (rangeDecimals r.step) (r.point i) := hk ▸ writesOut_whole _ k
    rw [(r.valueAt_number_iff i).mpr hout, roundTo_self_iff.mpr hout]
  · unfold valueAt
    rw [if_neg hint]
    rfl

/-- The number of steps the page counts. -/
theorem count_eq (hstep : 0 < r.step) (hfew : r.values.length ≤ maxRangeValues) :
    (((r.maximum - r.minimum) / r.step + 1 / 10 ^ 9).floor + 1).toNat = r.values.length := by
  have hreach := (r.values_eq hstep hfew).2
  have hcount : ∀ i : Nat, i < (((r.maximum - r.minimum) / r.step + 1 / 10 ^ 9).floor + 1).toNat ↔
      r.Reaches i := by
    intro i
    have hscale : (r.maximum - r.minimum) / r.step * r.step = r.maximum - r.minimum :=
      div_mul_cancel₀ _ hstep.ne'
    calc i < (((r.maximum - r.minimum) / r.step + 1 / 10 ^ 9).floor + 1).toNat
        ↔ (i : Int) ≤ ((r.maximum - r.minimum) / r.step + 1 / 10 ^ 9).floor := by omega
      _ ↔ ((i : Int) : ℚ) ≤ (r.maximum - r.minimum) / r.step + 1 / 10 ^ 9 := Rat.le_floor_iff
      _ ↔ (i : ℚ) * r.step ≤ ((r.maximum - r.minimum) / r.step + 1 / 10 ^ 9) * r.step := by
          rw [mul_le_mul_iff_left₀ hstep]
          norm_cast
      _ ↔ r.Reaches i := by
          unfold Reaches point
          rw [add_mul, hscale]
          constructor <;> intro h <;> linarith
  have hsame : ∀ i, i < (((r.maximum - r.minimum) / r.step + 1 / 10 ^ 9).floor + 1).toNat ↔
      i < r.values.length := fun i => (hcount i).trans (hreach i)
  refine le_antisymm (le_of_not_gt fun h => ?_) (le_of_not_gt fun h => ?_)
  · exact absurd ((hsame _).mp h) (lt_irrefl _)
  · exact absurd ((hsame _).mpr h) (lt_irrefl _)

end RangeSpec

/-- A range that is alike is exactly one whose steps the page spells as the platform's values. -/
theorem rangeAlike_iff {e : String × Config} {r : RangeSpec} (hspec : SearchSpace.rangeSpecOf e = some r)
    (hfew : r.values.length ≤ maxRangeValues) : RangeAlike e.2 r ↔
      ∃ numbers, expandRange e.2 = some (numbers, true) ∧ r.values.map Value.number = numbers.map some := by
  rcases rangeSpecOf_eq_some hspec with ⟨hlow, hhigh, hstep, -, hpositive, horder⟩
  rcases r.values_eq hpositive hfew with ⟨hvalues, hreach⟩
  have hfirst : 0 < r.values.length := by
    refine (hreach 0).mp ?_
    have htol : 0 ≤ r.step / 10 ^ 9 := by positivity
    simp only [RangeSpec.Reaches, RangeSpec.point, Nat.cast_zero, zero_mul, add_zero]
    linarith
  have hnumbers : r.values.map Value.number = ((List.range r.values.length).map fun i =>
      roundTo (rangeDecimals r.step) (r.point i)).map some := by
    calc r.values.map Value.number
        = ((List.range r.values.length).map r.valueAt).map Value.number := congrArg _ hvalues
      _ = _ := by
          rw [List.map_map, List.map_map]
          exact List.map_congr_left fun i _ => r.valueAt_number i
  -- the page spells the steps one by one
  have hread : pageBound e.2 "min" = some r.minimum → pageBound e.2 "max" = some r.maximum →
      pageBound e.2 "step" = some r.step → ∀ numbers, expandRange e.2 = some (numbers, true) ↔
        List.Forall₂ (fun i x => toFixed (typedDecimals e.2) (r.point i) = some x)
          (List.range r.values.length) numbers := by
    intro hlow' hhigh' hstep' numbers
    unfold expandRange
    simp only [hlow', hhigh', hstep', if_pos (And.intro hpositive horder)]
    rw [r.count_eq hpositive hfew, Option.map_eq_some_iff, ← mapM_eq_some]
    constructor
    · rintro ⟨l, hl, heq⟩
      cases heq
      exact hl
    · exact fun h => ⟨numbers, h, rfl⟩
  constructor
  · intro h
    have hbound : ∀ bound ∈ ["min", "max", "step"], ∀ x, rangeBound e.2 bound = some x →
        pageBound e.2 bound = some x := by
      intro bound hin x hx
      rcases Option.isSome_iff_exists.mp (h.bounds bound hin) with ⟨y, hy⟩
      rw [hy, pageBound_agrees hx hy]
    have hspelled := hread (hbound "min" (by simp) _ hlow) (hbound "max" (by simp) _ hhigh)
      (hbound "step" (by simp) _ hstep)
    refine ⟨_, (hspelled _).mpr ?_, hnumbers⟩
    rw [List.forall₂_map_right_iff, List.forall₂_same]
    intro i hi
    exact (toFixed_eq_roundTo_iff h.decimals).mpr (h.steps i ((hreach i).mpr (List.mem_range.mp hi)))
  · rintro ⟨numbers, hexpand, hsame⟩
    have hread' : ∃ low high step, pageBound e.2 "min" = some low ∧ pageBound e.2 "max" = some high ∧
        pageBound e.2 "step" = some step := by
      unfold expandRange at hexpand
      split at hexpand
      · exact ⟨_, _, _, ‹_›, ‹_›, ‹_›⟩
      · cases hexpand
    rcases hread' with ⟨low, high, step, hlow', hhigh', hstep'⟩
    have hspelled := (hread (pageBound_agrees hlow hlow' ▸ hlow') (pageBound_agrees hhigh hhigh' ▸ hhigh')
      (pageBound_agrees hstep hstep' ▸ hstep') numbers).mp hexpand
    have hpicked : numbers = (List.range r.values.length).map fun i =>
        roundTo (rangeDecimals r.step) (r.point i) :=
      (Option.some_injective ℚ).list_map (hsame.symm.trans hnumbers)
    rw [hpicked, List.forall₂_map_right_iff, List.forall₂_same] at hspelled
    have hdecimals : typedDecimals e.2 ≤ 100 := by
      have hzero := hspelled 0 (List.mem_range.mpr hfirst)
      by_contra hmany
      unfold toFixed at hzero
      rw [if_pos (by omega)] at hzero
      cases hzero
    refine ⟨?_, hdecimals, fun i hi => ?_⟩
    · simp [hlow', hhigh', hstep']
    · exact (toFixed_eq_roundTo_iff hdecimals).mp (hspelled i (List.mem_range.mpr ((hreach i).mp hi)))

/-! ## Gates -/

/-- An axis without its gate. -/
def Axis.ungated (axis : Axis) : Axis := { axis with gate := none }

theorem map_modify_of_same {α β : Type} {g : α → β} {f : α → α} (hsame : ∀ a, g (f a) = g a) (l : List α)
    (i : Nat) : (l.modify i f).map g = l.map g := by
  refine List.ext_getElem? fun j => ?_
  rw [List.getElem?_map, List.getElem?_map, List.getElem?_modify, Option.map_eq_map, Option.map_map]
  refine congrArg (fun h => Option.map h l[j]?) (funext fun a => ?_)
  simp only [Function.comp_apply]
  split
  · exact hsame a
  · rfl

/-- A condition can be put on the axes: none of them moves its parameter, or its first part is read. -/
def GateReads (keys : List String) (e : String × Config) : Prop :=
  e.1 ∈ keys → ∀ on allowed, (objectEntries e.2.entries).head? = some (on, allowed) → on ≠ "" →
    (gateValues allowed).isSome = true

theorem keys_of_ungated {axes gated : List Axis} (h : gated.map Axis.ungated = axes.map Axis.ungated) :
    gated.flatMap Axis.keys = axes.flatMap Axis.keys := by
  have hkeys := congrArg (fun l : List Axis => l.flatMap Axis.keys) h
  simpa [List.flatMap_map, Axis.ungated] using hkeys

theorem gateAxis_ungated {axes gated : List Axis} {e : String × Config} (h : gateAxis axes e = some gated) :
    gated.map Axis.ungated = axes.map Axis.ungated := by
  unfold gateAxis at h
  split at h
  · cases h
    rfl
  · split at h
    · cases h
      rfl
    · split at h
      · cases h
        rfl
      · rcases Option.map_eq_some_iff.mp h with ⟨values, -, rfl⟩
        refine map_modify_of_same ?_ axes _
        exact fun _ => rfl

theorem gateAxis_isSome_iff {axes : List Axis} {e : String × Config} :
    (gateAxis axes e).isSome = true ↔ GateReads (axes.flatMap Axis.keys) e := by
  have hmoves : (axes.findIdx? fun a => a.keys.contains e.1) = none ↔ e.1 ∉ axes.flatMap Axis.keys := by
    rw [List.findIdx?_eq_none_iff, List.mem_flatMap]
    simp
  unfold gateAxis GateReads
  split
  · rename_i hhead
    simp [hhead]
  · rename_i on allowed hhead
    split
    · rename_i hblank
      simp [hhead, hblank]
    · rename_i hon
      split
      · rename_i hfind
        simp [hmoves.mp hfind]
      · rename_i i hfind
        have hin : e.1 ∈ axes.flatMap Axis.keys := by
          by_contra hnot
          rw [hmoves.mpr hnot] at hfind
          cases hfind
        rw [Option.isSome_map, hhead]
        constructor
        · rintro hsome _ on' allowed' heq _
          cases heq
          exact hsome
        · exact fun h => h hin on allowed rfl hon

/-- All conditions can be put on the axes exactly if each can; the axes stay what they are. -/
theorem gates_isSome_iff {l : List (String × Config)} {axes : List Axis} :
    (l.foldlM gateAxis axes).isSome = true ↔ ∀ e ∈ l, GateReads (axes.flatMap Axis.keys) e := by
  induction l generalizing axes with
  | nil => simp
  | cons e l ih =>
      rw [List.foldlM_cons, List.forall_mem_cons, ← gateAxis_isSome_iff, Option.bind_eq_bind]
      cases hgate : gateAxis axes e with
      | none => simp
      | some gated => simp [ih, keys_of_ungated (gateAxis_ungated hgate)]

theorem gates_ungated {l : List (String × Config)} {axes gated : List Axis}
    (h : l.foldlM gateAxis axes = some gated) : gated.map Axis.ungated = axes.map Axis.ungated := by
  induction l generalizing axes with
  | nil =>
      cases h
      rfl
  | cons e l ih =>
      rcases Option.bind_eq_some_iff.mp h with ⟨next, hnext, hrest⟩
      exact (ih hrest).trans (gateAxis_ungated hnext)

namespace SavedSpace

variable {saved : SavedSpace}

/-- What is shown is what is there before the gates. -/
theorem shows_ungated (saved : SavedSpace) {axes gated : List Axis} (h : gated.map Axis.ungated = axes.map Axis.ungated)
    (matched : List (AxisKind × List Part)) :
    List.Forall₂ saved.Shows (gated.filter fun a => 0 < a.count) matched ↔
      List.Forall₂ saved.Shows (axes.filter fun a => 0 < a.count) matched := by
  have hshows : ∀ l : List Axis, List.Forall₂ saved.Shows (l.filter fun a => 0 < a.count) matched ↔
      List.Forall₂ saved.Shows ((l.map Axis.ungated).filter fun a => 0 < a.count) matched := by
    intro l
    rw [List.filter_map, List.forall₂_map_left_iff]
    constructor
    · exact List.Forall₂.imp fun _ _ h => ⟨h.kind, h.keys, h.count, h.steps⟩
    · exact List.Forall₂.imp fun _ _ h => ⟨h.kind, h.keys, h.count, h.steps⟩
  rw [hshows, h, ← hshows]

/-! ## Axes in the order of the page -/

theorem read_eq_some {space : SearchSpace} (h : saved.read = some space) :
    (∀ e ∈ saved.grid.entries, (gridColumn e.2).isSome = true) ∧ space =
      { base := saved.base
        grid := saved.grid.mapValues fun v => (gridColumn v).getD []
        tied := saved.tied
        range := saved.range
        conditions := saved.conditions } := by
  unfold read at h
  split at h
  · rename_i hall
    exact ⟨List.all_eq_true.mp hall, (Option.some.inj h).symm⟩
  · cases h

/-- The platform's axis of a parameter with these values. -/
def columnPoints (e : String × List Value) : AxisKind × List Part := (.list, e.2.map fun v => [(e.1, v)])

def readColumn (e : String × Value) : String × List Value := (e.1, (gridColumn e.2).getD [])

def rangePoints (r : RangeSpec) : AxisKind × List Part := (.range, r.values.map fun v => [(r.name, v)])

def tiedPoints (group : Dict (List Value)) : AxisKind × List Part := (.tied, tiedAxis group)

/-- The platform's axes where the page has them, with those without points. -/
def pagedAxes (saved : SavedSpace) : List (AxisKind × List Part) :=
  (objectEntries saved.grid.entries).map (fun e => columnPoints (readColumn e)) ++
    ((objectEntries saved.range.entries).filterMap SearchSpace.rangeSpecOf).map rangePoints ++
    (saved.tied.filter fun group => !group.entries.isEmpty).map tiedPoints

theorem filter_map_filter {α β : Type} {f : α → β} {p : β → Bool} {q : α → Bool}
    (h : ∀ a, p (f a) = true → q a = true) (l : List α) :
    ((l.filter q).map f).filter p = (l.map f).filter p := by
  rw [List.filter_map, List.filter_filter, List.filter_map]
  congr 1
  refine List.filter_congr fun a _ => ?_
  cases hp : p (f a) with
  | false => simp [hp]
  | true => simp [hp, h a hp]

theorem full_of_points (group : Dict (List Value)) (h : tiedAxis group ≠ []) :
    FullTie group ∧ group.entries ≠ [] := by
  have hrows : tiedRows group ≠ 0 := by
    intro hzero
    exact h (by rw [tiedAxis_eq, hzero]; rfl)
  refine ⟨fullTie_of_rows hrows, fun hempty => hrows ?_⟩
  simp [tiedRows, hempty, sortEntries]

/-- In another order these are the platform's axes. -/
theorem pagedAxes_perm {space : SearchSpace} (h : saved.read = some space) :
    (saved.pagedAxes.filter fun axis => !axis.2.isEmpty).Perm space.kindedAxes := by
  rcases read_eq_some h with ⟨-, hspace⟩
  have hgrid : (((objectEntries saved.grid.entries).map fun e => columnPoints (readColumn e)).filter
      fun axis => !axis.2.isEmpty).Perm
      (((sortEntries space.gridValues.entries).map columnPoints).filter fun axis => !axis.2.isEmpty) := by
    have hentries : space.gridValues.entries =
        (saved.grid.entries.map readColumn).filter fun e => !e.2.isEmpty := by
      rw [hspace]
      rfl
    have hdrop := filter_map_filter (f := columnPoints) (p := fun axis => !axis.2.isEmpty)
      (q := fun e => !e.2.isEmpty) (by simp [columnPoints]) (saved.grid.entries.map readColumn)
    rw [List.map_map] at hdrop
    have hsorted := ((perm_sortEntries space.gridValues.entries).map columnPoints).filter
      fun axis => !axis.2.isEmpty
    have hordered := ((objectEntries_perm saved.grid.entries).map fun e => columnPoints (readColumn e)).filter
      fun axis => !axis.2.isEmpty
    rw [hentries, hdrop, ← hentries] at hsorted
    exact hordered.trans hsorted.symm
  have htied : ((saved.tied.filter fun group => !group.entries.isEmpty).map tiedPoints).filter
      (fun axis => !axis.2.isEmpty) =
      (space.tiedGroups.map tiedPoints).filter fun axis => !axis.2.isEmpty := by
    have hgroups : space.tiedGroups =
        saved.tied.filter fun group => group.entries.any fun e => !e.2.isEmpty := by
      rw [hspace]
      rfl
    rw [hgroups, filter_map_filter, filter_map_filter]
    · intro group hpoints
      have hfull := full_of_points group (by simpa [tiedPoints] using hpoints)
      rcases List.exists_mem_of_ne_nil _ hfull.2 with ⟨e, he⟩
      exact List.any_eq_true.mpr ⟨e, he, by simpa using hfull.1 e he⟩
    · intro group hpoints
      have hfull := full_of_points group (by simpa [tiedPoints] using hpoints)
      simpa using hfull.2
  have hranges : ((objectEntries saved.range.entries).filterMap SearchSpace.rangeSpecOf).Perm
      space.rangeSpecs := by
    rw [hspace]
    exact ((objectEntries_perm _).trans (perm_sortEntries _).symm).filterMap _
  unfold pagedAxes
  rw [List.filter_append, List.filter_append, htied]
  have hkinded : space.kindedAxes =
      ((sortEntries space.gridValues.entries).map columnPoints).filter (fun axis => !axis.2.isEmpty) ++
        (space.tiedGroups.map tiedPoints).filter (fun axis => !axis.2.isEmpty) ++
        (space.rangeSpecs.map rangePoints).filter fun axis => !axis.2.isEmpty := by
    rw [← List.filter_append, ← List.filter_append]
    rfl
  rw [hkinded, List.append_assoc, List.append_assoc]
  exact hgrid.append (((hranges.map rangePoints).filter _).append_right _ |>.trans List.perm_append_comm)

/-! ## Axis by axis -/

/-- An axis with as many points as the platform's, which it is if there are any. -/
def Reads (saved : SavedSpace) (axis : Axis) (points : AxisKind × List Part) : Prop :=
  axis.count = points.2.length ∧ (points.2 ≠ [] → saved.Shows axis points)

theorem columnPoints_keys {e : String × List Value} (h : (columnPoints e).2 ≠ []) :
    axisKeys (columnPoints e).2 = [e.1] :=
  axisKeys_column e.1 (by simpa [columnPoints] using h)

theorem rangePoints_keys {r : RangeSpec} (h : (rangePoints r).2 ≠ []) : axisKeys (rangePoints r).2 = [r.name] :=
  axisKeys_column r.name (by simpa [rangePoints] using h)

theorem tiedPoints_keys {group : Dict (List Value)} (h : (tiedPoints group).2 ≠ []) :
    (axisKeys (tiedPoints group).2).Perm group.keys := by
  rcases full_of_points group h with ⟨hfull, hne⟩
  have hkeys : axisKeys (tiedPoints group).2 = (sortEntries group.entries).map Prod.fst :=
    axisKeys_tiedAxis_of_full hne hfull
  rw [hkeys]
  exact (perm_sortEntries _).map _

theorem listAxis_reads {e : String × Value}
    (hlist : (∃ items, e.2 = .list items) ∨ ∃ v, gridColumn e.2 = some [v]) :
    saved.Reads (listAxis e) (columnPoints (readColumn e)) := by
  have hcount : (listAxis e).count = (columnPoints (readColumn e)).2.length := by
    rcases e with ⟨k, v⟩
    unfold listAxis columnPoints readColumn
    simp only [Axis.cut_count, List.length_map]
    cases v with
    | list items => rfl
    | _ =>
        rcases hlist with ⟨items, hitems⟩ | ⟨w, hw⟩
        · cases hitems
        · simp only at hw
          rw [hw]
          rfl
  refine ⟨hcount, fun hne => ⟨?_, ?_, hcount, fun hkind => ?_⟩⟩
  · exact Axis.cut_kind _ _ _ _ _
  · rw [columnPoints_keys hne]
    unfold listAxis
    rw [Axis.cut_keys]
    exact List.Perm.refl _
  · cases hkind

theorem min?_of_perm {l l' : List Nat} (h : l.Perm l') : l.min? = l'.min? := by
  refine Option.ext fun n => ?_
  rw [List.min?_eq_some_iff, List.min?_eq_some_iff, h.mem_iff]
  exact and_congr_right fun _ => forall_congr' fun b => by rw [h.mem_iff]

/-- The axis of a tied group is the platform's. -/
theorem groupAxis_reads (saved : SavedSpace) {group : Dict (List Value)} {axis : Axis} (h : groupAxis group = some axis) :
    saved.Reads axis (tiedPoints group) ∧ axis.keys.Perm group.keys := by
  unfold groupAxis at h
  dsimp only at h
  split at h
  · cases h
  · cases h
    have hrows : ((objectEntries group.entries).map fun c => c.2.length).min?.getD 0 = tiedRows group := by
      unfold tiedRows
      rw [min?_of_perm (((objectEntries_perm group.entries).trans (perm_sortEntries group.entries).symm).map
        fun c => c.2.length)]
    have hkeys : ((objectEntries group.entries).map Prod.fst).Perm group.keys := (objectEntries_perm _).map _
    have hlength : (tiedPoints group).2.length = tiedRows group := by
      unfold tiedPoints
      rw [tiedAxis_eq, List.length_map, List.length_range]
    refine ⟨⟨?_, fun hne => ⟨?_, ?_, ?_, fun hkind => ?_⟩⟩, ?_⟩
    · rw [Axis.cut_count, List.length_map, List.length_range, hrows, hlength]
    · exact Axis.cut_kind _ _ _ _ _
    · rw [Axis.cut_keys]
      exact hkeys.trans (tiedPoints_keys hne).symm
    · rw [Axis.cut_count, List.length_map, List.length_range, hrows, hlength]
    · cases hkind
    · rw [Axis.cut_keys]
      exact hkeys

theorem groupAxis_isSome (group : Dict (List Value)) :
    (groupAxis group).isSome = !group.entries.isEmpty := by
  have hempty : (objectEntries group.entries).isEmpty = group.entries.isEmpty := by
    rw [Bool.eq_iff_iff, List.isEmpty_iff, List.isEmpty_iff]
    constructor
    · intro h
      exact List.Perm.nil_eq (h ▸ objectEntries_perm group.entries) |>.symm
    · intro h
      exact List.Perm.eq_nil (h ▸ objectEntries_perm group.entries)
  unfold groupAxis
  dsimp only
  rw [hempty]
  cases group.entries.isEmpty <;> rfl

theorem groupAxes_read (groups : List (Dict (List Value))) :
    List.Forall₂ saved.Reads (groups.filterMap groupAxis)
      ((groups.filter fun group => !group.entries.isEmpty).map tiedPoints) := by
  induction groups with
  | nil => exact List.Forall₂.nil
  | cons group groups ih =>
      have hsome := groupAxis_isSome group
      cases haxis : groupAxis group with
      | none =>
          rw [haxis] at hsome
          rw [List.filterMap_cons_none haxis, List.filter_cons_of_neg (by rw [← hsome]; decide)]
          exact ih
      | some axis =>
          rw [haxis] at hsome
          rw [List.filterMap_cons_some haxis, List.filter_cons_of_pos (by rw [← hsome]; rfl), List.map_cons]
          exact List.Forall₂.cons (groupAxis_reads saved haxis).1 ih

theorem rangePoints_numbers (r : RangeSpec) :
    (rangePoints r).2.flatten.map (fun e => e.2.number) = r.values.map Value.number := by
  have hparts : ∀ l : List Value, (l.map fun v => [(r.name, v)]).flatten.map (fun e => e.2.number) =
      l.map Value.number := by
    intro l
    induction l with
    | nil => rfl
    | cons v l ih => simpa using ih
  exact hparts r.values

/-- The axis of a range is the platform's exactly if the range is alike. -/
theorem rangeAxis_reads {e : String × Config} {r : RangeSpec} (he : e ∈ saved.range.entries)
    (hspec : SearchSpace.rangeSpecOf e = some r) (hfew : r.values.length ≤ maxRangeValues)
    (halike : RangeAlike e.2 r) : ∃ axis, rangeAxis e = some axis ∧ saved.Reads axis (rangePoints r) := by
  rcases (rangeAlike_iff hspec hfew).mp halike with ⟨numbers, hexpand, hsame⟩
  have hlength : numbers.length = r.values.length := by
    have hlengths := congrArg List.length hsame
    simpa using hlengths.symm
  have hname := (rangeSpecOf_eq_some hspec).2.2.2.1
  refine ⟨_, by unfold rangeAxis; rw [hexpand]; rfl, ?_, fun hne => ⟨?_, ?_, ?_, fun _ => ?_⟩⟩
  · simp [rangePoints, hlength]
  · exact Axis.cut_kind _ _ _ _ _
  · rw [Axis.cut_keys, rangePoints_keys hne, hname]
  · simp [rangePoints, hlength]
  · refine ⟨e.1, e.2, numbers, Axis.cut_keys _ _ _ _ _, Dict.mem_entries.mp he, hexpand, ?_⟩
    rw [rangePoints_numbers, hsame]

/-! ## Parameters -/

theorem mem_bare_keys {axes : List Axis} (h : saved.bareAxes = some axes) (k : String) :
    k ∈ axes.flatMap Axis.keys ↔ saved.Named k := by
  rcases Option.map_eq_some_iff.mp h with ⟨ranges, hranges, rfl⟩
  have hlist : k ∈ ((objectEntries saved.grid.entries).map listAxis).flatMap Axis.keys ↔
      saved.grid.has k = true := by
    rw [← Dict.mem_keys]
    simp [List.mem_flatMap, listAxis, mem_objectEntries, Dict.keys, eq_comm]
  have hrange : k ∈ ranges.flatMap Axis.keys ↔ saved.range.has k = true := by
    have hkeys : ∀ {l : List (String × Config)} {axes : List Axis},
        List.Forall₂ (fun e axis => rangeAxis e = some axis) l axes →
          axes.flatMap Axis.keys = l.map Prod.fst := by
      intro l axes hall
      induction hall with
      | nil => rfl
      | cons haxis _ ih =>
          rcases Option.map_eq_some_iff.mp haxis with ⟨read, -, rfl⟩
          rw [List.flatMap_cons, ih, Axis.cut_keys]
          rfl
    rw [hkeys (mapM_eq_some.mp hranges), ← Dict.mem_keys]
    exact ((objectEntries_perm _).map Prod.fst).mem_iff
  have htied : k ∈ (saved.tied.filterMap groupAxis).flatMap Axis.keys ↔
      ∃ group ∈ saved.tied, group.has k = true := by
    rw [List.mem_flatMap]
    constructor
    · rintro ⟨axis, haxis, hk⟩
      rcases List.mem_filterMap.mp haxis with ⟨group, hgroup, hsome⟩
      exact ⟨group, hgroup, Dict.mem_keys.mp ((groupAxis_reads saved hsome).2.mem_iff.mp hk)⟩
    · rintro ⟨group, hgroup, hhas⟩
      have hmem := Dict.mem_keys.mpr hhas
      have hfilled : (groupAxis group).isSome = true := by
        rw [groupAxis_isSome]
        rcases List.mem_map.mp hmem with ⟨e, he, -⟩
        cases hentries : group.entries with
        | nil =>
            rw [hentries] at he
            cases he
        | cons _ _ => rfl
      rcases Option.isSome_iff_exists.mp hfilled with ⟨axis, haxis⟩
      exact ⟨axis, List.mem_filterMap.mpr ⟨group, hgroup, haxis⟩,
        (groupAxis_reads saved haxis).2.mem_iff.mpr hmem⟩
  rw [List.flatMap_append, List.flatMap_append, List.mem_append, List.mem_append, hlist, hrange, htied, or_assoc]
  rfl

/-- What Python runs through is empty exactly if it is falsy. -/
theorem gridColumn_isEmpty {v : Value} (h : (gridColumn v).isSome = true) :
    ((gridColumn v).getD []).isEmpty = !v.truthy := by
  cases v with
  | null => rfl
  | bool b => cases b with
    | false => rfl
    | true => cases h
  | int n =>
      by_cases hn : n = 0
      · subst hn
        rfl
      · simp [gridColumn, Json.items, Json.truthy, hn, Except.toOption] at h
  | float x =>
      cases hzero : (PyRuntime.isZero x : Bool) with
      | true => simp [gridColumn, Json.items, Json.truthy, hzero, Except.toOption]
      | false => simp [gridColumn, Json.items, Json.truthy, hzero, Except.toOption] at h
  | str s =>
      by_cases hs : s = ""
      · subst hs
        rfl
      · have hchars : s.toList.isEmpty = false :=
          List.isEmpty_eq_false_iff.mpr fun h => hs (String.toList_eq_nil_iff.mp h)
        have htruthy : (s != "") = true := bne_iff_ne.mpr hs
        simp [gridColumn, Json.items, Json.truthy, Except.toOption, hchars, htruthy]
  | list items => simp [gridColumn, Json.items, Json.truthy, Except.toOption]
  | dict entries => simp [gridColumn, Json.items, Json.truthy, Except.toOption]

/-- Every range of a space without mistakes is one, with no value too many. -/
theorem rangeSpecOf_of_errors {space : SearchSpace} (h : space.sweepCheck.errors = []) {e : String × Config}
    (he : e ∈ space.range.entries) :
    ∃ r, SearchSpace.rangeSpecOf e = some r ∧ r.values.length ≤ maxRangeValues := by
  rcases SpaceCheck.errors_round checkRange rangeNames checkRange_notes h (mem_sortEntries.mpr he) with
    ⟨before, hround⟩
  have hspec : ∃ r, SearchSpace.rangeSpecOf e = some r := by
    unfold checkRange at hround
    dsimp only at hround
    unfold SearchSpace.rangeSpecOf
    split at hround
    · rename_i low high step hlow hhigh hstep
      split at hround
      · simp at hround
      · split at hround
        · simp at hround
        · rename_i hpositive horder
          simp [hlow, hhigh, hstep, hpositive, horder]
    · simp at hround
    · simp at hround
  rcases hspec with ⟨r, hr⟩
  exact ⟨r, hr, length_of_checkRange hr hround⟩

theorem mem_sweptKeys_iff {space : SearchSpace} (h : saved.read = some space)
    (hsound : space.sweepCheck.errors = []) (k : String) : k ∈ space.sweptKeys ↔ saved.Varies k := by
  rcases read_eq_some h with ⟨hcolumns, hspace⟩
  have hgrid : space.gridValues.has k = true ↔ ∃ v, saved.grid.get? k = some v ∧ v.truthy = true := by
    have hget : space.gridValues.get? k =
        ((saved.grid.get? k).map fun v => (gridColumn v).getD []).filter fun values => !values.isEmpty := by
      rw [hspace]
      unfold SearchSpace.gridValues
      rw [Dict.get?_filter, Dict.get?_mapValues]
    rw [Dict.has, hget]
    cases hv : saved.grid.get? k with
    | none => simp
    | some v =>
        have hempty := gridColumn_isEmpty (hcolumns _ (Dict.mem_entries.mpr hv))
        simp [Option.filter, hempty]
  have htied : (∃ group ∈ space.tiedGroups, group.has k = true) ↔
      ∃ group ∈ saved.tied, group.has k = true ∧ ∃ c ∈ group.entries, c.2 ≠ [] := by
    rw [hspace]
    unfold SearchSpace.tiedGroups
    simp only [List.mem_filter, List.any_eq_true, Bool.not_eq_true', List.isEmpty_eq_false_iff]
    constructor
    · rintro ⟨group, ⟨hgroup, hfilled⟩, hhas⟩
      exact ⟨group, hgroup, hhas, hfilled⟩
    · rintro ⟨group, hgroup, hhas, hfilled⟩
      exact ⟨group, ⟨hgroup, hfilled⟩, hhas⟩
  have hrange : (∃ r ∈ space.rangeSpecs, r.name = k) ↔ saved.range.has k = true := by
    have hsaved : space.range = saved.range := by rw [hspace]
    rw [← Dict.mem_keys, ← hsaved]
    constructor
    · rintro ⟨r, hr, rfl⟩
      rcases List.mem_filterMap.mp hr with ⟨e, he, hspec⟩
      rw [(rangeSpecOf_eq_some hspec).2.2.2.1]
      exact List.mem_map_of_mem (mem_sortEntries.mp he)
    · intro hk
      rcases List.mem_map.mp hk with ⟨e, he, rfl⟩
      rcases rangeSpecOf_of_errors hsound he with ⟨r, hr, -⟩
      exact ⟨r, List.mem_filterMap.mpr ⟨e, mem_sortEntries.mpr he, hr⟩, (rangeSpecOf_eq_some hr).2.2.2.1⟩
  rw [SearchSpace.mem_sweptKeys, hgrid, htied, hrange]
  rfl

/-! ## Both readers -/

theorem forall₂_left {α β : Type} {R : α → β → Prop} {l : List α} {l' : List β} (h : List.Forall₂ R l l') {a : α}
    (ha : a ∈ l) : ∃ b ∈ l', R a b := by
  induction h with
  | nil => cases ha
  | cons hab _ ih =>
      rcases List.mem_cons.mp ha with rfl | ha
      · exact ⟨_, List.mem_cons_self, hab⟩
      · rcases ih ha with ⟨b, hb, hR⟩
        exact ⟨b, List.mem_cons_of_mem _ hb, hR⟩

theorem forall₂_right {α β : Type} {R : α → β → Prop} {l : List α} {l' : List β} (h : List.Forall₂ R l l') {b : β}
    (hb : b ∈ l') : ∃ a ∈ l, R a b :=
  forall₂_left h.flip hb

/-- What is multiplied on the page are the axes with points. -/
theorem product_positive (axes : List Axis) (total : Nat) :
    axes.foldl (fun total axis => total * max 1 axis.count) total =
      total * ((axes.filter fun a => 0 < a.count).map Axis.count).prod := by
  induction axes generalizing total with
  | nil => simp
  | cons axis axes ih =>
      rw [List.foldl_cons, ih]
      by_cases hpos : 0 < axis.count
      · rw [List.filter_cons_of_pos (by simpa using hpos), List.map_cons, List.prod_cons, Nat.max_eq_right hpos,
          mul_assoc]
      · rw [List.filter_cons_of_neg (by simpa using hpos), Nat.max_eq_left (by omega), mul_one]

theorem product_shown {axes : List Axis} {space : SearchSpace} {matched : List (AxisKind × List Part)}
    (hperm : matched.Perm space.kindedAxes)
    (hshows : List.Forall₂ saved.Shows (axes.filter fun a => 0 < a.count) matched) :
    axes.foldl (fun total axis => total * max 1 axis.count) 1 = space.axisProduct := by
  have hcounts : (axes.filter fun a => 0 < a.count).map Axis.count = matched.map fun axis => axis.2.length := by
    rw [← List.forall₂_eq_eq_eq, List.forall₂_map_left_iff, List.forall₂_map_right_iff]
    exact hshows.imp fun _ _ h => h.count
  calc axes.foldl (fun total axis => total * max 1 axis.count) 1
      = ((axes.filter fun a => 0 < a.count).map Axis.count).prod := by rw [product_positive, one_mul]
    _ = (matched.map fun axis => axis.2.length).prod := by rw [hcounts]
    _ = (space.kindedAxes.map fun axis => axis.2.length).prod := (hperm.map _).prod_eq
    _ = (space.axes.map List.length).prod := by
        rw [← space.kindedAxes_axes, List.map_map]
        rfl
    _ = space.axisProduct := by
        rw [space.axisProduct_eq, length_product]

theorem keepFirst_length_le (key : Config → String) (seen : List String) (l : List Config) :
    (keepFirst key seen l).length ≤ l.length := by
  induction l generalizing seen with
  | nil => exact le_rfl
  | cons c l ih =>
      unfold keepFirst
      split
      · exact (ih seen).trans (Nat.le_succ _)
      · exact Nat.succ_le_succ (ih _)

/-- There are no more candidates than points of the axes. -/
theorem candidateCount_le (space : SearchSpace) : space.candidateCount ≤ space.axisProduct := by
  unfold SearchSpace.candidateCount
  split
  · rw [space.axisProduct_eq]
    unfold SearchSpace.expand
    dsimp only
    split
    · exact (List.length_map _).le
    · refine (keepFirst_length_le _ _ _).trans ?_
      rw [List.length_map, List.length_map]
  · exact le_rfl

theorem readsAlike_of_spelled {space : SearchSpace} (h : saved.read = some space)
    (hsound : space.sweepCheck.errors = []) (hspelled : saved.SpelledAlike) : saved.ReadsAlike space := by
  have hsaved : space.range = saved.range := by rw [(read_eq_some h).2]
  have hranges : ∀ e ∈ saved.range.entries, ∃ r axis, SearchSpace.rangeSpecOf e = some r ∧
      rangeAxis e = some axis ∧ saved.Reads axis (rangePoints r) := by
    intro e he
    rcases rangeSpecOf_of_errors hsound (hsaved ▸ he) with ⟨r, hr, hfew⟩
    rcases rangeAxis_reads he hr hfew (hspelled.ranges e he r hr) with ⟨axis, haxis, hreads⟩
    exact ⟨r, axis, hr, haxis, hreads⟩
  have hrangeAxes : ∀ l : List (String × Config), (∀ e ∈ l, e ∈ saved.range.entries) →
      ∃ ranges, List.Forall₂ (fun e axis => rangeAxis e = some axis) l ranges ∧
        List.Forall₂ saved.Reads ranges ((l.filterMap SearchSpace.rangeSpecOf).map rangePoints) := by
    intro l hl
    induction l with
    | nil => exact ⟨[], List.Forall₂.nil, List.Forall₂.nil⟩
    | cons e l ih =>
        rcases ih fun e he => hl e (List.mem_cons_of_mem _ he) with ⟨ranges, haxes, hreads⟩
        rcases hranges e (hl e List.mem_cons_self) with ⟨r, axis, hr, haxis, hread⟩
        refine ⟨axis :: ranges, List.Forall₂.cons haxis haxes, ?_⟩
        rw [List.filterMap_cons_some hr, List.map_cons]
        exact List.Forall₂.cons hread hreads
  rcases hrangeAxes (objectEntries saved.range.entries) fun e he => mem_objectEntries.mp he with
    ⟨ranges, haxes, hrangeReads⟩
  have hbare : saved.bareAxes = some ((objectEntries saved.grid.entries).map listAxis ++ ranges ++
      saved.tied.filterMap groupAxis) := by
    unfold bareAxes
    rw [mapM_eq_some.mpr haxes]
    rfl
  have hreads : List.Forall₂ saved.Reads ((objectEntries saved.grid.entries).map listAxis ++ ranges ++
      saved.tied.filterMap groupAxis) saved.pagedAxes := by
    refine List.rel_append (List.rel_append ?_ hrangeReads) (groupAxes_read saved.tied)
    rw [List.forall₂_map_left_iff, List.forall₂_map_right_iff, List.forall₂_same]
    exact fun e he => listAxis_reads (hspelled.grid e (mem_objectEntries.mp he))
  -- the axes without points go from both
  generalize hall : (objectEntries saved.grid.entries).map listAxis ++ ranges ++
    saved.tied.filterMap groupAxis = bare at hbare hreads
  have hpositive : List.Forall₂ saved.Shows (bare.filter fun a => 0 < a.count)
      (saved.pagedAxes.filter fun axis => !axis.2.isEmpty) := by
    clear hall hbare
    generalize saved.pagedAxes = paged at hreads
    induction hreads with
    | nil => exact List.Forall₂.nil
    | @cons axis points bare paged hread _ ih =>
        cases hpoints : points.2 with
        | nil =>
            have hzero : axis.count = 0 := by rw [hread.1, hpoints]; rfl
            rw [List.filter_cons_of_neg (by simp [hzero]), List.filter_cons_of_neg (by simp [hpoints])]
            exact ih
        | cons part parts =>
            have hsome : 0 < axis.count := by rw [hread.1, hpoints]; exact Nat.succ_pos _
            rw [List.filter_cons_of_pos (by simpa using hsome), List.filter_cons_of_pos (by simp [hpoints])]
            exact List.Forall₂.cons (hread.2 (by rw [hpoints]; exact List.cons_ne_nil _ _)) ih
  have hgates : ((objectEntries saved.conditions.entries).foldlM gateAxis bare).isSome = true := by
    rw [gates_isSome_iff]
    intro e he hk
    exact hspelled.gates e (mem_objectEntries.mp he) ((mem_bare_keys hbare e.1).mp hk)
  rcases Option.isSome_iff_exists.mp hgates with ⟨shown, hshown⟩
  have haxesOf : saved.axesOf = some shown := by
    unfold axesOf
    rw [hbare]
    exact hshown
  have hungated := gates_ungated hshown
  have hmatched := (shows_ungated saved hungated _).mpr hpositive
  have hperm := pagedAxes_perm h
  have hproduct : saved.crossProduct = some space.axisProduct := by
    unfold crossProduct
    rw [haxesOf, Option.map_some, product_shown hperm hmatched]
  refine ⟨⟨shown, haxesOf, _, hperm, hmatched⟩, hproduct, fun total htotal => ?_, ?_⟩
  · rw [hproduct] at htotal
    cases htotal
    exact candidateCount_le space
  · refine ⟨shown.flatMap Axis.keys, by unfold sweptKeysOf; rw [haxesOf]; rfl, fun k => ?_⟩
    rw [keys_of_ungated hungated, mem_bare_keys hbare, mem_sweptKeys_iff h hsound]
    constructor
    · exact hspelled.filled k
    · rintro (⟨v, hv, -⟩ | ⟨group, hgroup, hhas, -⟩ | hrange)
      · exact Or.inl (Dict.has_iff.mpr ⟨v, hv⟩)
      · exact Or.inr (Or.inr ⟨group, hgroup, hhas⟩)
      · exact Or.inr (Or.inl hrange)

theorem spelled_of_readsAlike {space : SearchSpace} (h : saved.read = some space)
    (hsound : space.sweepCheck.errors = []) (halike : saved.ReadsAlike space) : saved.SpelledAlike := by
  rcases halike.axes with ⟨shown, hshown, matched, hperm, hshows⟩
  rcases Option.bind_eq_some_iff.mp hshown with ⟨bare, hbare, hgates⟩
  have hungated := gates_ungated hgates
  rw [shows_ungated saved hungated] at hshows
  rcases Option.map_eq_some_iff.mp hbare with ⟨ranges, hranges, hall⟩
  have hsaved : space.range = saved.range := by rw [(read_eq_some h).2]
  have hnamed : ∀ k, saved.Named k → saved.Varies k := by
    intro k hk
    rcases halike.keys with ⟨keys, hkeys, hsame⟩
    have hflat : keys = shown.flatMap Axis.keys := by
      unfold sweptKeysOf at hkeys
      rw [hshown] at hkeys
      exact (Option.some.inj hkeys).symm
    rw [← mem_sweptKeys_iff h hsound, ← hsame, hflat, keys_of_ungated hungated]
    exact (mem_bare_keys hbare k).mpr hk
  refine ⟨fun e he => ?_, fun e he r hr => ?_, hnamed, fun e he hk => ?_⟩
  · by_cases hlist : ∃ items, e.2 = .list items
    · exact Or.inl hlist
    · have hone : (listAxis e).count = 1 := by
        unfold listAxis
        simp only [Axis.cut_count, List.length_map]
        split
        · exact absurd ⟨_, ‹e.2 = _›⟩ hlist
        · rfl
      have hin : listAxis e ∈ bare.filter fun a => 0 < a.count := by
        rw [← hall]
        refine List.mem_filter.mpr ⟨?_, by simp [hone]⟩
        exact List.mem_append_left _ (List.mem_append_left _ (List.mem_map_of_mem (mem_objectEntries.mpr he)))
      rcases forall₂_left hshows hin with ⟨points, hpoints, hshow⟩
      -- the platform's axis is the one of the same grid parameter
      have hpaged := (pagedAxes_perm h).mem_iff.mpr (hperm.mem_iff.mp hpoints)
      rcases List.mem_filter.mp hpaged with ⟨hmem, hne⟩
      have hne' : points.2 ≠ [] := by simpa using hne
      have hkind : points.1 = .list := hshow.kind.symm.trans (Axis.cut_kind _ _ _ _ _)
      rcases List.mem_append.mp hmem with hmem | hmem
      · rcases List.mem_append.mp hmem with hmem | hmem
        · rcases List.mem_map.mp hmem with ⟨e', he', rfl⟩
          have hkeys := hshow.keys
          rw [columnPoints_keys hne'] at hkeys
          have hname : e.1 = e'.1 := by
            have hsingle : [e.1] = [e'.1] := List.perm_singleton.mp (by simpa [listAxis, readColumn] using hkeys)
            exact List.head_eq_of_cons_eq hsingle
          have heq : e.2 = e'.2 := by
            have hvalue := Dict.mem_entries.mp (mem_objectEntries.mp he')
            rw [show ((e'.1, e'.2) : String × Value).1 = e'.1 from rfl, ← hname,
              Dict.mem_entries.mp (show (e.1, e.2) ∈ saved.grid.entries from he)] at hvalue
            exact Option.some.inj hvalue
          have hlength : ((gridColumn e'.2).getD []).length = 1 := by
            have hcount := hshow.count
            rw [hone] at hcount
            simpa [columnPoints, readColumn] using hcount.symm
          rcases List.length_eq_one_iff.mp hlength with ⟨v, hv⟩
          refine Or.inr ⟨v, ?_⟩
          rw [heq]
          cases hcolumn : gridColumn e'.2 with
          | none =>
              rw [hcolumn] at hv
              cases hv
          | some values =>
              rw [hcolumn] at hv
              exact congrArg some hv
        · rcases List.mem_map.mp hmem with ⟨r, -, rfl⟩
          cases hkind
      · rcases List.mem_map.mp hmem with ⟨group, -, rfl⟩
        cases hkind
  · rcases rangeSpecOf_of_errors hsound (hsaved ▸ he) with ⟨r', hr', hfew⟩
    cases hr.symm.trans hr'
    have hspec : r ∈ space.rangeSpecs :=
      List.mem_filterMap.mpr ⟨e, mem_sortEntries.mpr (hsaved ▸ he), hr⟩
    have hne : (rangePoints r).2 ≠ [] := by
      have hvalues := SearchSpace.values_ne_nil hspec
      simpa [rangePoints] using hvalues
    have hpoints : rangePoints r ∈ matched := by
      refine hperm.mem_iff.mpr ((pagedAxes_perm h).mem_iff.mp (List.mem_filter.mpr ⟨?_, by simpa using hne⟩))
      refine List.mem_append_left _ (List.mem_append_right _ (List.mem_map_of_mem ?_))
      exact List.mem_filterMap.mpr ⟨e, mem_objectEntries.mpr he, hr⟩
    rcases forall₂_right hshows hpoints with ⟨axis, -, hshow⟩
    rcases hshow.steps rfl with ⟨k, spec, numbers, hkeys, hget, hexpand, hnumbers⟩
    have hname : k = e.1 := by
      have hsame := hshow.keys
      rw [hkeys, rangePoints_keys hne, (rangeSpecOf_eq_some hr).2.2.2.1] at hsame
      exact List.head_eq_of_cons_eq (List.perm_singleton.mp hsame)
    have hspecEq : spec = e.2 := by
      rw [hname, Dict.mem_entries.mp (show (e.1, e.2) ∈ saved.range.entries from he)] at hget
      exact (Option.some.inj hget).symm
    refine (rangeAlike_iff hr hfew).mpr ⟨numbers, hspecEq ▸ hexpand, ?_⟩
    rw [← rangePoints_numbers, hnumbers]
  · have hread := (gates_isSome_iff.mp (Option.isSome_iff_exists.mpr ⟨shown, hgates⟩)) e
      (mem_objectEntries.mpr he)
    exact hread ((mem_bare_keys hbare e.1).mpr hk)

/-- A space without mistakes is read alike by the page and by the platform exactly if it is spelled alike. -/
theorem reads_alike_iff (saved : SavedSpace) (space : SearchSpace) (h : saved.read = some space)
    (herrors : space.spaceErrors = []) : saved.ReadsAlike space ↔ saved.SpelledAlike :=
  have hsound := (space.sound_of_spaceErrors herrors).1
  ⟨spelled_of_readsAlike h hsound, readsAlike_of_spelled h hsound⟩

end SavedSpace

/-! ## Two ranges -/

/-- What the coarser decimals write out is alike. -/
theorem stepAlike_of_writesOut {p q : Nat} {x : ℚ} (h : WritesOut (min p q) x) : StepAlike p q x := by
  unfold StepAlike
  split
  · rcases h with ⟨k, rfl⟩
    exact ⟨_, finer_writes (min_le_left p q) k⟩
  · exact sameRounding_of_writesOut h

/-- Tensor parallelism, and a share from `low` to `high` that applies to the second value of it. -/
def savedShares (low high step : ℚ) : SavedSpace where
  grid := .ofEntries [("tp", .list [.int 1, .int 2])]
  range := .ofEntries [shareRange low high step]
  conditions := .ofEntries [("gpu_memory_utilization", .ofEntries [("tp", .list [.int 2])])]

/-- The space the platform expands of it. -/
def readShares (low high step : ℚ) : SearchSpace where
  grid := .ofEntries [("tp", [.int 1, .int 2])]
  range := .ofEntries [shareRange low high step]
  conditions := .ofEntries [("gpu_memory_utilization", .ofEntries [("tp", .list [.int 2])])]

theorem savedShares_read (low high step : ℚ) :
    (savedShares low high step).read = some (readShares low high step) := rfl

/-- From 0.8 by a twentieth the page shows what is deployed. -/
theorem twentieths_read_alike :
    (savedShares (4 / 5) (9 / 10) (1 / 20)).ReadsAlike (readShares (4 / 5) (9 / 10) (1 / 20)) := by
  refine ((savedShares (4 / 5) (9 / 10) (1 / 20)).reads_alike_iff _ (savedShares_read _ _ _)
    (by decide +kernel)).mpr ⟨fun e he => ?_, fun e he r hr => ?_, fun k hk => ?_, fun e he _ on allowed hhead _ => ?_⟩
  · rcases List.mem_singleton.mp he with rfl
    exact Or.inl ⟨_, rfl⟩
  · rcases List.mem_singleton.mp he with rfl
    have hspec : SearchSpace.rangeSpecOf (shareRange (4 / 5) (9 / 10) (1 / 20)) =
        some ⟨"gpu_memory_utilization", 4 / 5, 9 / 10, 1 / 20⟩ := by
      with_unfolding_all rfl
    cases hspec.symm.trans hr
    refine ⟨by decide, by decide +kernel, fun i _ => stepAlike_of_writesOut ?_⟩
    have hdecimals : min (rangeDecimals (1 / 20)) (typedDecimals (shareRange (4 / 5) (9 / 10) (1 / 20)).2) = 2 := by
      decide +kernel
    rw [hdecimals]
    refine ⟨80 + 5 * i, ?_⟩
    simp only [RangeSpec.point]
    push_cast
    ring
  · rcases hk with hgrid | hrange | ⟨group, hgroup, -⟩
    · rcases Dict.has_iff.mp hgrid with ⟨v, hv⟩
      rcases List.mem_singleton.mp (Dict.mem_entries.mpr hv) with heq
      cases heq
      exact Or.inl ⟨_, hv, rfl⟩
    · exact Or.inr (Or.inr hrange)
    · cases hgroup
  · rcases List.mem_singleton.mp he with rfl
    cases hhead
    rfl

/-- From 0.25 by a half the platform deploys 0.2 and the page shows 0.3. -/
theorem quarter_read_apart : (savedShares (1 / 4) (3 / 4) (1 / 2)).read = some (readShares (1 / 4) (3 / 4) (1 / 2)) ∧
    (readShares (1 / 4) (3 / 4) (1 / 2)).spaceErrors = [] ∧
    ¬ (savedShares (1 / 4) (3 / 4) (1 / 2)).ReadsAlike (readShares (1 / 4) (3 / 4) (1 / 2)) := by
  have herrors : (readShares (1 / 4) (3 / 4) (1 / 2)).spaceErrors = [] := by decide +kernel
  refine ⟨rfl, herrors, fun h => ?_⟩
  have hspelled := SavedSpace.spelled_of_readsAlike (savedShares_read _ _ _)
    ((readShares (1 / 4) (3 / 4) (1 / 2)).sound_of_spaceErrors herrors).1 h
  have hspec : SearchSpace.rangeSpecOf (shareRange (1 / 4) (3 / 4) (1 / 2)) =
      some ⟨"gpu_memory_utilization", 1 / 4, 3 / 4, 1 / 2⟩ := by
    with_unfolding_all rfl
  have halike := hspelled.ranges _ (List.mem_singleton_self _) _ hspec
  have hfirst := (toFixed_eq_roundTo_iff halike.decimals).mpr (halike.steps 0 (by
    simp only [RangeSpec.Reaches, RangeSpec.point]
    norm_num))
  have hrounded : toFixed (typedDecimals (shareRange (1 / 4) (3 / 4) (1 / 2)).2)
      (RangeSpec.point ⟨"gpu_memory_utilization", 1 / 4, 3 / 4, 1 / 2⟩ 0) ≠
      some (roundTo (rangeDecimals (1 / 2)) (RangeSpec.point ⟨"gpu_memory_utilization", 1 / 4, 3 / 4, 1 / 2⟩ 0)) := by
    decide +kernel
  exact hrounded hfirst

end AutoTune
