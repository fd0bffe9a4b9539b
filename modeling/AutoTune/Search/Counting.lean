import AutoTune.Search.SoundSpaces

/-!
# How many points a space has

The editor previews how many candidates a space makes before a night is planned from it. The preview
multiplies the axes unless there are conditions; the plan inserts one row for each hash.
-/

namespace AutoTune

open Lib

/-- `CandidateConfig.hash`: `digest` is the start of the SHA-256 of the text. -/
def configHash (digest : String → String) (config : Config) : String := digest (jsonKey config)

/-- The points `_plan` inserts for a campaign that has the candidates `existing`. -/
def SearchSpace.plannedPoints (space : SearchSpace) (digest : String → String)
    (existing : List String) : List Config :=
  keepFirst (configHash digest) existing space.expand

/-! ## What is kept of a list -/

theorem mem_keys_keepFirst (key : Config → String) (seen : List String) (l : List Config) (t : String) :
    t ∈ (keepFirst key seen l).map key ↔ t ∈ l.map key ∧ t ∉ seen := by
  induction l generalizing seen with
  | nil => simp [keepFirst]
  | cons c l ih =>
      unfold keepFirst
      split
      · rename_i hseen
        rw [ih, List.map_cons, List.mem_cons]
        constructor
        · rintro ⟨hmem, hnot⟩
          exact ⟨Or.inr hmem, hnot⟩
        · rintro ⟨rfl | hmem, hnot⟩
          · exact absurd (List.contains_iff_mem.mp hseen) hnot
          · exact ⟨hmem, hnot⟩
      · rename_i hseen
        have hnew : key c ∉ seen := fun h => hseen (List.contains_iff_mem.mpr h)
        rw [List.map_cons, List.mem_cons, ih, List.map_cons, List.mem_cons, List.mem_cons]
        constructor
        · rintro (rfl | ⟨hmem, hnot⟩)
          · exact ⟨Or.inl rfl, hnew⟩
          · exact ⟨Or.inr hmem, fun h => hnot (Or.inr h)⟩
        · rintro ⟨rfl | hmem, hnot⟩
          · exact Or.inl rfl
          · by_cases hc : t = key c
            · exact Or.inl hc
            · exact Or.inr ⟨hmem, fun h => h.elim hc hnot⟩

theorem mem_of_keepFirst {key : Config → String} {seen : List String} {l : List Config} {c : Config}
    (h : c ∈ keepFirst key seen l) : c ∈ l := by
  induction l generalizing seen with
  | nil => exact h
  | cons d l ih =>
      unfold keepFirst at h
      split at h
      · exact List.mem_cons_of_mem _ (ih h)
      · rcases List.mem_cons.mp h with rfl | hmem
        · exact List.mem_cons_self
        · exact List.mem_cons_of_mem _ (ih hmem)

/-- No key is kept twice. -/
theorem nodup_keepFirst (key : Config → String) (seen : List String) (l : List Config) :
    ((keepFirst key seen l).map key).Nodup := by
  induction l generalizing seen with
  | nil => exact List.nodup_nil
  | cons c l ih =>
      unfold keepFirst
      split
      · exact ih seen
      · rw [List.map_cons, List.nodup_cons]
        refine ⟨fun hmem => ?_, ih _⟩
        exact ((mem_keys_keepFirst key _ l (key c)).mp hmem).2 List.mem_cons_self

/-- As many are kept as there are distinct keys. -/
theorem length_keepFirst (key : Config → String) (l : List Config) :
    (keepFirst key [] l).length = (l.map key).dedup.length := by
  have hperm : ((keepFirst key [] l).map key).Perm (l.map key).dedup := by
    rw [List.perm_ext_iff_of_nodup (nodup_keepFirst key [] l) (List.nodup_dedup _)]
    intro t
    rw [mem_keys_keepFirst, List.mem_dedup]
    simp
  rw [← hperm.length_eq, List.length_map]

/-! ## What tells two points apart -/

/-- What each parameter of a part is written as. -/
def partText (part : Part) : List (String × List Char) := part.map fun e => (e.1, e.2.dump)

/-- Over the same base, two lists of values for the same parameters print the same everywhere exactly if
each parameter is written the same in both. -/
theorem partText_eq_iff {l l' : Part} (hkeys : l.map Prod.fst = l'.map Prod.fst)
    (hnd : (l.map Prod.fst).Nodup) (base : Config) :
    (∀ k, ((dictGet l k).or (base.get? k)).map Json.dump =
      ((dictGet l' k).or (base.get? k)).map Json.dump) ↔ partText l = partText l' := by
  induction l generalizing l' with
  | nil =>
      rw [List.map_eq_nil_iff.mp (show l'.map Prod.fst = [] from hkeys.symm)]
      simp
  | cons e l ih =>
      cases l' with
      | nil => simp at hkeys
      | cons e' l' =>
          rcases e with ⟨k, v⟩
          rcases e' with ⟨k', v'⟩
          rw [List.map_cons, List.map_cons, List.cons.injEq] at hkeys
          rcases hkeys with ⟨hk, hkeys⟩
          dsimp only at hk
          subst hk
          rw [List.map_cons, List.nodup_cons] at hnd
          have hih := ih hkeys hnd.2
          have habsent : ∀ m : Part, m.map Prod.fst = l.map Prod.fst → dictGet m k = none := by
            intro m hm
            rw [← Option.not_isSome_iff_eq_none, dictGet_isSome, hm]
            exact hnd.1
          unfold partText at hih ⊢
          rw [List.map_cons, List.map_cons, List.cons.injEq, ← hih, Prod.mk.injEq]
          constructor
          · intro h
            refine ⟨⟨rfl, by simpa [dictGet_cons] using h k⟩, fun k' => ?_⟩
            by_cases hk' : k' = k
            · rw [hk', habsent l rfl, habsent l' hkeys.symm]
            · have := h k'
              rwa [dictGet_cons, dictGet_cons, if_neg (Ne.symm hk'), if_neg (Ne.symm hk')] at this
          · rintro ⟨⟨-, hv⟩, hrest⟩ k'
            rw [dictGet_cons, dictGet_cons]
            by_cases hk' : k = k'
            · rw [if_pos hk', if_pos hk']
              simpa using hv
            · rw [if_neg hk', if_neg hk']
              exact hrest k'

namespace SearchSpace

variable (space : SearchSpace)

theorem mergedWith_eq (combo : List Part) : space.mergedWith combo = space.base.setAll combo.flatten := by
  unfold mergedWith
  generalize space.base = base
  induction combo generalizing base with
  | nil => rfl
  | cons part combo ih => rw [List.foldl_cons, ih, List.flatten_cons, Dict.setAll_append]

/-- Every choice sets the parameters of all axes. -/
theorem combo_keys {combo : List Part} (h : combo ∈ product space.axes) :
    combo.flatten.map Prod.fst = space.axes.flatMap axisKeys :=
  product_names (fun _ haxis _ hpart => space.part_keys (space.mem_axes.mp haxis).1 hpart) h

/-- What a choice and the base hold together. -/
theorem get?_mergedWith (h : space.sweepCheck.errors = []) {combo : List Part}
    (hcombo : combo ∈ product space.axes) (k : String) :
    (space.mergedWith combo).get? k = (dictGet combo.flatten k).or (space.base.get? k) := by
  rw [mergedWith_eq, Dict.get?_setAll]
  rw [space.combo_keys hcombo]
  exact space.axes_keys_nodup h

/-- Two merged choices have the same text exactly if their parts are written the same. -/
theorem mergedWith_text_iff (h : space.sweepCheck.errors = []) {a b : List Part}
    (ha : a ∈ product space.axes) (hb : b ∈ product space.axes) :
    jsonKey (space.mergedWith a) = jsonKey (space.mergedWith b) ↔ a.map partText = b.map partText := by
  have hkeys : a.flatten.map Prod.fst = b.flatten.map Prod.fst := by
    rw [space.combo_keys ha, space.combo_keys hb]
  have hnd : (a.flatten.map Prod.fst).Nodup := by
    rw [space.combo_keys ha]
    exact space.axes_keys_nodup h
  have hhas : ∀ k, (space.mergedWith a).has k = (space.mergedWith b).has k := by
    intro k
    rw [Bool.eq_iff_iff, mergedWith_eq, mergedWith_eq, Dict.has_setAll, Dict.has_setAll,
      hkeys]
  unfold jsonKey
  rw [Dict.dumps_eq_iff plainFloats_rat hhas]
  simp only [space.get?_mergedWith h ha, space.get?_mergedWith h hb]
  rw [partText_eq_iff hkeys hnd]
  have hflat : ∀ c : List Part, partText c.flatten = (c.map partText).flatten := by
    intro c
    exact List.map_flatten
  rw [hflat, hflat]
  constructor
  · intro heq
    have haxes : ∀ axis ∈ space.axes.map (List.map partText), ∀ x ∈ axis, ∀ y ∈ axis,
        x.length = y.length := by
      intro axis haxis x hx y hy
      rcases List.mem_map.mp haxis with ⟨parts, hparts, rfl⟩
      rcases List.mem_map.mp hx with ⟨part, hpart, rfl⟩
      rcases List.mem_map.mp hy with ⟨other, hother, rfl⟩
      have haxis := (space.mem_axes.mp hparts).1
      have hxy := (space.part_keys haxis hpart).trans (space.part_keys haxis hother).symm
      simpa [partText] using congrArg List.length hxy
    refine product_flatten_inj haxes ?_ ?_ heq
    · rw [product_map]
      exact List.mem_map_of_mem ha
    · rw [product_map]
      exact List.mem_map_of_mem hb
  · intro heq
    rw [heq]

/-- The choices all have texts of their own exactly if no axis offers a part twice. -/
theorem nodup_merged_iff (h : space.sweepCheck.errors = []) :
    (((product space.axes).map space.mergedWith).map jsonKey).Nodup ↔
      ∀ axis ∈ space.axes, (axis.map partText).Nodup := by
  have hne : ∀ axis ∈ space.axes.map (List.map partText), axis ≠ [] := by
    intro axis haxis
    rcases List.mem_map.mp haxis with ⟨parts, hparts, rfl⟩
    simpa using (space.mem_axes.mp hparts).2
  have htexts : ((product space.axes).map (jsonKey ∘ space.mergedWith)).Nodup ↔
      ((product space.axes).map (List.map partText)).Nodup :=
    nodup_map_congr fun a ha b hb => space.mergedWith_text_iff h ha hb
  rw [List.map_map, htexts, ← product_map, nodup_product hne]
  simp

/-- Nothing is declared twice: every value of a parameter, every row of a tied group and every step of a
range is written differently from the others. -/
structure DeclaresOnce : Prop where
  grid : ∀ e ∈ space.gridValues.entries, (e.2.map Json.dump).Nodup
  tied : ∀ group ∈ space.tiedGroups, ((tiedAxis group).map partText).Nodup
  range : ∀ r ∈ space.rangeSpecs, (r.values.map Json.dump).Nodup

theorem nodup_column_iff (k : String) (values : List Value) :
    ((values.map fun v => [(k, v)]).map partText).Nodup ↔ (values.map Json.dump).Nodup := by
  rw [List.map_map]
  refine nodup_map_congr fun a _ b _ => ?_
  simp [partText]

/-- That is, no axis offers a part twice. -/
theorem declaresOnce_iff : space.DeclaresOnce ↔ ∀ axis ∈ space.axes, (axis.map partText).Nodup := by
  have hall : (∀ axis ∈ space.axes, (axis.map partText).Nodup) ↔
      ∀ axis ∈ space.allAxes, (axis.map partText).Nodup := by
    constructor
    · intro h axis haxis
      by_cases hempty : axis = []
      · rw [hempty]
        exact List.nodup_nil
      · exact h axis (space.mem_axes.mpr ⟨haxis, hempty⟩)
    · intro h axis haxis
      exact h axis (space.mem_axes.mp haxis).1
  rw [hall]
  unfold allAxes
  simp only [List.forall_mem_append, List.forall_mem_map, nodup_column_iff, mem_sortEntries]
  constructor
  · rintro ⟨hgrid, htied, hrange⟩
    exact ⟨⟨hgrid, htied⟩, hrange⟩
  · rintro ⟨⟨hgrid, htied⟩, hrange⟩
    exact ⟨hgrid, htied, hrange⟩

/-- The text of the point a choice makes. -/
def pointText (combo : List Part) : String := jsonKey (pruneInactive (space.mergedWith combo) space)

theorem axisProduct_eq : space.axisProduct = (product space.axes).length := by
  rw [length_product, List.prod_eq_foldl_nat]
  rfl

/-- The texts of the expansion are those of the choices. -/
theorem mem_expand_texts (t : String) :
    t ∈ space.expand.map jsonKey ↔ ∃ combo ∈ product space.axes, space.pointText combo = t := by
  unfold expand
  by_cases hgates : space.gates.isEmpty = true
  · simp [hgates, pointText, pruneInactive]
  · simp only [hgates, Bool.false_eq_true, if_false]
    rw [mem_keys_keepFirst]
    simp [pointText]

/-- What was checked of a space without mistakes. -/
theorem sound_of_spaceErrors (h : space.spaceErrors = []) :
    space.sweepCheck.errors = [] ∧ space.axisProduct ≤ maxSpaceCandidates := by
  unfold spaceErrors at h
  dsimp only at h
  rw [List.append_eq_nil_iff, List.append_eq_nil_iff] at h
  refine ⟨h.1.1, ?_⟩
  by_contra hlarge
  have htoo : space.tooLarge = true := by
    unfold tooLarge
    simpa using hlarge
  simp [htoo] at h

/-- The preview is the length of the expansion. -/
theorem candidateCount_eq (h : space.axisProduct ≤ maxSpaceCandidates) :
    space.candidateCount = space.expand.length := by
  unfold candidateCount
  by_cases hgates : space.gates.isEmpty = true
  · simp [hgates, expand, axisProduct_eq]
  · simp [hgates, h]

/-- No text stands twice in the expansion exactly if the space has conditions or declares nothing twice. -/
theorem nodup_expand_iff (h : space.sweepCheck.errors = []) :
    (space.expand.map jsonKey).Nodup ↔
      (space.gates = [] → space.DeclaresOnce) := by
  rw [declaresOnce_iff]
  unfold expand
  by_cases hgates : space.gates = []
  · simp only [hgates, List.isEmpty_nil, if_true, forall_const]
    exact space.nodup_merged_iff h
  · have hempty : space.gates.isEmpty = false := by simpa using hgates
    simp only [hempty, Bool.false_eq_true, if_false, hgates, false_implies, iff_true]
    exact nodup_keepFirst jsonKey [] _

end SearchSpace

/-! ## A value declared twice -/

/-- One parameter, with the values `values`. -/
def gridOf (values : List Value) : SearchSpace where
  grid := .ofEntries [("tensor_parallel_size", values)]

/-- The digests of the two points of `tensor_parallel_size`. -/
def twoDigests (text : String) : String :=
  if text = jsonKey (.ofEntries [("tensor_parallel_size", .int 1)]) then "7f0009dce14f94dc"
  else "7da81039e8f358f2"

end AutoTune
