import AutoTune.Lib.Fallible
import AutoTune.Lib.JsonReading
import AutoTune.Recipe.Compose

/-!
# What merging a layer does

A leaf of the layer is what the result holds there, and a place the layer does not mention stays as it was,
whatever the base. A null of the layer deletes only where the base has the map around it: a map over a
missing key or over something else is copied with its nulls.
-/

namespace AutoTune

open Lib

section Laws

variable {F : Type}

/-! ## One key -/

@[simp] theorem mergedValue_section (base layer : JsonDict F) :
    mergedValue (some (.dict base)) (.dict layer) = some (.dict (merge base layer)) := rfl

/-- A map over anything but a map is copied. -/
theorem mergedValue_copied {old : Option (Json F)} (h : ∀ d, old ≠ some (.dict d)) (layer : JsonDict F) :
    mergedValue old (.dict layer) = some (.dict layer) := by
  unfold mergedValue
  split
  · rename_i base
    exact absurd rfl (h base)
  · rfl

/-- What the result holds under a key is what the layer's value makes of what the base held there. -/
theorem dictGet_merge {layer : JsonDict F} (h : (layer.map Prod.fst).Nodup) (base : JsonDict F) (k : String) :
    dictGet (merge base layer) k =
      match dictGet layer k with
      | none => dictGet base k
      | some value => mergedValue (dictGet base k) value := by
  induction layer generalizing base with
  | nil => simp [merge]
  | cons e layer ih =>
      rcases e with ⟨key, value⟩
      rw [List.map_cons, List.nodup_cons] at h
      rw [merge, ih h.2, dictGet_cons, dictGet_put]
      by_cases hk : k = key
      · subst hk
        have hnone : dictGet layer k = none := by
          rw [← Option.not_isSome_iff_eq_none, dictGet_isSome]
          exact h.1
        simp [hnone]
      · have hne : ¬ key = k := fun heq => hk heq.symm
        simp [hk, hne]

/-! ## One place -/

/-- A layer does not mention a place: no key of it stands there, and what it has on the way are maps. -/
def Misses (layer : JsonDict F) (path : List String) : Prop :=
  ∀ q v, q <+: path → q ≠ [] → (Json.dict layer).at q = some v → q ≠ path ∧ v.IsSection

/-- Every null of a layer is inside of a map the base has. -/
def DeletesInside (base layer : JsonDict F) : Prop :=
  ∀ path k, (Json.dict layer).at (path ++ [k]) = some .null → ∃ d, (Json.dict base).at path = some (.dict d)

/-- A null deletes exactly inside of a map of the base; elsewhere it is left in the result. -/
theorem at_merge_null {layer : JsonDict F} (hkeyed : (Json.dict layer).KeyedOnce) (base : JsonDict F)
    {path : List String} {k : String} (h : (Json.dict layer).at (path ++ [k]) = some .null) :
    ((∃ d, (Json.dict base).at path = some (.dict d)) ∧ (Json.dict (merge base layer)).at (path ++ [k]) = none) ∨
      ((¬ ∃ d, (Json.dict base).at path = some (.dict d)) ∧
        (Json.dict (merge base layer)).at (path ++ [k]) = some .null) := by
  induction path generalizing base layer with
  | nil =>
      have hnull : dictGet layer k = some .null := by simpa using h
      refine Or.inl ⟨⟨base, Json.at_nil _⟩, ?_⟩
      simp [dictGet_merge hkeyed.1, hnull, mergedValue]
  | cons j path ih =>
      rcases Json.at_cons_eq_some.mp h with ⟨_, u, heq, hu, hrest⟩
      cases heq
      -- the value on the way is a map, as the null is inside of it
      have hsub : ∃ sub, u = .dict sub := by
        cases path with
        | nil =>
            rcases Json.at_cons_eq_some.mp hrest with ⟨sub, -, rfl, -⟩
            exact ⟨sub, rfl⟩
        | cons i path =>
            rcases Json.at_cons_eq_some.mp hrest with ⟨sub, -, rfl, -⟩
            exact ⟨sub, rfl⟩
      rcases hsub with ⟨sub, rfl⟩
      by_cases hbase : ∃ d, dictGet base j = some (.dict d)
      · rcases hbase with ⟨d, hd⟩
        have hmerged : dictGet (merge base layer) j = some (.dict (merge d sub)) := by
          simp [dictGet_merge hkeyed.1, hu, hd]
        simpa [hd, hmerged] using ih (hkeyed.get hu) d hrest
      · have hmerged : dictGet (merge base layer) j = some (.dict sub) := by
          rw [dictGet_merge hkeyed.1, hu]
          exact mergedValue_copied (fun d hd => hbase ⟨d, hd⟩) sub
        refine Or.inr ⟨?_, by simpa [hmerged] using hrest⟩
        rintro ⟨d, hd⟩
        rcases Json.at_cons_eq_some.mp hd with ⟨_, v, heq, hv, hpath⟩
        cases heq
        cases path with
        | nil =>
            have hv' : v = .dict d := by simpa using hpath
            exact hbase ⟨d, by rw [hv, hv']⟩
        | cons i path =>
            rcases Json.at_cons_eq_some.mp hpath with ⟨d', -, rfl, -⟩
            exact hbase ⟨d', hv⟩

/-- A leaf of the layer is what the result holds there. -/
theorem at_merge_leaf {layer : JsonDict F} (hkeyed : (Json.dict layer).KeyedOnce) (base : JsonDict F)
    {path : List String} {v : Json F} (hleaf : v.IsLeaf) (h : (Json.dict layer).at path = some v) :
    (Json.dict (merge base layer)).at path = some v := by
  induction path generalizing base layer with
  | nil =>
      have hv : Json.dict layer = v := by simpa using h
      exact absurd hleaf (by simp [← hv, Json.IsLeaf])
  | cons k path ih =>
      rcases Json.at_cons_eq_some.mp h with ⟨_, u, heq, hu, hrest⟩
      cases heq
      have hget := dictGet_merge hkeyed.1 base k
      rw [hu] at hget
      cases u with
      | null =>
          cases path with
          | nil =>
              have hv : Json.null = v := by simpa using hrest
              exact absurd hleaf (by simp [← hv, Json.IsLeaf])
          | cons i path => simp [Json.at] at hrest
      | dict sub =>
          by_cases hbase : ∃ d, dictGet base k = some (.dict d)
          · rcases hbase with ⟨d, hd⟩
            have hih := ih (hkeyed.get hu) d hrest
            simpa [hget, hd] using hih
          · have hcopied := mergedValue_copied (fun d hd => hbase ⟨d, hd⟩) sub
            simpa [hget, hcopied] using hrest
      | _ =>
          simpa [hget, mergedValue] using hrest

/-- A place of the base that the layer does not mention stays as it was. -/
theorem at_merge_misses {layer : JsonDict F} (hkeyed : (Json.dict layer).KeyedOnce) {base : JsonDict F}
    {path : List String} {w : Json F} (h : (Json.dict base).at path = some w) (hne : path ≠ [])
    (hmiss : Misses layer path) : (Json.dict (merge base layer)).at path = some w := by
  induction path generalizing base layer with
  | nil => exact absurd rfl hne
  | cons k path ih =>
      rcases Json.at_cons_eq_some.mp h with ⟨_, u, heq, hu, hrest⟩
      cases heq
      have hget := dictGet_merge hkeyed.1 base k
      cases hlayer : dictGet layer k with
      | none =>
          rw [hlayer] at hget
          simpa [hget, hu] using hrest
      | some v =>
          have hfirst := hmiss [k] v (List.prefix_iff_eq_append.mpr rfl) (List.cons_ne_nil _ _)
            (by simpa using hlayer)
          have hpath : path ≠ [] := by
            rintro rfl
            exact hfirst.1 rfl
          cases v with
          | dict sub =>
              -- the base leads on from here, so it has a map here as well
              have hsection : ∃ d, u = .dict d := by
                cases path with
                | nil => exact absurd rfl hpath
                | cons i path =>
                    rcases Json.at_cons_eq_some.mp hrest with ⟨d, -, rfl, -⟩
                    exact ⟨d, rfl⟩
              rcases hsection with ⟨d, rfl⟩
              have hinside : Misses sub path := by
                intro q x hq hqne hx
                have hat : (Json.dict layer).at (k :: q) = some x := by simpa [hlayer] using hx
                have hmissed := hmiss (k :: q) x (List.cons_prefix_cons.mpr ⟨rfl, hq⟩)
                  (List.cons_ne_nil _ _) hat
                exact ⟨fun heq => hmissed.1 (by rw [heq]), hmissed.2⟩
              have hih := ih (hkeyed.get hlayer) hrest hpath hinside
              rw [hlayer, hu] at hget
              simpa [hget] using hih
          | _ => exact absurd hfirst.2 (by simp [Json.IsSection])

/-! ## Merging again -/

/-- Nothing changes where every key holds already what the layer makes of it. -/
theorem merge_settled {out layer : JsonDict F}
    (h : ∀ e ∈ layer, mergedValue (dictGet out e.1) e.2 = dictGet out e.1) : merge out layer = out := by
  induction layer with
  | nil => simp [merge]
  | cons e layer ih =>
      rcases e with ⟨key, value⟩
      have hkey : dictPut out key (mergedValue (dictGet out key) value) = out :=
        dictPut_self (h (key, value) List.mem_cons_self).symm
      rw [merge, hkey]
      exact ih fun e he => h e (List.mem_cons_of_mem _ he)

/-- A map without nulls merged over itself is itself. -/
theorem merge_self {layer : JsonDict F} (hkeyed : (Json.dict layer).KeyedOnce)
    (h : ∀ path k, (Json.dict layer).at (path ++ [k]) ≠ some .null) : merge layer layer = layer := by
  refine merge_settled fun e he => ?_
  rcases e with ⟨key, value⟩
  have hget : dictGet layer key = some value := dictGet_of_mem hkeyed.1 he
  rw [hget]
  cases value with
  | null => exact absurd (by simpa using hget) (h [] key)
  | dict sub =>
      have hinside : ∀ path k, (Json.dict sub).at (path ++ [k]) ≠ some .null := by
        intro path k hnull
        exact h (key :: path) k (by simpa [hget] using hnull)
      rw [mergedValue_section, merge_self (hkeyed.get hget) hinside]
  | _ => rfl
termination_by sizeOf layer
decreasing_by exact sizeOf_section hget

/-- A layer whose nulls delete inside of maps of the base only does all it does the first time. -/
theorem merge_again {base layer : JsonDict F} (hkeyed : (Json.dict layer).KeyedOnce)
    (h : DeletesInside base layer) : merge (merge base layer) layer = merge base layer := by
  refine merge_settled fun e he => ?_
  rcases e with ⟨key, value⟩
  have hget : dictGet layer key = some value := dictGet_of_mem hkeyed.1 he
  rw [dictGet_merge hkeyed.1, hget]
  cases value with
  | dict sub =>
      by_cases hbase : ∃ d, dictGet base key = some (.dict d)
      · rcases hbase with ⟨d, hd⟩
        have hinside : DeletesInside d sub := by
          intro path k hnull
          have hsection := h (key :: path) k (by simpa [hget] using hnull)
          simpa [hd] using hsection
        simp [hd, merge_again (hkeyed.get hget) hinside]
      · -- the map was copied, and no null can be in it
        have hcopied := mergedValue_copied (fun d hd => hbase ⟨d, hd⟩) sub
        have hno : ∀ path k, (Json.dict sub).at (path ++ [k]) ≠ some .null := by
          intro path k hnull
          rcases h (key :: path) k (by simpa [hget] using hnull) with ⟨d, hd⟩
          rcases Json.at_cons_eq_some.mp hd with ⟨_, u, heq, hu, hpath⟩
          cases heq
          cases path with
          | nil =>
              have hmap : u = .dict d := by simpa using hpath
              exact hbase ⟨d, by rw [hu, hmap]⟩
          | cons i path =>
              rcases Json.at_cons_eq_some.mp hpath with ⟨d', -, rfl, -⟩
              exact hbase ⟨d', hu⟩
        simp [hcopied, merge_self (hkeyed.get hget) hno]
  | _ => rfl
termination_by sizeOf layer
decreasing_by exact sizeOf_section hget

/-- What a merge owes: doing it again changes nothing, no null of the layer is left, its leaves are what the
result holds, and the rest of the base is as it was. -/
structure MergeLaws (base layer : JsonDict F) : Prop where
  again : merge (merge base layer) layer = merge base layer
  deleted : ∀ path k, (Json.dict layer).at (path ++ [k]) = some .null →
    (Json.dict (merge base layer)).at (path ++ [k]) = none
  leaves : ∀ path v, v.IsLeaf → (Json.dict layer).at path = some v →
    (Json.dict (merge base layer)).at path = some v
  untouched : ∀ path w, path ≠ [] → (Json.dict base).at path = some w → Misses layer path →
    (Json.dict (merge base layer)).at path = some w

/-- The merge laws hold exactly where every null of the layer is inside of a map of the base. -/
theorem mergeLaws_iff {base layer : JsonDict F} (hkeyed : (Json.dict layer).KeyedOnce) :
    MergeLaws base layer ↔ DeletesInside base layer := by
  constructor
  · intro h path k hnull
    rcases at_merge_null hkeyed base hnull with ⟨hsection, -⟩ | ⟨-, hleft⟩
    · exact hsection
    · rw [h.deleted path k hnull] at hleft
      cases hleft
  · intro h
    refine ⟨merge_again hkeyed h, ?_, ?_, ?_⟩
    · intro path k hnull
      rcases at_merge_null hkeyed base hnull with ⟨-, hgone⟩ | ⟨hno, -⟩
      · exact hgone
      · exact absurd (h path k hnull) hno
    · exact fun path v hleaf hv => at_merge_leaf hkeyed base hleaf hv
    · exact fun path w hne hw hmiss => at_merge_misses hkeyed hw hne hmiss

end Laws

/-! ## The layers of a run -/

section Keyed

variable {F : Type}

theorem entriesKeyedOnce_append (d e : JsonDict F) :
    Json.EntriesKeyedOnce (d ++ e) ↔ Json.EntriesKeyedOnce d ∧ Json.EntriesKeyedOnce e := by
  induction d with
  | nil => simp [Json.EntriesKeyedOnce]
  | cons entry d ih =>
      rcases entry with ⟨k, v⟩
      simp [Json.EntriesKeyedOnce, ih, and_assoc]

theorem itemsKeyedOnce_texts (texts : List String) : Json.ItemsKeyedOnce (texts.map (Json.str (F := F))) := by
  induction texts with
  | nil => simp [Json.ItemsKeyedOnce]
  | cons t texts ih => simpa [Json.ItemsKeyedOnce, Json.KeyedOnce] using ih

theorem podLabels_keyedOnce (run : RunPlan) : (Json.dict (podLabels (F := F) run)).KeyedOnce := by
  have hset : ∀ (d : JsonDict F) (k t : String), (Json.dict d).KeyedOnce →
      (Json.dict (dictSet d k (.str t))).KeyedOnce := by
    intro d k t h
    refine ⟨nodup_dictSet h.1 k _, ?_⟩
    have hentries : ∀ d : JsonDict F, Json.EntriesKeyedOnce d → Json.EntriesKeyedOnce (dictSet d k (.str t)) := by
      intro d
      induction d with
      | nil => simp [dictSet, Json.EntriesKeyedOnce, Json.KeyedOnce]
      | cons e d ih =>
          intro hd
          rw [dictSet]
          split
          · exact ⟨trivial, hd.2⟩
          · exact ⟨hd.1, ih hd.2⟩
    exact hentries d h.2
  have hfold : ∀ (labels : List (String × String)) (d : JsonDict F), (Json.dict d).KeyedOnce →
      (Json.dict (labels.foldl (fun d e => dictSet d e.1 (.str e.2)) d)).KeyedOnce := by
    intro labels
    induction labels with
    | nil => exact fun _ hd => hd
    | cons label labels ih => exact fun d hd => ih _ (hset d label.1 label.2 hd)
  refine hfold run.labels _ ⟨?_, ?_⟩
  · simp [runLabel, managedLabel]
  · simp [Json.EntriesKeyedOnce, Json.KeyedOnce]

end Keyed

section Run

variable {F : Type} [PyRuntime F]

/-- No key stands twice in the layer of a run. -/
theorem runLayer_keyedOnce {r : Recipe F} {site : Site F} {run : RunPlan} {layer : JsonDict F}
    (h : runLayer r site run = .ok layer) : (Json.dict layer).KeyedOnce := by
  rcases bind_eq_ok.mp h with ⟨topology, -, h⟩
  rcases map_eq_ok.mp h with ⟨probe, hprobe, rfl⟩
  have hgroup : (groupSettings (F := F) topology).map Prod.fst = [] ∨
      (groupSettings (F := F) topology).map Prod.fst = ["lws"] := by
    cases topology <;> simp [groupSettings]
  have haffinity : (nodeAffinity (F := F) run.allowedNodes).map Prod.fst = [] ∨
      (nodeAffinity (F := F) run.allowedNodes).map Prod.fst = ["affinity"] := by
    unfold nodeAffinity
    split <;> simp
  have hprobeKeys : probe = [] ∨ ∃ period threshold, probe =
      [("startupProbe", .dict [("periodSeconds", .int period), ("failureThreshold", .int threshold)])] := by
    unfold startupProbe at hprobe
    split at hprobe
    · exact Or.inl (Except.ok.inj hprobe).symm
    · rcases bind_eq_ok.mp hprobe with ⟨spec, -, hprobe⟩
      rcases bind_eq_ok.mp hprobe with ⟨period, -, hprobe⟩
      split at hprobe
      · cases hprobe
      · exact Or.inr ⟨period, _, (Except.ok.inj hprobe).symm⟩
  constructor
  · have hkeys : probe.map Prod.fst = [] ∨ probe.map Prod.fst = ["startupProbe"] := by
      rcases hprobeKeys with rfl | ⟨period, threshold, rfl⟩
      · exact Or.inl rfl
      · exact Or.inr rfl
    simp only [List.map_append]
    rcases hgroup with hg | hg <;> rcases haffinity with ha | ha <;> rcases hkeys with hp | hp <;>
      rw [hg, ha, hp] <;> simp [featuresOff]
  · simp only [entriesKeyedOnce_append]
    refine ⟨⟨⟨⟨?_, ?_⟩, ?_⟩, ?_⟩, ?_⟩
    · simp [Json.EntriesKeyedOnce, Json.KeyedOnce]
      exact podLabels_keyedOnce run
    · simp [featuresOff, Json.EntriesKeyedOnce, Json.KeyedOnce]
    · cases topology <;> simp [groupSettings, Json.EntriesKeyedOnce, Json.KeyedOnce]
    · unfold nodeAffinity
      split
      · simp [Json.EntriesKeyedOnce]
      · simp [Json.EntriesKeyedOnce, Json.KeyedOnce, Json.ItemsKeyedOnce, itemsKeyedOnce_texts]
    · rcases hprobeKeys with rfl | ⟨period, threshold, rfl⟩
      · simp [Json.EntriesKeyedOnce]
      · simp [Json.EntriesKeyedOnce, Json.KeyedOnce]

/-- A leaf of the run's layer is what the chart is rendered with. -/
theorem run_layer_wins {r : Recipe F} {site : Site F} {run : RunPlan} {layer : JsonDict F}
    {composed : List (String × JsonDict F)} (hrun : runLayer r site run = .ok layer)
    (h : layers r site run = .ok composed) {path : List String} {v : Json F} (hleaf : v.IsLeaf)
    (hv : (Json.dict layer).at path = some v) : (Json.dict (effectiveValues composed)).at path = some v := by
  rcases bind_eq_ok.mp h with ⟨ofSite, -, h⟩
  rcases map_eq_ok.mp h with ⟨ofRun, hofRun, rfl⟩
  rw [hrun] at hofRun
  cases hofRun
  exact at_merge_leaf (runLayer_keyedOnce hrun) _ hleaf hv

/-- Whatever the recipe and the site say, the production features are off in a run. -/
theorem production_features_off {r : Recipe F} {site : Site F} {run : RunPlan} {layer : JsonDict F}
    {composed : List (String × JsonDict F)} (hrun : runLayer r site run = .ok layer)
    (h : layers r site run = .ok composed) {feature : String} (hfeature : feature ∈ featuresOff) :
    (Json.dict (effectiveValues composed)).at [feature, "enabled"] = some (.bool false) := by
  refine run_layer_wins hrun h trivial ?_
  rcases bind_eq_ok.mp hrun with ⟨topology, -, hlayer⟩
  rcases map_eq_ok.mp hlayer with ⟨probe, -, rfl⟩
  have hin : (feature, Json.dict [("enabled", Json.bool false)]) ∈
      featuresOff.map fun feature => (feature, Json.dict [("enabled", (Json.bool false : Json F))]) :=
    List.mem_map_of_mem hfeature
  have hget := dictGet_of_mem (runLayer_keyedOnce hrun).1
    (List.mem_append_left _ (List.mem_append_left _ (List.mem_append_left _ (List.mem_append_right _ hin))))
  rw [Json.at_dict_cons, hget]
  rfl

/-- The merge laws hold exactly where every null of the layer is inside of a map of the base, and in the
composed values of a run every leaf of the run's layer wins. -/
theorem layer_merge_laws :
    (∀ base layer : JsonDict F, (Json.dict layer).KeyedOnce →
      (MergeLaws base layer ↔ DeletesInside base layer)) ∧
    ∀ (r : Recipe F) (site : Site F) (run : RunPlan) (layer : JsonDict F)
      (composed : List (String × JsonDict F)), runLayer r site run = .ok layer →
      layers r site run = .ok composed → ∀ path v, v.IsLeaf → (Json.dict layer).at path = some v →
        (Json.dict (effectiveValues composed)).at path = some v :=
  ⟨fun _ _ hkeyed => mergeLaws_iff hkeyed,
    fun _ _ _ _ _ hrun h _ _ hleaf hv => run_layer_wins hrun h hleaf hv⟩

end Run

/-- A null under a key the base does not have is copied, and only the second merge deletes it. -/
theorem null_copied :
    (Json.dict (merge [] [("resources", Json.dict [("limits", (Json.null : Json Empty))])])).at
        ["resources", "limits"] = some .null ∧
      merge (merge [] [("resources", Json.dict [("limits", (Json.null : Json Empty))])])
          [("resources", .dict [("limits", .null)])] ≠
        merge [] [("resources", .dict [("limits", .null)])] := by
  constructor
  · rfl
  · intro h
    cases h

end AutoTune
