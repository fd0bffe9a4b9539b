import AutoTune.Plugins.Load

/-!
# Plugins load after those they require

The listed plugins load exactly if each of them can be loaded by itself, all they require is listed
too, and none requires itself through others. Then they come out once each, every one behind those it
requires, and otherwise in the order they are listed in.
-/

namespace AutoTune

open Lib

/-! ## The loop over the names -/

theorem loadEntry_name {available : List (String × EntryPoint)} {name : String} {p : Plugin}
    (h : loadEntry available name = .ok p) : p.name = name := by
  unfold loadEntry at h
  cases hentry : dictGet available name with
  | none => simp [hentry] at h
  | some entry =>
      simp only [hentry] at h
      cases hloads : entry.loads with
      | raised message => simp [hloads] at h
      | other => simp [hloads] at h
      | plugin q =>
          simp only [hloads] at h
          split_ifs at h with hname
          obtain rfl : q = p := Except.ok.inj h
          exact not_not.mp hname

theorem loadNext_eq_ok {available : List (String × EntryPoint)} {plugins plugins' : List Plugin}
    {name : String} :
    loadNext available plugins name = .ok plugins' ↔
      name ∉ plugins.map Plugin.name ∧ ∃ p, loadEntry available name = .ok p ∧ plugins ++ [p] = plugins' := by
  unfold loadNext
  split_ifs with hin
  · simp [hin]
  · simp [hin, map_eq_ok]

/-- The loop returns if no name comes twice and every one can be loaded. -/
theorem foldlM_loadNext {available : List (String × EntryPoint)} {names : List String}
    {plugins plugins' : List Plugin} :
    names.foldlM (loadNext available) plugins = .ok plugins' ↔
      ∃ more, plugins' = plugins ++ more ∧ List.Forall₂ (fun n p => loadEntry available n = .ok p) names more ∧
        names.Nodup ∧ ∀ n ∈ names, n ∉ plugins.map Plugin.name := by
  induction names generalizing plugins with
  | nil =>
      constructor
      · intro h
        have h : Except.ok plugins = (Except.ok plugins' : Except PluginError (List Plugin)) := h
        exact ⟨[], by simpa using (Except.ok.inj h).symm, List.Forall₂.nil, List.nodup_nil, by simp⟩
      · rintro ⟨more, rfl, hmore, -, -⟩
        cases hmore
        simp [pure, Except.pure]
  | cons name names ih =>
      rw [List.foldlM_cons, bind_eq_ok]
      constructor
      · rintro ⟨next, hnext, hrest⟩
        obtain ⟨hfresh, p, hp, rfl⟩ := loadNext_eq_ok.mp hnext
        obtain ⟨more, rfl, hmore, hnodup, hapart⟩ := ih.mp hrest
        refine ⟨p :: more, by simp, List.Forall₂.cons hp hmore, List.nodup_cons.mpr ⟨?_, hnodup⟩, ?_⟩
        · intro hagain
          exact hapart name hagain (by simp [loadEntry_name hp])
        · intro n hn
          rcases List.mem_cons.mp hn with rfl | hn
          · exact hfresh
          · intro hlisted
            exact hapart n hn (by simp only [List.map_append, List.mem_append]; exact Or.inl hlisted)
      · rintro ⟨more, rfl, hmore, hnodup, hapart⟩
        cases hmore with
        | @cons _ p _ more hp hmore =>
            have hnew := (List.nodup_cons.mp hnodup).1
            refine ⟨plugins ++ [p], loadNext_eq_ok.mpr ⟨hapart name (by simp), p, hp, rfl⟩,
              ih.mpr ⟨more, by simp, hmore, (List.nodup_cons.mp hnodup).2, ?_⟩⟩
            intro n hn hlisted
            simp only [List.map_append, List.mem_append, List.map_cons, List.map_nil, List.mem_singleton,
              loadEntry_name hp] at hlisted
            rcases hlisted with hlisted | rfl
            · exact hapart n (by simp [hn]) hlisted
            · exact hnew hn

/-! ## Names and plugins -/

section Named

variable {available : List (String × EntryPoint)} {names : List String} {plugins : List Plugin}

theorem names_of_entries (h : List.Forall₂ (fun n p => loadEntry available n = .ok p) names plugins) :
    plugins.map Plugin.name = names := by
  induction h with
  | nil => rfl
  | cons hp _ ih => simp [loadEntry_name hp, ih]

theorem entry_of_entries (h : List.Forall₂ (fun n p => loadEntry available n = .ok p) names plugins)
    {p : Plugin} (hp : p ∈ plugins) : loadEntry available p.name = .ok p := by
  induction h with
  | nil => simp at hp
  | cons hq _ ih =>
      rcases List.mem_cons.mp hp with rfl | hp
      · simpa [loadEntry_name hq] using hq
      · exact ih hp

theorem pluginNamed_self (hnodup : (plugins.map Plugin.name).Nodup) {p : Plugin} (hp : p ∈ plugins) :
    pluginNamed plugins p.name = some p := by
  cases h : pluginNamed plugins p.name with
  | none =>
      have hno := List.find?_eq_none.mp h p hp
      simp at hno
  | some q =>
      have hq : q ∈ plugins := List.mem_of_find?_eq_some h
      have hname : q.name = p.name := by simpa using List.find?_some h
      have hqp : q = p := List.inj_on_of_nodup_map hnodup hq hp hname
      simp [hqp]

theorem requiredBy_self (hnodup : (plugins.map Plugin.name).Nodup) {p : Plugin} (hp : p ∈ plugins) :
    requiredBy plugins p.name = p.requires := by
  simp [requiredBy, pluginNamed_self hnodup hp]

/-- A list of names of plugins stands for the plugins. -/
theorem map_name_filterMap (hnodup : (plugins.map Plugin.name).Nodup) {l : List String}
    (hl : ∀ n ∈ l, n ∈ plugins.map Plugin.name) : (l.filterMap (pluginNamed plugins)).map Plugin.name = l := by
  induction l with
  | nil => rfl
  | cons n l ih =>
      obtain ⟨p, hp, rfl⟩ := List.mem_map.mp (hl n (by simp))
      simp [pluginNamed_self hnodup hp, ih fun m hm => hl m (by simp [hm])]

theorem missingOf_eq_nil {p : Plugin} :
    missingOf plugins p = [] ↔ ∀ r ∈ p.requires, r ∈ plugins.map Plugin.name := by
  simp [missingOf, List.filter_eq_nil_iff]

end Named

/-! ## Putting them in order -/

/-- Everything the plugins require is enabled. -/
def AllEnabled (plugins : List Plugin) : Prop :=
  ∀ p ∈ plugins, ∀ r ∈ p.requires, r ∈ plugins.map Plugin.name

theorem AllEnabled.closed {plugins : List Plugin} (h : AllEnabled plugins)
    (hnodup : (plugins.map Plugin.name).Nodup) :
    ∀ a ∈ plugins.map Plugin.name, ∀ b ∈ requiredBy plugins a, b ∈ plugins.map Plugin.name := by
  intro a ha b hb
  obtain ⟨p, hp, rfl⟩ := List.mem_map.mp ha
  exact h p hp b (requiredBy_self hnodup hp ▸ hb)

theorem inDependencyOrder_eq {plugins : List Plugin} (h : AllEnabled plugins) :
    inDependencyOrder plugins =
      ((dependencyOrder (requiredBy plugins) (plugins.map Plugin.name)).mapError PluginError.cycle).map
        fun l => l.filterMap (pluginNamed plugins) := by
  have hnone : (plugins.find? fun p => missingOf plugins p ≠ []) = none := by
    rw [List.find?_eq_none]
    intro p hp
    simpa using missingOf_eq_nil.mpr (h p hp)
  simp only [inDependencyOrder, hnone]

theorem inDependencyOrder_ok {plugins out : List Plugin} :
    inDependencyOrder plugins = .ok out ↔
      AllEnabled plugins ∧ ∃ l, dependencyOrder (requiredBy plugins) (plugins.map Plugin.name) = .ok l ∧
        l.filterMap (pluginNamed plugins) = out := by
  by_cases hall : AllEnabled plugins
  · rw [inDependencyOrder_eq hall, map_eq_ok]
    constructor
    · rintro ⟨l, hl, hout⟩
      refine ⟨hall, l, ?_, hout⟩
      cases horder : dependencyOrder (requiredBy plugins) (plugins.map Plugin.name) with
      | error c => simp [horder, Except.mapError] at hl
      | ok l' => simpa [horder, Except.mapError] using hl
    · rintro ⟨-, l, hl, hout⟩
      exact ⟨l, by simp [hl, Except.mapError], hout⟩
  · constructor
    · intro h
      cases hmissing : plugins.find? fun p => missingOf plugins p ≠ [] with
      | some p =>
          simp only [inDependencyOrder, hmissing] at h
          cases h
      | none =>
          refine absurd (fun p hp => ?_) hall
          have hp := List.find?_eq_none.mp hmissing p hp
          exact missingOf_eq_nil.mp (by simpa using hp)
    · rintro ⟨h, -⟩
      exact absurd h hall

/-! ## What loading gives -/

/-- `a` names a plugin that requires `b`. -/
def Requires (available : List (String × EntryPoint)) (a b : String) : Prop :=
  ∃ p, loadEntry available a = .ok p ∧ b ∈ p.requires

/-- What a list of names has to satisfy to load: each comes once and can be loaded, all that is required is
listed, and nothing requires itself. -/
structure Loadable (available : List (String × EntryPoint)) (names : List String) : Prop where
  distinct : names.Nodup
  entries : ∀ n ∈ names, ∃ p, loadEntry available n = .ok p
  enabled : ∀ n ∈ names, ∀ r, Requires available n r → r ∈ names
  acyclic : ∀ n ∈ names, ¬ Relation.TransGen (Requires available) n n

/-- The plugins of the names, each once, and each behind those it requires. -/
structure LoadedInOrder (available : List (String × EntryPoint)) (names : List String) (plugins : List Plugin) :
    Prop where
  names : (plugins.map Plugin.name).Perm names
  entries : ∀ p ∈ plugins, loadEntry available p.name = .ok p
  order : ∀ before p after, plugins = before ++ p :: after → ∀ r ∈ p.requires, r ∈ before.map Plugin.name

section Loaded

variable {available : List (String × EntryPoint)} {names : List String} {plugins : List Plugin}

theorem loadPlugins_eq_ok :
    loadPlugins available names = .ok plugins ↔
      ∃ found, List.Forall₂ (fun n p => loadEntry available n = .ok p) names found ∧ names.Nodup ∧
        inDependencyOrder found = .ok plugins := by
  unfold loadPlugins
  rw [bind_eq_ok]
  constructor
  · rintro ⟨found, hfound, horder⟩
    obtain ⟨more, heq, hmore, hnodup, -⟩ := foldlM_loadNext.mp hfound
    have heq : found = more := by simpa using heq
    exact ⟨found, heq ▸ hmore, hnodup, horder⟩
  · rintro ⟨found, hfound, hnodup, horder⟩
    exact ⟨found, foldlM_loadNext.mpr ⟨found, rfl, hfound, hnodup, by simp⟩, horder⟩

/-- The relation the walk follows is that of the entries. -/
theorem transGen_requiredBy (hfound : List.Forall₂ (fun n p => loadEntry available n = .ok p) names plugins)
    (hnodup : names.Nodup) (hall : AllEnabled plugins) {a b : String} (ha : a ∈ names) :
    Relation.TransGen (fun a b => b ∈ requiredBy plugins a) a b ↔ Relation.TransGen (Requires available) a b := by
  have hnames := names_of_entries hfound
  have hdistinct : (plugins.map Plugin.name).Nodup := hnames ▸ hnodup
  have hstep : ∀ c ∈ names, ∀ d, d ∈ requiredBy plugins c ↔ Requires available c d := by
    intro c hc d
    obtain ⟨p, hp, rfl⟩ := List.mem_map.mp (hnames ▸ hc)
    simp [requiredBy_self hdistinct hp, Requires, entry_of_entries hfound hp]
  have hclosed : ∀ c ∈ names, ∀ d, d ∈ requiredBy plugins c → d ∈ names := by
    intro c hc d hd
    exact hnames ▸ hall.closed hdistinct c (hnames ▸ hc) d hd
  constructor
  · intro h
    have hboth : Relation.TransGen (Requires available) a b ∧ b ∈ names := by
      induction h with
      | single hb => exact ⟨Relation.TransGen.single ((hstep a ha _).mp hb), hclosed a ha _ hb⟩
      | tail _ hb ih => exact ⟨Relation.TransGen.tail ih.1 ((hstep _ ih.2 _).mp hb), hclosed _ ih.2 _ hb⟩
    exact hboth.1
  · intro h
    have hboth : Relation.TransGen (fun a b => b ∈ requiredBy plugins a) a b ∧ b ∈ names := by
      induction h with
      | single hb =>
          have hb := (hstep a ha _).mpr hb
          exact ⟨Relation.TransGen.single hb, hclosed a ha _ hb⟩
      | tail _ hb ih =>
          have hb := (hstep _ ih.2 _).mpr hb
          exact ⟨Relation.TransGen.tail ih.1 hb, hclosed _ ih.2 _ hb⟩
    exact hboth.1

theorem loadable_iff_order :
    (∃ plugins, loadPlugins available names = .ok plugins) ↔ Loadable available names := by
  constructor
  · rintro ⟨plugins, h⟩
    obtain ⟨found, hfound, hnodup, horder⟩ := loadPlugins_eq_ok.mp h
    obtain ⟨hall, l, hl, -⟩ := inDependencyOrder_ok.mp horder
    have hnames := names_of_entries hfound
    have hdistinct : (found.map Plugin.name).Nodup := hnames ▸ hnodup
    refine ⟨hnodup, ?_, ?_, ?_⟩
    · intro n hn
      obtain ⟨p, hp, rfl⟩ := List.mem_map.mp (hnames ▸ hn)
      exact ⟨p, entry_of_entries hfound hp⟩
    · rintro n hn r ⟨p, hp, hr⟩
      obtain ⟨q, hq, rfl⟩ := List.mem_map.mp (hnames ▸ hn)
      obtain rfl : q = p := Except.ok.inj ((entry_of_entries hfound hq).symm.trans hp)
      exact hnames ▸ hall q hq r hr
    · intro n hn hself
      have hcycle := (transGen_requiredBy hfound hnodup hall hn).mpr hself
      exact (dependencyOrder_ok_iff (hall.closed hdistinct)).mp ⟨l, hl⟩ n (hnames ▸ hn) hcycle
  · intro h
    obtain ⟨found, hfound, -⟩ := mapM_returns (P := fun _ => True) (f := loadEntry available) (l := names)
      fun n hn => (h.entries n hn).imp fun _ hp => ⟨hp, trivial⟩
    have hfound := mapM_eq_ok.mp hfound
    have hnames := names_of_entries hfound
    have hdistinct : (found.map Plugin.name).Nodup := hnames ▸ h.distinct
    have hall : AllEnabled found := by
      intro p hp r hr
      have hn : p.name ∈ names := hnames ▸ List.mem_map_of_mem hp
      exact hnames ▸ h.enabled p.name hn r ⟨p, entry_of_entries hfound hp, hr⟩
    obtain ⟨l, hl⟩ := (dependencyOrder_ok_iff (hall.closed hdistinct)).mpr fun n hn hself =>
      h.acyclic n (hnames ▸ hn) ((transGen_requiredBy hfound h.distinct hall (hnames ▸ hn)).mp hself)
    exact ⟨_, loadPlugins_eq_ok.mpr ⟨found, hfound, h.distinct, inDependencyOrder_ok.mpr ⟨hall, l, hl, rfl⟩⟩⟩

/-- The plugins that come out are those of the names. -/
theorem loadPlugins_loaded (h : loadPlugins available names = .ok plugins) :
    LoadedInOrder available names plugins := by
  obtain ⟨found, hfound, hnodup, horder⟩ := loadPlugins_eq_ok.mp h
  obtain ⟨hall, l, hl, rfl⟩ := inDependencyOrder_ok.mp horder
  have hnames := names_of_entries hfound
  have hdistinct : (found.map Plugin.name).Nodup := hnames ▸ hnodup
  have hmem := mem_dependencyOrder (hall.closed hdistinct) hl
  obtain ⟨hin, hl'⟩ := dependencyOrder_inOrder hl
  have hback := map_name_filterMap hdistinct fun n hn => (hmem n).mp hn
  have hsource : ∀ p ∈ l.filterMap (pluginNamed found), p ∈ found := by
    intro p hp
    obtain ⟨n, -, hn⟩ := List.mem_filterMap.mp hp
    exact List.mem_of_find?_eq_some hn
  refine ⟨?_, fun p hp => entry_of_entries hfound (hsource p hp), ?_⟩
  · rw [hback, List.perm_ext_iff_of_nodup hl' hnodup]
    exact fun n => (hmem n).trans (by rw [hnames])
  · intro before p after heq r hr
    -- the same place in the list of names
    have hplace : l = before.map Plugin.name ++ p.name :: after.map Plugin.name := by
      simpa [hback] using congrArg (List.map Plugin.name) heq
    have hp : p ∈ found := hsource p (by simp [heq])
    exact hin _ _ _ hplace r (requiredBy_self hdistinct hp ▸ hr)

/-- What the result puts before a plugin was listed no later, or is required by something listed no later. -/
theorem loadPlugins_listed {earlier later : List String} {p q : String}
    (h : loadPlugins available (earlier ++ p :: later) = .ok plugins)
    (hbefore : (plugins.map Plugin.name).idxOf q < (plugins.map Plugin.name).idxOf p) :
    ∃ r ∈ earlier ++ [p], Relation.ReflTransGen (Requires available) r q := by
  obtain ⟨found, hfound, hnodup, horder⟩ := loadPlugins_eq_ok.mp h
  obtain ⟨hall, l, hl, rfl⟩ := inDependencyOrder_ok.mp horder
  have hnames := names_of_entries hfound
  have hdistinct : (found.map Plugin.name).Nodup := hnames ▸ hnodup
  have hmem := mem_dependencyOrder (hall.closed hdistinct) hl
  rw [map_name_filterMap hdistinct fun n hn => (hmem n).mp hn] at hbefore
  rw [hnames] at hl
  obtain ⟨r, hr, hreach⟩ := dependencyOrder_listed hl hbefore
  refine ⟨r, hr, ?_⟩
  rcases Relation.reflTransGen_iff_eq_or_transGen.mp hreach with heq | hreach
  · exact Relation.reflTransGen_iff_eq_or_transGen.mpr (Or.inl heq)
  · have hin : r ∈ earlier ++ p :: later := by
      rcases List.mem_append.mp hr with hr | hr
      · simp [hr]
      · simp_all
    exact Relation.reflTransGen_iff_eq_or_transGen.mpr
      (Or.inr ((transGen_requiredBy hfound hnodup hall hin).mp hreach))

/-- The checks of one name never report a cycle. -/
theorem loadNext_not_cycle {name : String} {chain : List String} :
    loadNext available plugins name ≠ .error (.cycle chain) := by
  intro h
  unfold loadNext at h
  split_ifs at h with hin
  · simp at h
  · unfold loadEntry at h
    cases hentry : dictGet available name with
    | none => simp [hentry, Except.map] at h
    | some entry =>
        simp only [hentry] at h
        cases hloads : entry.loads with
        | raised message => simp [hloads, Except.map] at h
        | other => simp [hloads, Except.map] at h
        | plugin q =>
            simp only [hloads] at h
            split_ifs at h <;> simp [Except.map] at h

theorem foldlM_loadNext_not_cycle {chain : List String} :
    names.foldlM (loadNext available) plugins ≠ .error (.cycle chain) := by
  induction names generalizing plugins with
  | nil =>
      intro h
      cases h
  | cons name names ih =>
      intro h
      rw [List.foldlM_cons] at h
      rcases bind_eq_error.mp h with hfirst | ⟨next, -, hrest⟩
      · exact loadNext_not_cycle hfirst
      · exact ih hrest

/-- A chain of listed plugins, each requiring the next, that comes back to one of its own. -/
structure CycleAmong (available : List (String × EntryPoint)) (names chain : List String) : Prop where
  requires : chain.IsChain (Requires available)
  listed : ∀ n ∈ chain, n ∈ names
  closes : ∃ before n, chain = before ++ [n] ∧ n ∈ before

/-- A cycle that is reported is one. -/
theorem loadPlugins_cycle {chain : List String} (h : loadPlugins available names = .error (.cycle chain)) :
    CycleAmong available names chain := by
  unfold loadPlugins at h
  rcases bind_eq_error.mp h with hfold | ⟨found, hfold, horder⟩
  · exact absurd hfold foldlM_loadNext_not_cycle
  obtain ⟨more, heq, hmore, hnodup, -⟩ := foldlM_loadNext.mp hfold
  have hfound : List.Forall₂ (fun n p => loadEntry available n = .ok p) names found := by
    simpa [heq] using hmore
  have hnames := names_of_entries hfound
  have hdistinct : (found.map Plugin.name).Nodup := hnames ▸ hnodup
  have hall : AllEnabled found := by
    cases hmissing : found.find? fun p => missingOf found p ≠ [] with
    | some p =>
        simp only [inDependencyOrder, hmissing] at horder
        cases horder
    | none =>
        intro p hp
        exact missingOf_eq_nil.mp (by simpa using List.find?_eq_none.mp hmissing p hp)
  rw [inDependencyOrder_eq hall] at horder
  have hcycle : dependencyOrder (requiredBy found) (found.map Plugin.name) = .error chain := by
    cases hwalk : dependencyOrder (requiredBy found) (found.map Plugin.name) with
    | ok l => simp [hwalk, Except.map, Except.mapError] at horder
    | error c => simpa [hwalk, Except.map, Except.mapError] using horder
  obtain ⟨hchain, hlisted⟩ := dependencyOrder_cycle (hall.closed hdistinct) hcycle
  refine ⟨?_, fun n hn => hnames ▸ hlisted n hn, hchain.closes⟩
  refine hchain.chain.imp_of_mem_imp fun a b ha _ hb => ?_
  obtain ⟨p, hp, rfl⟩ := List.mem_map.mp (hlisted a ha)
  exact ⟨p, entry_of_entries hfound hp, requiredBy_self hdistinct hp ▸ hb⟩

end Loaded

/-- What `load` does with a configuration: when it returns, what it returns, how far it keeps to the listed
order, and what a reported cycle is. -/
structure LoadsAsListed (available : List (String × EntryPoint)) (names : List String) : Prop where
  returns : (∃ plugins, loadPlugins available names = .ok plugins) ↔ Loadable available names
  loaded : ∀ plugins, loadPlugins available names = .ok plugins → LoadedInOrder available names plugins
  listed : ∀ plugins earlier p later q, loadPlugins available names = .ok plugins →
    names = earlier ++ p :: later →
    (plugins.map Plugin.name).idxOf q < (plugins.map Plugin.name).idxOf p →
    ∃ r ∈ earlier ++ [p], Relation.ReflTransGen (Requires available) r q
  cycle : ∀ chain, loadPlugins available names = .error (.cycle chain) → CycleAmong available names chain

/-- Plugins load exactly if they can be put in order, and then they are in order. -/
theorem loads_as_listed (available : List (String × EntryPoint)) (names : List String) :
    LoadsAsListed available names where
  returns := loadable_iff_order
  loaded := fun _ h => loadPlugins_loaded h
  listed := by
    rintro plugins earlier p later q h rfl hbefore
    exact loadPlugins_listed h hbefore
  cycle := fun _ h => loadPlugins_cycle h

/-- An installed plugin that requires others. -/
def requiring (name : String) (requires : List String) : String × EntryPoint :=
  (name, { value := name ++ ":plugin", loads := .plugin { name, apiVersion := 2, requires } })

example :
    (loadPlugins [requiring "a" ["c"], requiring "b" [], requiring "c" []] ["a", "b", "c"]).map
      (List.map Plugin.name) = .ok ["c", "a", "b"] := by decide

example :
    (loadPlugins [requiring "a" ["b"], requiring "b" ["a"]] ["a", "b"]).map (List.map Plugin.name) =
      .error (.cycle ["a", "b", "a"]) := by decide

end AutoTune
