import AutoTune.Measures.AskedAsDeclared
import AutoTune.Measures.KeyOrder

/-!
# Read alike in every order

A result is read back with its keys in another order than it landed with. A reference that names its
module reads the same then, but for a sweep with a tied peak or a level spelled twice. A reference that
names none means the first throughput module among those that reported, in the order of the keys: one
module only is to be there that it can mean, and that module is the benchmark's.
-/

namespace AutoTune

open Lib

/-- A run with its metrics in another order. -/
def Reader.reordered (run : Reader) (metrics : RawMetrics) : Reader := { run with metrics := metrics }

/-- Is it a throughput module? -/
def isThroughputEntry (m : ModuleFamilies) (e : String × RawMetrics) : Bool :=
  kindOf (familyOf m (moduleOf e.1)) ≠ .quality

/-- The modules a reference may mean: the one it names, else those of throughput, or all if there is none. -/
def candidates (m : ModuleFamilies) (ref : MeasureRef) (entries : List (String × RawMetrics)) :
    List (String × RawMetrics) :=
  match ref.scenario with
  | some wanted => entries.filter fun e => e.1 = wanted
  | none => if entries.any (isThroughputEntry m) then entries.filter (isThroughputEntry m) else entries

/-- The module a reference means. -/
def meant (m : ModuleFamilies) (ref : MeasureRef) (entries : List (String × RawMetrics)) :
    Option (String × RawMetrics) :=
  match ref.scenario with
  | some wanted => entries.find? fun e => e.1 = wanted
  | none => mainEntry m entries

/-- A reference reads the same in every order of a result's keys, means the same module, and is missing where
the benchmark's first throughput module reported nothing. -/
structure ReadAlike (settings : LlmbenchSettings) (modules : List String) (run : Reader) (name : String) : Prop where
  value : ∀ metrics, metrics.Perm run.metrics → ∀ default,
    (run.reordered metrics).get settings name default = run.get settings name default
  scenario : ∀ ref, parse name = .ok ref → ref.scenario = none → ∀ metrics, metrics.Perm run.metrics →
    (mainScenario ((run.reordered metrics).scenarios settings) none).map Scenario.key =
      (mainScenario (run.scenarios settings) none).map Scenario.key
  missing : ∀ ref, parse name = .ok ref → ref.scenario = none →
    ∀ first, (benchmarkEntries modules).find? (isThroughputEntry settings.declared) = some first →
      first.1 ∉ (splitMetrics run.metrics).map Prod.fst → ∀ default, run.get settings name default = default

/-- The modules a reference may mean in a run. -/
def Reader.candidates (settings : LlmbenchSettings) (run : Reader) (ref : MeasureRef) : List (String × RawMetrics) :=
  AutoTune.candidates settings.measured ref (splitMetrics run.metrics)

/-- No key of a level is spelled in two ways, `c1` and `c01`. -/
def SpelledOnce (settings : LlmbenchSettings) (run : Reader) (ref : MeasureRef) : Prop :=
  ∀ e ∈ run.candidates settings ref,
    familyOf settings.measured (moduleOf e.1) = "perf_guidellm_sweep" → NamedOnce levelPlace e.2

/-- A reference may mean one module only. Where that is a sweep and the peak is asked for, the levels with the
highest total agree. Where it is not the benchmark's first throughput module for that reported nothing, it
does not have the measure. -/
structure Settled (settings : LlmbenchSettings) (modules : List String) (run : Reader) (ref : MeasureRef) : Prop where
  one : ∀ a ∈ run.candidates settings ref, ∀ b ∈ run.candidates settings ref, a.1 = b.1
  tops : ∀ e ∈ run.candidates settings ref,
    familyOf settings.measured (moduleOf e.1) = "perf_guidellm_sweep" → ref.pointName = "peak" →
      TopsAgree e.2 (run.paramsOf e) (cardsOf e.2 run.cards) ref.key
  other : ref.scenario = none →
    ∀ first, (benchmarkEntries modules).find? (isThroughputEntry settings.declared) = some first →
      first.1 ∉ (splitMetrics run.metrics).map Prod.fst →
        ∀ e ∈ run.candidates settings ref, (run.scenarioOf settings e).read ref = none

section Orders

variable {settings : LlmbenchSettings} {modules : List String} {run : Reader} {metrics : RawMetrics}
  {ref : MeasureRef} {name : String}

/-! ## The modules of a run in another order -/

theorem split_keys (hperm : metrics.Perm run.metrics) (key : String) :
    key ∈ (splitMetrics metrics).map Prod.fst ↔ key ∈ (splitMetrics run.metrics).map Prod.fst := by
  have hrows : (rowsOf splitPlace key metrics).Perm (rowsOf splitPlace key run.metrics) := rowsOf_perm hperm key
  rw [splitMetrics_eq, splitMetrics_eq, mem_keys_grouped, mem_keys_grouped, ne_eq, ne_eq, not_iff_not]
  exact ⟨fun hnil => (hnil ▸ hrows).nil_eq.symm, fun hnil => (hnil ▸ hrows).eq_nil⟩

/-- The raw keys of a module, in another order. -/
theorem split_perm (hdict : (run.metrics.map Prod.fst).Nodup) (hperm : metrics.Perm run.metrics) {key : String}
    {raw raw' : RawMetrics} (hraw : (key, raw) ∈ splitMetrics run.metrics)
    (hraw' : (key, raw') ∈ splitMetrics metrics) :
    raw'.Perm raw := by
  have honce := splitMetrics_namedOnce hdict
  rw [splitMetrics_eq] at hraw hraw'
  rw [(mem_grouped.mp hraw).2, (mem_grouped.mp hraw').2, honce.assigned, (honce.perm hperm.symm).assigned]
  exact rowsOf_perm hperm key

theorem split_dict (hdict : (run.metrics.map Prod.fst).Nodup) {e : String × RawMetrics}
    (he : e ∈ splitMetrics run.metrics) : (e.2.map Prod.fst).Nodup := by
  have honce := splitMetrics_namedOnce hdict
  rw [splitMetrics_eq] at he
  rw [(mem_grouped.mp he).2, honce.assigned]
  exact honce.rows e.1

/-- Any order of a module's keys is that of some order of the result's. -/
theorem exists_reordered (hdict : (run.metrics.map Prod.fst).Nodup) {e : String × RawMetrics}
    (he : e ∈ splitMetrics run.metrics) {raw : RawMetrics} (hraw : raw.Perm e.2) :
    ∃ metrics, metrics.Perm run.metrics ∧ (e.1, raw) ∈ splitMetrics metrics := by
  have honce := splitMetrics_namedOnce hdict
  rw [splitMetrics_eq] at he
  have hmem := mem_grouped.mp he
  rw [honce.assigned] at hmem
  rw [hmem.2] at hraw
  rcases exists_rows hraw with ⟨metrics, hperm, hrows⟩
  refine ⟨metrics, hperm, ?_⟩
  rw [splitMetrics_eq]
  refine mem_grouped.mpr ⟨?_, ?_⟩
  · intro hnil
    rw [hrows] at hnil
    exact hmem.1 (hnil ▸ hraw).nil_eq.symm
  · rw [(honce.perm hperm.symm).assigned, hrows]

/-! ## What is read -/

theorem resolve_eq (hparse : parse name = .ok ref) : resolve ref (run.scenarios settings) =
    (meant settings.measured ref (splitMetrics run.metrics)).bind fun e => (run.scenarioOf settings e).read ref := by
  unfold resolve meant
  cases hscenario : ref.scenario with
  | none =>
      rw [main_of_run, Option.bind_map]
      rfl
  | some wanted =>
      have hwanted : wanted ≠ "" := by
        rintro rfl
        exact ((parsed_fields hparse).1 "" hscenario).module_ne (by decide)
      rw [Reader.scenarios_eq]
      unfold Reader.scenarioOf
      rw [mainScenario_named run.paramsOf hwanted, Option.bind_map]
      rfl

theorem get_eq (hname : isMeasureRef name = true) (hparse : parse name = .ok ref) (default : Value) :
    run.get settings name default = ((resolve ref (run.scenarios settings)).map Json.float).getD default := by
  unfold Reader.get
  rw [if_pos hname, hparse]
  dsimp only
  cases resolve ref (run.scenarios settings) <;> rfl

theorem resolve_inj {a b : Option ℚ} (h : (a.map Json.float).getD .null = (b.map Json.float).getD (.null : Value)) :
    a = b := by
  cases a <;> cases b <;> simp_all

/-- The points of a sweep's module. -/
theorem sweep_at {m : ModuleFamilies} {key : String} {raw params : RawMetrics} {cards : Option ℚ}
    (hsweep : familyOf m (moduleOf key) = "perf_guidellm_sweep") (name : String) :
    (adapt m key raw params cards).at name =
      if name = "operating" then
        put ((sweep (blankScenario m key) raw params (cardsOf raw cards)).at "operating") "score" (numberAt raw "score")
      else (sweep (blankScenario m key) raw params (cardsOf raw cards)).at name := by
  have hadapter : adaptFamily (familyOf m (moduleOf key)) (blankScenario m key) raw params (cardsOf raw cards) =
      sweep (blankScenario m key) raw params (cardsOf raw cards) := by
    unfold adaptFamily
    rw [if_pos hsweep]
  rw [adapt_at, hadapter]
  by_cases hname : name = "operating"
  · rw [if_pos hname, hname]
    exact addScore_operating (by rw [hsweep]; decide) _ _
  · rw [if_neg hname, addScore_at _ _ _ hname]

/-- A module reads the same in every order of its keys, but for the peak of a sweep. -/
theorem steady_iff {e : String × RawMetrics} (hdict : (e.2.map Prod.fst).Nodup)
    (honce : familyOf settings.measured (moduleOf e.1) = "perf_guidellm_sweep" → NamedOnce levelPlace e.2) :
    (∀ raw, raw.Perm e.2 → (run.scenarioOf settings (e.1, raw)).read ref = (run.scenarioOf settings e).read ref) ↔
      (familyOf settings.measured (moduleOf e.1) = "perf_guidellm_sweep" → ref.pointName = "peak" →
        TopsAgree e.2 (run.paramsOf e) (cardsOf e.2 run.cards) ref.key) := by
  by_cases hsweep : familyOf settings.measured (moduleOf e.1) = "perf_guidellm_sweep"
  · have hcards : ∀ raw, raw.Perm e.2 → cardsOf raw run.cards = cardsOf e.2 run.cards ∧
        numberAt raw = numberAt e.2 := by
      intro raw hperm
      have hsame := cardsFromCardNorm_perm hdict hperm.symm
      exact ⟨by unfold cardsOf; rw [hsame.1], hsame.2.symm⟩
    by_cases hpeak : ref.pointName = "peak"
    · -- the peak is that of the levels
      have hread : ∀ raw, raw.Perm e.2 → (run.scenarioOf settings (e.1, raw)).read ref =
          dictGet (((peakLevel (levelsOf raw)).map
            (levelPoint (run.paramsOf e) (cardsOf e.2 run.cards))).getD []) ref.key := by
        intro raw hperm
        rw [read_eq, hpeak]
        unfold Reader.scenarioOf
        rw [sweep_at hsweep, if_neg (by decide), sweep_peak rfl, (hcards raw hperm).1]
        rfl
      have htops : (familyOf settings.measured (moduleOf e.1) = "perf_guidellm_sweep" → ref.pointName = "peak" →
          TopsAgree e.2 (run.paramsOf e) (cardsOf e.2 run.cards) ref.key) ↔
            TopsAgree e.2 (run.paramsOf e) (cardsOf e.2 run.cards) ref.key :=
        ⟨fun h => h hsweep hpeak, fun h _ _ => h⟩
      rw [htops, ← peak_steady_iff (honce hsweep)]
      refine forall₂_congr fun raw hperm => ?_
      rw [hread raw hperm, hread e.2 (.refl _)]
    -- every other point of a sweep is looked up key by key
    · refine iff_of_true (fun raw hperm => ?_) fun _ h => absurd h hpeak
      have hat : ∀ name, name ≠ "peak" → (sweep (blankScenario settings.measured e.1) raw (run.paramsOf e)
          (cardsOf e.2 run.cards)).at name = (sweep (blankScenario settings.measured e.1) e.2 (run.paramsOf e)
            (cardsOf e.2 run.cards)).at name := fun name hname =>
        (sweep_alike hdict (honce hsweep) hperm.symm rfl hname).symm
      rw [read_eq, read_eq]
      unfold Reader.scenarioOf
      rw [sweep_at hsweep, sweep_at hsweep, (hcards raw hperm).1, (hcards raw hperm).2]
      change dictGet (if ref.pointName = "operating" then
        put ((sweep _ raw (run.paramsOf e) _).at "operating") "score" _ else (sweep _ raw (run.paramsOf e) _).at _) _ = _
      rw [hat _ hpeak, hat "operating" (by decide)]
  · refine iff_of_true (fun raw hperm => ?_) fun h => absurd h hsweep
    exact (adapt_alike hdict hperm.symm settings.measured hsweep _ _).symm

/-! ## What is meant -/

section Meant

variable {m : ModuleFamilies} {entries entries' : List (String × RawMetrics)} {e : String × RawMetrics}

theorem mem_candidates : e ∈ candidates m ref entries ↔
    e ∈ entries ∧ (∀ wanted, ref.scenario = some wanted → e.1 = wanted) ∧
      (ref.scenario = none → (∃ e' ∈ entries, isThroughputEntry m e' = true) → isThroughputEntry m e = true) := by
  unfold candidates
  cases ref.scenario with
  | some wanted => simp
  | none =>
      by_cases hany : entries.any (isThroughputEntry m) = true
      · have hexists : ∃ e' ∈ entries, isThroughputEntry m e' = true := List.any_eq_true.mp hany
        simp only [hany, if_true, List.mem_filter]
        exact ⟨fun h => ⟨h.1, by simp, fun _ _ => h.2⟩, fun h => ⟨h.1, h.2.2 trivial hexists⟩⟩
      · have hnone : ¬∃ e' ∈ entries, isThroughputEntry m e' = true := fun h => hany (List.any_eq_true.mpr h)
        simp [hany, hnone]

/-- A reference means one of the modules it may mean. -/
theorem mem_of_meant (h : meant m ref entries = some e) : e ∈ candidates m ref entries := by
  rw [mem_candidates]
  unfold meant at h
  cases hscenario : ref.scenario with
  | some wanted =>
      rw [hscenario] at h
      have hkey : e.1 = wanted := by simpa using List.find?_some h
      exact ⟨List.mem_of_find?_eq_some h, by simpa using hkey, by simp⟩
  | none =>
      rw [hscenario] at h
      refine ⟨mem_of_mainEntry h, by simp, ?_⟩
      rintro - ⟨e', he', hthroughput⟩
      have hkind := mainEntry_throughput h he' (by simpa [isThroughputEntry] using hthroughput)
      simpa [isThroughputEntry] using hkind

theorem exists_meant (h : e ∈ candidates m ref entries) : ∃ e', meant m ref entries = some e' := by
  rw [mem_candidates] at h
  refine Option.ne_none_iff_exists'.mp fun hnone => ?_
  unfold meant at hnone
  cases hscenario : ref.scenario with
  | some wanted =>
      rw [hscenario] at hnone
      exact absurd (h.2.1 wanted hscenario) (by simpa using List.find?_eq_none.mp hnone e h.1)
  | none =>
      rw [hscenario] at hnone
      have hempty : entries = [] := by simpa [mainEntry] using (Option.or_eq_none_iff.mp hnone).2
      rw [hempty] at h
      cases h.1

/-- What may be meant depends on which modules are there. -/
theorem candidates_of_keys (hkeys : ∀ key, key ∈ entries.map Prod.fst ↔ key ∈ entries'.map Prod.fst)
    (h : e ∈ candidates m ref entries) : ∃ e' ∈ candidates m ref entries', e'.1 = e.1 := by
  rw [mem_candidates] at h
  rcases List.mem_map.mp ((hkeys e.1).mp (List.mem_map_of_mem h.1)) with ⟨e', he', hkey⟩
  refine ⟨e', mem_candidates.mpr ⟨he', fun wanted hscenario => hkey.trans (h.2.1 wanted hscenario), ?_⟩, hkey⟩
  rintro hscenario ⟨other', hother', hthroughput⟩
  rcases List.mem_map.mp ((hkeys other'.1).mpr (List.mem_map_of_mem hother')) with ⟨other, hother, hsame⟩
  have htrue := h.2.2 hscenario ⟨other, hother, by simpa [isThroughputEntry, hsame] using hthroughput⟩
  simpa [isThroughputEntry, hkey] using htrue

/-- The module in front is meant when it may be. -/
theorem meant_front {rest : List (String × RawMetrics)} (h : e ∈ candidates m ref (e :: rest)) :
    meant m ref (e :: rest) = some e := by
  rw [mem_candidates] at h
  unfold meant
  cases hscenario : ref.scenario with
  | some wanted => simp [h.2.1 wanted hscenario]
  | none =>
      by_cases hthroughput : isThroughputEntry m e = true
      · have hkind : kindOf (familyOf m (moduleOf e.1)) ≠ .quality := by
          simpa [isThroughputEntry] using hthroughput
        simp [mainEntry, hkind]
      · have hnone : ∀ e' ∈ e :: rest, ¬ isThroughputEntry m e' = true := fun e' he' hin =>
          hthroughput (h.2.2 hscenario ⟨e', he', hin⟩)
        have hfind : ((e :: rest).find? fun e => kindOf (familyOf m (moduleOf e.1)) ≠ .quality) = none :=
          List.find?_eq_none.mpr fun e' he' => by simpa [isThroughputEntry] using hnone e' he'
        simp only [mainEntry, hfind, List.head?_cons, Option.none_or]

end Meant

/-- Any module a reference may mean is meant in some order. -/
theorem exists_meaning {e : String × RawMetrics} (he : e ∈ run.candidates settings ref) :
    ∃ metrics, metrics.Perm run.metrics ∧
      ∃ e', meant settings.measured ref (splitMetrics metrics) = some e' ∧ e'.1 = e.1 := by
  have hmem : (e.1, e.2) ∈ grouped splitPlace run.metrics := by
    rw [← splitMetrics_eq]
    exact (mem_candidates.mp he).1
  rcases exists_front (mem_grouped.mp hmem).1 with ⟨metrics, hperm, raw, rest, hfront⟩
  rw [← splitMetrics_eq] at hfront
  rcases candidates_of_keys (fun key => (split_keys hperm key).symm) he with ⟨e', he', hkey⟩
  rw [hfront] at he'
  have hhead : e' = (e.1, raw) := by
    have hnodup : ((splitMetrics metrics).map Prod.fst).Nodup := splitMetrics_nodup metrics
    rw [hfront, List.map_cons, List.nodup_cons] at hnodup
    rcases List.mem_cons.mp (mem_candidates.mp he').1 with hin | hin
    · exact hin
    · have hagain : e'.1 ∈ rest.map Prod.fst := List.mem_map_of_mem hin
      rw [hkey] at hagain
      exact absurd hagain hnodup.1
  rw [hhead] at he'
  exact ⟨metrics, hperm, (e.1, raw), by rw [hfront]; exact meant_front he', rfl⟩

/-! ## Read alike -/

section Alike

variable (hname : isMeasureRef name = true) (hdict : (run.metrics.map Prod.fst).Nodup) (hparse : parse name = .ok ref)
include hname hdict hparse

/-- What is settled reads the same in every order. -/
theorem read_alike_of_settled (hspelled : SpelledOnce settings run ref) (h : Settled settings modules run ref) :
    ReadAlike settings modules run name := by
  -- the module meant in another order is the one meant in this, with its keys in another order
  have hmeant : ∀ metrics, metrics.Perm run.metrics →
      ((meant settings.measured ref (splitMetrics metrics)).map Prod.fst =
        (meant settings.measured ref (splitMetrics run.metrics)).map Prod.fst) ∧
      resolve ref ((run.reordered metrics).scenarios settings) = resolve ref (run.scenarios settings) := by
    intro metrics hperm
    have hother : resolve ref ((run.reordered metrics).scenarios settings) =
        (meant settings.measured ref (splitMetrics metrics)).bind fun e => (run.scenarioOf settings e).read ref :=
      resolve_eq hparse
    have hthis : resolve ref (run.scenarios settings) =
        (meant settings.measured ref (splitMetrics run.metrics)).bind fun e => (run.scenarioOf settings e).read ref :=
      resolve_eq hparse
    have hkeys := split_keys hperm
    cases hm : meant settings.measured ref (splitMetrics run.metrics) with
    | none =>
        have hnone : meant settings.measured ref (splitMetrics metrics) = none := by
          refine Option.eq_none_iff_forall_ne_some.mpr fun e he => ?_
          rcases candidates_of_keys hkeys (mem_of_meant he) with ⟨e', he', -⟩
          rcases exists_meant he' with ⟨found, hfound⟩
          rw [hm] at hfound
          cases hfound
        rw [hnone] at hother ⊢
        rw [hm] at hthis
        exact ⟨rfl, hother.trans hthis.symm⟩
    | some e =>
        have he := mem_of_meant hm
        rcases candidates_of_keys (fun key => (hkeys key).symm) he with ⟨like, hlike, -⟩
        rcases exists_meant hlike with ⟨e', hm'⟩
        rcases candidates_of_keys hkeys (mem_of_meant hm') with ⟨back, hback, hsame⟩
        have hkey : e'.1 = e.1 := hsame.symm.trans (h.one back hback e he)
        have hraw : e'.2.Perm e.2 := by
          have hmem : (e.1, e'.2) ∈ splitMetrics metrics := by
            rw [← hkey]
            exact (mem_candidates.mp (mem_of_meant hm')).1
          exact split_perm hdict hperm (mem_candidates.mp he).1 hmem
        have hread : (run.scenarioOf settings (e.1, e'.2)).read ref = (run.scenarioOf settings e).read ref :=
          (steady_iff (split_dict hdict (mem_candidates.mp he).1) (hspelled e he)).mpr (h.tops e he) e'.2 hraw
        rw [hm'] at hother ⊢
        rw [hm] at hthis
        rw [← hkey] at hread
        exact ⟨congrArg some hkey, hother.trans (hread.trans hthis.symm)⟩
  refine ⟨?_, ?_, ?_⟩
  · intro metrics hperm default
    rw [get_eq hname hparse, get_eq hname hparse, (hmeant metrics hperm).2]
  · intro ref' hparse' hscenario metrics hperm
    cases hparse.symm.trans hparse'
    have hkeys := (hmeant metrics hperm).1
    unfold meant at hkeys
    rw [hscenario] at hkeys
    have hscenarioKey : ∀ run : Reader, (Scenario.key ∘ run.scenarioOf settings) = Prod.fst := fun run =>
      funext fun e => adapt_key_kind.1
    rw [main_of_run, main_of_run, Option.map_map, Option.map_map, hscenarioKey, hscenarioKey]
    exact hkeys
  · intro ref' hparse' hscenario first hfirst hout default
    cases hparse.symm.trans hparse'
    rw [get_eq hname hparse, resolve_eq hparse]
    cases hm : meant settings.measured ref (splitMetrics run.metrics) with
    | none => rfl
    | some e =>
        rw [Option.bind_some, h.other hscenario first hfirst hout e (mem_of_meant hm)]
        rfl

/-- What reads the same in every order is settled. -/
theorem settled_of_read_alike (hspelled : SpelledOnce settings run ref) (h : ReadAlike settings modules run name) :
    Settled settings modules run ref := by
  have hvalue : ∀ metrics, metrics.Perm run.metrics →
      resolve ref ((run.reordered metrics).scenarios settings) = resolve ref (run.scenarios settings) := by
    intro metrics hperm
    have hget := h.value metrics hperm .null
    rw [get_eq hname hparse, get_eq hname hparse] at hget
    exact resolve_inj hget
  have hone : ∀ a ∈ run.candidates settings ref, ∀ b ∈ run.candidates settings ref, a.1 = b.1 := by
    intro a ha b hb
    cases hscenario : ref.scenario with
    | some wanted =>
        exact ((mem_candidates.mp ha).2.1 wanted hscenario).trans ((mem_candidates.mp hb).2.1 wanted hscenario).symm
    | none =>
        have hkey : ∀ e ∈ run.candidates settings ref,
            (mainScenario (run.scenarios settings) none).map Scenario.key = some e.1 := by
          intro e he
          rcases exists_meaning he with ⟨metrics, hperm, e', hmeant, hkey⟩
          have hmain : mainEntry settings.measured (splitMetrics (run.reordered metrics).metrics) = some e' := by
            unfold meant at hmeant
            rw [hscenario] at hmeant
            exact hmeant
          rw [← h.scenario ref hparse hscenario metrics hperm, main_of_run, hmain, Option.map_some, Option.map_some,
            ← hkey]
          exact congrArg some adapt_key_kind.1
        exact Option.some.inj ((hkey a ha).symm.trans (hkey b hb))
  -- the one module a reference may mean is meant, with its keys in any order
  have hmeant : ∀ e ∈ run.candidates settings ref, ∀ metrics raw, metrics.Perm run.metrics →
      (e.1, raw) ∈ splitMetrics metrics → meant settings.measured ref (splitMetrics metrics) = some (e.1, raw) := by
    intro e he metrics raw hperm hraw
    rcases candidates_of_keys (fun key => (split_keys hperm key).symm) he with ⟨like, hlike, -⟩
    rcases exists_meant hlike with ⟨e', hm'⟩
    rcases candidates_of_keys (split_keys hperm) (mem_of_meant hm') with ⟨back, hback, hsame⟩
    have hkey : e'.1 = e.1 := hsame.symm.trans (hone back hback e he)
    have hmem : (e.1, e'.2) ∈ splitMetrics metrics := by
      rw [← hkey]
      exact (mem_candidates.mp (mem_of_meant hm')).1
    have hvalues := dictGet_of_mem (splitMetrics_nodup metrics) hmem
    rw [dictGet_of_mem (splitMetrics_nodup metrics) hraw] at hvalues
    rw [hm', Option.some.inj hvalues, ← hkey]
  refine ⟨hone, ?_, ?_⟩
  · intro e he
    have hin := (mem_candidates.mp he).1
    refine (steady_iff (split_dict hdict hin) (hspelled e he)).mp fun raw hraw => ?_
    rcases exists_reordered hdict hin hraw with ⟨metrics, hperm, hmem⟩
    have hsame := hvalue metrics hperm
    rw [resolve_eq hparse, resolve_eq hparse, hmeant e he run.metrics e.2 (.refl _) hin] at hsame
    change (meant settings.measured ref (splitMetrics metrics)).bind _ = _ at hsame
    rw [hmeant e he metrics raw hperm hmem] at hsame
    exact hsame
  · intro hscenario first hfirst hout e he
    have hnull := h.missing ref hparse hscenario first hfirst hout .null
    rw [get_eq hname hparse, resolve_eq hparse, hmeant e he run.metrics e.2 (.refl _) (mem_candidates.mp he).1] at hnull
    exact resolve_inj (b := none) hnull

end Alike

end Orders

/-- Where no key of a level is spelled in two ways, a reference reads the same in every order exactly when
what it means is settled. -/
theorem read_alike_iff (settings : LlmbenchSettings) (modules : List String) (run : Reader) (name : String)
    (hname : isMeasureRef name = true) (hdict : (run.metrics.map Prod.fst).Nodup)
    (hspelled : ∀ ref, parse name = .ok ref → SpelledOnce settings run ref) :
    ReadAlike settings modules run name ↔ ∀ ref, parse name = .ok ref → Settled settings modules run ref := by
  constructor
  · intro h ref hparse
    exact settled_of_read_alike hname hdict hparse (hspelled ref hparse) h
  · intro h
    cases hparse : parse name with
    | ok ref => exact read_alike_of_settled hname hdict hparse (hspelled ref hparse) (h ref hparse)
    | error e =>
        -- what is no reference reads as the default
        have hdefault : ∀ run : Reader, ∀ default, run.get settings name default = default := by
          intro run default
          unfold Reader.get
          rw [if_pos hname, hparse]
        refine ⟨fun metrics _ default => ?_, fun ref hok => ?_, fun ref hok => ?_⟩
        · rw [hdefault, hdefault]
        · rw [hparse] at hok
          cases hok
        · rw [hparse] at hok
          cases hok

/-- A result with two throughput modules, in the order it lands. -/
def twoRates : Reader := { metrics := [("perf_guidellm.output_tps", .float 50), ("replay.output_tpm", .float 4200)] }

/-- The store puts the shorter key first, and the rate is that of the other module from then on. -/
theorem read_from_another : (twoRates.metrics.map Prod.fst).Nodup ∧
    ¬ ReadAlike {} ["perf_guidellm", "replay"] twoRates "output_tpm" := by
  refine ⟨by decide, fun h => ?_⟩
  have hstored := h.value [("replay.output_tpm", .float 4200), ("perf_guidellm.output_tps", .float 50)]
    (.swap _ _ []) .null
  have hrates := congrArg number hstored
  revert hrates
  decide +kernel

/-- With one throughput module the rate is that module's in every order. -/
theorem read_alike_replay : ReadAlike {} ["replay", "opencompass"]
    { metrics := [("opencompass.mmlu", .float 80), ("replay.output_tpm", .float 4200)] } "output_tpm" := by
  have hparse : ∀ ref, parse "output_tpm" = .ok ref → ref = { measure := "output_tpm" } := by
    intro ref hok
    have hthis : parse "output_tpm" = .ok { measure := "output_tpm" } := by decide
    rw [hthis] at hok
    cases hok
    rfl
  have hone : ∀ e ∈ Reader.candidates {}
      { metrics := [("opencompass.mmlu", .float 80), ("replay.output_tpm", .float 4200)] }
      { measure := "output_tpm" }, e.1 = "replay" := by decide
  have hno : familyOf (LlmbenchSettings.measured {}) (moduleOf "replay") ≠ "perf_guidellm_sweep" := by decide
  refine (read_alike_iff {} _ _ _ (by decide) (by decide) ?_).mpr ?_
  · rintro ref hok e he hsweep
    rw [hparse ref hok] at he
    exact absurd (hone e he ▸ hsweep) hno
  · rintro ref hok
    rw [hparse ref hok]
    refine ⟨fun a ha b hb => (hone a ha).trans (hone b hb).symm, fun e he hsweep => ?_, ?_⟩
    · exact absurd (hone e he ▸ hsweep) hno
    · intro _ first hfirst hout
      have hreplay : first.1 = "replay" := by
        have hthis : ((benchmarkEntries ["replay", "opencompass"]).find?
            (isThroughputEntry (LlmbenchSettings.declared {}))).map Prod.fst = some "replay" := by decide
        rw [hfirst] at hthis
        exact Option.some.inj hthis
      rw [hreplay] at hout
      exact absurd (by decide) hout

end AutoTune
