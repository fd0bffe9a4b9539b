import AutoTune.Evaluation.Harvest
import AutoTune.Lib.JsonReading
import AutoTune.Lib.Numerals
import AutoTune.Measures.KeyOrder
import Mathlib.Data.List.TakeWhile

/-!
# Runs of one module stay apart

A run is filed under its module's name and, from the second run of the module on, its ordinal among them in
the order of the ids. What is read back under a key is what the one run of that key reported. A run that
reported no number is not read back at all.
-/

namespace AutoTune

open Lib

/-! ## What one run reports -/

/-- A value of its own: neither a group nor a series. -/
def isLeaf : Value → Bool
  | .dict _ | .list _ => false
  | _ => true

/-- The value under a path of names. -/
def valueAt : Value → List String → Option Value
  | value, [] => some value
  | .dict entries, name :: path => (dictGet entries name).bind fun value => valueAt value path
  | _, _ :: _ => none

/-- What a run's metrics hold under a path, as deep as they are flattened. -/
def ModuleRun.metricAt (run : ModuleRun) (path : List String) : Option Value :=
  if path.length ≤ maxMetricDepth + 1 then (valueAt (.dict run.metricsJson) path).filter isLeaf else none

/-- Further names behind a prefix. -/
def below (pre : String) (path : List String) : String := path.foldl (fun s name => s ++ "." ++ name) pre

/-- The name of a path. -/
def dotted : List String → String
  | [] => ""
  | name :: path => below name path

/-- The leaves of a value, `depth` levels deep. -/
def leafPaths : Nat → Value → List (List String × Value)
  | depth + 1, .dict entries => entries.flatMap fun e => (leafPaths depth e.2).map fun p => (e.1 :: p.1, p.2)
  | 0, .dict _ => []
  | _, .list _ => []
  | _, value => [([], value)]

/-- What a run files, in order: its score, then its metrics. -/
def ModuleRun.writes (run : ModuleRun) : RawMetrics :=
  moduleScore run ++ (leafPaths (maxMetricDepth + 1) (.dict run.metricsJson)).map fun p => (dotted p.1, p.2)

/-- The numbers a run is read by. -/
def ModuleRun.numbers (run : ModuleRun) : RawMetrics := assigned run.writes

/-! ## What a submission is to hold -/

/-- The key of a module's `nth` run. -/
def ordinalKey (name : String) (nth : Nat) : String := if nth = 1 then name else name ++ "#" ++ toString nth

/-- Runs with distinct ids, and names that no separator stands in. -/
structure LlmbenchSubmission.Named (submission : LlmbenchSubmission) : Prop where
  ids : ∀ run ∈ submission.runs, run.id.isSome
  distinct : (submission.runs.map ModuleRun.id).Nodup
  names : ∀ run ∈ submission.runs, hasChar run.name '#' = false ∧ hasChar run.name '.' = false
  keyedOnce : ∀ run ∈ submission.runs, (Json.dict run.metricsJson).KeyedOnce
  metrics : ∀ run ∈ submission.runs, ∀ path value, valueAt (.dict run.metricsJson) path = some value →
    ∀ name ∈ path, hasChar name '.' = false

/-- The runs of a module before one of them. -/
def earlierRuns (runs : List ModuleRun) (run : ModuleRun) : List ModuleRun :=
  runs.filter fun other => other.name = run.name ∧ other.id.getD 0 < run.id.getD 0

/-- The run has something to read back. -/
def ModuleRun.Reported (run : ModuleRun) : Prop :=
  (asNumber run.score).isSome ∨ ∃ path, (run.metricAt path).isSome

/-- No two runs mix: every run that reported something is read back as one scenario, under its ordinal, with its
own numbers and params, whatever the order of the list. -/
structure RunsApart (settings : LlmbenchSettings) (submission : LlmbenchSubmission) (cards : Option ℚ) : Prop where
  scenarios : measuresOf settings.measured (flattenMetrics submission) (moduleReports submission) cards =
    ((keyedRuns submission).filter fun e => !e.2.numbers.isEmpty).map fun e =>
      adapt settings.measured e.1 e.2.numbers (frozenParams e.2.paramsJson) cards
  once : ((keyedRuns submission).map Prod.fst).Nodup
  keyed : ∀ key run, (key, run) ∈ keyedRuns submission ↔
    run ∈ submission.runs ∧ key = ordinalKey run.name ((earlierRuns submission.runs run).length + 1)
  numbers : ∀ run ∈ submission.runs, ∀ key value, dictGet run.numbers key = some value ↔
    (∃ path, dotted path = key ∧ run.metricAt path = some value) ∨
      ((∀ path, dotted path = key → run.metricAt path = none) ∧ dictGet (moduleScore run) key = some value)
  reported : ∀ run ∈ submission.runs, run.numbers ≠ [] ↔ run.Reported
  order : ∀ runs, runs.Perm submission.runs →
    flattenMetrics { submission with runs := runs } = flattenMetrics submission ∧
      moduleReports { submission with runs := runs } = moduleReports submission
  declared : (keyedRuns submission).map Prod.fst = instanceKeys ((idOrder submission.runs).map ModuleRun.name)

/-! ## Ordinals -/

section Ordinals

variable {seen : List (String × Nat)}

theorem instanceKeysFrom_length (seen : List (String × Nat)) (names : List String) :
    (instanceKeysFrom seen names).length = names.length := by
  induction names generalizing seen with
  | nil => rfl
  | cons name names ih => simp [instanceKeysFrom, ih]

/-- Each key is the ordinal of a later run than those that were seen. -/
theorem mem_instanceKeysFrom {names : List String} {key : String} (h : key ∈ instanceKeysFrom seen names) :
    ∃ name ∈ names, ∃ nth, (dictGet seen name).getD 0 < nth ∧ key = ordinalKey name nth := by
  induction names generalizing seen with
  | nil => cases h
  | cons name names ih =>
      rcases List.mem_cons.mp h with rfl | h
      · exact ⟨name, List.mem_cons_self, (dictGet seen name).getD 0 + 1, Nat.lt_succ_self _, rfl⟩
      · rcases ih h with ⟨other, hother, nth, hlt, hkey⟩
        refine ⟨other, List.mem_cons_of_mem _ hother, nth, ?_, hkey⟩
        rw [dictGet_set] at hlt
        split at hlt
        · rename_i hsame
          subst hsame
          exact Nat.lt_of_succ_lt hlt
        · exact hlt

theorem ordinalKey_takeWhile {name : String} (hname : hasChar name '#' = false) (nth : Nat) :
    (ordinalKey name nth).toList.takeWhile (fun c => c != '#') = name.toList := by
  have hplain : ∀ c ∈ name.toList, (c != '#') = true := by
    intro c hc
    rw [bne_iff_ne]
    rintro rfl
    simp [hasChar, hc] at hname
  unfold ordinalKey
  split
  · exact List.takeWhile_eq_self_iff.mpr hplain
  · have hsep : (name ++ "#" ++ toString nth).toList = name.toList ++ '#' :: (toString nth).toList := by simp
    rw [hsep, List.takeWhile_append_of_pos hplain]
    simp

/-- An ordinal is read off its key. -/
theorem ordinalKey_inj {name name' : String} (hname : hasChar name '#' = false) (hname' : hasChar name' '#' = false)
    {nth nth' : Nat} (h : ordinalKey name nth = ordinalKey name' nth') : name = name' ∧ nth = nth' := by
  have hsame : name = name' := by
    refine String.toList_injective ?_
    rw [← ordinalKey_takeWhile hname nth, h, ordinalKey_takeWhile hname' nth']
  subst hsame
  refine ⟨rfl, ?_⟩
  have hlength : ∀ n : Nat, (name ++ "#" ++ toString n).toList ≠ name.toList := by
    intro n heq
    have hlen := congrArg List.length heq
    simp at hlen
  unfold ordinalKey at h
  split at h
  · rename_i hone
    split at h
    · rename_i hone'
      rw [hone, hone']
    · exact absurd (congrArg String.toList h.symm) (hlength nth')
  · split at h
    · exact absurd (congrArg String.toList h) (hlength nth)
    · have htext : toString nth = toString nth' := by
        refine String.toList_injective ?_
        have hlist := congrArg String.toList h
        simpa using hlist
      exact toString_nat_injective htext

theorem instanceKeysFrom_nodup {names : List String} (hnames : ∀ name ∈ names, hasChar name '#' = false) :
    (instanceKeysFrom seen names).Nodup := by
  induction names generalizing seen with
  | nil => exact List.nodup_nil
  | cons name names ih =>
      have hlater : ∀ other ∈ names, hasChar other '#' = false := fun other hother =>
        hnames other (List.mem_cons_of_mem _ hother)
      refine List.nodup_cons.mpr ⟨fun hmem => ?_, ih hlater⟩
      rcases mem_instanceKeysFrom hmem with ⟨other, hother, nth, hlt, hkey⟩
      have hsame := ordinalKey_inj (hnames name List.mem_cons_self) (hlater other hother) hkey
      rw [← hsame.1, ← hsame.2, dictGet_set, if_pos rfl] at hlt
      exact absurd hlt (Nat.lt_irrefl _)

/-- A run's key is its ordinal among the runs of its module that stand before it. -/
theorem mem_zip_instanceKeysFrom {runs : List ModuleRun} {key : String} {run : ModuleRun} :
    (key, run) ∈ (instanceKeysFrom seen (runs.map ModuleRun.name)).zip runs ↔
      ∃ before after, runs = before ++ run :: after ∧
        key = ordinalKey run.name
          ((dictGet seen run.name).getD 0 + (before.filter fun r => r.name = run.name).length + 1) := by
  induction runs generalizing seen with
  | nil => simp [instanceKeysFrom]
  | cons first runs ih =>
      -- the first run takes the next number of its name and leaves it counted
      have hzip : (key, run) ∈ (instanceKeysFrom seen ((first :: runs).map ModuleRun.name)).zip (first :: runs) ↔
          (key = ordinalKey first.name ((dictGet seen first.name).getD 0 + 1) ∧ run = first) ∨
            (key, run) ∈ (instanceKeysFrom (dictSet seen first.name ((dictGet seen first.name).getD 0 + 1))
              (runs.map ModuleRun.name)).zip runs := by
        simp [instanceKeysFrom, ordinalKey]
      rw [hzip, ih]
      constructor
      · rintro (⟨rfl, rfl⟩ | ⟨before, after, rfl, rfl⟩)
        · exact ⟨[], runs, rfl, by simp⟩
        · refine ⟨first :: before, after, rfl, ?_⟩
          rw [dictGet_set]
          -- the first run counts only for those of its name
          by_cases hname : run.name = first.name
          · simp [hname]
            congr 1
            omega
          · simp [hname, Ne.symm hname]
      · rintro ⟨before, after, hsplit, rfl⟩
        cases before with
        | nil =>
            cases hsplit
            exact Or.inl ⟨by simp, rfl⟩
        | cons _ before =>
            cases hsplit
            refine Or.inr ⟨before, after, rfl, ?_⟩
            rw [dictGet_set]
            by_cases hname : run.name = first.name
            · simp [hname]
              congr 1
              omega
            · simp [hname, Ne.symm hname]

end Ordinals

/-! ## The order of the ids -/

section Sorted

variable {runs : List ModuleRun}

theorem idOrder_eq (hids : ∀ run ∈ runs, run.id.isSome) :
    idOrder runs = runs.insertionSort fun a b => a.id.getD 0 ≤ b.id.getD 0 := by
  have hall : (runs.all fun run => run.id.isSome) = true := List.all_eq_true.mpr hids
  simp [idOrder, hall]

theorem idOrder_perm (hids : ∀ run ∈ runs, run.id.isSome) : (idOrder runs).Perm runs := by
  rw [idOrder_eq hids]
  exact List.perm_insertionSort _ _

theorem id_inj (hids : ∀ run ∈ runs, run.id.isSome) (hdistinct : (runs.map ModuleRun.id).Nodup) {a b : ModuleRun}
    (ha : a ∈ runs) (hb : b ∈ runs) (h : a.id.getD 0 = b.id.getD 0) : a = b := by
  rcases Option.isSome_iff_exists.mp (hids a ha) with ⟨i, hi⟩
  rcases Option.isSome_iff_exists.mp (hids b hb) with ⟨j, hj⟩
  refine List.inj_on_of_nodup_map hdistinct ha hb ?_
  rw [hi, hj] at h ⊢
  exact congrArg some h

/-- Ids ascend. -/
theorem idOrder_pairwise (hids : ∀ run ∈ runs, run.id.isSome) (hdistinct : (runs.map ModuleRun.id).Nodup) :
    (idOrder runs).Pairwise fun a b => a.id.getD 0 < b.id.getD 0 := by
  have hle : (idOrder runs).Pairwise fun a b => a.id.getD 0 ≤ b.id.getD 0 := by
    rw [idOrder_eq hids]
    have : IsTrans ModuleRun fun a b => a.id.getD 0 ≤ b.id.getD 0 := ⟨fun _ _ _ h h' => le_trans h h'⟩
    have : Std.Total fun a b : ModuleRun => a.id.getD 0 ≤ b.id.getD 0 := ⟨fun a b => le_total _ _⟩
    exact List.pairwise_insertionSort _ _
  have hnodup : (idOrder runs).Nodup := (idOrder_perm hids).nodup_iff.mpr hdistinct.of_map
  refine (hle.and hnodup).imp_of_mem fun {a b} ha hb hab => ?_
  refine lt_of_le_of_ne hab.1 fun heq => hab.2 ?_
  exact id_inj hids hdistinct ((idOrder_perm hids).mem_iff.mp ha) ((idOrder_perm hids).mem_iff.mp hb) heq

/-- The order of the list is nothing to the order of the ids. -/
theorem idOrder_congr {runs' : List ModuleRun} (hids : ∀ run ∈ runs, run.id.isSome)
    (hdistinct : (runs.map ModuleRun.id).Nodup) (h : runs'.Perm runs) : idOrder runs' = idOrder runs := by
  have hids' : ∀ run ∈ runs', run.id.isSome := fun run hrun => hids run (h.mem_iff.mp hrun)
  have hdistinct' : (runs'.map ModuleRun.id).Nodup := (h.map _).nodup_iff.mpr hdistinct
  have hperm : (idOrder runs').Perm (idOrder runs) :=
    (idOrder_perm hids').trans (h.trans (idOrder_perm hids).symm)
  refine hperm.eq_of_pairwise ?_ (idOrder_pairwise hids' hdistinct') (idOrder_pairwise hids hdistinct)
  intro a b _ _ hab hba
  exact absurd hab (not_lt.mpr hba.le)

/-- The runs of a module that stand before one of them have the smaller ids. -/
theorem earlier_of_split (hids : ∀ run ∈ runs, run.id.isSome) (hdistinct : (runs.map ModuleRun.id).Nodup)
    {before after : List ModuleRun} {run : ModuleRun} (h : idOrder runs = before ++ run :: after) :
    (before.filter fun r => r.name = run.name).length = (earlierRuns runs run).length := by
  have hsorted := idOrder_pairwise hids hdistinct
  rw [h, List.pairwise_append] at hsorted
  have hlt : ∀ r ∈ before, r.id.getD 0 < run.id.getD 0 := fun r hr => hsorted.2.2 r hr run List.mem_cons_self
  have hge : ∀ r ∈ run :: after, ¬ r.id.getD 0 < run.id.getD 0 := by
    intro r hr
    rcases List.mem_cons.mp hr with rfl | hr
    · exact lt_irrefl _
    · exact not_lt.mpr ((List.pairwise_cons.mp hsorted.2.1).1 r hr).le
  have hperm : (earlierRuns (idOrder runs) run).Perm (earlierRuns runs run) := (idOrder_perm hids).filter _
  rw [← hperm.length_eq, h]
  unfold earlierRuns
  rw [List.filter_append]
  have hbefore : (before.filter fun r => r.name = run.name) =
      before.filter fun r => r.name = run.name ∧ r.id.getD 0 < run.id.getD 0 :=
    List.filter_congr fun r hr => by simp [hlt r hr]
  have hafter : ((run :: after).filter fun r => r.name = run.name ∧ r.id.getD 0 < run.id.getD 0) = [] :=
    List.filter_eq_nil_iff.mpr fun r hr => by simpa using fun _ => not_lt.mp (hge r hr)
  rw [hbefore, hafter, List.append_nil]

theorem mem_keyedRuns {submission : LlmbenchSubmission} (h : submission.Named) {key : String} {run : ModuleRun} :
    (key, run) ∈ keyedRuns submission ↔
      run ∈ submission.runs ∧ key = ordinalKey run.name ((earlierRuns submission.runs run).length + 1) := by
  unfold keyedRuns instanceKeys
  dsimp only
  rw [mem_zip_instanceKeysFrom]
  constructor
  · rintro ⟨before, after, hsplit, rfl⟩
    refine ⟨(idOrder_perm h.ids).mem_iff.mp (by rw [hsplit]; simp), ?_⟩
    rw [earlier_of_split h.ids h.distinct hsplit]
    simp
  · rintro ⟨hrun, rfl⟩
    rcases List.append_of_mem ((idOrder_perm h.ids).mem_iff.mpr hrun) with ⟨before, after, hsplit⟩
    refine ⟨before, after, hsplit, ?_⟩
    rw [earlier_of_split h.ids h.distinct hsplit]
    simp

theorem keyedRuns_keys (submission : LlmbenchSubmission) :
    (keyedRuns submission).map Prod.fst = instanceKeys ((idOrder submission.runs).map ModuleRun.name) := by
  refine List.map_fst_zip ?_
  rw [instanceKeys, instanceKeysFrom_length, List.length_map]

theorem keyedRuns_nodup {submission : LlmbenchSubmission} (h : submission.Named) :
    ((keyedRuns submission).map Prod.fst).Nodup := by
  rw [keyedRuns_keys]
  refine instanceKeysFrom_nodup fun name hname => ?_
  rcases List.mem_map.mp hname with ⟨run, hrun, rfl⟩
  exact (h.names run ((idOrder_perm h.ids).mem_iff.mp hrun)).1

end Sorted

/-! ## What is filed -/

section Filed

theorem below_append (s pre : String) (path : List String) : below (s ++ pre) path = s ++ below pre path := by
  unfold below
  induction path generalizing pre with
  | nil => rfl
  | cons name path ih =>
      rw [List.foldl_cons, List.foldl_cons, ← ih]
      simp [String.append_assoc]

/-- Flattening files the leaves of a value. -/
theorem flattenInto_eq (depth : Nat) (target : RawMetrics) (pre : String) (value : Value) :
    flattenInto depth target pre value =
      (leafPaths depth value).foldl (fun target p => dictSet target (below pre p.1) p.2) target := by
  induction depth generalizing target pre value with
  | zero => cases value <;> rfl
  | succ depth ih =>
      cases value with
      | dict entries =>
          simp only [flattenInto, leafPaths, List.foldl_flatMap, List.foldl_map]
          refine congrArg (fun f => List.foldl f target entries) (funext₂ fun target e => ?_)
          exact ih target (pre ++ "." ++ e.1) e.2
      | _ => rfl

/-- A run files its score and its leaves under its key. -/
theorem flattenRun_eq (metrics : RawMetrics) (key : String) (run : ModuleRun) : flattenRun metrics key run =
    (run.writes.map fun w => (key ++ "." ++ w.1, w.2)).foldl (fun d e => dictSet d e.1 e.2) metrics := by
  have hleaves : leafPaths (maxMetricDepth + 1) (.dict run.metricsJson) =
      run.metricsJson.flatMap fun e => (leafPaths maxMetricDepth e.2).map fun p => (e.1 :: p.1, p.2) := rfl
  unfold flattenRun ModuleRun.writes
  rw [hleaves]
  simp only [List.map_append, List.foldl_append, List.map_map, List.foldl_map, List.map_flatMap, List.foldl_flatMap]
  refine congrArg (fun f => List.foldl f _ run.metricsJson) (funext₂ fun target e => ?_)
  rw [flattenInto_eq]
  refine congrArg (fun f => List.foldl f target _) (funext₂ fun target p => ?_)
  change _ = dictSet target (key ++ "." ++ below e.1 p.1) p.2
  rw [below_append]

theorem flattenMetrics_eq (submission : LlmbenchSubmission) : flattenMetrics submission =
    assigned ((if isNone submission.scoreTotal then [] else [("score_total", submission.scoreTotal)]) ++
      ((keyedRuns submission).map fun e => (e.1, e.2.writes)).flatMap fun b =>
        b.2.map fun w => (b.1 ++ "." ++ w.1, w.2)) := by
  have hstart : (if isNone submission.scoreTotal then [] else [("score_total", submission.scoreTotal)]) =
      assigned (if isNone submission.scoreTotal then [] else [("score_total", submission.scoreTotal)]) := by
    split <;> rfl
  unfold flattenMetrics
  conv_lhs => rw [hstart]
  unfold assigned
  rw [List.foldl_append, List.foldl_flatMap, List.foldl_map]
  refine congrArg (fun f => List.foldl f _ (keyedRuns submission)) (funext₂ fun metrics e => ?_)
  rw [flattenRun_eq]

theorem ordinalKey_noDot {name : String} (hname : hasChar name '.' = false) (nth : Nat) :
    ∀ c ∈ (ordinalKey name nth).toList, (c != '.') = true := by
  have hplain : ∀ c ∈ name.toList, (c != '.') = true := by
    intro c hc
    rw [bne_iff_ne]
    rintro rfl
    simp [hasChar, hc] at hname
  unfold ordinalKey
  split
  · exact hplain
  · intro c hc
    have hsplit : c ∈ name.toList ∨ c = '#' ∨ c ∈ (toString nth).toList := by
      simpa [or_assoc] using hc
    rcases hsplit with hin | rfl | hin
    · exact hplain c hin
    · decide
    · rw [bne_iff_ne]
      rintro rfl
      exact absurd (natText_digits nth _ hin) (by decide)

/-- A key of a run is filed back under the run. -/
theorem splitPlace_join {key : String} (hkey : ∀ c ∈ key.toList, (c != '.') = true) (rest : String) (v : Value) :
    splitPlace (key ++ "." ++ rest, v) = some (key, rest, v) := by
  have hlist : (key ++ "." ++ rest).toList = key.toList ++ '.' :: rest.toList := by simp
  have hdot : hasChar (key ++ "." ++ rest) '.' = true := by simp [hasChar]
  have htop : key ++ "." ++ rest ∉ submissionKeys := by
    intro hmem
    have heq : key ++ "." ++ rest = "score_total" := by simpa [submissionKeys] using hmem
    rw [heq] at hdot
    exact absurd hdot (by decide)
  have hpartition : partitionAt '.' (key ++ "." ++ rest) = (key, rest) := by
    unfold partitionAt
    rw [hlist, List.takeWhile_append_of_pos hkey, List.dropWhile_append_of_pos hkey]
    simp
  unfold splitPlace
  rw [if_neg (by simp [htop, hdot]), hpartition]

theorem keyedRuns_noDot {submission : LlmbenchSubmission} (h : submission.Named) {e : String × ModuleRun}
    (he : e ∈ keyedRuns submission) : ∀ c ∈ e.1.toList, (c != '.') = true := by
  rcases (mem_keyedRuns h).mp he with ⟨hrun, hkey⟩
  rw [hkey]
  exact ordinalKey_noDot (h.names e.2 hrun).2 _

/-- What a submission files comes back run by run. -/
theorem splitMetrics_flatten {submission : LlmbenchSubmission} (h : submission.Named) :
    splitMetrics (flattenMetrics submission) =
      ((keyedRuns submission).filter fun e => !e.2.numbers.isEmpty).map fun e => (e.1, e.2.numbers) := by
  have hstart : ∀ e ∈ (if isNone submission.scoreTotal then [] else [("score_total", submission.scoreTotal)]),
      splitPlace e = none := by
    intro e he
    split at he
    · cases he
    · rw [List.mem_singleton.mp he]
      exact if_pos (Or.inl (List.mem_singleton.mpr rfl))
  have hempty : ∀ run : ModuleRun, run.numbers.isEmpty = run.writes.isEmpty := fun run =>
    Bool.eq_iff_iff.mpr (by simpa [ModuleRun.numbers] using assigned_eq_nil)
  have hjoin : ∀ b ∈ (keyedRuns submission).map fun e => (e.1, e.2.writes), ∀ (rest : String) (v : Value),
      splitPlace ((fun key rest => key ++ "." ++ rest) b.1 rest, v) = some (b.1, rest, v) := by
    intro b hb rest v
    rcases List.mem_map.mp hb with ⟨e, he, rfl⟩
    exact splitPlace_join (keyedRuns_noDot h he) rest v
  have hkeys : (((keyedRuns submission).map fun e => (e.1, e.2.writes)).map Prod.fst).Nodup := by
    simpa [List.map_map, Function.comp_def] using keyedRuns_nodup h
  have hback := grouped_blocks (fun key rest => key ++ "." ++ rest) hstart hjoin hkeys
  rw [splitMetrics_eq, flattenMetrics_eq, hback]
  simp only [List.filter_map, List.map_map, Function.comp_def, hempty]
  rfl

/-- The reports give each run's params under its key. -/
theorem paramsByKey_reports {submission : LlmbenchSubmission} (h : submission.Named) {e : String × ModuleRun}
    (he : e ∈ keyedRuns submission) :
    dictGet (paramsByKey (moduleReports submission)) e.1 = some (frozenParams e.2.paramsJson) := by
  have hreport : ∀ e ∈ keyedRuns submission, reportKey (moduleReport e.1 e.2) = e.1 ∧
      reportParams (moduleReport e.1 e.2) = frozenParams e.2.paramsJson := by
    intro e he
    refine ⟨?_, rfl⟩
    by_cases hempty : e.1 = ""
    · -- only a module without a name has no key
      have hname : e.2.name = "" := by
        rw [((mem_keyedRuns h).mp he).2] at hempty
        unfold ordinalKey at hempty
        split at hempty
        · exact hempty
        · simp at hempty
      simp [reportKey, moduleReport, dictGet_cons, Option.filter_some, Json.truthy, hempty, hname]
    · simp [reportKey, moduleReport, dictGet_cons, Option.filter_some, Json.truthy, hempty, Json.text]
  have hassigned : paramsByKey (moduleReports submission) =
      assigned ((keyedRuns submission).map fun e => (e.1, frozenParams e.2.paramsJson)) := by
    unfold paramsByKey moduleReports assigned
    rw [List.foldl_map, List.foldl_map]
    refine List.foldl_ext _ _ _ fun out e he => ?_
    rw [(hreport e he).1, (hreport e he).2]
  have hkeys : (((keyedRuns submission).map fun e => (e.1, frozenParams e.2.paramsJson)).map Prod.fst).Nodup := by
    simpa [List.map_map, Function.comp_def] using keyedRuns_nodup h
  have hwhole := assigned_of_nodup hkeys
  rw [hassigned, hwhole]
  exact dictGet_of_mem hkeys (List.mem_map.mpr ⟨e, he, rfl⟩)

end Filed

/-! ## What is read back -/

section ReadBack

/-- A leaf is the one leaf of itself. -/
theorem leafPaths_leaf {value : Value} (h : isLeaf value = true) (depth : Nat) :
    leafPaths depth value = [([], value)] := by
  cases value with
  | list => cases h
  | dict => cases h
  | _ => cases depth <;> rfl

theorem nil_mem_leafPaths {depth : Nat} {value leaf : Value} :
    ([], leaf) ∈ leafPaths depth value ↔ value = leaf ∧ isLeaf leaf = true := by
  cases hleaf : isLeaf value with
  | true =>
      rw [leafPaths_leaf hleaf]
      constructor
      · intro hmem
        have heq : leaf = value := by simpa using hmem
        exact ⟨heq.symm, heq ▸ hleaf⟩
      · rintro ⟨rfl, -⟩
        exact List.mem_singleton_self _
  | false =>
      have hgroup : ([], leaf) ∉ leafPaths depth value := by
        cases value with
        | list => cases depth <;> exact List.not_mem_nil
        | dict entries => cases depth <;> simp [leafPaths]
        | _ => cases hleaf
      refine iff_of_false hgroup ?_
      rintro ⟨rfl, htrue⟩
      rw [hleaf] at htrue
      cases htrue

/-- The leaves of a value are what stands under its paths. -/
theorem mem_leafPaths {depth : Nat} {value leaf : Value} {path : List String} (h : value.KeyedOnce) :
    (path, leaf) ∈ leafPaths depth value ↔
      path.length ≤ depth ∧ valueAt value path = some leaf ∧ isLeaf leaf = true := by
  induction path generalizing depth value with
  | nil =>
      rw [nil_mem_leafPaths]
      simp [valueAt]
  | cons name path ih =>
      -- what is no dictionary has nothing below it
      have hnone : isLeaf value = true ∨ (∃ items, value = .list items) →
          (name :: path, leaf) ∉ leafPaths depth value ∧ valueAt value (name :: path) = none := by
        rintro (hleaf | ⟨items, rfl⟩)
        · refine ⟨by simp [leafPaths_leaf hleaf], ?_⟩
          cases value with
          | dict => cases hleaf
          | _ => rfl
        · refine ⟨?_, rfl⟩
          cases depth <;> exact List.not_mem_nil
      cases value with
      | dict entries =>
          cases depth with
          | zero => simp [leafPaths]
          | succ depth =>
              have hmem : (name :: path, leaf) ∈ leafPaths (depth + 1) (.dict entries) ↔
                  ∃ v, (name, v) ∈ entries ∧ (path, leaf) ∈ leafPaths depth v := by
                simp only [leafPaths, List.mem_flatMap, List.mem_map]
                constructor
                · rintro ⟨e, he, p, hp, heq⟩
                  cases heq
                  exact ⟨e.2, he, hp⟩
                · rintro ⟨v, hv, hp⟩
                  exact ⟨(name, v), hv, (path, leaf), hp, rfl⟩
              -- each key is there once, so an entry is what looking it up finds
              have hget : ∀ v, (name, v) ∈ entries ↔ dictGet entries name = some v := fun v =>
                ⟨dictGet_of_mem h.1, mem_of_dictGet⟩
              rw [hmem]
              simp only [hget, valueAt, List.length_cons, Nat.add_le_add_iff_right]
              constructor
              · rintro ⟨v, hv, hp⟩
                rw [hv, Option.bind_some]
                exact (ih (h.get hv)).mp hp
              · rintro ⟨hlength, hvalue, hleaf⟩
                rcases Option.bind_eq_some_iff.mp hvalue with ⟨v, hv, hat⟩
                exact ⟨v, hv, (ih (h.get hv)).mpr ⟨hlength, hat, hleaf⟩⟩
      | list items =>
          rcases hnone (Or.inr ⟨items, rfl⟩) with ⟨hout, hat⟩
          simp [hout, hat]
      | _ =>
          rcases hnone (Or.inl rfl) with ⟨hout, hat⟩
          simp [hout, hat]

theorem below_toList (pre : String) (path : List String) :
    (below pre path).toList = pre.toList ++ path.flatMap fun name => '.' :: name.toList := by
  unfold below
  induction path generalizing pre with
  | nil => simp
  | cons name path ih => simp [ih]

/-- Names without a dot are read off the name of their path. -/
theorem dotted_inj {path path' : List String} (hne : path ≠ []) (hne' : path' ≠ [])
    (hpath : ∀ name ∈ path, hasChar name '.' = false) (hpath' : ∀ name ∈ path', hasChar name '.' = false)
    (h : dotted path = dotted path') : path = path' := by
  -- the name up to the first dot is the first name of the path
  have htake : ∀ (name : String) (path : List String), hasChar name '.' = false →
      ((below name path).toList.takeWhile fun c => c != '.') = name.toList := by
    intro name path hname
    have hplain : ∀ c ∈ name.toList, (c != '.') = true := by
      intro c hc
      rw [bne_iff_ne]
      rintro rfl
      simp [hasChar, hc] at hname
    rw [below_toList, List.takeWhile_append_of_pos hplain]
    cases path <;> simp
  induction path generalizing path' with
  | nil => exact absurd rfl hne
  | cons name path ih =>
      cases path' with
      | nil => exact absurd rfl hne'
      | cons name' path' =>
          have hsame : name = name' := by
            refine String.toList_injective ?_
            rw [← htake name path (hpath name List.mem_cons_self),
              ← htake name' path' (hpath' name' List.mem_cons_self)]
            exact congrArg (fun s : String => s.toList.takeWhile fun c => c != '.') h
          subst hsame
          have hrest : (path.flatMap fun name => '.' :: name.toList) =
              path'.flatMap fun name => '.' :: name.toList := by
            have hlist := congrArg String.toList h
            change (below name path).toList = (below name path').toList at hlist
            rw [below_toList, below_toList] at hlist
            exact List.append_cancel_left hlist
          -- behind it the paths end together or go on with a dot
          cases path with
          | nil =>
              cases path' with
              | nil => rfl
              | cons n t => simp at hrest
          | cons n t =>
              cases path' with
              | nil => simp at hrest
              | cons n' t' =>
                  have hdotted : dotted (n :: t) = dotted (n' :: t') := by
                    refine String.toList_injective ?_
                    change (below n t).toList = (below n' t').toList
                    rw [below_toList, below_toList]
                    simpa using hrest
                  rw [ih (List.cons_ne_nil n t) (List.cons_ne_nil n' t')
                    (fun name hname => hpath name (List.mem_cons_of_mem _ hname))
                    (fun name hname => hpath' name (List.mem_cons_of_mem _ hname)) hdotted]

variable {run : ModuleRun}

theorem metricAt_eq_some {path : List String} {value : Value} : run.metricAt path = some value ↔
    path.length ≤ maxMetricDepth + 1 ∧ valueAt (.dict run.metricsJson) path = some value ∧ isLeaf value = true := by
  unfold ModuleRun.metricAt
  by_cases hlength : path.length ≤ maxMetricDepth + 1
  · simp [hlength, Option.filter_eq_some_iff]
  · simp [hlength]

/-- A run files its metrics under the names of their paths. -/
theorem mem_metricWrites (hkeyed : (Json.dict run.metricsJson).KeyedOnce) {key : String} {value : Value} :
    (key, value) ∈ ((leafPaths (maxMetricDepth + 1) (.dict run.metricsJson)).map fun p => (dotted p.1, p.2)) ↔
      ∃ path, dotted path = key ∧ run.metricAt path = some value := by
  rw [List.mem_map]
  constructor
  · rintro ⟨p, hp, heq⟩
    cases heq
    exact ⟨p.1, rfl, metricAt_eq_some.mpr ((mem_leafPaths hkeyed).mp hp)⟩
  · rintro ⟨path, rfl, hvalue⟩
    exact ⟨(path, value), (mem_leafPaths hkeyed).mpr (metricAt_eq_some.mp hvalue), rfl⟩

theorem moduleScore_nodup (run : ModuleRun) : ((moduleScore run).map Prod.fst).Nodup := by
  unfold moduleScore
  cases asNumber run.score with
  | none => exact List.nodup_nil
  | some score => cases cardNormScale run.metricsJson <;> simp

/-- A run's numbers are its metrics, and its score where no metric has that name. -/
theorem numbers_eq_some (hkeyed : (Json.dict run.metricsJson).KeyedOnce)
    (hnames : ∀ path value, valueAt (.dict run.metricsJson) path = some value →
      ∀ name ∈ path, hasChar name '.' = false) {key : String} {value : Value} :
    dictGet run.numbers key = some value ↔
      (∃ path, dotted path = key ∧ run.metricAt path = some value) ∨
        ((∀ path, dotted path = key → run.metricAt path = none) ∧ dictGet (moduleScore run) key = some value) := by
  have hnonempty : ∀ {path : List String} {value : Value}, run.metricAt path = some value → path ≠ [] := by
    rintro path value hvalue rfl
    rcases metricAt_eq_some.mp hvalue with ⟨-, hat, hleaf⟩
    cases hat
    cases hleaf
  have honly : ∀ i v v', (i, v) ∈ ((leafPaths (maxMetricDepth + 1) (.dict run.metricsJson)).map
      fun p => (dotted p.1, p.2)) → (i, v') ∈ ((leafPaths (maxMetricDepth + 1) (.dict run.metricsJson)).map
        fun p => (dotted p.1, p.2)) → v = v' := by
    intro i v v' hv hv'
    rcases (mem_metricWrites hkeyed).mp hv with ⟨path, rfl, hat⟩
    rcases (mem_metricWrites hkeyed).mp hv' with ⟨path', heq, hat'⟩
    have hpath := dotted_inj (hnonempty hat') (hnonempty hat) (hnames _ _ (metricAt_eq_some.mp hat').2.1)
      (hnames _ _ (metricAt_eq_some.mp hat).2.1) heq
    rw [hpath, hat] at hat'
    exact Option.some.inj hat'
  unfold ModuleRun.numbers ModuleRun.writes
  rw [dictGet_assigned_append honly, mem_metricWrites hkeyed, assigned_of_nodup (moduleScore_nodup run)]
  refine or_congr_right (and_congr_left fun _ => ?_)
  constructor
  · rintro hnot path rfl
    refine Option.eq_none_iff_forall_ne_some.mpr fun v hv => hnot ?_
    exact List.mem_map.mpr ⟨_, (mem_metricWrites hkeyed).mpr ⟨path, rfl, hv⟩, rfl⟩
  · intro hnone hmem
    rcases List.mem_map.mp hmem with ⟨e, he, rfl⟩
    rcases (mem_metricWrites hkeyed).mp he with ⟨path, hdotted, hat⟩
    rw [hnone path hdotted] at hat
    cases hat

theorem numbers_ne_nil (hkeyed : (Json.dict run.metricsJson).KeyedOnce) : run.numbers ≠ [] ↔ run.Reported := by
  have hscore : moduleScore run = [] ↔ ¬ (asNumber run.score).isSome := by
    unfold moduleScore
    cases asNumber run.score <;> simp
  have hmetrics : ((leafPaths (maxMetricDepth + 1) (.dict run.metricsJson)).map fun p => (dotted p.1, p.2)) = [] ↔
      ¬ ∃ path, (run.metricAt path).isSome := by
    rw [List.eq_nil_iff_forall_not_mem]
    constructor
    · rintro hnone ⟨path, hsome⟩
      rcases Option.isSome_iff_exists.mp hsome with ⟨value, hat⟩
      exact hnone (dotted path, value) ((mem_metricWrites hkeyed).mpr ⟨path, rfl, hat⟩)
    · rintro hnone ⟨key, value⟩ hmem
      rcases (mem_metricWrites hkeyed).mp hmem with ⟨path, -, hat⟩
      exact hnone ⟨path, by rw [hat]; rfl⟩
  unfold ModuleRun.numbers ModuleRun.writes ModuleRun.Reported
  rw [ne_eq, assigned_eq_nil, List.append_eq_nil_iff, hscore, hmetrics]
  tauto

end ReadBack

/-- The runs of a submission stay apart. -/
theorem runs_apart (settings : LlmbenchSettings) (submission : LlmbenchSubmission) (cards : Option ℚ)
    (h : submission.Named) : RunsApart settings submission cards where
  scenarios := by
    unfold measuresOf
    rw [splitMetrics_flatten h, List.map_map]
    refine List.map_congr_left fun e he => ?_
    change adapt settings.measured e.1 e.2.numbers ((dictGet (paramsByKey (moduleReports submission)) e.1).getD [])
      cards = _
    rw [paramsByKey_reports h (List.mem_filter.mp he).1, Option.getD_some]
  once := keyedRuns_nodup h
  keyed _ _ := mem_keyedRuns h
  numbers run hrun _ _ := numbers_eq_some (h.keyedOnce run hrun) (h.metrics run hrun)
  reported run hrun := numbers_ne_nil (h.keyedOnce run hrun)
  order := by
    intro runs hperm
    have hkeyed : keyedRuns { submission with runs := runs } = keyedRuns submission := by
      unfold keyedRuns
      dsimp only
      rw [idOrder_congr h.ids h.distinct hperm]
    unfold flattenMetrics moduleReports
    rw [hkeyed]
    exact ⟨rfl, rfl⟩
  declared := keyedRuns_keys submission

/-- Names without a dot, entry by entry. -/
theorem plain_dict {entries : JsonDict ℚ} (h : ∀ e ∈ entries, hasChar e.1 '.' = false ∧
    ∀ path value, valueAt e.2 path = some value → ∀ name ∈ path, hasChar name '.' = false) :
    ∀ path value, valueAt (.dict entries) path = some value → ∀ name ∈ path, hasChar name '.' = false := by
  intro path value hvalue name hname
  cases path with
  | nil => cases hname
  | cons first path =>
      rcases Option.bind_eq_some_iff.mp hvalue with ⟨v, hget, hat⟩
      have he := h (first, v) (mem_of_dictGet hget)
      rcases List.mem_cons.mp hname with rfl | hname
      · exact he.1
      · exact he.2 path value hat name hname

theorem plain_float (x : ℚ) (path : List String) (value : Value) (h : valueAt (.float x) path = some value) :
    ∀ name ∈ path, hasChar name '.' = false := by
  cases path with
  | nil => exact fun name hname => absurd hname List.not_mem_nil
  | cons => cases h

/-- Two runs of a sweep, the second of them listed first. -/
def twoSweeps : LlmbenchSubmission where
  runs := [
    { id := some 12, moduleName := some "perf_guidellm_sweep", paramsJson := .dict [("input_tokens", .int 40000)],
      metricsJson := [("c1", .dict [("request_output_tps", .float 90)])] },
    { id := some 11, moduleName := some "perf_guidellm_sweep", paramsJson := .dict [("input_tokens", .int 50000)],
      metricsJson := [("c1", .dict [("request_output_tps", .float 70)])] }]

/-- They are read back apart. -/
theorem two_sweeps_apart : RunsApart {} twoSweeps none := by
  refine runs_apart _ _ _ ⟨by decide, by decide, by decide, ?_, ?_⟩
  · intro run hrun
    simp only [twoSweeps, List.mem_cons, List.not_mem_nil, or_false] at hrun
    rcases hrun with rfl | rfl <;> simp [Json.KeyedOnce, Json.EntriesKeyedOnce]
  · intro run hrun
    simp only [twoSweeps, List.mem_cons, List.not_mem_nil, or_false] at hrun
    rcases hrun with rfl | rfl <;>
      exact plain_dict (by simpa [hasChar] using plain_dict (by simpa [hasChar] using plain_float _))

/-- Two replays, the first of which reported nothing and the second left a param unset. -/
def silentRun : LlmbenchSubmission where
  runs := [
    { id := some 1, moduleName := some "replay" },
    { id := some 2, moduleName := some "replay", paramsJson := .dict [("seed", .null)],
      metricsJson := [("output_tpm", .float 4200)] }]

/-- The first is not read back, and the second without the param. -/
theorem silent_run_unread : silentRun.Named ∧ (keyedRuns silentRun).map Prod.fst = ["replay", "replay#2"] ∧
    (measuresOf (LlmbenchSettings.measured {}) (flattenMetrics silentRun) (moduleReports silentRun) none).map
      Scenario.key = ["replay#2"] ∧
    dictGet (paramsByKey (moduleReports silentRun)) "replay#2" = some [] := by
  refine ⟨⟨by decide, by decide, by decide, ?_, ?_⟩, by decide, by decide, rfl⟩
  · intro run hrun
    simp only [silentRun, List.mem_cons, List.not_mem_nil, or_false] at hrun
    rcases hrun with rfl | rfl <;> simp [Json.KeyedOnce, Json.EntriesKeyedOnce]
  · intro run hrun
    simp only [silentRun, List.mem_cons, List.not_mem_nil, or_false] at hrun
    rcases hrun with rfl | rfl
    · exact plain_dict (by simp)
    · exact plain_dict (by simpa [hasChar] using plain_float _)

end AutoTune
