import AutoTune.Lib.Ranking
import AutoTune.Supervisor.Finishing
import Mathlib.Data.List.Induction

/-!
# The shortlist

Both later stages take the first few configs of the ranking. Who these are, said without sorting: the
mean of a config, and how many are ahead of it, a tie going to the config that was run first.
-/

namespace AutoTune

open Lib

namespace Pipeline

/-- The mean of a config's values, if it has any. -/
def meanOf (p : Pipeline) (h : String) : Option ℚ :=
  let values := (p.runsOf h).filterMap p.valueOf
  if values.isEmpty then none else some (values.sum / values.length)

/-- When a config was first run, among the screening runs. -/
def firstRun (p : Pipeline) (h : String) : Nat := (p.screenRuns.map Prod.fst).idxOf h

/-- Does `h'` rank before `h`? -/
def ahead (p : Pipeline) (minimize : Bool) (h' h : String) : Bool :=
  match p.meanOf h', p.meanOf h with
  | some mean', some mean =>
      sortKey minimize mean' < sortKey minimize mean ||
        sortKey minimize mean' = sortKey minimize mean && p.firstRun h' < p.firstRun h
  | _, _ => false

/-- The config has a mean, and fewer than `k` are ahead of it. -/
def shortlisted (p : Pipeline) (minimize : Bool) (k : Nat) (h : String) : Bool :=
  (p.meanOf h).isSome && ((p.screenRuns.map Prod.fst).dedup.countP fun h' => p.ahead minimize h' h) < k

variable {p : Pipeline}

/-! ## The ranking holds every config with a mean -/

theorem rankedOf_eq {h : String} {r : Ranked} (hr : p.rankedOf (h, p.runsOf h) = some r) :
    r.configHash = h ∧ r.group = p.runsOf h ∧ p.meanOf h = some r.mean := by
  unfold rankedOf at hr
  unfold meanOf
  dsimp only at hr ⊢
  split at hr
  · cases hr
  · rename_i hvalues
    cases hr
    exact ⟨rfl, rfl, by rw [if_neg hvalues]⟩

theorem meanOf_ranked {minimize : Bool} {r : Ranked} (hr : r ∈ p.rankedScreenConfigs minimize) :
    p.meanOf r.configHash = some r.mean := by
  unfold rankedScreenConfigs at hr
  rw [(List.perm_insertionSort _ _).mem_iff, List.mem_filterMap] at hr
  rcases hr with ⟨⟨h, group⟩, he, hranked⟩
  have hgroup := p.byConfig_runs (Dict.mem_entries.mp he)
  subst hgroup
  rcases rankedOf_eq hranked with ⟨hhash, -, hmean⟩
  rw [hhash]
  exact hmean

theorem exists_ranked (minimize : Bool) {h : String} {mean : ℚ} (hmean : p.meanOf h = some mean) :
    ∃ r ∈ p.rankedScreenConfigs minimize, r.configHash = h := by
  have hgroup := grouped p.screenRuns Dict.empty h
  change (p.byConfig.get? h).getD [] = p.runsOf h at hgroup
  cases hget : p.byConfig.get? h with
  | none =>
      rw [hget] at hgroup
      unfold meanOf at hmean
      rw [← hgroup] at hmean
      cases hmean
  | some group =>
      rw [hget] at hgroup
      have hsame : group = p.runsOf h := hgroup
      subst hsame
      cases hr : p.rankedOf (h, p.runsOf h) with
      | none =>
          unfold meanOf at hmean
          unfold rankedOf at hr
          dsimp only at hmean hr
          split at hr
          · rename_i hvalues
            rw [if_pos hvalues] at hmean
            cases hmean
          · cases hr
      | some r =>
          refine ⟨r, ?_, (rankedOf_eq hr).1⟩
          unfold rankedScreenConfigs
          rw [(List.perm_insertionSort _ _).mem_iff, List.mem_filterMap]
          exact ⟨_, Dict.mem_entries.mpr hget, hr⟩

/-- What has a mean was run. -/
theorem run_of_mean {h : String} (hmean : (p.meanOf h).isSome = true) : h ∈ p.screenRuns.map Prod.fst := by
  rcases Option.isSome_iff_exists.mp hmean with ⟨mean, hsome⟩
  rcases exists_ranked false hsome with ⟨r, hr, rfl⟩
  rcases mem_ranked hr with ⟨hgroup, hne⟩
  rcases List.exists_mem_of_ne_nil _ hne with ⟨run, hrun⟩
  rw [hgroup, mem_runsOf] at hrun
  exact List.mem_map.mpr ⟨_, hrun, rfl⟩

theorem mean_of_ahead {minimize : Bool} {h' h : String} (hahead : p.ahead minimize h' h = true) :
    (p.meanOf h').isSome = true := by
  unfold ahead at hahead
  cases hmean : p.meanOf h' with
  | none =>
      rw [hmean] at hahead
      cases hahead
  | some mean => rfl

/-! ## The order of the ranking -/

/-- The configs are grouped in the order they were first run. -/
theorem grouped_order (l : List (String × PipelineRun)) :
    (l.foldl (fun d e => d.set e.1 ((d.get? e.1).getD [] ++ [e.2]))
      (Dict.empty : Dict (List PipelineRun))).keys.Pairwise
        (fun h' h => (l.map Prod.fst).idxOf h' < (l.map Prod.fst).idxOf h) ∧
    ∀ h, h ∈ (l.foldl (fun d e => d.set e.1 ((d.get? e.1).getD [] ++ [e.2]))
      (Dict.empty : Dict (List PipelineRun))).keys ↔ h ∈ l.map Prod.fst := by
  induction l using List.reverseRecOn with
  | nil => exact ⟨List.Pairwise.nil, fun h => Iff.rfl⟩
  | append_singleton l e ih =>
      rcases ih with ⟨horder, hmem⟩
      rw [List.foldl_append, List.foldl_cons, List.foldl_nil, Dict.keys_set, List.map_append]
      set keys := (l.foldl (fun d e => d.set e.1 ((d.get? e.1).getD [] ++ [e.2]))
        (Dict.empty : Dict (List PipelineRun))).keys with hkeys
      -- a config that was there keeps its place
      have hplace : ∀ h ∈ keys, (l.map Prod.fst ++ [e].map Prod.fst).idxOf h = (l.map Prod.fst).idxOf h :=
        fun h hh => List.idxOf_append_of_mem ((hmem h).mp hh)
      have hold : keys.Pairwise fun h' h => (l.map Prod.fst ++ [e].map Prod.fst).idxOf h' <
          (l.map Prod.fst ++ [e].map Prod.fst).idxOf h :=
        horder.imp_of_mem fun {a b} ha hb hlt => by rwa [hplace a ha, hplace b hb]
      split
      · rename_i hin
        refine ⟨hold, fun h => ?_⟩
        rw [hmem h, List.mem_append]
        refine ⟨Or.inl, fun hor => hor.elim id fun hlast => ?_⟩
        rw [List.mem_singleton.mp hlast]
        exact (hmem e.1).mp hin
      · rename_i hnew
        refine ⟨List.pairwise_append.mpr ⟨hold, List.pairwise_singleton _ _, fun a ha b hb => ?_⟩, fun h => ?_⟩
        · have hlast : b ∉ l.map Prod.fst := by
            rw [List.mem_singleton.mp hb]
            exact fun hin => hnew ((hmem e.1).mpr hin)
          rw [hplace a ha, List.idxOf_append_of_notMem hlast]
          exact Nat.lt_add_right _ (List.idxOf_lt_length_of_mem ((hmem a).mp ha))
        · rw [List.mem_append, List.mem_append, hmem h]
          rfl

theorem ranked_pairwise (p : Pipeline) (minimize : Bool) :
    (p.rankedScreenConfigs minimize).Pairwise (Ahead (fun r => sortKey minimize r.mean)
      fun a b => p.firstRun a.configHash < p.firstRun b.configHash) := by
  refine pairwise_insertionSort_ahead ?_
  have horder := (grouped_order p.screenRuns).1
  change (p.byConfig.entries.map Prod.fst).Pairwise _ at horder
  rw [List.pairwise_map] at horder
  rw [List.pairwise_filterMap]
  refine horder.imp_of_mem fun {a b} ha hb hlt r hr r' hr' => ?_
  have hra := p.byConfig_runs (Dict.mem_entries.mp ha)
  have hrb := p.byConfig_runs (Dict.mem_entries.mp hb)
  rw [show a = (a.1, p.runsOf a.1) from Prod.ext rfl hra] at hr
  rw [show b = (b.1, p.runsOf b.1) from Prod.ext rfl hrb] at hr'
  rw [(rankedOf_eq hr).1, (rankedOf_eq hr').1]
  exact hlt

theorem ahead_asymm (p : Pipeline) (minimize : Bool) (h' h : String) (hahead : p.ahead minimize h' h = true) :
    p.ahead minimize h h' = false := by
  unfold ahead at hahead ⊢
  cases hmean' : p.meanOf h' <;> cases hmean : p.meanOf h <;> rw [hmean', hmean] at hahead
  case some.some mean' mean =>
    simp only [Bool.or_eq_true, Bool.and_eq_true, decide_eq_true_eq] at hahead
    simp only [Bool.or_eq_false_iff, Bool.and_eq_false_iff, decide_eq_false_iff_not]
    rcases hahead with hlt | ⟨heq, hlt⟩
    · exact ⟨not_lt.mpr hlt.le, Or.inl hlt.ne'⟩
    · exact ⟨not_lt.mpr heq.le, Or.inr (by omega)⟩

/-- The hashes of the ranking, each ahead of the later ones. -/
theorem hashes_pairwise (p : Pipeline) (minimize : Bool) :
    ((p.rankedScreenConfigs minimize).map Ranked.configHash).Pairwise
      fun h' h => p.ahead minimize h' h = true := by
  rw [List.pairwise_map]
  refine (p.ranked_pairwise minimize).imp_of_mem fun {a b} ha hb hab => ?_
  unfold ahead
  rw [meanOf_ranked ha, meanOf_ranked hb]
  simpa [Ahead] using hab

/-- Who is among the first `k` of the ranking. -/
theorem mem_shortlist (p : Pipeline) (minimize : Bool) (k : Nat) (h : String) :
    h ∈ ((p.rankedScreenConfigs minimize).take k).map Ranked.configHash ↔
      p.shortlisted minimize k h = true := by
  have hranked : ∀ h, h ∈ (p.rankedScreenConfigs minimize).map Ranked.configHash ↔
      (p.meanOf h).isSome = true := by
    intro h
    rw [List.mem_map, Option.isSome_iff_exists]
    constructor
    · rintro ⟨r, hr, rfl⟩
      exact ⟨r.mean, meanOf_ranked hr⟩
    · rintro ⟨mean, hmean⟩
      exact exists_ranked minimize hmean
  -- who is ahead of anyone has a mean, so it makes no difference where they are counted
  have hcount : ((p.rankedScreenConfigs minimize).map Ranked.configHash).countP
      (fun h' => p.ahead minimize h' h) =
      (p.screenRuns.map Prod.fst).dedup.countP fun h' => p.ahead minimize h' h := by
    rw [List.countP_eq_length_filter, List.countP_eq_length_filter]
    refine List.Perm.length_eq ?_
    rw [List.perm_ext_iff_of_nodup ((p.ranked_nodup minimize).filter _) ((List.nodup_dedup _).filter _)]
    intro h'
    rw [List.mem_filter, List.mem_filter, List.mem_dedup, hranked]
    exact and_congr_left fun hahead => ⟨fun hmean => run_of_mean hmean, fun _ => mean_of_ahead hahead⟩
  rw [List.map_take, mem_take_iff (p.ahead_asymm minimize) (p.hashes_pairwise minimize) k, hranked, hcount]
  simp [shortlisted]

end Pipeline

end AutoTune
