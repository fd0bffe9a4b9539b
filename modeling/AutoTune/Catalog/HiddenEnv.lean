import AutoTune.Catalog.Converted

/-!
# What an export hides of the environment

A variable whose name alone makes it the platform's, a credential or the site's is cut from everything that is read
of the environment: the variables that keep a mount, and those that are published. Two lists of sources that differ
in such variables only are exported alike.
-/

namespace AutoTune

open Lib

section Hidden

variable (tools : ExportTools) (opts : ConvertOptions)

/-- The environment of a run without what its name hides. -/
def ConvertedSource.visibleEnv (src : ConvertedSource) : Dict String :=
  src.env.filter fun e => !hiddenByName opts.envCategories e.1

/-- A variable that is kept is visible. -/
theorem visible_of_kept {name value : String} {provided : List String}
    (h : (classifyEnv tools.isWord opts.envCategories name value provided).1.kept = true) :
    (!hiddenByName opts.envCategories name) = true := by
  rw [Bool.not_eq_true']
  by_contra hhidden
  rw [Bool.not_eq_false] at hhidden
  rw [classifyEnv_hidden tools.isWord hhidden] at h
  cases h

/-- What is kept of all is what is kept of the visible. -/
theorem filter_visible {l : List (String × String)} {kept : String × String → Bool}
    (h : ∀ e, kept e = true → (!hiddenByName opts.envCategories e.1) = true) :
    l.filter kept = (l.filter fun e => !hiddenByName opts.envCategories e.1).filter kept := by
  rw [List.filter_filter]
  refine List.filter_congr fun e _ => ?_
  cases hkept : kept e with
  | true => rw [h e hkept, Bool.and_self]
  | false => rfl

/-- The variables that may keep a mount are told of the visible ones. -/
theorem readers_visible (src : ConvertedSource) : src.readers tools opts =
    (src.visibleEnv opts).filter fun e => (classifyEnv tools.isWord opts.envCategories e.1 "" []).1.kept :=
  Dict.ext_entries (filter_visible opts fun _ h => visible_of_kept tools opts h)

/-- So are the variables that are published. -/
theorem keptEnv_visible (src : ConvertedSource) : src.keptEnv tools opts =
    if opts.includeEnv then (src.visibleEnv opts).entries.filter fun e => (classifyEnv tools.isWord opts.envCategories
      e.1 e.2 ([modelMount, "/dev/shm", "/root/.cache"] ++ (src.plan tools opts).provided)).1.kept
    else [] := by
  unfold ConvertedSource.keptEnv
  dsimp only
  split
  · exact filter_visible opts fun _ h => visible_of_kept tools opts h
  · rfl

/-- No variable that its name hides is published. -/
theorem keptEnv_notHidden (src : ConvertedSource) {e : String × String} (he : e ∈ src.keptEnv tools opts) :
    hiddenByName opts.envCategories e.1 = false := by
  unfold ConvertedSource.keptEnv at he
  dsimp only at he
  split at he
  · have hkept := (List.mem_filter.mp he).2
    rw [← Bool.not_eq_true']
    exact visible_of_kept tools opts hkept
  · cases he

/-- The sources differ at most in variables that their names hide. -/
structure SameButHidden (src src' : ConvertedSource) : Prop where
  measured : src.measured = src'.measured
  env : (src.extraEnv.filter fun e => !hiddenByName opts.envCategories e.1) =
    src'.extraEnv.filter fun e => !hiddenByName opts.envCategories e.1

variable {opts} {src src' : ConvertedSource}

theorem SameButHidden.visibleEnv (h : SameButHidden opts src src') : src.visibleEnv opts = src'.visibleEnv opts := by
  unfold ConvertedSource.visibleEnv ConvertedSource.env
  rw [Dict.filter_merge fun name => !hiddenByName opts.envCategories name,
    Dict.filter_merge fun name => !hiddenByName opts.envCategories name, h.env, h.measured]

theorem SameButHidden.plan (h : SameButHidden opts src src') : src.plan tools opts = src'.plan tools opts := by
  unfold ConvertedSource.plan
  rw [readers_visible, readers_visible, h.visibleEnv, h.measured]

theorem SameButHidden.portable (h : SameButHidden opts src src') :
    src.portable tools opts = src'.portable tools opts := by
  unfold ConvertedSource.portable
  rw [keptEnv_visible, keptEnv_visible, h.visibleEnv, h.plan tools]

/-- Lists of sources that differ at most in variables that their names hide give the same files, the same errors
and the same versions. -/
theorem export_hides_env {sources sources' : List ConvertedSource}
    (h : List.Forall₂ (SameButHidden opts) sources sources') :
    exportConverted tools opts sources = exportConverted tools opts sources' := by
  have hmeasured : sources.map ConvertedSource.measured = sources'.map ConvertedSource.measured := by
    induction h with
    | nil => rfl
    | cons hsame _ ih => rw [List.map_cons, List.map_cons, hsame.measured, ih]
  have hbodies : ∀ (measured : List MeasuredSource) (n : Nat),
      (sources.zipIdx n).mapM (exportBody tools opts measured) =
        (sources'.zipIdx n).mapM (exportBody tools opts measured) := by
    intro measured
    clear hmeasured
    induction h with
    | nil => exact fun _ => rfl
    | @cons src src' _ _ hsame _ ih =>
        intro n
        have hbody : exportBody tools opts measured (src, n) = exportBody tools opts measured (src', n) := by
          unfold exportBody
          rw [hsame.measured, hsame.portable tools]
        rw [List.zipIdx_cons, List.zipIdx_cons, List.mapM_cons, List.mapM_cons, hbody, ih]
  unfold exportConverted
  dsimp only
  rw [hmeasured, hbodies]

end Hidden

/-! ### One card, twice -/

/-- An export without a schema, YAML or texts of its own. -/
def plainTools : ExportTools where
  isWord c := c.isAlphanum || c == '_'
  schemaErrors _ := []
  dump doc := (Json.dict doc).dumps
  describe _ _ _ := ""
  metadata opts _ _ := (opts.name, [])

/-- A config with this environment. -/
def measuredWith (env : List (String × String)) : ConvertedSource where
  measured := { image := "engine:v0.5.1", extraVolumes := Dict.ofEntries [("/host/keys", "/keys")] }
  extraEnv := Dict.ofEntries env

theorem export_hides_token :
    exportConverted plainTools { name := "m" } [measuredWith [("HF_TOKEN", "/keys/a"), ("SGLANG_X", "1")]] =
      exportConverted plainTools { name := "m" } [measuredWith [("NCCL_IB_HCA", "mlx5"), ("SGLANG_X", "1")]] := by
  refine export_hides_env plainTools (List.Forall₂.cons { measured := rfl, env := ?_ } List.Forall₂.nil)
  refine Dict.ext_entries ?_
  decide

end AutoTune
