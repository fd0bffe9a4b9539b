import AutoTune.Launch.WrittenOptions
import AutoTune.Recipe.RoundTrip

/-!
# A launch, written down and read back

The command of a launch is kept as one text, and it can be pasted like any other deployment. What is compiled of
it is the launch again: the image, the engine and its arguments, the variables and the volumes.
-/

namespace AutoTune.SshDocker

open Lib

/-! ## The engine's command -/

/-- A value that is read as it stands behind its flag. -/
structure IsArgument (engine value : String) : Prop where
  text : IsValueText value
  oneLine : '\n' ∉ value.toList
  notShort : value ∉ (shortFlags engine).map Prod.fst

theorem IsArgument.isToken {engine value : String} (h : IsArgument engine value) : IsToken value where
  stripped := h.text.stripped
  nonempty := h.text.stripped ▸ h.text.notBlank
  oneLine := h.oneLine

theorem isArgument_int {engine : String} (hengine : engine = "sglang" ∨ engine = "vllm") (n : Int) :
    IsArgument engine (toString n) := by
  refine ⟨isValueText_int n, (isToken_int n).oneLine, fun hmem => ?_⟩
  -- the short forms hold letters
  have hletters : ∀ short ∈ (shortFlags "vllm").map Prod.fst, ∃ c ∈ short.toList, c.isDigit = false ∧ c ≠ '-' := by
    simp [shortFlags]
  rcases hengine with rfl | rfl
  · exact absurd hmem List.not_mem_nil
  · obtain ⟨c, hc, hdigit, hdash⟩ := hletters _ hmem
    obtain ⟨cs, hcs, -, htext⟩ := intText_chars n
    rcases htext with htext | htext
    · rw [htext] at hc
      exact absurd (hcs c hc) (by simp [hdigit])
    · rw [htext] at hc
      rcases List.mem_cons.mp hc with rfl | hc
      · exact hdash rfl
      · exact absurd (hcs c hc) (by simp [hdigit])

section Engine

variable {F : Type}

/-- A flag whose value is read as it stands. -/
def IsFlag (engine : String) (e : String × Json F) : Prop :=
  isSnake e.1 = true ∧ (e.2 = .bool true ∨ ∃ t, e.2 = .str t ∧ IsArgument engine t)

theorem IsFlag.isWritten {engine : String} {e : String × Json F} (h : IsFlag engine e) : IsWritten e := by
  refine ⟨h.1, ?_⟩
  rcases h.2 with hswitch | ⟨t, ht, harg⟩
  · exact Or.inl hswitch
  · exact Or.inr ⟨t, ht, harg.text⟩

/-- The tokens of flags are kept, and none is the short form of another. -/
theorem flagTokens_plain {engine : String} (hengine : engine = "sglang" ∨ engine = "vllm")
    {row : JsonDict F} (h : ∀ e ∈ row, IsFlag engine e) :
    ∀ t ∈ row.flatMap flagTokens, IsToken t ∧ t ∉ (shortFlags engine).map Prod.fst := by
  have hdashes : ∀ short ∈ (shortFlags "vllm").map Prod.fst, startsWith short "--" = false := by decide
  intro t ht
  obtain ⟨⟨key, value⟩, he, ht⟩ := List.mem_flatMap.mp ht
  obtain ⟨hkey, hvalue⟩ := h _ he
  dsimp only at hkey hvalue
  rcases List.mem_cons.mp ht with rfl | ht
  · refine ⟨⟨strip_kebab hkey, kebab_ne_empty key, fun hmem => ?_⟩, fun hmem => ?_⟩
    · rcases kebab_chars hkey _ hmem with hc | hc
      · exact absurd hc (by decide)
      · exact absurd hc (by decide)
    · rcases hengine with rfl | rfl
      · exact absurd hmem List.not_mem_nil
      · exact absurd (hdashes _ hmem) (by simp [kebab_startsWith])
  · rcases hvalue with rfl | ⟨s, rfl, hs⟩
    · exact absurd ht List.not_mem_nil
    · rw [List.mem_singleton.mp ht]
      exact ⟨hs.isToken, hs.notShort⟩

theorem spellOut_plain {engine : String} {tokens : List String}
    (h : ∀ t ∈ tokens, t ∉ (shortFlags engine).map Prod.fst) : spellOut engine tokens = tokens := by
  have hnone : ∀ t ∈ tokens, dictGet (shortFlags engine) t = none := fun t ht =>
    Option.not_isSome_iff_eq_none.mp fun hsome => h t ht (dictGet_isSome.mp hsome)
  unfold spellOut
  calc
    tokens.map (fun t => ((dictGet (shortFlags engine) t).map fun key => "--" ++ replaceChar '_' '-' key).getD t)
        = tokens.map id := List.map_congr_left fun t ht => by simp [hnone t ht]
    _ = tokens := List.map_id tokens

/-- What stands behind the entry point of an engine's command and before its flags. -/
def launcher (engine : String) : List String :=
  if engine = "sglang" then ["-m", "sglang.launch_server"] else ["serve", modelMount]

theorem launcher_plain {engine : String} (hengine : engine = "sglang" ∨ engine = "vllm") :
    ∀ t ∈ launcher engine, IsToken t ∧ t ∉ (shortFlags engine).map Prod.fst := by
  rcases hengine with rfl | rfl
  · decide
  · decide

/-- What is no flag is skipped. -/
theorem readFlags_skip {t : String} (h : startsWith t "--" = false) (rest : List String) :
    readFlags (F := F) (t :: rest) = readFlags rest := by
  cases rest with
  | nil => simp [readFlags, h]
  | cons next rest => simp [readFlags, h]

/-- A row of flags behind the launcher is read as it was written. -/
theorem parseEngineArgs_launched {engine : String} (hengine : engine = "sglang" ∨ engine = "vllm")
    {row : JsonDict F} (h : ∀ e ∈ row, IsFlag engine e) (hnd : (row.map Prod.fst).Nodup) :
    parseEngineArgs (launcher engine ++ row.flatMap flagTokens) = row := by
  have hwritten : ∀ e ∈ row, IsWritten e := fun e he => (h e he).isWritten
  have htokens : ∀ t ∈ launcher engine ++ row.flatMap flagTokens, IsToken t := by
    intro t ht
    rcases List.mem_append.mp ht with ht | ht
    · exact (launcher_plain hengine t ht).1
    · exact (flagTokens_plain hengine h t ht).1
  have hkept : ((launcher engine ++ row.flatMap flagTokens).map strip).filter (fun t => t ≠ "") =
      launcher engine ++ row.flatMap flagTokens := by
    have hstrip : (launcher engine ++ row.flatMap flagTokens).map strip = launcher engine ++ row.flatMap flagTokens :=
      (List.map_congr_left fun t ht => (htokens t ht).stripped).trans (List.map_id' _)
    rw [hstrip]
    exact List.filter_eq_self.mpr fun t ht => decide_eq_true (htokens t ht).nonempty
  have hflags : readFlags (engineTokens (launcher engine ++ row.flatMap flagTokens)) = row := by
    unfold engineTokens
    simp only [hkept]
    rcases hengine with rfl | rfl
    · -- the module's name is the launcher
      have hmodule : isLauncher none "-m" = false ∧ isLauncher (some "-m") "sglang.launch_server" = true := by decide
      simpa [launcher, afterLauncher, hmodule.1, hmodule.2] using readFlags_written hwritten
    · -- no token is a launcher, and the model is a positional that no flag takes
      have hserve : isLauncher none "serve" = false ∧ isLauncher (some "serve") modelMount = false := by decide
      have hnoFlag : startsWith "serve" "--" = false ∧ startsWith modelMount "--" = false := by decide
      have hnone := afterLauncher_written hwritten (some modelMount)
      calc
        readFlags ((afterLauncher none (launcher "vllm" ++ row.flatMap flagTokens)).getD
            (launcher "vllm" ++ row.flatMap flagTokens))
            = readFlags ("serve" :: modelMount :: row.flatMap flagTokens) := by
              simp [launcher, afterLauncher, hserve.1, hserve.2, hnone]
        _ = readFlags (modelMount :: row.flatMap flagTokens) := readFlags_skip hnoFlag.1 _
        _ = readFlags (row.flatMap flagTokens) := readFlags_skip hnoFlag.2 _
        _ = row := readFlags_written hwritten
  unfold parseEngineArgs
  rw [hflags]
  exact foldl_dictSet_fresh hnd

end Engine

/-! ## Placement -/

section Placement

variable {F : Type} [PyRuntime F]

theorem placement_canonical {engine : String} (hengine : engine = "sglang" ∨ engine = "vllm") :
    ∀ key ∈ placementFlags, canonicalKey engine key ∈ placementFlags := by
  rcases hengine with rfl | rfl
  · decide
  · decide

/-- What is no placement is not written as placement. -/
theorem writtenAs_notPlacement {engine : String} (hengine : engine = "sglang" ∨ engine = "vllm")
    {e o : String × Json F} (h : IsRenderable isSnake engine e) (hkey : e.1 ∉ placementFlags)
    (ho : writtenAs engine e = some o) : o.1 ∉ placementFlags := by
  have hno : ∀ key ∈ placementFlags, startsWith key "no_" = false := by decide
  intro hmem
  rcases writtenAs_key ho with heq | heq
  · have hback := (writtenKey_spec hengine h.shape h.canonical).2.2
    have hplaced := placement_canonical hengine o.1 hmem
    rw [heq, hback] at hplaced
    exact hkey hplaced
  · exact ne_no (hno o.1 hmem) heq

/-- A value is written as its text. -/
theorem writtenAs_text {engine t : String} {e o : String × Json F} (h : writtenAs engine e = some o)
    (ht : o.2 = .str t) : t = e.2.text := by
  obtain ⟨key, value⟩ := e
  unfold writtenAs at h
  dsimp only at h
  split at h
  · cases Option.some.inj h
    cases ht
  · obtain ⟨flag, -, rfl⟩ := Option.map_eq_some_iff.mp h
    cases ht
  · cases Option.some.inj h
    exact (Json.str.inj ht).symm

end Placement

/-! ## The launch -/

section Launch

variable {F : Type} [PyRuntime F]

/-- The flags an adapter puts before the config's. -/
def headFlags (spec : LaunchSpec F) : JsonDict F :=
  (if spec.engine = "sglang" then [("model_path", .str modelMount)] else []) ++
    [("served_model_name", .str spec.servedModelName), ("host", .str "0.0.0.0"),
      ("port", .str (toString spec.port))]

/-- The config's flags. -/
def configFlags (spec : LaunchSpec F) : JsonDict F :=
  (sortEntries spec.engineArgs.entries).filterMap (writtenAs spec.engine)

/-- The flags of a plan of several machines. -/
def planFlags (spec : LaunchSpec F) : JsonDict F :=
  if spec.engine = "sglang" ∧ 1 < spec.nnodes then
    [("nnodes", .str (toString spec.nnodes)), ("node_rank", .str (toString spec.rank)),
      ("dist_init_addr", .str spec.distInitAddr)]
  else []

/-- All flags of an engine's command. -/
def launchFlags (spec : LaunchSpec F) : JsonDict F := headFlags spec ++ (configFlags spec ++ planFlags spec)

/-- A launch whose command can be pasted: its texts stand on one line and are taken for nothing else, its config
holds no placement, and its weights are mounted by the driver only. -/
structure Pasteable (spec : LaunchSpec F) : Prop where
  engine : spec.engine = "sglang" ∨ spec.engine = "vllm"
  name : IsToken spec.containerName
  image : IsToken spec.image
  noOption : startsWith spec.image "-" = false
  served : IsArgument spec.engine spec.servedModelName
  plan : 1 < spec.nnodes → IsArgument spec.engine spec.distInitAddr
  args : ∀ e ∈ spec.engineArgs.entries, IsRenderable isSnake spec.engine e ∧ e.1 ∉ placementFlags
  texts : ∀ e ∈ spec.engineArgs.entries, '\n' ∉ e.2.text.toList ∧ e.2.text ∉ (shortFlags spec.engine).map Prod.fst
  env : ∀ e ∈ spec.env.entries, hasChar e.1 '=' = false ∧ IsToken (e.1 ++ "=" ++ e.2)
  mounts : ∀ v ∈ spec.mounts.entries, hasChar v.1 ':' = false ∧ IsToken (v.1 ++ ":" ++ v.2)
  weights : ∀ v ∈ spec.volumes.entries, v.1 ≠ spec.modelPath ∧ volumeTarget v.2 ≠ modelMount
  cache : spec.modelPath ≠ spec.cacheDir

/-- What is compiled of the command of a launch. vLLM's model is a positional behind the image, which nothing
reads, so that its weights stay one volume among the others. -/
structure ReadsBack (spec : LaunchSpec F) (out : LaunchCommand F) : Prop where
  engine : out.engine = spec.engine
  image : out.image = spec.image
  served : out.servedModelName = spec.servedModelName
  port : out.servicePort = spec.port
  args : out.engineArgs = (sortEntries spec.engineArgs.entries).filterMap (cameBack spec.engine)
  env : ∀ name, dictGet out.extraEnv name = (spec.env.get? name).or (defaultEnv.get? name)
  weights : out.modelPath = if spec.engine = "sglang" then spec.modelPath else ""
  volumes : ∀ host, dictGet out.extraVolumes host =
    if spec.engine = "sglang" ∧ host = spec.modelPath then none else spec.mounts.get? host
  warnings : out.warnings = portWarnings spec.port

variable {spec : LaunchSpec F}

/-- The first word of an engine's command. -/
def entryPoint (engine : String) : String := if engine = "sglang" then "python3" else "vllm"

/-- An engine's command is its entry point, the launcher and the flags. -/
theorem renderEngineCommand_flags (h : Pasteable spec) :
    renderEngineCommand spec =
      .ok (entryPoint spec.engine :: (launcher spec.engine ++ (launchFlags spec).flatMap flagTokens)) := by
  have hargs : ∀ e ∈ spec.engineArgs.entries, IsRenderable isSnake spec.engine e := fun e he => (h.args e he).1
  have hkebab : kebab "model_path" = "--model-path" ∧ kebab "served_model_name" = "--served-model-name" ∧
      kebab "host" = "--host" ∧ kebab "port" = "--port" ∧ kebab "nnodes" = "--nnodes" ∧
      kebab "node_rank" = "--node-rank" ∧ kebab "dist_init_addr" = "--dist-init-addr" := by decide
  have hrendered : renderArgs spec.engineArgs.entries spec.engine = (configFlags spec).flatMap flagTokens :=
    renderArgs_written h.engine hargs
  rcases h.engine with hengine | hengine
  · rw [hengine] at hrendered
    by_cases hplan : 1 < spec.nnodes
    · simp [renderEngineCommand, hengine, sglangCommand, hplan, hrendered, entryPoint, launcher, launchFlags,
        headFlags, planFlags, flagTokens, hkebab]
    · simp [renderEngineCommand, hengine, sglangCommand, hplan, hrendered, entryPoint, launcher, launchFlags,
        headFlags, planFlags, flagTokens, hkebab]
  · rw [hengine] at hrendered
    have hother : ("vllm" : String) ≠ "sglang" := by decide
    simp [renderEngineCommand, hengine, hother, vllmCommand, hrendered, entryPoint, launcher, launchFlags,
      headFlags, planFlags, flagTokens, hkebab]

omit [PyRuntime F] in
theorem headFlags_placed (spec : LaunchSpec F) : ∀ e ∈ headFlags spec, e.1 ∈ placementFlags := by
  intro e he
  have hkey : e.1 = "model_path" ∨ e.1 = "served_model_name" ∨ e.1 = "host" ∨ e.1 = "port" := by
    by_cases hengine : spec.engine = "sglang"
    · have hcases := he
      simp only [headFlags, hengine, if_true, List.mem_append, List.mem_cons, List.not_mem_nil, or_false] at hcases
      rcases hcases with rfl | rfl | rfl | rfl
      · simp
      · simp
      · simp
      · simp
    · have hcases := he
      simp only [headFlags, hengine, if_false, List.nil_append, List.mem_cons, List.not_mem_nil, or_false] at hcases
      rcases hcases with rfl | rfl | rfl
      · simp
      · simp
      · simp
  simp only [placementFlags, List.mem_cons]
  tauto

omit [PyRuntime F] in
theorem planFlags_placed (spec : LaunchSpec F) : ∀ e ∈ planFlags spec, e.1 ∈ placementFlags := by
  intro e he
  unfold planFlags at he
  split at he
  · simp only [List.mem_cons, List.not_mem_nil, or_false] at he
    simp only [placementFlags, List.mem_cons]
    rcases he with rfl | rfl | rfl
    · simp
    · simp
    · simp
  · exact absurd he List.not_mem_nil

theorem configFlags_notPlaced (h : Pasteable spec) : ∀ e ∈ configFlags spec, e.1 ∉ placementFlags := by
  intro o ho
  obtain ⟨e, he, hwritten⟩ := List.mem_filterMap.mp ho
  obtain ⟨hrenderable, hkey⟩ := h.args e (mem_sortEntries.mp he)
  exact writtenAs_notPlacement h.engine hrenderable hkey hwritten

/-- Every flag of a launch is read as it was written. -/
theorem launchFlags_isFlag (hfloats : ∀ x : F, IsValueText (PyRuntime.text x)) (h : Pasteable spec) :
    ∀ e ∈ launchFlags spec, IsFlag spec.engine e := by
  have hport := isArgument_int h.engine spec.port
  have hserved := h.served
  have hhost : IsArgument spec.engine "0.0.0.0" := by
    refine ⟨⟨by decide, by decide, by decide, by decide, by decide⟩, by decide, ?_⟩
    rcases h.engine with hengine | hengine
    · rw [hengine]
      decide
    · rw [hengine]
      decide
  have hvalue : ∀ {key t : String}, isSnake key = true → IsArgument spec.engine t →
      IsFlag (F := F) spec.engine (key, .str t) := fun hkey ht => ⟨hkey, Or.inr ⟨_, rfl, ht⟩⟩
  intro e he
  rcases List.mem_append.mp he with he | he
  · -- the adapter's own
    rcases List.mem_append.mp he with he | he
    · by_cases hengine : spec.engine = "sglang"
      · have hmodel : IsArgument spec.engine modelMount := by
          rw [hengine]
          exact ⟨⟨by decide, by decide, by decide, by decide, by decide⟩, by decide, by decide⟩
        rw [if_pos hengine] at he
        rw [List.mem_singleton.mp he]
        exact hvalue (by decide) hmodel
      · rw [if_neg hengine] at he
        exact absurd he List.not_mem_nil
    · simp only [List.mem_cons, List.not_mem_nil, or_false] at he
      rcases he with rfl | rfl | rfl
      · exact hvalue (by decide) hserved
      · exact hvalue (by decide) hhost
      · exact hvalue (by decide) hport
  · rcases List.mem_append.mp he with he | he
    · -- the config's
      obtain ⟨entry, hentry, hwritten⟩ := List.mem_filterMap.mp he
      have hentry := mem_sortEntries.mp hentry
      have hread := writtenAs_isWritten hfloats h.engine (h.args entry hentry).1 hwritten
      refine ⟨hread.1, ?_⟩
      rcases hread.2 with hswitch | ⟨t, ht, htext⟩
      · exact Or.inl hswitch
      · have hsame : t = entry.2.text := writtenAs_text hwritten ht
        obtain ⟨hline, hshort⟩ := h.texts entry hentry
        exact Or.inr ⟨t, ht, htext, hsame ▸ hline, hsame ▸ hshort⟩
    · -- the plan's
      unfold planFlags at he
      split at he
      · rename_i hplan
        simp only [List.mem_cons, List.not_mem_nil, or_false] at he
        rcases he with rfl | rfl | rfl
        · exact hvalue (by decide) (isArgument_int h.engine spec.nnodes)
        · exact hvalue (by decide) (isArgument_int h.engine spec.rank)
        · exact hvalue (by decide) (h.plan hplan.2)
      · exact absurd he List.not_mem_nil

/-- No flag is written twice. -/
theorem launchFlags_nodup (h : Pasteable spec) : ((launchFlags spec).map Prod.fst).Nodup := by
  have hconfig : ((configFlags spec).map Prod.fst).Nodup :=
    nodup_filterMap (((perm_sortEntries spec.engineArgs.entries).map Prod.fst).nodup_iff.mpr spec.engineArgs.nodup)
      fun e he e' he' _ _ ho ho' hkey => writtenAs_apart h.engine (h.args e (mem_sortEntries.mp he)).1
        (h.args e' (mem_sortEntries.mp he')).1 ho ho' hkey
  have hown : ((headFlags spec ++ planFlags spec).map Prod.fst).Nodup := by
    unfold headFlags planFlags
    by_cases hengine : spec.engine = "sglang"
    · by_cases hplan : 1 < spec.nnodes
      · simp [hengine, hplan]
      · simp [hengine, hplan]
    · simp [hengine]
  rw [List.map_append, List.nodup_append] at hown
  unfold launchFlags
  rw [List.map_append, List.map_append, List.nodup_append, List.nodup_append]
  have hplaced : ∀ {l : JsonDict F}, (∀ e ∈ l, e.1 ∈ placementFlags) → ∀ key ∈ l.map Prod.fst, key ∈ placementFlags := by
    intro l hl key hkey
    obtain ⟨e, he, rfl⟩ := List.mem_map.mp hkey
    exact hl e he
  have hfree : ∀ key ∈ (configFlags spec).map Prod.fst, key ∉ placementFlags := by
    intro key hkey
    obtain ⟨e, he, rfl⟩ := List.mem_map.mp hkey
    exact configFlags_notPlaced h e he
  have hhead := hplaced (headFlags_placed spec)
  have hplan := hplaced (planFlags_placed spec)
  refine ⟨hown.1, ⟨hconfig, hown.2.1, ?_⟩, ?_⟩
  · rintro key hkey other hother rfl
    exact hfree key hkey (hplan key hother)
  · rintro key hkey other hother rfl
    rcases List.mem_append.mp hother with hother | hother
    · exact hfree key hother (hhead key hkey)
    · exact hown.2.2 key hkey key hother rfl

/-- What is left of the flags without the placement is the config's. -/
theorem launchFlags_config (h : Pasteable spec) :
    (launchFlags spec).filter (fun e => e.1 ∉ placementFlags) = configFlags spec := by
  have hhead : (headFlags spec).filter (fun e => e.1 ∉ placementFlags) = [] :=
    List.filter_eq_nil_iff.mpr fun e he => by simp [headFlags_placed spec e he]
  have hplan : (planFlags spec).filter (fun e => e.1 ∉ placementFlags) = [] :=
    List.filter_eq_nil_iff.mpr fun e he => by simp [planFlags_placed spec e he]
  have hconfig : (configFlags spec).filter (fun e => e.1 ∉ placementFlags) = configFlags spec :=
    List.filter_eq_self.mpr fun e he => decide_eq_true (configFlags_notPlaced h e he)
  unfold launchFlags
  rw [List.filter_append, List.filter_append, hhead, hplan, hconfig]
  simp

/-! ### The weights -/

/-- At the model's place stand the weights, and nothing else. -/
theorem mounts_model (h : Pasteable spec) {v : String × String} (hv : v ∈ spec.mounts.entries)
    (htarget : volumeTarget v.2 = modelMount) : v = (spec.modelPath, modelMount) := by
  have hcache : volumeTarget "/root/.cache" ≠ modelMount := by decide
  rcases mem_mergeVolumes.mp hv with hdeclared | ⟨hdefault, -, -⟩
  · exact absurd htarget (h.weights v hdeclared).2
  · have hcases : v = (spec.modelPath, modelMount) ∨ v = (spec.cacheDir, "/root/.cache") := by
      simpa [Dict.ofEntries, Dict.setAll, Dict.set, Dict.empty, dictSet, h.cache] using hdefault
    rcases hcases with heq | heq
    · exact heq
    · rw [heq] at htarget
      exact absurd htarget hcache

theorem mounts_weights (h : Pasteable spec) : (spec.modelPath, modelMount) ∈ spec.mounts.entries := by
  have hplace : volumeTarget modelMount = modelMount := by decide
  refine mem_mergeVolumes.mpr (Or.inr ⟨?_, ?_, ?_⟩)
  · simp [Dict.ofEntries, Dict.setAll, Dict.set, Dict.empty, dictSet, h.cache]
  · rintro ⟨v, hv, htarget⟩
    exact (h.weights v hv).2 (htarget.trans hplace)
  · rw [Bool.eq_false_iff, Ne, Dict.has_iff]
    rintro ⟨target, htarget⟩
    exact (h.weights _ (Dict.mem_entries.mpr htarget)).1 rfl

/-- The model's place is found at the weights. -/
theorem mountedAt_weights (h : Pasteable spec) :
    mountedAt (sortEntries spec.mounts.entries) modelMount = some spec.modelPath := by
  have hplace : rstripChar '/' modelMount = modelMount ∧ modelMount ≠ "" := by decide
  have hsame : ∀ path, containerPath path = modelMount → volumeTarget path = modelMount := by
    intro path hpath
    have hbare : rstripChar '/' (partitionAt ':' path).1 = modelMount := hpath
    simp [volumeTarget, hbare, hplace.2]
  have hown : containerPath modelMount = modelMount := by decide
  unfold mountedAt
  cases hfind : (sortEntries spec.mounts.entries).find?
      (fun v => containerPath v.2 = rstripChar '/' modelMount && modelMount ≠ "") with
  | none =>
      have hno := List.find?_eq_none.mp hfind _ (mem_sortEntries.mpr (mounts_weights h))
      exact absurd (by simp [hown, hplace.1, hplace.2]) hno
  | some v =>
      have htest := List.find?_some hfind
      have hpath : containerPath v.2 = modelMount := by
        rw [Bool.and_eq_true] at htest
        exact (of_decide_eq_true htest.1).trans hplace.1
      have hv := mem_sortEntries.mp (List.mem_of_find?_eq_some hfind)
      rw [mounts_model h hv (hsame _ hpath)]
      rfl

/-! ### What is compiled -/

theorem launchFlags_get (h : Pasteable spec) {key : String} {value : Json F} (he : (key, value) ∈ launchFlags spec) :
    dictGet (launchFlags spec) key = some value := dictGet_of_mem (launchFlags_nodup h) he

/-- What the engine finds its model under: sglang is told the model's place, vLLM's positional is not read. -/
theorem launchFlags_modelPath (h : Pasteable spec) :
    engineModelPath (launchFlags spec) (launcher spec.engine ++ (launchFlags spec).flatMap flagTokens) =
      if spec.engine = "sglang" then modelMount else "" := by
  have hnoModel : dictGet (launchFlags spec) "model" = none := by
    refine Option.not_isSome_iff_eq_none.mp fun hsome => ?_
    obtain ⟨e, he, hkey⟩ := List.mem_map.mp (dictGet_isSome.mp hsome)
    rcases List.mem_append.mp he with he | he
    · have hall : ∀ e ∈ headFlags spec, e.1 ≠ "model" := by
        by_cases hengine : spec.engine = "sglang"
        · simp [headFlags, hengine]
        · simp [headFlags, hengine]
      exact hall e he hkey
    · rcases List.mem_append.mp he with he | he
      · exact configFlags_notPlaced h e he (hkey ▸ by decide)
      · have hall : ∀ e ∈ planFlags spec, e.1 ≠ "model" := by
          by_cases hplan : spec.engine = "sglang" ∧ 1 < spec.nnodes
          · simp [planFlags, hplan]
          · simp [planFlags, hplan]
        exact hall e he hkey
  rcases h.engine with hengine | hengine
  · have hmodel : dictGet (launchFlags spec) "model_path" = some (.str modelMount) :=
      launchFlags_get h (List.mem_append_left _ (by simp [headFlags, hengine]))
    have htruthy : (Json.str modelMount : Json F).truthy = true := by simp [Json.truthy, modelMount]
    simp [engineModelPath, argOr, hmodel, htruthy, hengine, Json.text]
  · have hother : ("vllm" : String) ≠ "sglang" := by decide
    have hnoPath : dictGet (launchFlags spec) "model_path" = none := by
      refine Option.not_isSome_iff_eq_none.mp fun hsome => ?_
      obtain ⟨e, he, hkey⟩ := List.mem_map.mp (dictGet_isSome.mp hsome)
      rcases List.mem_append.mp he with he | he
      · have hall : ∀ e ∈ headFlags spec, e.1 ≠ "model_path" := by simp [headFlags, hengine]
        exact hall e he hkey
      · rcases List.mem_append.mp he with he | he
        · exact configFlags_notPlaced h e he (hkey ▸ by decide)
        · have hnil : planFlags spec = [] := by simp [planFlags, hengine]
          rw [hnil] at he
          exact absurd he List.not_mem_nil
    have hserve : lastSegment "serve" ≠ "vllm" := by decide
    have hpositional : ∀ rest, positionalModel ("serve" :: modelMount :: rest) = "" := by
      intro rest
      cases rest with
      | nil => rfl
      | cons t rest => simp [positionalModel, hserve]
    simp [engineModelPath, argOr, hnoPath, hnoModel, hengine, launcher, hpositional]

/-- The canonical vocabulary gives the config back. -/
theorem configFlags_back (hfloats : ∀ x : F, IsValueText (PyRuntime.text x)) (h : Pasteable spec) :
    (normalizeArgs spec.engine (configFlags spec)).1 =
      (sortEntries spec.engineArgs.entries).filterMap (cameBack spec.engine) := by
  have hrenderable : ∀ e ∈ spec.engineArgs.entries, IsRenderable isSnake spec.engine e := fun e he => (h.args e he).1
  have hwritten : ∀ e ∈ configFlags spec, IsWritten e := fun e he =>
    (launchFlags_isFlag hfloats h e (List.mem_append_right _ (List.mem_append_left _ he))).isWritten
  have hnodup : ((configFlags spec).map Prod.fst).Nodup := by
    have hall := launchFlags_nodup h
    rw [launchFlags, List.map_append, List.map_append, List.nodup_append, List.nodup_append] at hall
    exact hall.2.1.1
  calc
    (normalizeArgs spec.engine (configFlags spec)).1
        = (normalizeArgs spec.engine (parseEngineArgs ((configFlags spec).flatMap flagTokens))).1 := by
          rw [parseEngineArgs_written hwritten hnodup]
    _ = (normalizeArgs spec.engine (parseEngineArgs (renderArgs spec.engineArgs.entries spec.engine))).1 := by
          rw [renderArgs_written h.engine hrenderable]
          rfl
    _ = (sortEntries spec.engineArgs.entries).filterMap (cameBack spec.engine) :=
          read_rendered hfloats h.engine spec.engineArgs hrenderable

/-- The command of a launch is a `docker run` whose options set its variables and mount its volumes. -/
theorem launch_run (hfloats : ∀ x : F, IsValueText (PyRuntime.text x)) (h : Pasteable spec) {gpuMode : String}
    {cmd : List String} (hcmd : renderDockerCommand gpuMode spec = .ok cmd) :
    (∀ t ∈ cmd, IsToken t) ∧ ∃ managed, dockerPart F cmd =
      ({ image := spec.image
         extraEnv := sortEntries (defaultEnv.merge spec.env).entries
         extraVolumes := sortEntries spec.mounts.entries
         platformManaged := managed
         warnings := [] }, launcher spec.engine ++ (launchFlags spec).flatMap flagTokens) := by
  have hentry : IsToken (entryPoint spec.engine) := by
    rcases h.engine with hengine | hengine
    · rw [hengine]
      decide
    · rw [hengine]
      decide
  have hcommand : ∀ t ∈ entryPoint spec.engine :: (launcher spec.engine ++ (launchFlags spec).flatMap flagTokens),
      IsToken t := by
    intro t ht
    rcases List.mem_cons.mp ht with rfl | ht
    · exact hentry
    rcases List.mem_append.mp ht with ht | ht
    · exact (launcher_plain h.engine t ht).1
    · exact (flagTokens_plain h.engine (launchFlags_isFlag hfloats h) t ht).1
  obtain ⟨run, htokens, himage, hwords, henvs, hvolumes, hquiet, hkept⟩ :=
    container_run (F := F) ⟨h.noOption, h.name, h.image, h.env, h.mounts, hcommand⟩ gpuMode spec.gpuCount
      (some spec.gpuIndices)
  have hrendered : cmd = run.tokens := by
    unfold renderDockerCommand at hcmd
    rw [renderEngineCommand_flags h] at hcmd
    exact (Except.ok.inj hcmd).symm.trans htokens.symm
  have hread := dockerPart_run (F := F) run
  rw [hwords, container_part himage henvs hvolumes hquiet] at hread
  exact ⟨hrendered ▸ hkept, _, hrendered ▸ hread⟩

/-- A launch's command names its engine. -/
theorem launch_engine (h : Pasteable spec) {gpuMode : String} {cmd : List String}
    (hcmd : renderDockerCommand gpuMode spec = .ok cmd)
    (hother : spec.engine = "vllm" → ¬ Names (shellJoin cmd) "sglang") :
    engineOfText (shellJoin cmd) = spec.engine := by
  have hrendered := hcmd
  unfold renderDockerCommand at hrendered
  rw [renderEngineCommand_flags h] at hrendered
  have hrendered := Except.ok.inj hrendered
  rcases h.engine with hengine | hengine
  · have hmem : "sglang.launch_server" ∈ cmd := by
      rw [← hrendered]
      simp [containerCommand, launcher, hengine]
    have hnamed : Names (shellJoin cmd) "sglang" :=
      names_of_word hmem (by decide) (by decide) (by decide)
    simp [engineOfText, hnamed, hengine]
  · have hmem : "vllm" ∈ cmd := by
      rw [← hrendered]
      simp [containerCommand, entryPoint, hengine]
    have hnamed : Names (shellJoin cmd) "vllm" := names_of_word hmem (by decide) (by decide) (by decide)
    simp [engineOfText, hother hengine, hnamed, hengine]

/-- The text a launch's command is kept as compiles into the launch. -/
theorem launch_reads_back (hfloats : ∀ x : F, IsValueText (PyRuntime.text x)) (h : Pasteable spec)
    {gpuMode : String} {cmd : List String} (hcmd : renderDockerCommand gpuMode spec = .ok cmd)
    (hother : spec.engine = "vllm" → ¬ Names (shellJoin cmd) "sglang") :
    ∃ out, parseLaunchText F (shellJoin cmd) = .ok out ∧ ReadsBack spec out := by
  have hengine := launch_engine h hcmd hother
  obtain ⟨hkept, managed, hpart⟩ := launch_run hfloats h hcmd
  have hflags := launchFlags_isFlag hfloats h
  have hspelled : spellOut spec.engine (launcher spec.engine ++ (launchFlags spec).flatMap flagTokens) =
      launcher spec.engine ++ (launchFlags spec).flatMap flagTokens := by
    refine spellOut_plain fun t ht => ?_
    rcases List.mem_append.mp ht with ht | ht
    · exact (launcher_plain h.engine t ht).2
    · exact (flagTokens_plain h.engine hflags t ht).2
  have hargs := parseEngineArgs_launched h.engine hflags (launchFlags_nodup h)
  have hlook : ∀ (d : Dict String) key, dictGet (sortEntries d.entries) key = d.get? key := fun d key =>
    dictGet_perm (((perm_sortEntries d.entries).map Prod.fst).nodup_iff.mpr d.nodup) (perm_sortEntries d.entries) key
  have hpath := launchFlags_modelPath h
  have hmount : mountedAt (sortEntries spec.mounts.entries) (if spec.engine = "sglang" then modelMount else "") =
      if spec.engine = "sglang" then some spec.modelPath else none := by
    by_cases hsglang : spec.engine = "sglang"
    · simpa [hsglang] using mountedAt_weights h
    · simp [hsglang, mountedAt]
  have hserved : dictGet (launchFlags spec) "served_model_name" = some (.str spec.servedModelName) :=
    launchFlags_get h (List.mem_append_left _ (by simp [headFlags]))
  have hport : dictGet (launchFlags spec) "port" = some (.str (toString spec.port)) :=
    launchFlags_get h (List.mem_append_left _ (by simp [headFlags]))
  have hserviced : servicePort (launchFlags spec) = spec.port := by
    unfold servicePort
    rw [hport]
    change (intOfText (toString spec.port)).getD 0 = spec.port
    rw [intOfText_toString]
    rfl
  have hnonempty : spec.servedModelName ≠ "" := h.served.isToken.nonempty
  unfold parseLaunchText
  rw [tokenize_shellJoin hkept, hengine]
  refine ⟨_, rfl, ?_⟩
  unfold compileLaunch
  simp only [hpart, hspelled, hargs, hpath, hserviced, hmount, launchFlags_config h]
  constructor
  case engine => rfl
  case image => rfl
  case served => simp [argOr, hserved, Json.truthy, Json.text, hnonempty]
  case port => rfl
  case args => exact configFlags_back hfloats h
  case env =>
    intro name
    calc
      dictGet (sortEntries (defaultEnv.merge spec.env).entries) name
          = (defaultEnv.merge spec.env).get? name := hlook _ name
      _ = (spec.env.get? name).or (defaultEnv.get? name) := Dict.get?_merge _ _ name
  case weights =>
    by_cases hsglang : spec.engine = "sglang"
    · simp [hsglang]
    · simp [hsglang]
  case volumes =>
    intro host
    by_cases hsglang : spec.engine = "sglang"
    · simp [hsglang, dictGet_pop, hlook]
    · simp [hsglang, hlook]
  case warnings =>
    by_cases hsglang : spec.engine = "sglang"
    · simp [hsglang]
    · simp [hsglang]

end Launch

/-! ### A worker of a gang -/

/-- The second of two machines, with texts that have to be quoted. -/
def gangLaunch : LaunchSpec Empty where
  runId := 7
  gpuCount := 8
  engine := "sglang"
  image := "sglang:v0.5"
  modelPath := "/models/qwen"
  servedModelName := "qwen"
  engineArgs := .ofEntries [("tp", .int 16), ("json_model_override_args", .str "\x7b\"a\": 1\x7d")]
  gpuIndices := [0, 1]
  env := .ofEntries [("NCCL_DEBUG", "it's on")]
  rank := 1
  nnodes := 2
  distInitAddr := "10.0.0.1:20000"

theorem gangLaunch_pasteable : Pasteable gangLaunch where
  engine := Or.inl rfl
  name := by decide
  image := by decide
  noOption := by decide
  served := ⟨⟨by decide, by decide, by decide, by decide, by decide⟩, by decide, by decide⟩
  plan _ := ⟨⟨by decide, by decide, by decide, by decide, by decide⟩, by decide, by decide⟩
  args := by
    intro e he
    have hentries : gangLaunch.engineArgs.entries =
        [("tp", .int 16), ("json_model_override_args", .str "\x7b\"a\": 1\x7d")] := rfl
    rw [hentries] at he
    simp only [List.mem_cons, List.not_mem_nil, or_false] at he
    have hsize : isSwitch "sglang" "tp" = false := by decide
    have hoverride : isSwitch "sglang" "json_model_override_args" = false := by decide
    rcases he with rfl | rfl
    · exact ⟨⟨by decide, by decide, by decide, hsize⟩, by decide⟩
    · exact ⟨⟨by decide, by decide, by decide, hoverride,
        ⟨by decide, by decide, by decide, by decide, by decide⟩⟩, by decide⟩
  texts := by decide
  env := by decide
  mounts := by decide
  weights := by decide
  cache := by decide

/-- Its command. -/
def gangCommand : List String :=
  ["docker", "run", "-d", "--name", "autotune-run-7", "--network", "host", "--gpus", "\"device=0,1\"",
    "--runtime=nvidia", "--ipc=host", "--cap-add=SYS_PTRACE", "--cap-add=SYS_NICE", "--ulimit", "memlock=-1",
    "--ulimit", "stack=67108864", "--security-opt", "label=disable", "--restart", "no", "-e", "NCCL_DEBUG=it's on",
    "-e", "NVIDIA_DISABLE_REQUIRE=1", "-e", "PYTORCH_ALLOC_CONF=expandable_segments:True",
    "-v", "/models/qwen:/model", "-v", "/root/deploy/autotune/run-7/cache:/root/.cache", "--entrypoint", "python3",
    "sglang:v0.5", "-m", "sglang.launch_server", "--model-path", "/model", "--served-model-name", "qwen",
    "--host", "0.0.0.0", "--port", "28200", "--json-model-override-args", "\x7b\"a\": 1\x7d", "--tp-size", "16",
    "--nnodes", "2", "--node-rank", "1", "--dist-init-addr", "10.0.0.1:20000"]

theorem gangLaunch_command : renderDockerCommand "nvidia" gangLaunch = .ok gangCommand := by decide +kernel

theorem gangLaunch_reads_back :
    ∃ out, parseLaunchText Empty (shellJoin gangCommand) = .ok out ∧ ReadsBack gangLaunch out :=
  launch_reads_back (fun x => x.elim) gangLaunch_pasteable gangLaunch_command
    fun h => absurd h (by decide)

end AutoTune.SshDocker
