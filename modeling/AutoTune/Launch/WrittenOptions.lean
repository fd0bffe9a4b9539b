import AutoTune.Launch.DockerCommand
import AutoTune.Recipe.DockerOptions
import AutoTune.Recipe.PastedText

/-!
# The docker options of a launch

What the ssh driver writes behind `docker run` is read option by option: the variables and the volumes come out
as they were, the options the platform sets itself are known as its own, and nothing is warned of.
-/

namespace AutoTune.SshDocker

open Lib

/-! ## Tokens -/

theorem isToken_noSpace {s : String} (hne : s ≠ "") (h : ∀ c ∈ s.toList, isSpace c = false) : IsToken s where
  stripped := strip_of_noSpace h
  nonempty := hne
  oneLine := fun hmem => absurd (h '\n' hmem) (by decide)

theorem isToken_int (n : Int) : IsToken (toString n) := by
  refine isToken_noSpace (fun hnil => ?_) (intText_notSpace n)
  obtain ⟨cs, -, hne, htext⟩ := intText_chars n
  rw [hnil] at htext
  rcases htext with htext | htext
  · exact hne htext.symm
  · cases htext

theorem isToken_gpuArgument (indices : List Int) : IsToken (gpuArgument indices) := by
  by_cases hnil : indices = []
  · have hall : gpuArgument indices = "all" := by simp [gpuArgument, hnil]
    rw [hall]
    decide
  · have hdevice : gpuArgument indices = "\"device=" ++ ",".intercalate (indices.map toString) ++ "\"" := by
      simp [gpuArgument, hnil]
    rw [hdevice]
    refine isToken_noSpace (by simp) fun c hc => ?_
    have hchars : ∀ l : List Int, ∀ d ∈ (",".intercalate (l.map toString)).toList, isSpace d = false := by
      intro l
      induction l with
      | nil => simp
      | cons n l ih =>
          intro d hd
          cases l with
          | nil => exact intText_notSpace n d (by simpa using hd)
          | cons m l =>
              have hcases : d ∈ (toString n).toList ∨ d = ',' ∨
                  d ∈ (",".intercalate ((m :: l).map toString)).toList := by
                simpa [String.intercalate_cons_cons, or_assoc] using hd
              rcases hcases with hd | rfl | hd
              · exact intText_notSpace n d hd
              · decide
              · exact ih d hd
    have hcases : c ∈ "\"device=".toList ∨ c ∈ (",".intercalate (indices.map toString)).toList ∨ c = '"' := by
      simpa [or_assoc] using hc
    rcases hcases with hc | hc | rfl
    · have hfixed : ∀ d ∈ "\"device=".toList, isSpace d = false := by simp [isSpace]
      exact hfixed c hc
    · exact hchars indices c hc
    · decide

/-! ## The docker options -/

/-- Docker options that are written as these tokens, each kept as it is, set these variables, mount these volumes,
and leave no warning. -/
structure Written (F : Type) [PyRuntime F] (tokens : List String) (envs volumes : List (String × String))
    (options : List DockerOption) : Prop where
  kept : ∀ t ∈ tokens, IsToken t
  tokens : options.flatMap DockerOption.tokens = tokens
  envs : options.filterMap DockerOption.env? = envs
  volumes : options.filterMap DockerOption.volume? = volumes
  quiet : options.flatMap (DockerOption.warned F) = []

section Options

variable {F : Type} [PyRuntime F]

theorem Written.append {ts ts' : List String} {es es' vs vs' : List (String × String)}
    {options options' : List DockerOption} (h : Written F ts es vs options) (h' : Written F ts' es' vs' options') :
    Written F (ts ++ ts') (es ++ es') (vs ++ vs') (options ++ options') where
  tokens := by simp [h.tokens, h'.tokens]
  envs := by simp [h.envs, h'.envs]
  volumes := by simp [h.volumes, h'.volumes]
  quiet := by simp [h.quiet, h'.quiet]
  kept t ht := by
    rcases List.mem_append.mp ht with ht | ht
    · exact h.kept t ht
    · exact h'.kept t ht

theorem written_nil : Written F [] [] [] [] := by
  refine ⟨by simp, by simp, by simp, by simp, by simp⟩

theorem known_isToken : ∀ opt ∈ dockerValueOpts, IsToken opt := by decide

/-- An option the platform sets itself is neither a variable nor a volume. -/
theorem written_managed {o : DockerOption} (h : o.opt ∈ platformManagedOpts) (hkept : ∀ t ∈ o.tokens, IsToken t) :
    Written F o.tokens [] [] [o] := by
  have happart : ∀ opt ∈ platformManagedOpts, opt ∉ ["-e", "--env"] ∧ opt ∉ ["-v", "--volume"] := by decide
  obtain ⟨henv, hvolume⟩ := happart o.opt h
  have hno : o.env? = none := by
    unfold DockerOption.env?
    rw [if_neg henv]
  have hnoVolume : o.volume? = none := by
    unfold DockerOption.volume?
    rw [if_neg fun hboth => hvolume hboth.1]
  refine ⟨hkept, by simp, by simp [hno], by simp [hnoVolume], ?_⟩
  simp [DockerOption.warned, henv, h]

theorem written_separate (opt value : String) (hmanaged : opt ∈ platformManagedOpts)
    (hknown : opt ∈ dockerValueOpts) (hvalue : IsToken value) : ∃ options, Written F [opt, value] [] [] options := by
  refine ⟨_, written_managed (o := .separate opt hknown ⟨value, hvalue.stripped, hvalue.nonempty⟩) hmanaged ?_⟩
  intro t ht
  rcases List.mem_pair.mp ht with rfl | rfl
  · exact known_isToken t hknown
  · exact hvalue

theorem written_inlined (opt value : String) (hmanaged : opt ∈ platformManagedOpts)
    (hknown : opt ∈ dockerValueOpts) (htoken : IsToken (opt ++ "=" ++ value)) :
    ∃ options, Written F [opt ++ "=" ++ value] [] [] options := by
  refine ⟨_, written_managed (o := .inlined opt hknown value htoken.stripped) hmanaged ?_⟩
  intro t ht
  rw [List.mem_singleton.mp ht]
  exact htoken

/-- One option after another. -/
theorem written_both {ts ts' : List String} {es es' vs vs' : List (String × String)}
    (h : ∃ options, Written F ts es vs options) (h' : ∃ options, Written F ts' es' vs' options) :
    ∃ options, Written F (ts ++ ts') (es ++ es') (vs ++ vs') options := by
  obtain ⟨options, hoptions⟩ := h
  obtain ⟨options', hoptions'⟩ := h'
  exact ⟨options ++ options', hoptions.append hoptions'⟩

/-- A variable whose name holds no `=` is read as it was. -/
theorem written_envs {l : List (String × String)}
    (h : ∀ e ∈ l, hasChar e.1 '=' = false ∧ IsToken (e.1 ++ "=" ++ e.2)) :
    ∃ options, Written F (l.flatMap fun e => ["-e", e.1 ++ "=" ++ e.2]) l [] options := by
  induction l with
  | nil => exact ⟨[], written_nil⟩
  | cons e l ih =>
      obtain ⟨hname, htoken⟩ := h e List.mem_cons_self
      have hcut : partitionAt '=' (e.1 ++ "=" ++ e.2) = e := partitionAt_append hname e.2
      have heq : hasChar (e.1 ++ "=" ++ e.2) '=' = true := by simp [hasChar]
      have hknown : "-e" ∈ dockerValueOpts := by decide
      have hfirst : Written F ["-e", e.1 ++ "=" ++ e.2] [e] []
          [.separate "-e" hknown ⟨e.1 ++ "=" ++ e.2, htoken.stripped, htoken.nonempty⟩] := by
        refine ⟨fun t ht => ?_, by simp [DockerOption.tokens], ?_, ?_, ?_⟩
        · rcases List.mem_pair.mp ht with rfl | rfl
          · exact known_isToken "-e" hknown
          · exact htoken
        · simp [DockerOption.env?, DockerOption.opt, DockerOption.value, hcut]
        · simp [DockerOption.volume?, DockerOption.opt]
        · simp [DockerOption.warned, DockerOption.opt, DockerOption.value, heq]
      exact written_both ⟨_, hfirst⟩ (ih fun e' he' => h e' (List.mem_cons_of_mem e he'))

/-- A volume whose host directory holds no colon is read as it was. -/
theorem written_volumes {l : List (String × String)}
    (h : ∀ v ∈ l, hasChar v.1 ':' = false ∧ IsToken (v.1 ++ ":" ++ v.2)) :
    ∃ options, Written F (l.flatMap fun v => ["-v", v.1 ++ ":" ++ v.2]) [] l options := by
  induction l with
  | nil => exact ⟨[], written_nil⟩
  | cons v l ih =>
      obtain ⟨hhost, htoken⟩ := h v List.mem_cons_self
      have hcut : partitionAt ':' (v.1 ++ ":" ++ v.2) = v := partitionAt_append hhost v.2
      have hcolon : hasChar (v.1 ++ ":" ++ v.2) ':' = true := by simp [hasChar]
      have hknown : "-v" ∈ dockerValueOpts := by decide
      have hfirst : Written F ["-v", v.1 ++ ":" ++ v.2] [] [v]
          [.separate "-v" hknown ⟨v.1 ++ ":" ++ v.2, htoken.stripped, htoken.nonempty⟩] := by
        have hvolume : DockerOption.volume?
            (.separate "-v" hknown ⟨v.1 ++ ":" ++ v.2, htoken.stripped, htoken.nonempty⟩) = some v := by
          simp [DockerOption.volume?, DockerOption.opt, DockerOption.value, hcut, hcolon]
        refine ⟨fun t ht => ?_, by simp [DockerOption.tokens], ?_, ?_, ?_⟩
        · rcases List.mem_pair.mp ht with rfl | rfl
          · exact known_isToken "-v" hknown
          · exact htoken
        · simp [DockerOption.env?, DockerOption.opt]
        · simp [hvolume]
        · simp [DockerOption.warned, hvolume, DockerOption.opt]
      exact written_both ⟨_, hfirst⟩ (ih fun v' hv' => h v' (List.mem_cons_of_mem v hv'))

theorem written_gpus (gpuMode : String) (gpuCount : Int) (gpuIndices : Option (List Int)) :
    ∃ options, Written F (gpuOptions gpuMode gpuCount gpuIndices) [] [] options := by
  have hnone : ∃ options, Written F [] [] [] options := ⟨[], written_nil⟩
  cases gpuIndices with
  | none => exact hnone
  | some indices =>
      by_cases hcards : gpuMode ≠ "none" ∧ 0 < gpuCount
      · have hgpus := written_separate (F := F) "--gpus" (gpuArgument indices) (by decide) (by decide)
          (isToken_gpuArgument indices)
        have hruntime := written_inlined (F := F) "--runtime" "nvidia" (by decide) (by decide) (by decide)
        simpa [gpuOptions, hcards] using written_both hgpus hruntime
      · simpa [gpuOptions, hcards] using hnone

/-- What `_docker_base` writes behind `docker run` is read option by option: the variables, the volumes, and
nothing that is lost. -/
theorem written_base (gpuMode : String) {name : String} (gpuCount : Int) (gpuIndices : Option (List Int))
    {env volumes : Dict String} (hname : IsToken name)
    (henv : ∀ e ∈ (defaultEnv.merge env).entries, hasChar e.1 '=' = false ∧ IsToken (e.1 ++ "=" ++ e.2))
    (hvolumes : ∀ v ∈ volumes.entries, hasChar v.1 ':' = false ∧ IsToken (v.1 ++ ":" ++ v.2)) :
    ∃ options, Written F ((dockerBase gpuMode name gpuCount gpuIndices env volumes).drop 2)
      (sortEntries (defaultEnv.merge env).entries) (sortEntries volumes.entries) options := by
  have hdetach : ∃ options, Written F ["-d"] [] [] options :=
    ⟨_, written_managed (o := .switch "-d" (by decide)) (by decide) (by decide)⟩
  have hnamed := written_separate (F := F) "--name" name (by decide) (by decide) hname
  have hnetwork := written_separate (F := F) "--network" "host" (by decide) (by decide) (by decide)
  have hipc := written_inlined (F := F) "--ipc" "host" (by decide) (by decide) (by decide)
  have hptrace := written_inlined (F := F) "--cap-add" "SYS_PTRACE" (by decide) (by decide) (by decide)
  have hnice := written_inlined (F := F) "--cap-add" "SYS_NICE" (by decide) (by decide) (by decide)
  have hmemlock := written_separate (F := F) "--ulimit" "memlock=-1" (by decide) (by decide) (by decide)
  have hstack := written_separate (F := F) "--ulimit" "stack=67108864" (by decide) (by decide)
    (by decide)
  have hlabel := written_separate (F := F) "--security-opt" "label=disable" (by decide) (by decide)
    (by decide)
  have hrestart := written_separate (F := F) "--restart" "no" (by decide) (by decide) (by decide)
  have hhead := written_both hdetach (written_both hnamed hnetwork)
  have hfixed := written_both hipc (written_both hptrace (written_both hnice (written_both hmemlock
    (written_both hstack (written_both hlabel hrestart)))))
  have hsortedEnv := written_envs (F := F) (l := sortEntries (defaultEnv.merge env).entries)
    fun e he => henv e (mem_sortEntries.mp he)
  have hsortedVolumes := written_volumes (F := F) (l := sortEntries volumes.entries)
    fun v hv => hvolumes v (mem_sortEntries.mp hv)
  obtain ⟨options, hoptions⟩ := written_both hhead (written_both (written_gpus (F := F) gpuMode gpuCount gpuIndices)
    (written_both hfixed (written_both hsortedEnv hsortedVolumes)))
  exact ⟨options, by simpa [dockerBase] using hoptions⟩

/-- Words with their proofs. -/
theorem exists_words {texts : List String} (h : ∀ t ∈ texts, IsToken t) :
    ∃ words : List Word, words.map Word.text = texts := by
  induction texts with
  | nil => exact ⟨[], rfl⟩
  | cons t texts ih =>
      obtain ⟨words, hwords⟩ := ih fun t' ht' => h t' (List.mem_cons_of_mem t ht')
      have ht := h t List.mem_cons_self
      exact ⟨⟨t, ht.stripped, ht.nonempty⟩ :: words, by simp [hwords]⟩

theorem merged_written {env : Dict String}
    (h : ∀ e ∈ env.entries, hasChar e.1 '=' = false ∧ IsToken (e.1 ++ "=" ++ e.2)) :
    ∀ e ∈ (defaultEnv.merge env).entries, hasChar e.1 '=' = false ∧ IsToken (e.1 ++ "=" ++ e.2) := by
  have hdefault : ∀ e ∈ defaultEnv.entries, hasChar e.1 '=' = false ∧ IsToken (e.1 ++ "=" ++ e.2) := by
    decide +kernel
  rintro ⟨name, value⟩ he
  have hget := Dict.mem_entries.mp he
  rw [Dict.get?_merge, Option.or_eq_some_iff] at hget
  rcases hget with hget | ⟨-, hget⟩
  · exact h _ (Dict.mem_entries.mpr hget)
  · exact hdefault _ (Dict.mem_entries.mpr hget)

/-- A container the driver runs, with texts that are read as they stand. -/
structure Runnable (name image : String) (env volumes : Dict String) (command : List String) : Prop where
  noOption : startsWith image "-" = false
  name : IsToken name
  image : IsToken image
  env : ∀ e ∈ env.entries, hasChar e.1 '=' = false ∧ IsToken (e.1 ++ "=" ++ e.2)
  volumes : ∀ v ∈ volumes.entries, hasChar v.1 ':' = false ∧ IsToken (v.1 ++ ":" ++ v.2)
  command : ∀ t ∈ command, IsToken t

/-- What the driver runs is a `docker run` of the image, with the variables and the volumes. -/
theorem container_run {name image : String} {env volumes : Dict String} {command : List String}
    (h : Runnable name image env volumes command) (gpuMode : String) (gpuCount : Int)
    (gpuIndices : Option (List Int)) :
    ∃ run : DockerRun,
      run.tokens = dockerBase gpuMode name gpuCount gpuIndices env volumes ++ containerCommand image command ∧
      run.image.text = image ∧ run.command.map Word.text = command.tail ∧
      run.envs = sortEntries (defaultEnv.merge env).entries ∧ run.volumes = sortEntries volumes.entries ∧
      run.options.flatMap (DockerOption.warned F) = [] ∧ ∀ t ∈ run.tokens, IsToken t := by
  have hentry : ∃ options, Written F ((command.head?.map fun t => ["--entrypoint", t]).getD []) [] [] options := by
    cases command with
    | nil => exact ⟨[], written_nil⟩
    | cons t words =>
        exact written_separate "--entrypoint" t (by decide) (by decide) (h.command t List.mem_cons_self)
  have hbehind : containerCommand image command =
      (command.head?.map fun t => ["--entrypoint", t]).getD [] ++ image :: command.tail := by
    cases command with
    | nil => rfl
    | cons t words => rfl
  obtain ⟨options, hoptions⟩ := written_both
    (written_base (F := F) gpuMode gpuCount gpuIndices h.name (merged_written h.env) h.volumes) hentry
  obtain ⟨words, hwords⟩ := exists_words fun t ht => h.command t (List.mem_of_mem_tail ht)
  have hhead : dockerBase gpuMode name gpuCount gpuIndices env volumes =
      "docker" :: "run" :: (dockerBase gpuMode name gpuCount gpuIndices env volumes).drop 2 := by simp [dockerBase]
  let run : DockerRun := ⟨options, ⟨image, h.image.stripped, h.image.nonempty⟩, h.noOption, words⟩
  refine ⟨run, ?_, rfl, hwords, ?_, ?_, hoptions.quiet, ?_⟩
  · rw [hbehind, hhead]
    simp [DockerRun.tokens, run, hoptions.tokens, hwords]
  · simpa [DockerRun.envs, run] using hoptions.envs
  · simpa [DockerRun.volumes, run] using hoptions.volumes
  · intro t ht
    simp only [DockerRun.tokens, run, hoptions.tokens, hwords, List.mem_cons, List.mem_append] at ht
    rcases ht with rfl | rfl | ht | rfl | ht
    · decide
    · decide
    · exact hoptions.kept t (List.mem_append.mpr (by simpa using ht))
    · exact h.image
    · exact h.command t (List.mem_of_mem_tail ht)

theorem foldl_sorted (d : Dict String) :
    (sortEntries d.entries).foldl (fun d e => dictSet d e.1 e.2) [] = sortEntries d.entries :=
  foldl_dictSet_fresh (((perm_sortEntries d.entries).map Prod.fst).nodup_iff.mpr d.nodup)

/-- The docker part of what the driver runs. -/
theorem container_part {run : DockerRun} {image : String} {env volumes : Dict String} (himage : run.image.text = image)
    (henvs : run.envs = sortEntries (defaultEnv.merge env).entries) (hvolumes : run.volumes = sortEntries volumes.entries)
    (hquiet : run.options.flatMap (DockerOption.warned F) = []) :
    run.part F =
      { image := image
        extraEnv := sortEntries (defaultEnv.merge env).entries
        extraVolumes := sortEntries volumes.entries
        platformManaged := run.options.flatMap DockerOption.managed
        warnings := [] } := by
  unfold DockerRun.part
  rw [himage, henvs, hvolumes, hquiet, foldl_sorted, foldl_sorted]

/-- The container of a policy is read as it was asked for: its image, its variables, its volumes and, behind the
entry point, its command. -/
theorem workload_part (gpuMode : String) {spec : WorkloadSpec}
    (h : Runnable spec.name spec.image spec.env spec.volumes spec.command) :
    ∃ managed, dockerPart F (renderWorkloadCommand gpuMode spec) =
      ({ image := spec.image
         extraEnv := sortEntries (defaultEnv.merge spec.env).entries
         extraVolumes := sortEntries spec.volumes.entries
         platformManaged := managed
         warnings := [] }, spec.command.tail) := by
  obtain ⟨run, htokens, himage, hcommand, henvs, hvolumes, hquiet, -⟩ :=
    container_run (F := F) h gpuMode spec.gpuCount spec.gpuIndices
  have hread := dockerPart_run (F := F) run
  rw [htokens, hcommand, container_part himage henvs hvolumes hquiet] at hread
  exact ⟨_, hread⟩

end Options

end AutoTune.SshDocker
