import AutoTune.Lib.Numerals
import AutoTune.Lib.Separators
import AutoTune.Recipe.LaunchCommand

/-!
# What becomes of the docker options

A `docker run` command is its options, the image and the engine's command. Each option should come out of
`parse_launch_command`: as a variable, as a volume, or as a report that names it. A switch the platform does
not set itself comes out nowhere, and of two volumes of one host directory only the last one does.
-/

namespace AutoTune

open Lib

/-! ## Commands -/

/-- A token as the parser keeps it. -/
structure Word where
  text : String
  stripped : strip text = text
  nonempty : text ≠ ""

/-- A docker option the parser knows. -/
inductive DockerOption where
  | separate (opt : String) (known : opt ∈ dockerValueOpts) (value : Word)
  | inlined (opt : String) (known : opt ∈ dockerValueOpts) (value : String)
      (stripped : strip (opt ++ "=" ++ value) = opt ++ "=" ++ value)
  | switch (opt : String) (known : opt ∈ dockerBoolOpts)

namespace DockerOption

def opt : DockerOption → String
  | separate opt _ _ => opt
  | inlined opt _ _ _ => opt
  | switch opt _ => opt

def value : DockerOption → String
  | separate _ _ value => value.text
  | inlined _ _ value _ => value
  | switch _ _ => ""

def tokens : DockerOption → List String
  | separate opt _ value => [opt, value.text]
  | inlined opt _ value _ => [opt ++ "=" ++ value]
  | switch opt _ => [opt]

/-- The variable an option sets. -/
def env? (o : DockerOption) : Option (String × String) :=
  if o.opt ∈ ["-e", "--env"] then some (partitionAt '=' o.value) else none

/-- The volume an option mounts: the host directory and the target. -/
def volume? (o : DockerOption) : Option (String × String) :=
  if o.opt ∈ ["-v", "--volume"] ∧ hasChar o.value ':' = true then some (partitionAt ':' o.value) else none

/-- The warning that tells of an option. -/
def warning (F : Type) [PyRuntime F] (o : DockerOption) : String :=
  if o.opt ∈ ["-v", "--volume"] then volumeWarning F o.value
  else if o.opt = "--mount" then mountWarning F o.value
  else flagWarning o.opt o.value

end DockerOption

/-- `docker run OPTS IMAGE CMD`. -/
structure DockerRun where
  options : List DockerOption
  image : Word
  noOption : startsWith image.text "-" = false
  command : List Word

namespace DockerRun

def tokens (run : DockerRun) : List String :=
  "docker" :: "run" :: (run.options.flatMap DockerOption.tokens ++ run.image.text :: run.command.map Word.text)

/-- The variables the options set, in order. -/
def envs (run : DockerRun) : List (String × String) := run.options.filterMap DockerOption.env?

/-- The volumes the options mount, in order. -/
def volumes (run : DockerRun) : List (String × String) := run.options.filterMap DockerOption.volume?

/-- The model path the engine's command names. -/
def modelPath (F : Type) [PyRuntime F] (run : DockerRun) : String :=
  let command := run.command.map Word.text
  engineModelPath (parseEngineArgs (F := F) (spellOut (engineOfCommand run.tokens) command)) command

end DockerRun

/-! ## What is asked of the answer -/

section Accounting

variable (F : Type) [PyRuntime F]

/-- A volume came over, to the extra volumes or as the directory of the model. -/
def VolumeKept (run : DockerRun) (out : LaunchCommand F) (host target : String) : Prop :=
  (∃ kept, dictGet out.extraVolumes host = some kept ∧ containerPath kept = containerPath target) ∨
    (dictGet out.extraVolumes host = none ∧ out.modelPath = host ∧
      containerPath target = rstripChar '/' (run.modelPath F))

/-- An entry of the platform's flags or a warning names an option. -/
def Reported (out : LaunchCommand F) (o : DockerOption) : Prop :=
  managedEntry o.opt o.value ∈ out.platformManaged ∨ o.warning F ∈ out.warnings

/-- Nothing of a command disappears. -/
structure NothingVanishes (run : DockerRun) (out : LaunchCommand F) : Prop where
  image : out.image = run.image.text
  envs : ∀ o ∈ run.options, ∀ name value, o.env? = some (name, value) →
    dictGet out.extraEnv name = lastUnder name run.envs
  volumes : ∀ o ∈ run.options, ∀ host target, o.volume? = some (host, target) → VolumeKept F run out host target
  others : ∀ o ∈ run.options, o.env? = none → o.volume? = none → Reported F out o

end Accounting

/-- No switch but those the platform sets itself. -/
def OwnSwitches (run : DockerRun) : Prop := ∀ o ∈ run.options, o.opt ∈ dockerBoolOpts → o.opt ∈ platformManagedOpts

/-- No host directory is mounted at two places. -/
def OnePlaceEach (run : DockerRun) : Prop :=
  ∀ v ∈ run.volumes, ∀ w ∈ run.volumes, v.1 = w.1 → containerPath v.2 = containerPath w.2

/-! ## One option -/

theorem dockerOpts_shape : ∀ opt ∈ dockerValueOpts ++ dockerBoolOpts,
    startsWith opt "-" = true ∧ hasChar opt '=' = false ∧ hasChar opt ' ' = false ∧
      (opt.toList.all fun c => !isSpace c) = true := by
  decide

theorem boolOpt_noValue : ∀ opt ∈ dockerBoolOpts, opt ∉ dockerValueOpts := by decide

namespace DockerOption

/-- The environment and volume options take a value. -/
theorem opt_cases (o : DockerOption) : o.opt ∈ dockerValueOpts ∨ o.opt ∈ dockerBoolOpts := by
  cases o with
  | separate opt known value => exact Or.inl known
  | inlined opt known value stripped => exact Or.inl known
  | switch opt known => exact Or.inr known

theorem opt_shape (o : DockerOption) : startsWith o.opt "-" = true ∧ hasChar o.opt '=' = false ∧
    hasChar o.opt ' ' = false ∧ (o.opt.toList.all fun c => !isSpace c) = true :=
  dockerOpts_shape o.opt (List.mem_append.mpr o.opt_cases)

end DockerOption

section Walk

variable (F : Type) [PyRuntime F]

/-- What the walk does with one option. -/
def DockerPart.takeDocker (out : DockerPart) (o : DockerOption) : DockerPart := out.takeOption F o.opt o.value

/-- An option's tokens are read as the option, whatever follows. -/
theorem walkOptions_option (o : DockerOption) (rest : List String) (out : DockerPart) :
    walkOptions F (o.tokens ++ rest) out = walkOptions F rest (out.takeDocker F o) := by
  have hshape := o.opt_shape
  cases o with
  | separate opt known value =>
      have hdash : startsWith opt "-" = true := hshape.1
      have heq : hasChar opt '=' = false := hshape.2.1
      change walkOptions F (opt :: value.text :: rest) out = _
      rw [walkOptions.eq_def]
      simp only [hdash, heq]
      simp [known, DockerPart.takeDocker, DockerOption.opt, DockerOption.value]
  | inlined opt known value stripped =>
      have hdash : startsWith (opt ++ "=" ++ value) "-" = true :=
        startsWith_append (startsWith_append hshape.1 "=") value
      have heq : hasChar (opt ++ "=" ++ value) '=' = true := by simp [hasChar]
      have hcut : partitionAt '=' (opt ++ "=" ++ value) = (opt, value) := partitionAt_append hshape.2.1 value
      change walkOptions F ((opt ++ "=" ++ value) :: rest) out = _
      rw [walkOptions.eq_def]
      simp only [hdash, heq, hcut]
      simp [DockerPart.takeDocker, DockerOption.opt, DockerOption.value]
  | switch opt known =>
      have hdash : startsWith opt "-" = true := hshape.1
      have heq : hasChar opt '=' = false := hshape.2.1
      change walkOptions F (opt :: rest) out = _
      rw [walkOptions.eq_def]
      simp only [hdash, heq]
      simp [boolOpt_noValue opt known, known, DockerPart.takeDocker, DockerOption.opt, DockerOption.value]

/-- The walk over a whole command. -/
theorem walkOptions_run (run : DockerRun) (out : DockerPart) :
    walkOptions F (run.options.flatMap DockerOption.tokens ++ run.image.text :: run.command.map Word.text) out =
      ({ run.options.foldl (DockerPart.takeDocker F) out with image := run.image.text },
        run.command.map Word.text) := by
  generalize run.options = options
  induction options generalizing out with
  | nil =>
      rw [List.flatMap_nil, List.nil_append, walkOptions.eq_def]
      simp [run.noOption]
  | cons o options ih =>
      rw [List.flatMap_cons, List.append_assoc, walkOptions_option, ih]
      rfl

/-- The platform's entry an option leaves. -/
def DockerOption.managed (o : DockerOption) : List String :=
  if o.opt ∈ platformManagedOpts then [managedEntry o.opt o.value] else []

/-- The warnings an option leaves. -/
def DockerOption.warned (o : DockerOption) : List String :=
  if o.opt ∈ ["-e", "--env"] then
    if hasChar o.value '=' then [] else [envWarning (partitionAt '=' o.value).1]
  else if o.volume?.isSome ∨ o.opt ∈ platformManagedOpts ∨ o.opt ∈ dockerBoolOpts then []
  else [o.warning F]

theorem ownFields_apart : ∀ opt ∈ ["-e", "--env", "-v", "--volume", "--mount"],
    opt ∉ platformManagedOpts ∧ opt ∉ dockerBoolOpts := by
  decide

theorem env_notVolume : ∀ opt ∈ ["-e", "--env"], opt ∉ ["-v", "--volume"] := by decide

/-- What one option adds, field by field. -/
theorem takeDocker_eq (out : DockerPart) (o : DockerOption) :
    out.takeDocker F o =
      { out with
        extraEnv := o.env?.toList.foldl (fun d e => dictSet d e.1 e.2) out.extraEnv
        extraVolumes := o.volume?.toList.foldl (fun d e => dictSet d e.1 e.2) out.extraVolumes
        platformManaged := out.platformManaged ++ o.managed
        warnings := out.warnings ++ o.warned F } := by
  have hown : o.opt ∈ ["-e", "--env"] ∨ o.opt ∈ ["-v", "--volume"] ∨ o.opt = "--mount" →
      o.opt ∉ platformManagedOpts ∧ o.opt ∉ dockerBoolOpts := by
    intro h
    refine ownFields_apart o.opt ?_
    simp only [List.mem_cons, List.not_mem_nil, or_false] at h ⊢
    tauto
  unfold DockerPart.takeDocker DockerPart.takeOption DockerOption.env? DockerOption.managed DockerOption.warned
    DockerOption.volume? DockerOption.warning
  by_cases henv : o.opt ∈ ["-e", "--env"]
  · have happart := hown (Or.inl henv)
    have hvolume := env_notVolume o.opt henv
    simp only [henv, hvolume, happart.1, if_true, if_false, false_and]
    simp
  by_cases hvolume : o.opt ∈ ["-v", "--volume"]
  · have happart := hown (Or.inr (Or.inl hvolume))
    by_cases hcolon : hasChar o.value ':' = true
    · simp [henv, hvolume, happart.1, hcolon]
    · simp [henv, hvolume, happart.1, happart.2, hcolon]
  by_cases hmount : o.opt = "--mount"
  · have happart := hown (Or.inr (Or.inr hmount))
    rw [hmount] at happart
    simp [hmount, happart.1, happart.2]
  by_cases hmanaged : o.opt ∈ platformManagedOpts
  · simp [henv, hvolume, hmount, hmanaged]
  by_cases hbool : o.opt ∈ dockerBoolOpts
  · simp [henv, hvolume, hmount, hmanaged, hbool]
  · simp [henv, hvolume, hmount, hmanaged, hbool]

/-- What all the options add. -/
theorem foldl_takeDocker (options : List DockerOption) (out : DockerPart) :
    options.foldl (DockerPart.takeDocker F) out =
      { out with
        extraEnv := (options.filterMap DockerOption.env?).foldl (fun d e => dictSet d e.1 e.2) out.extraEnv
        extraVolumes :=
          (options.filterMap DockerOption.volume?).foldl (fun d e => dictSet d e.1 e.2) out.extraVolumes
        platformManaged := out.platformManaged ++ options.flatMap DockerOption.managed
        warnings := out.warnings ++ options.flatMap (DockerOption.warned F) } := by
  induction options generalizing out with
  | nil => simp
  | cons o options ih =>
      have hadd : ∀ (f : DockerOption → Option (String × String)) (d : List (String × String)),
          (List.filterMap f (o :: options)).foldl (fun d e => dictSet d e.1 e.2) d =
            (List.filterMap f options).foldl (fun d e => dictSet d e.1 e.2)
              ((f o).toList.foldl (fun d e => dictSet d e.1 e.2) d) := by
        intro f d
        cases hf : f o with
        | none => rw [List.filterMap_cons_none hf]; rfl
        | some e => rw [List.filterMap_cons_some hf]; rfl
      rw [List.foldl_cons, ih, takeDocker_eq, hadd, hadd, List.flatMap_cons, List.flatMap_cons,
        ← List.append_assoc, ← List.append_assoc]

end Walk

/-! ## The texts of the reports -/

/-- A text that begins and ends with no blank is stripped already. -/
theorem strip_between {c d : Char} (hc : isSpace c = false) (hd : isSpace d = false) (cs : List Char) :
    strip (String.ofList (c :: cs ++ [d])) = String.ofList (c :: cs ++ [d]) := by
  unfold strip
  rw [String.toList_ofList, List.cons_append, List.dropWhile_cons_of_neg (by simp [hc]), ← List.cons_append,
    List.reverse_append, List.reverse_singleton, List.singleton_append,
    List.dropWhile_cons_of_neg (by simp [hd]), List.reverse_cons, List.reverse_reverse]

/-- Stripping a text whose first word holds no blanks leaves the word in front. -/
theorem strip_word {word : String} (h : (word.toList.all fun c => !isSpace c) = true) (hne : word ≠ "")
    (text : String) :
    strip (word ++ " " ++ text) = word ∨ ∃ rest, strip (word ++ " " ++ text) = word ++ " " ++ rest := by
  have hword : ∀ c ∈ word.toList, isSpace c = false := by simpa [List.all_eq_true] using h
  have hfront : (word ++ " " ++ text).toList.dropWhile isSpace = word.toList ++ ' ' :: text.toList := by
    cases hlist : word.toList with
    | nil => exact absurd (String.toList_injective hlist) hne
    | cons c cs =>
        have hc : isSpace c = false := hword c (by rw [hlist]; exact List.mem_cons_self)
        simp [hlist, hc]
  have hback : word.toList.reverse.dropWhile isSpace = word.toList.reverse := by
    cases hlist : word.toList.reverse with
    | nil => rfl
    | cons c cs =>
        have hc : isSpace c = false := hword c (List.mem_reverse.mp (by rw [hlist]; exact List.mem_cons_self))
        exact List.dropWhile_cons_of_neg (by simp [hc])
  unfold strip
  rw [hfront, List.reverse_append, List.dropWhile_append]
  cases hempty : ((' ' :: text.toList).reverse.dropWhile isSpace).isEmpty with
  | true =>
      left
      rw [if_pos rfl, hback, List.reverse_reverse, String.ofList_toList]
  | false =>
      right
      -- what is left behind the word is a first part of what stood there
      have hsuffix := List.dropWhile_suffix (p := isSpace) (l := (' ' :: text.toList).reverse)
      have hprefix := List.reverse_prefix.mpr hsuffix
      rw [List.reverse_reverse] at hprefix
      have hne' : ((' ' :: text.toList).reverse.dropWhile isSpace).reverse ≠ [] := by
        rw [Ne, List.reverse_eq_nil_iff, ← List.isEmpty_iff, hempty]
        exact Bool.false_ne_true
      cases hrest : ((' ' :: text.toList).reverse.dropWhile isSpace).reverse with
      | nil => exact absurd hrest hne'
      | cons c rest =>
          rw [hrest, List.cons_prefix_cons] at hprefix
          refine ⟨String.ofList rest, String.toList_injective ?_⟩
          rw [if_neg Bool.false_ne_true, List.reverse_append, List.reverse_reverse, hrest, hprefix.1]
          simp

theorem managedEntry_opt {opt : String} (h : (opt.toList.all fun c => !isSpace c) = true) (hne : opt ≠ "")
    (hblank : hasChar opt ' ' = false) (value : String) : (partitionAt ' ' (managedEntry opt value)).1 = opt := by
  unfold managedEntry
  rcases strip_word h hne value with heq | ⟨rest, heq⟩
  · have hnone : ∀ c ∈ opt.toList, (c != ' ') = true := by
      intro c hc
      rw [bne_iff_ne]
      rintro rfl
      exact absurd (hasChar_iff.mpr hc) (by simp [hblank])
    rw [heq, partitionAt, List.takeWhile_eq_self_iff.mpr hnone, String.ofList_toList]
  · rw [heq]
    exact congrArg Prod.fst (partitionAt_append hblank rest)

/-- The warning is stripped as it stands. -/
theorem flagWarning_eq (opt value : String) :
    flagWarning opt value = "docker flag " ++ (opt ++ " " ++ (value ++ " is not carried over")) := by
  have htext : ("docker flag " ++ opt ++ " " ++ value ++ " is not carried over") =
      String.ofList ('d' :: ("ocker flag ".toList ++ opt.toList ++ ' ' :: value.toList ++
        " is not carried ove".toList) ++ ['r']) := String.toList_injective (by simp)
  unfold flagWarning
  rw [htext, strip_between (by decide) (by decide), ← htext]
  exact String.toList_injective (by simp)

theorem flagWarning_opt {opt : String} (hblank : hasChar opt ' ' = false) (value : String) :
    (partitionAt ' ' (dropText 12 (flagWarning opt value))).1 = opt := by
  have hdrop : dropText 12 (flagWarning opt value) = opt ++ " " ++ (value ++ " is not carried over") := by
    rw [flagWarning_eq]
    exact String.toList_injective (by simp [dropText])
  rw [hdrop]
  exact congrArg Prod.fst (partitionAt_append hblank _)

/-! ## The answer -/

section Answer

variable {F : Type} [PyRuntime F]

/-- The tokens of a command are kept as they are. -/
theorem tokens_kept (run : DockerRun) : (run.tokens.map strip).filter (fun t => t ≠ "") = run.tokens := by
  have hopt : ∀ o : DockerOption, strip o.opt = o.opt ∧ o.opt ≠ "" := by
    intro o
    have hshape := o.opt_shape
    refine ⟨strip_of_noSpace fun c hc => ?_, fun hnil => ?_⟩
    · simpa using List.all_eq_true.mp hshape.2.2.2 c hc
    · rw [hnil] at hshape
      exact absurd hshape.1 (by decide)
  have hkept : ∀ t ∈ run.tokens, strip t = t ∧ t ≠ "" := by
    intro t ht
    unfold DockerRun.tokens at ht
    simp only [List.mem_cons, List.mem_append, List.mem_flatMap, List.mem_map] at ht
    rcases ht with rfl | rfl | ⟨o, -, ht⟩ | rfl | ⟨w, -, rfl⟩
    · exact ⟨by decide, by decide⟩
    · exact ⟨by decide, by decide⟩
    · have ho := hopt o
      cases o with
      | separate opt known value =>
          rcases List.mem_pair.mp ht with rfl | rfl
          · exact ho
          · exact ⟨value.stripped, value.nonempty⟩
      | inlined opt known value stripped =>
          rw [List.mem_singleton.mp ht]
          exact ⟨stripped, fun hnil => ho.2 (String.append_eq_empty_iff.mp (String.append_eq_empty_iff.mp hnil).1).1⟩
      | switch opt known =>
          rw [List.mem_singleton.mp ht]
          exact ho
    · exact ⟨run.image.stripped, run.image.nonempty⟩
    · exact ⟨w.stripped, w.nonempty⟩
  have hmap : run.tokens.map strip = run.tokens :=
    (List.map_congr_left fun t ht => (hkept t ht).1).trans (List.map_id' _)
  rw [hmap]
  exact List.filter_eq_self.mpr fun t ht => decide_eq_true (hkept t ht).2

variable (F) in
/-- The docker part of a command: the image, and what the options add. -/
def DockerRun.part (run : DockerRun) : DockerPart where
  image := run.image.text
  extraEnv := run.envs.foldl (fun d e => dictSet d e.1 e.2) []
  extraVolumes := run.volumes.foldl (fun d e => dictSet d e.1 e.2) []
  platformManaged := run.options.flatMap DockerOption.managed
  warnings := run.options.flatMap (DockerOption.warned F)

/-- The docker part of a command, and the engine's tokens behind it. -/
theorem dockerPart_run (run : DockerRun) :
    dockerPart F run.tokens = (run.part F, run.command.map Word.text) := by
  have hsplit : dockerPart F run.tokens = splitDockerRun F run.tokens :=
    if_pos ⟨by simp [DockerRun.tokens], by simp [DockerRun.tokens]⟩
  have hbehind : (run.tokens.dropWhile fun t => t ≠ "run").drop 1 =
      run.options.flatMap DockerOption.tokens ++ run.image.text :: run.command.map Word.text := by
    simp [DockerRun.tokens]
  rw [hsplit, splitDockerRun, hbehind, walkOptions_run, foldl_takeDocker]
  simp [DockerRun.part, DockerRun.envs, DockerRun.volumes]

theorem parse_run (run : DockerRun) : parseLaunchCommand F run.tokens =
    compileLaunch (engineOfCommand run.tokens) (run.part F) (run.command.map Word.text) := by
  unfold parseLaunchCommand
  simp only [tokens_kept, dockerPart_run]

theorem nodup_assigned (l : List (String × String)) :
    ((l.foldl (fun d e => dictSet d e.1 e.2) []).map Prod.fst).Nodup :=
  nodup_foldl_dictSet l List.nodup_nil

theorem dictGet_assigned (l : List (String × String)) (key : String) :
    dictGet (l.foldl (fun d e => dictSet d e.1 e.2) []) key = lastUnder key l := by
  rw [dictGet_foldl id fun d e key => dictGet_set d e.1 key e.2, List.map_id]

/-- Something is assigned last. -/
theorem lastUnder_mem {l : List (String × String)} {e : String × String} (h : e ∈ l) :
    ∃ value, lastUnder e.1 l = some value ∧ (e.1, value) ∈ l := by
  have hsome : (dictGet l.reverse e.1).isSome = true :=
    dictGet_isSome.mpr (List.mem_map.mpr ⟨e, List.mem_reverse.mpr h, rfl⟩)
  rcases Option.isSome_iff_exists.mp hsome with ⟨value, hvalue⟩
  exact ⟨value, hvalue, List.mem_reverse.mp (mem_of_dictGet hvalue)⟩

/-- A volume comes over exactly if the last volume of its host directory has its place. -/
theorem volumeKept_iff (run : DockerRun) {host target last : String} (hlast : lastUnder host run.volumes = some last) :
    VolumeKept F run (parseLaunchCommand F run.tokens) host target ↔ containerPath last = containerPath target := by
  have hfound : dictGet (run.part F).extraVolumes host = some last := (dictGet_assigned run.volumes host).trans hlast
  have hnd : ((run.part F).extraVolumes.map Prod.fst).Nodup := nodup_assigned run.volumes
  have hpath : (parseLaunchCommand F run.tokens).modelPath =
      (mountedAt (run.part F).extraVolumes (run.modelPath F)).getD (run.modelPath F) := by
    rw [parse_run]
    rfl
  have hextra : (parseLaunchCommand F run.tokens).extraVolumes =
      ((mountedAt (run.part F).extraVolumes (run.modelPath F)).map (dictPop (run.part F).extraVolumes)).getD
        (run.part F).extraVolumes := by
    rw [parse_run]
    rfl
  unfold VolumeKept
  rw [hpath, hextra]
  cases hmount : mountedAt (run.part F).extraVolumes (run.modelPath F) with
  | none =>
      rw [Option.map_none, Option.getD_none, hfound]
      constructor
      · rintro (⟨kept, hkept, hsame⟩ | ⟨hgone, -⟩)
        · cases hkept
          exact hsame
        · cases hgone
      · exact fun hsame => Or.inl ⟨last, rfl, hsame⟩
  | some mounted =>
      rcases Option.map_eq_some_iff.mp hmount with ⟨v, hv, rfl⟩
      have hplace : containerPath v.2 = rstripChar '/' (run.modelPath F) := by
        have htest := List.find?_some hv
        rw [Bool.and_eq_true] at htest
        exact of_decide_eq_true htest.1
      have hhost : dictGet (run.part F).extraVolumes v.1 = some v.2 :=
        dictGet_of_mem hnd (List.mem_of_find?_eq_some hv)
      rw [Option.map_some, Option.getD_some, Option.getD_some, dictGet_pop, hfound]
      by_cases hsame : host = v.1
      · -- the directory the weights are in
        rw [if_pos hsame]
        have hv2 : v.2 = last := by
          rw [← hsame, hfound] at hhost
          exact (Option.some.inj hhost).symm
        rw [hv2] at hplace
        constructor
        · rintro (⟨kept, hkept, -⟩ | ⟨-, -, htarget⟩)
          · cases hkept
          · exact hplace.trans htarget.symm
        · exact fun heq => Or.inr ⟨rfl, hsame.symm, heq.symm.trans hplace⟩
      · rw [if_neg hsame]
        constructor
        · rintro (⟨kept, hkept, hplace'⟩ | ⟨hgone, -⟩)
          · cases hkept
            exact hplace'
          · cases hgone
        · exact fun heq => Or.inl ⟨last, rfl, heq⟩

/-- The warnings about a command's own options, its port and its model path. -/
theorem warnings_run (run : DockerRun) {w : String} (hw : w ∈ (parseLaunchCommand F run.tokens).warnings) :
    w ∈ run.options.flatMap (DockerOption.warned F) ∨ w.toList.head? = some 'p' ∨ w.toList.head? = some 'm' := by
  rw [parse_run] at hw
  rcases List.mem_append.mp hw with hw | hw
  · rcases List.mem_append.mp hw with hw | hw
    · exact Or.inl hw
    · right; left
      unfold portWarnings at hw
      split at hw
      · rw [List.mem_singleton.mp hw]
        simp
      · exact absurd hw List.not_mem_nil
  · right; right
    split at hw
    · rw [List.mem_singleton.mp hw]
      simp [pathWarning]
    · exact absurd hw List.not_mem_nil

/-- The only warnings that begin as a dropped flag's are the dropped flags' own. -/
theorem warned_cases (o : DockerOption) {w : String} (hw : w ∈ o.warned F) :
    w.toList.head? ≠ some 'd' ∨ (w = flagWarning o.opt o.value ∧ o.opt ∉ dockerBoolOpts) := by
  unfold DockerOption.warned at hw
  split at hw
  · split at hw
    · exact absurd hw List.not_mem_nil
    · rw [List.mem_singleton.mp hw]
      simp [envWarning]
  · split at hw
    · exact absurd hw List.not_mem_nil
    · rename_i hcarried
      rw [List.mem_singleton.mp hw]
      unfold DockerOption.warning
      split
      · simp [volumeWarning]
      · split
        · simp [mountWarning]
        · exact Or.inr ⟨rfl, fun hbool => hcarried (Or.inr (Or.inr hbool))⟩

/-- An option that is no variable and no volume is reported exactly if it is no switch of the pasted
command's own. -/
theorem reported_iff (run : DockerRun) {o : DockerOption} (ho : o ∈ run.options) (henv : o.env? = none)
    (hvolume : o.volume? = none) : Reported F (parseLaunchCommand F run.tokens) o ↔
      (o.opt ∈ dockerBoolOpts → o.opt ∈ platformManagedOpts) := by
  have hmanaged : (parseLaunchCommand F run.tokens).platformManaged =
      run.options.flatMap DockerOption.managed := by
    rw [parse_run]
    rfl
  constructor
  · intro hreported hbool
    by_contra hquiet
    have hown : o.opt ∉ ["-v", "--volume"] ∧ o.opt ≠ "--mount" := by
      refine ⟨fun h => ?_, fun h => ?_⟩
      · exact (ownFields_apart o.opt (by
          simp only [List.mem_cons, List.not_mem_nil, or_false] at h ⊢
          tauto)).2 hbool
      · exact (ownFields_apart o.opt (by simp [h])).2 hbool
    have hwarning : o.warning F = flagWarning o.opt o.value := by
      unfold DockerOption.warning
      rw [if_neg hown.1, if_neg hown.2]
    have hshape := o.opt_shape
    rcases hreported with hentry | hwarned
    · -- an entry is of an option of the platform's
      rw [hmanaged] at hentry
      rcases List.mem_flatMap.mp hentry with ⟨o', -, ho'⟩
      unfold DockerOption.managed at ho'
      split at ho'
      · rename_i hother
        have htext := List.mem_singleton.mp ho'
        have hne : ∀ o : DockerOption, o.opt ≠ "" := by
          intro o hnil
          have hstart := o.opt_shape.1
          rw [hnil] at hstart
          exact absurd hstart (by decide)
        have hopt : o.opt = o'.opt := by
          have hshape' := o'.opt_shape
          rw [← managedEntry_opt hshape.2.2.2 (hne o) hshape.2.2.1 o.value, htext,
            managedEntry_opt hshape'.2.2.2 (hne o') hshape'.2.2.1 o'.value]
        exact hquiet (hopt ▸ hother)
      · exact absurd ho' List.not_mem_nil
    · -- a warning is of an option that is no switch
      have hhead : (flagWarning o.opt o.value).toList.head? = some 'd' := by
        rw [flagWarning_eq]
        simp
      rw [hwarning] at hwarned
      rcases warnings_run run hwarned with hopt | hport | hpath
      · rcases List.mem_flatMap.mp hopt with ⟨o', -, ho'⟩
        rcases warned_cases o' ho' with hno | ⟨htext, hbool'⟩
        · exact hno hhead
        · have heq : o.opt = o'.opt := by
            rw [← flagWarning_opt hshape.2.2.1 o.value, htext, flagWarning_opt o'.opt_shape.2.2.1 o'.value]
          exact hbool' (heq ▸ hbool)
      · rw [hhead] at hport
        exact absurd (Option.some.inj hport) (by decide)
      · rw [hhead] at hpath
        exact absurd (Option.some.inj hpath) (by decide)
  · intro hswitch
    by_cases hplatform : o.opt ∈ platformManagedOpts
    · left
      rw [hmanaged]
      exact List.mem_flatMap.mpr ⟨o, ho, by simp [DockerOption.managed, hplatform]⟩
    · right
      have hbool : o.opt ∉ dockerBoolOpts := fun hbool => hplatform (hswitch hbool)
      have hnoEnv : o.opt ∉ ["-e", "--env"] := by
        intro hmem
        unfold DockerOption.env? at henv
        rw [if_pos hmem] at henv
        cases henv
      have hwarned : o.warning F ∈ o.warned F := by
        unfold DockerOption.warned
        rw [if_neg hnoEnv, hvolume]
        simp [hplatform, hbool]
      rw [parse_run]
      exact List.mem_append_left _ (List.mem_append_left _ (List.mem_flatMap.mpr ⟨o, ho, hwarned⟩))

variable (F) in
/-- Nothing of a `docker run` command disappears exactly if its switches are the platform's own and no host
directory is mounted at two places. -/
theorem launch_accounted_iff (run : DockerRun) :
    NothingVanishes F run (parseLaunchCommand F run.tokens) ↔ OwnSwitches run ∧ OnePlaceEach run := by
  constructor
  · intro h
    constructor
    · intro o ho hbool
      have henv : o.env? = none := if_neg fun hmem =>
        (ownFields_apart o.opt (by
          simp only [List.mem_cons, List.not_mem_nil, or_false] at hmem ⊢
          tauto)).2 hbool
      have hvolume : o.volume? = none := if_neg fun hmem =>
        (ownFields_apart o.opt (by
          have hopt := hmem.1
          simp only [List.mem_cons, List.not_mem_nil, or_false] at hopt ⊢
          tauto)).2 hbool
      exact (reported_iff run ho henv hvolume).mp (h.others o ho henv hvolume) hbool
    · -- two volumes of one host directory both have the place of the last one
      have hplace : ∀ v ∈ run.volumes, ∀ last, lastUnder v.1 run.volumes = some last →
          containerPath last = containerPath v.2 := by
        intro v hv last hlast
        rcases List.mem_filterMap.mp hv with ⟨o, ho, hvolume⟩
        exact (volumeKept_iff run hlast).mp (h.volumes o ho v.1 v.2 hvolume)
      intro v hv w hw hhost
      rcases lastUnder_mem hv with ⟨last, hlast, -⟩
      exact (hplace v hv last hlast).symm.trans (hplace w hw last (hhost ▸ hlast))
  · rintro ⟨hswitches, hplaces⟩
    refine ⟨?_, ?_, ?_, ?_⟩
    · rw [parse_run]
      rfl
    · intro o _ name value _
      rw [parse_run]
      exact dictGet_assigned run.envs name
    · intro o ho host target hvolume
      have hv : (host, target) ∈ run.volumes := List.mem_filterMap.mpr ⟨o, ho, hvolume⟩
      rcases lastUnder_mem hv with ⟨last, hlast, hmem⟩
      exact (volumeKept_iff run hlast).mpr (hplaces (host, last) hmem (host, target) hv rfl)
    · exact fun o ho henv hvolume => (reported_iff run ho henv hvolume).mpr (hswitches o ho)

end Answer

/-- `docker run --privileged vllm`. -/
def privilegedRun : DockerRun where
  options := [.switch "--privileged" (by decide)]
  image := ⟨"vllm", by decide, by decide⟩
  noOption := by decide
  command := []

/-- The switch is dropped without a word. -/
theorem privileged_vanishes : (parseLaunchCommand Empty privilegedRun.tokens).platformManaged = [] ∧
    (parseLaunchCommand Empty privilegedRun.tokens).warnings = [] ∧
    ¬ NothingVanishes Empty privilegedRun (parseLaunchCommand Empty privilegedRun.tokens) := by
  have hmanaged : (parseLaunchCommand Empty privilegedRun.tokens).platformManaged = [] := by decide
  have hwarnings : (parseLaunchCommand Empty privilegedRun.tokens).warnings = [] := by decide
  refine ⟨hmanaged, hwarnings, fun h => ?_⟩
  have hothers := h.others (.switch "--privileged" (by decide)) List.mem_cons_self (by decide) (by decide)
  unfold Reported at hothers
  rw [hmanaged, hwarnings] at hothers
  rcases hothers with hentry | hwarning
  · exact List.not_mem_nil hentry
  · exact List.not_mem_nil hwarning

end AutoTune
