import AutoTune.Catalog.Mounts

/-!
# When a mount plan is a pod spec

A turn of the loop notes its mount, and adds at most one volume with one mount of it. A name that is looked for
is free; the one of a draft model may not be. So the names are told apart exactly if no mount read as a draft
model comes after another one, or after a mount that is itself called `draft-model`.
-/

namespace AutoTune

open Lib

/-! ## Free names -/

theorem suffixed_length (name : String) (i : Nat) :
    ((fun name : String => name ++ "-x")^[i] name).length = name.length + 2 * i := by
  induction i generalizing name with
  | zero => rfl
  | succ i ih =>
      have hone : (name ++ "-x").length = name.length + 2 := String.length_append name "-x"
      rw [Function.iterate_succ_apply, ih, hone]
      omega

/-- The loop ends, at a name that is free. -/
theorem freeName_endsAt (taken : List String) (name : String) :
    EndsAt (fun name => name ++ "-x") id taken name (freeName taken name) := by
  refine seekFree_endsAt fun i j h => ?_
  have hlength := congrArg String.length h
  simp only [id_eq, suffixed_length] at hlength
  omega

theorem freeName_free (taken : List String) (name : String) : freeName taken name ∉ taken :=
  (freeName_endsAt taken name).free

/-- A name that is looked for is the own one, or one with a suffix. -/
theorem freeName_eq (taken : List String) (name : String) :
    name ∉ taken ∧ freeName taken name = name ∨
      name ∈ taken ∧ ∃ stem, freeName taken name = stem ++ "-x" := by
  by_cases h : name ∈ taken
  · refine Or.inr ⟨h, ?_⟩
    have hends := freeName_endsAt taken name
    generalize freeName taken name = free at hends ⊢
    have hsuffix : ∀ {s r : String}, EndsAt (fun name => name ++ "-x") id taken s r →
        (∃ stem, s = stem ++ "-x") → ∃ stem, r = stem ++ "-x" := by
      intro s r hends hstem
      induction hends with
      | done => exact hstem
      | again _ _ ih => exact ih ⟨_, rfl⟩
    cases hends with
    | done hfree => exact absurd h hfree
    | again _ rest => exact hsuffix rest ⟨name, rfl⟩
  · exact Or.inl ⟨h, (freeName_endsAt taken name).unique (EndsAt.done h)⟩

/-- No suffix makes the name of a draft model. -/
theorem suffixed_ne_draft (stem : String) : stem ++ "-x" ≠ "draft-model" := by
  intro h
  have hlast := congrArg (fun s : String => s.toList.getLast?) h
  simp [String.toList_append] at hlast

section Plan

variable {F : Type} [PyRuntime F] (ctx : MountContext F)

/-! ## One turn -/

/-- A mount that gets a volume under a name that is looked for. -/
def MountUse.named : MountUse → Bool
  | .included => true
  | .config => true
  | .scratch => true
  | _ => false

/-- A mount that gets a volume. -/
def MountUse.kept (use : MountUse) : Bool := use.named || use == .draft

/-- A mount whose volume is called `draft-model`, unless that name is taken. -/
def MountContext.claims (mount : String × String) : Prop :=
  ctx.use (containerOf mount.2) = .draft ∨
    (ctx.use (containerOf mount.2)).named = true ∧ mountName (containerOf mount.2) = "draft-model"

/-- The name a turn gives its volume. -/
def MountContext.given (taken : List String) (mount : String × String) : String :=
  if ctx.use (containerOf mount.2) = .draft then "draft-model"
  else freeName taken (mountName (containerOf mount.2))

/-- What a turn of the loop does: the mount is noted, and if it is kept one volume is added, with one mount of
it at its path. -/
structure Turn (s s' : PlanState) (mount : String × String) : Prop where
  inputs : ∃ category action reason, s'.plan.inputs =
    s.plan.inputs ++ [⟨"mount", containerOf mount.2, mount.1, category, action, reason⟩]
  kept : (ctx.use (containerOf mount.2)).kept = true → ∃ source readOnly,
    s'.plan.volumes = s.plan.volumes ++ [⟨ctx.given s.taken mount, source⟩] ∧
      s'.plan.mounts = s.plan.mounts ++ [⟨ctx.given s.taken mount, containerOf mount.2, readOnly⟩] ∧
      s'.plan.provided = s.plan.provided ++ [containerOf mount.2] ∧
      s'.taken = s.taken ++ [ctx.given s.taken mount]
  left : (ctx.use (containerOf mount.2)).kept = false → s'.plan.volumes = s.plan.volumes ∧
    s'.plan.mounts = s.plan.mounts ∧ s'.plan.provided = s.plan.provided ∧ s'.taken = s.taken

theorem turn_of_add {s : PlanState} {mount : String × String} {source : VolumeSource} {readOnly : Bool}
    {category action reason : String} (hkept : (ctx.use (containerOf mount.2)).kept = true) :
    Turn ctx s ((s.add (ctx.given s.taken mount) source readOnly (containerOf mount.2)).note
      ⟨"mount", containerOf mount.2, mount.1, category, action, reason⟩) mount where
  inputs := ⟨_, _, _, rfl⟩
  kept _ := ⟨source, readOnly, rfl, rfl, rfl, rfl⟩
  left h := absurd (hkept.symm.trans h) (by decide)

theorem turn_of_note {s : PlanState} {mount : String × String} {category action reason : String}
    (hleft : (ctx.use (containerOf mount.2)).kept = false) :
    Turn ctx s (s.note ⟨"mount", containerOf mount.2, mount.1, category, action, reason⟩) mount where
  inputs := ⟨_, _, _, rfl⟩
  kept h := absurd (hleft.symm.trans h) (by decide)
  left _ := ⟨rfl, rfl, rfl, rfl⟩

theorem planMount_turn (s : PlanState) (mount : String × String) :
    Turn ctx s (planMount ctx s mount) mount := by
  have hgiven : ctx.use (containerOf mount.2) ≠ .draft →
      freeName s.taken (mountName (containerOf mount.2)) = ctx.given s.taken mount := fun h => (if_neg h).symm
  unfold planMount
  dsimp only
  split
  all_goals rename_i huse
  · rw [hgiven (by rw [huse]; decide)]
    exact turn_of_add ctx (by rw [huse]; rfl)
  · split
    · exact turn_of_note ctx (by rw [huse]; rfl)
    · exact turn_of_note ctx (by rw [huse]; rfl)
  · have hdraft : "draft-model" = ctx.given s.taken mount := (if_pos huse).symm
    rw [hdraft]
    exact turn_of_add ctx (by rw [huse]; rfl)
  · rw [hgiven (by rw [huse]; decide)]
    exact turn_of_add ctx (by rw [huse]; rfl)
  · rw [hgiven (by rw [huse]; decide)]
    exact turn_of_add ctx (by rw [huse]; rfl)
  · exact turn_of_note ctx (by rw [huse]; rfl)

/-! ## All turns -/

/-- The names of the volumes so far. -/
def PlanState.names (s : PlanState) : List String := s.plan.volumes.map PodVolume.name

/-- What holds after every turn: the taken names are the chart's and those of the volumes, each volume is
mounted once, and no volume has a name of the chart. -/
structure PlanState.Sound (s : PlanState) : Prop where
  taken : s.taken = ["dot-cache", "dshm"] ++ s.names
  mounts : s.plan.mounts.map VolumeMount.name = s.names
  apart : "dot-cache" ∉ s.names ∧ "dshm" ∉ s.names
  provided : s.plan.provided = s.plan.mounts.map VolumeMount.mountPath

theorem PlanState.Sound.mem_taken {s : PlanState} (hs : s.Sound) {name : String} (h : name ∈ s.names) :
    name ∈ s.taken := by
  rw [hs.taken]
  exact List.mem_append_right _ h

theorem given_notChart {s : PlanState} (hs : s.Sound) (mount : String × String) :
    ctx.given s.taken mount ≠ "dot-cache" ∧ ctx.given s.taken mount ≠ "dshm" := by
  unfold MountContext.given
  split
  · exact ⟨by decide, by decide⟩
  · have hfree := freeName_free s.taken (mountName (containerOf mount.2))
    constructor
    all_goals
      intro h
      rw [h, hs.taken] at hfree
      simp at hfree

theorem turn_sound {s s' : PlanState} {mount : String × String} (h : Turn ctx s s' mount) (hs : s.Sound) :
    s'.Sound := by
  cases hkept : (ctx.use (containerOf mount.2)).kept with
  | true =>
      rcases h.kept hkept with ⟨source, readOnly, hvolumes, hmounts, hprovided, htaken⟩
      have hnames : s'.names = s.names ++ [ctx.given s.taken mount] := by simp [PlanState.names, hvolumes]
      have hchart := given_notChart ctx hs mount
      generalize ctx.given s.taken mount = name at hmounts htaken hnames hchart
      refine ⟨?_, ?_, ?_, ?_⟩
      · rw [htaken, hs.taken, hnames]
        exact List.append_assoc _ _ _
      · rw [hmounts, List.map_append, hs.mounts, hnames, List.map_singleton]
      · rw [hnames]
        simp [hs.apart, hchart.1.symm, hchart.2.symm]
      · rw [hprovided, hmounts, List.map_append, ← hs.provided, List.map_singleton]
  | false =>
      rcases h.left hkept with ⟨hvolumes, hmounts, hprovided, htaken⟩
      have hnames : s'.names = s.names := by simp [PlanState.names, hvolumes]
      exact ⟨by rw [htaken, hnames, hs.taken], by rw [hmounts, hnames, hs.mounts], by rw [hnames]; exact hs.apart,
        by rw [hprovided, hmounts, hs.provided]⟩

/-- A turn tells its name apart unless it is a second `draft-model`. -/
theorem turn_names_nodup {s s' : PlanState} {mount : String × String} (h : Turn ctx s s' mount) (hs : s.Sound) :
    s'.names.Nodup ↔ s.names.Nodup ∧
      (ctx.use (containerOf mount.2) = .draft → "draft-model" ∉ s.names) := by
  cases hkept : (ctx.use (containerOf mount.2)).kept with
  | true =>
      rcases h.kept hkept with ⟨source, readOnly, hvolumes, -⟩
      have hnames : s'.names = s.names ++ [ctx.given s.taken mount] := by simp [PlanState.names, hvolumes]
      have hfresh : ctx.given s.taken mount ∉ s.names ↔
          (ctx.use (containerOf mount.2) = .draft → "draft-model" ∉ s.names) := by
        unfold MountContext.given
        split
        · rename_i hdraft
          simp [hdraft]
        · rename_i hdraft
          have hfree : freeName s.taken (mountName (containerOf mount.2)) ∉ s.names :=
            fun hin => freeName_free _ _ (hs.mem_taken hin)
          simp [hdraft, hfree]
      rw [hnames, ← hfresh, ← List.concat_eq_append, List.nodup_concat, and_comm]
  | false =>
      rcases h.left hkept with ⟨hvolumes, -⟩
      have hnames : s'.names = s.names := by simp [PlanState.names, hvolumes]
      have hdraft : ctx.use (containerOf mount.2) ≠ .draft := by
        intro hdraft
        rw [hdraft] at hkept
        cases hkept
      simp [hnames, hdraft]

/-- After a turn the name of a draft model is given if it was, or if the mount claims it. -/
theorem turn_names_draft {s s' : PlanState} {mount : String × String} (h : Turn ctx s s' mount) (hs : s.Sound) :
    "draft-model" ∈ s'.names ↔ "draft-model" ∈ s.names ∨ ctx.claims mount := by
  cases hkept : (ctx.use (containerOf mount.2)).kept with
  | true =>
      rcases h.kept hkept with ⟨source, readOnly, hvolumes, -⟩
      have hnames : s'.names = s.names ++ [ctx.given s.taken mount] := by simp [PlanState.names, hvolumes]
      rw [hnames, List.mem_append, List.mem_singleton]
      unfold MountContext.given MountContext.claims
      split
      · rename_i hdraft
        simp [hdraft]
      · rename_i hdraft
        have hnamed : (ctx.use (containerOf mount.2)).named = true := by
          unfold MountUse.kept at hkept
          simpa [hdraft] using hkept
        rcases freeName_eq s.taken (mountName (containerOf mount.2)) with ⟨-, hown⟩ | ⟨htaken, stem, hstem⟩
        · simp [hown, hdraft, hnamed, eq_comm]
        · have hne : ¬ "draft-model" = freeName s.taken (mountName (containerOf mount.2)) := by
            rw [hstem]
            exact fun heq => suffixed_ne_draft stem heq.symm
          -- a mount of that name finds it given
          have hclaim : mountName (containerOf mount.2) = "draft-model" → "draft-model" ∈ s.names := by
            intro heq
            rw [heq, hs.taken] at htaken
            simpa using htaken
          simp only [hne, hdraft, hnamed, or_false, false_or, true_and]
          exact ⟨Or.inl, fun hor => hor.elim id hclaim⟩
  | false =>
      rcases h.left hkept with ⟨hvolumes, -⟩
      have hnames : s'.names = s.names := by simp [PlanState.names, hvolumes]
      have hclaims : ¬ ctx.claims mount := by
        unfold MountUse.kept at hkept
        rw [Bool.or_eq_false_iff, beq_eq_false_iff_ne] at hkept
        rintro (hdraft | ⟨hnamed, -⟩)
        · exact hkept.2 hdraft
        · rw [hkept.1] at hnamed
          cases hnamed
      simp [hnames, hclaims]

/-- No mount read as a draft model comes after one that claims its name. -/
def MountContext.DraftsApart (mounts : List (String × String)) : Prop :=
  mounts.Pairwise fun m m' => ctx.use (containerOf m'.2) = .draft → ¬ ctx.claims m

theorem run_sound (mounts : List (String × String)) {s : PlanState} (hs : s.Sound) :
    (mounts.foldl (planMount ctx) s).Sound := by
  induction mounts generalizing s with
  | nil => exact hs
  | cons mount mounts ih => exact ih (turn_sound ctx (planMount_turn ctx s mount) hs)

theorem run_names_nodup (mounts : List (String × String)) {s : PlanState} (hs : s.Sound) :
    (mounts.foldl (planMount ctx) s).names.Nodup ↔ s.names.Nodup ∧
      (∀ m ∈ mounts, ctx.use (containerOf m.2) = .draft → "draft-model" ∉ s.names) ∧
        ctx.DraftsApart mounts := by
  induction mounts generalizing s with
  | nil => simp [MountContext.DraftsApart]
  | cons mount mounts ih =>
      have hturn := planMount_turn ctx s mount
      rw [List.foldl_cons, ih (turn_sound ctx hturn hs), turn_names_nodup ctx hturn hs,
        turn_names_draft ctx hturn hs, List.forall_mem_cons]
      unfold MountContext.DraftsApart
      rw [List.pairwise_cons]
      constructor
      · rintro ⟨⟨hnodup, hfirst⟩, hlater, hapart⟩
        refine ⟨hnodup, ⟨hfirst, fun m hm hdraft => ?_⟩, fun m hm hdraft => ?_, hapart⟩
        · exact fun hin => hlater m hm hdraft (Or.inl hin)
        · exact fun hclaims => hlater m hm hdraft (Or.inr hclaims)
      · rintro ⟨hnodup, ⟨hfirst, hlater⟩, hclaims, hapart⟩
        refine ⟨⟨hnodup, hfirst⟩, fun m hm hdraft => ?_, hapart⟩
        rintro (hin | hclaim)
        · exact hlater m hm hdraft hin
        · exact hclaims m hm hdraft hclaim

theorem run_inputs (mounts : List (String × String)) (s : PlanState) :
    (mounts.foldl (planMount ctx) s).plan.inputs.map (fun i => (i.kind, i.value, i.name)) =
      s.plan.inputs.map (fun i => (i.kind, i.value, i.name)) ++
        mounts.map fun m => ("mount", m.1, containerOf m.2) := by
  induction mounts generalizing s with
  | nil => simp
  | cons mount mounts ih =>
      rcases (planMount_turn ctx s mount).inputs with ⟨category, action, reason, hinputs⟩
      rw [List.foldl_cons, ih, hinputs]
      simp

/-- The paths that are mounted are those of the mounts that are kept. -/
theorem run_paths (mounts : List (String × String)) (s : PlanState) :
    (mounts.foldl (planMount ctx) s).plan.mounts.map VolumeMount.mountPath =
      s.plan.mounts.map VolumeMount.mountPath ++
        (mounts.filter fun m => (ctx.use (containerOf m.2)).kept).map fun m => containerOf m.2 := by
  induction mounts generalizing s with
  | nil => simp
  | cons mount mounts ih =>
      have hturn := planMount_turn ctx s mount
      rw [List.foldl_cons, ih]
      cases hkept : (ctx.use (containerOf mount.2)).kept with
      | true =>
          rcases hturn.kept hkept with ⟨source, readOnly, -, hmounts, -⟩
          simp [hmounts, hkept]
      | false =>
          simp [(hturn.left hkept).2.1, hkept]

/-! ## The plan -/

/-- A plan that is part of a pod spec: every mount is noted once, volumes have names of their own, also besides
the chart's, each is mounted once and at a path of its own, and a path that a flag reads is mounted, by the plan
or by the chart, or holds the weights. -/
structure MountPlan.IsPodSpec (plan : MountPlan) (volumes : Dict String) : Prop where
  inputs : plan.inputs.map (fun i => (i.kind, i.value, i.name)) =
    volumes.entries.map fun m => ("mount", m.1, containerOf m.2)
  names : (plan.volumes.map PodVolume.name).Nodup
  chart : "dot-cache" ∉ plan.volumes.map PodVolume.name ∧ "dshm" ∉ plan.volumes.map PodVolume.name
  mounts : plan.mounts.map VolumeMount.name = plan.volumes.map PodVolume.name
  paths : (plan.mounts.map VolumeMount.mountPath).Nodup
  read : ∀ m ∈ volumes.entries, ctx.readers (containerOf m.2) ≠ [] →
    containerOf m.2 ∈ "/dev/shm" :: "/root/.cache" :: plan.provided ∨
      underRoot (containerOf m.2) ctx.weightsMount = true

/-- A path that a flag reads is left out only where the chart has a volume of its own. -/
theorem use_of_readers {container : String} (h : ctx.readers container ≠ []) :
    (ctx.use container).kept = true ∨ container = "/dev/shm" ∨ container = "/root/.cache" ∨
      underRoot container ctx.weightsMount = true := by
  unfold MountContext.use
  dsimp only
  split
  · exact Or.inl rfl
  · split
    · rename_i hleft
      simp only [Bool.or_eq_true, decide_eq_true_eq] at hleft
      exact Or.inr (or_assoc.mp hleft)
    · split
      · exact Or.inl rfl
      · have hsome : (!(ctx.readers container).isEmpty || ctx.readByEnv container) = true := by
          simp [h]
        rw [if_pos hsome]
        exact Or.inl rfl

/-- The plan of mounts with paths of their own is a pod spec exactly if no draft model comes after a mount that
claims its name. -/
theorem pod_spec_iff (volumes : Dict String) (hdistinct : (volumes.entries.map fun m => containerOf m.2).Nodup) :
    (planMounts ctx volumes).IsPodSpec ctx volumes ↔ ctx.DraftsApart volumes.entries := by
  have hstart : PlanState.Sound {} :=
    ⟨rfl, rfl, ⟨List.not_mem_nil, List.not_mem_nil⟩, rfl⟩
  have hsound := run_sound ctx volumes.entries hstart
  have hnames := run_names_nodup ctx volumes.entries hstart
  have hpaths := run_paths ctx volumes.entries {}
  constructor
  · intro h
    exact (hnames.mp h.names).2.2
  · intro hapart
    refine ⟨run_inputs ctx volumes.entries {}, hnames.mpr ⟨List.nodup_nil, ?_, hapart⟩, hsound.apart, hsound.mounts,
      ?_, fun m hm hread => ?_⟩
    · exact fun m _ _ => List.not_mem_nil
    · have hkept : (((volumes.entries.filter fun m => (ctx.use (containerOf m.2)).kept).map
          fun m => containerOf m.2)).Nodup := hdistinct.sublist (List.filter_sublist.map _)
      exact hpaths ▸ hkept
    · rcases use_of_readers ctx hread with hkept | hshm | hcache | hweights
      · refine Or.inl (List.mem_cons_of_mem _ (List.mem_cons_of_mem _ ?_))
        have hprovided : (planMounts ctx volumes).provided =
            (volumes.entries.filter fun m => (ctx.use (containerOf m.2)).kept).map fun m => containerOf m.2 :=
          hsound.provided.trans hpaths
        rw [hprovided]
        exact List.mem_map_of_mem (List.mem_filter.mpr ⟨hm, hkept⟩)
      · exact Or.inl (by simp [hshm])
      · exact Or.inl (by simp [hcache])
      · exact Or.inr hweights

end Plan

/-! ## A draft model below another mount -/

/-- A config whose draft model is read from `draft`. -/
def draftFrom (draft : String) : MountContext Empty where
  isWord c := c.isAlphanum || c == '_'
  engineArgs := .ofEntries [("speculative_draft_model_path", .str draft)]
  env := .empty
  weightsMount := "/model"
  keepAll := false

/-- A draft model and a file of settings. -/
theorem draft_beside_settings :
    (planMounts (draftFrom "/spec-model") (.ofEntries [("/mnt/models/EAGLE3-x", "/spec-model"),
      ("/root/moe-config", "/moe-config:ro")])).IsPodSpec (draftFrom "/spec-model")
      (.ofEntries [("/mnt/models/EAGLE3-x", "/spec-model"), ("/root/moe-config", "/moe-config:ro")]) := by
  refine (pod_spec_iff (draftFrom "/spec-model") _ (by decide)).mpr ?_
  refine List.pairwise_pair.mpr fun hdraft => ?_
  exact absurd hdraft (by decide)

/-- A mount inside another one: the flag reads both, and both volumes are called `draft-model`. -/
theorem draft_below_another :
    ((Dict.ofEntries [("/mnt/models", "/draft"), ("/mnt/eagle", "/draft/eagle")]).entries.map
      fun m => containerOf m.2).Nodup ∧
    ¬ (planMounts (draftFrom "/draft/eagle") (.ofEntries [("/mnt/models", "/draft"),
      ("/mnt/eagle", "/draft/eagle")])).IsPodSpec (draftFrom "/draft/eagle")
      (.ofEntries [("/mnt/models", "/draft"), ("/mnt/eagle", "/draft/eagle")]) := by
  refine ⟨by decide, fun h => ?_⟩
  exact absurd h.names (by decide)

end AutoTune
