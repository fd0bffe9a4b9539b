import AutoTune.Lib.Dict
import AutoTune.Lib.PosixPath

/-!
# The volumes of a launch

A volume map names a container path for each host directory. `merge_volumes` drops a default whose container
path a declared volume targets; what is left of the defaults is then overwritten by host directory, and a
default that shares its directory with a declared volume is lost, whatever its container path.
-/

namespace AutoTune

open Lib

/-- `MODEL_MOUNT`. -/
def modelMount : String := "/model"

/-- `target`: the container path of a volume without its options and trailing slashes. -/
def volumeTarget (path : String) : String :=
  let bare := rstripChar '/' (partitionAt ':' path).1
  if bare = "" then "/" else bare

/-- Is something mounted at the container path? -/
def MountsAt (volumes : Dict String) (path : String) : Prop := ∃ e ∈ volumes.entries, volumeTarget e.2 = path

instance (volumes : Dict String) (path : String) : Decidable (MountsAt volumes path) :=
  inferInstanceAs (Decidable (∃ e ∈ volumes.entries, volumeTarget e.2 = path))

/-- `merge_volumes`. -/
def mergeVolumes (defaults declared : Dict String) : Dict String :=
  let taken := declared.entries.map fun e => volumeTarget e.2
  let kept := defaults.filter fun e => volumeTarget e.2 ∉ taken
  kept.merge declared

/-- Volumes whose container paths are distinct. -/
structure VolumeMap where
  volumes : Dict String
  distinct : (volumes.entries.map fun e => volumeTarget e.2).Nodup

/-- Every container path of either map is mounted once, from the declared host directory where both name it, and
a default is missing only where a declared volume targets its path. -/
structure OneMount (defaults declared merged : Dict String) : Prop where
  once : ∀ path, MountsAt defaults path ∨ MountsAt declared path →
    ∃! e, e ∈ merged.entries ∧ volumeTarget e.2 = path
  declaredHost : ∀ d ∈ declared.entries, MountsAt defaults (volumeTarget d.2) →
    ∀ m ∈ merged.entries, volumeTarget m.2 = volumeTarget d.2 → m.1 = d.1
  onlyTargeted : ∀ e ∈ defaults.entries, e ∉ merged.entries → MountsAt declared (volumeTarget e.2)

/-! ## What is mounted -/

theorem mem_mergeVolumes {defaults declared : Dict String} {e : String × String} :
    e ∈ (mergeVolumes defaults declared).entries ↔
      e ∈ declared.entries ∨
        e ∈ defaults.entries ∧ ¬ MountsAt declared (volumeTarget e.2) ∧ declared.has e.1 = false := by
  rcases e with ⟨host, path⟩
  have htaken : volumeTarget path ∉ declared.entries.map (fun e => volumeTarget e.2) ↔
      ¬ MountsAt declared (volumeTarget path) := by
    rw [List.mem_map]
    rfl
  unfold mergeVolumes
  rw [Dict.mem_entries, Dict.get?_merge, Option.or_eq_some_iff, Dict.get?_filter, Option.filter_eq_some_iff,
    decide_eq_true_iff, htaken, Dict.mem_entries, Dict.mem_entries, Dict.has, Option.isSome_eq_false_iff,
    Option.isNone_iff_eq_none]
  tauto

/-- The merge mounts no container path twice. -/
theorem mergeVolumes_distinct (defaults declared : VolumeMap) :
    ((mergeVolumes defaults.volumes declared.volumes).entries.map fun e => volumeTarget e.2).Nodup := by
  have hentries := List.Nodup.of_map _ (mergeVolumes defaults.volumes declared.volumes).nodup
  refine hentries.map_on fun x hx y hy hxy => ?_
  rcases mem_mergeVolumes.mp hx with hx | ⟨hx, hxfree, -⟩
  · rcases mem_mergeVolumes.mp hy with hy | ⟨-, hyfree, -⟩
    · exact List.inj_on_of_nodup_map declared.distinct hx hy hxy
    · exact absurd ⟨x, hx, hxy⟩ hyfree
  · rcases mem_mergeVolumes.mp hy with hy | ⟨hy, -, -⟩
    · exact absurd ⟨y, hy, hxy.symm⟩ hxfree
    · exact List.inj_on_of_nodup_map defaults.distinct hx hy hxy

/-- Merging volumes gives volumes that can be merged again: a group's over the campaign's, and these over the
driver's own. -/
def VolumeMap.merge (defaults declared : VolumeMap) : VolumeMap where
  volumes := mergeVolumes defaults.volumes declared.volumes
  distinct := mergeVolumes_distinct defaults declared

/-- A container path is mounted where a declared volume targets it, or a default whose host directory no
declared volume has. -/
theorem mountsAt_merge {defaults declared : Dict String} {path : String} :
    MountsAt (mergeVolumes defaults declared) path ↔
      MountsAt declared path ∨ ∃ e ∈ defaults.entries, volumeTarget e.2 = path ∧ declared.has e.1 = false := by
  constructor
  · rintro ⟨e, he, rfl⟩
    rcases mem_mergeVolumes.mp he with hin | ⟨hin, -, hapart⟩
    · exact .inl ⟨e, hin, rfl⟩
    · exact .inr ⟨e, hin, rfl, hapart⟩
  · rintro (⟨d, hd, rfl⟩ | ⟨e, he, rfl, hapart⟩)
    · exact ⟨d, mem_mergeVolumes.mpr (.inl hd), rfl⟩
    · by_cases htaken : MountsAt declared (volumeTarget e.2)
      · rcases htaken with ⟨d, hd, hsame⟩
        exact ⟨d, mem_mergeVolumes.mpr (.inl hd), hsame⟩
      · exact ⟨e, mem_mergeVolumes.mpr (.inr ⟨he, htaken, hapart⟩), rfl⟩

/-! ## One mount for each path -/

/-- A default that no declared volume replaces has a host directory of its own. -/
def HostsApart (defaults declared : Dict String) : Prop :=
  ∀ e ∈ defaults.entries, ¬ MountsAt declared (volumeTarget e.2) → declared.has e.1 = false

/-- Each container path is mounted once exactly where no declared volume takes the host directory of a default
it does not replace. -/
theorem mergeVolumes_oneMount_iff (defaults declared : VolumeMap) :
    OneMount defaults.volumes declared.volumes (mergeVolumes defaults.volumes declared.volumes) ↔
      HostsApart defaults.volumes declared.volumes := by
  constructor
  · intro h e he hfree
    by_contra hhas
    -- the entry under this host directory is the declared one, so the default is missing
    have hmissing : e ∉ (mergeVolumes defaults.volumes declared.volumes).entries := by
      intro hmem
      rcases mem_mergeVolumes.mp hmem with hin | ⟨-, -, hapart⟩
      · exact hfree ⟨e, hin, rfl⟩
      · exact hhas hapart
    exact hfree (h.onlyTargeted e he hmissing)
  · intro h
    have hinj : ∀ x ∈ (mergeVolumes defaults.volumes declared.volumes).entries,
        ∀ y ∈ (mergeVolumes defaults.volumes declared.volumes).entries,
          volumeTarget x.2 = volumeTarget y.2 → x = y :=
      fun x hx y hy hxy => List.inj_on_of_nodup_map (mergeVolumes_distinct defaults declared) hx hy hxy
    refine ⟨fun path hpath => ?_, fun d hd _ m hm hmd => ?_, fun e he hmissing => ?_⟩
    · have hmounted : MountsAt (mergeVolumes defaults.volumes declared.volumes) path := by
        rw [mountsAt_merge]
        by_cases hdeclared : MountsAt declared.volumes path
        · exact .inl hdeclared
        · rcases hpath.resolve_right hdeclared with ⟨e, he, rfl⟩
          exact .inr ⟨e, he, rfl, h e he hdeclared⟩
      rcases hmounted with ⟨m, hm, hpathm⟩
      exact ⟨m, ⟨hm, hpathm⟩, fun y hy => hinj y hy.1 m hm (hy.2.trans hpathm.symm)⟩
    · rw [hinj m hm d (mem_mergeVolumes.mpr (.inl hd)) hmd]
    · by_contra hfree
      exact hmissing (mem_mergeVolumes.mpr (.inr ⟨he, hfree, h e he hfree⟩))

/-! ## A launch's volumes -/

/-- What a pod mounts by itself: the model. -/
def modelVolumes (modelPath : String) : VolumeMap where
  volumes := Dict.ofEntries [(modelPath, modelMount)]
  distinct := List.nodup_singleton _

/-- The volumes of `_spec_for`: a group's mounts go over the campaign's. -/
def specVolumes (campaign : VolumeMap) : Option VolumeMap → VolumeMap
  | some group => campaign.merge group
  | none => campaign

/-- The volumes `_engine_volumes` pairs with their mounts. -/
def engineVolumes (modelPath : String) (campaign : VolumeMap) (group : Option VolumeMap) : VolumeMap :=
  (modelVolumes modelPath).merge (specVolumes campaign group)

/-- A pod finds the model where the engine is told to look for it unless its directory is declared for another
container path only. -/
theorem engineVolumes_mountsModel (modelPath : String) (campaign : VolumeMap) (group : Option VolumeMap) :
    MountsAt (engineVolumes modelPath campaign group).volumes modelMount ↔
      MountsAt (specVolumes campaign group).volumes modelMount ∨
        (specVolumes campaign group).volumes.has modelPath = false := by
  have hmount : volumeTarget modelMount = modelMount := by decide
  have hdefault : (modelVolumes modelPath).volumes.entries = [(modelPath, modelMount)] := rfl
  unfold engineVolumes VolumeMap.merge
  rw [mountsAt_merge, hdefault]
  simp [hmount]

/-- The model's directory, declared as a draft model's too, is not mounted as the model's. -/
theorem mergeVolumes_losesModel :
    ¬ ∀ defaults declared : VolumeMap,
      OneMount defaults.volumes declared.volumes (mergeVolumes defaults.volumes declared.volumes) := by
  intro h
  let declared : VolumeMap := ⟨Dict.ofEntries [("/mnt/disk0/models/qwen", "/draft")], List.nodup_singleton _⟩
  have hmodel := (h (modelVolumes "/mnt/disk0/models/qwen") declared).onlyTargeted
    ("/mnt/disk0/models/qwen", "/model")
  revert hmodel
  decide

end AutoTune
