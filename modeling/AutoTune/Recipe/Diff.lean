import AutoTune.Lib.Differences
import AutoTune.Lib.PyEquality
import AutoTune.Recipe.PathText
import AutoTune.Recipe.Variant

/-!
# The config that turns one recipe into another

`diff` reads off two recipes the flat config that leads from one to the other: the flags that differ, each role's,
the variables, and the chart values that neither of these reaches.
-/

namespace AutoTune

open Lib

section Diff

variable {F : Type} [PyRuntime F]

/-- `_flag_diff`: what is new or another, then `null` for what is gone. -/
def flagDiff (lead : String) (old new : JsonDict F) : List (String × Json F) :=
  (differences Json.equal old new).map fun c => (lead ++ c.1, c.2.getD .null)

/-- An env entry's value, or its body when it is not a plain value. -/
def envBody (entry : JsonDict F) : Json F :=
  let body := dictPop entry "name"
  match dictGet body "value" with
  | some v => if body.all fun e => e.1 = "value" then .str v.text else .dict body
  | none => .dict body

/-- An env entry by its name, if it has one. -/
def namedBody : Json F → Option (String × Json F)
  | .dict entry => ((dictGet entry "name").filter Json.truthy).map fun name => (name.text, envBody entry)
  | _ => none

/-- One turn of `_env_entries`. -/
def addBody (out : JsonDict F) (entry : Json F) : JsonDict F :=
  match namedBody entry with
  | some e => dictSet out e.1 e.2
  | none => out

/-- `_env_entries`. -/
def Recipe.envEntries (r : Recipe F) : Except PyError (JsonDict F) :=
  (Json.items (dictGet r.values "env")).map fun entries => entries.foldl addBody []

mutual

/-- `_value_diff`: what it writes, by its path and in its order. No old value is `_MISSING`. -/
def valueDiff (path : List String) (old : Option (Json F)) : Json F → List (List String × Json F)
  | .dict new =>
      if isManaged path then []
      else
        match old with
        | some (.dict old) =>
            entriesDiff path old new ++
              (old.filter fun e => !(dictHas new e.1 || isManaged (path ++ [e.1]))).map fun e =>
                (path ++ [e.1], Json.null)
        -- a new section is spelled leaf by leaf
        | none => if new.isEmpty then [(path, .dict new)] else entriesDiff path [] new
        | some old => if old.equal (.dict new) then [] else [(path, .dict new)]
  | new =>
      if isManaged path then []
      else
        match old with
        | some old => if old.equal new then [] else [(path, new)]
        | none => [(path, new)]

/-- The loop of `_value_diff` over the keys of a section. -/
def entriesDiff (path : List String) (old : JsonDict F) : List (String × Json F) → List (List String × Json F)
  | [] => []
  | (key, value) :: new => valueDiff (path ++ [key]) (dictGet old key) value ++ entriesDiff path old new

end

/-- A role's flags. -/
def Recipe.roleFlags (r : Recipe F) (role : Role) : Except PyError (JsonDict F) := do
  let spec ← r.role role
  let items ← Json.items (dictGet spec "extraArgs")
  return argFlags r.engine items

/-- `diff`: the config that turns `base` into `r`. -/
def Recipe.diff (base r : Recipe F) : Except PyError (JsonDict F) := do
  let flags := flagDiff "" (← base.flags) (← r.flags)
  let roleFlags ← roles.mapM fun role => do
    return flagDiff (role.name ++ ".") (← base.roleFlags role) (← r.roleFlags role)
  let env := flagDiff "env." (← base.envEntries) (← r.envEntries)
  let values := (valueDiff [] (some (.dict base.values)) (.dict r.values)).map fun c => (valueKey c.1, c.2)
  return (flags ++ roleFlags.flatten ++ env ++ values).foldl (fun out e => dictSet out e.1 e.2) []

/-! ## The changes of the values -/

/-- The changes of a tree, below a path. -/
def changesBelow (path : List String) (changes : List (List String × Json F)) : List (List String × Json F) :=
  changes.map fun c => (path ++ c.1, c.2)

/-- A value that is no section is written, unless the old one equals it. -/
theorem valueDiff_leaf {new : Json F} (h : ¬ new.IsSection) (path : List String) (old : Option (Json F)) :
    valueDiff path old new =
      if isManaged path || old.any (fun v => v.equal new) then [] else [(path, new)] := by
  have hcases : ∀ b c : Bool,
      (if b = true then ([] : List (List String × Json F)) else if c = true then [] else [(path, new)]) =
        if b || c then [] else [(path, new)] := by
    intro b c
    cases b <;> simp
  cases new with
  | dict n => exact absurd (isSection_dict n) h
  | _ => cases old <;> simp [valueDiff, hcases]

theorem leafDiff_eq {new : Json F} (h : ¬ new.IsSection) (path : List String) (old : Option (Json F)) :
    valueDiff path old new = changesBelow path (changesAt Json.equal (fun back => isManaged (path ++ back)) old new) := by
  rw [valueDiff_leaf h, changesAt_leaf h, List.append_nil]
  split <;> simp [changesBelow]

mutual

/-- What `_value_diff` writes are the changes from the one tree to the other. -/
theorem valueDiff_eq : ∀ (new : Json F) (path : List String) (old : Option (Json F)),
    valueDiff path old new = changesBelow path (changesAt Json.equal (fun back => isManaged (path ++ back)) old new)
  | .dict new, path, old => by
      have hentries := fun old => entriesDiff_eq new path old
      have hgone : ∀ old : JsonDict F, changesBelow path (gone (fun back => isManaged (path ++ back)) old new) =
          (old.filter fun e => !(dictHas new e.1 || isManaged (path ++ [e.1]))).map fun e =>
            (path ++ [e.1], Json.null) := by
        intro old
        simp [changesBelow, gone, List.map_map, Function.comp_def]
      by_cases hmanaged : isManaged path = true
      · simp [valueDiff, changesAt, changesBelow, hmanaged]
      · cases old with
        | none =>
            cases new with
            | nil => simp [valueDiff, changesAt, changesBelow, hmanaged]
            | cons e new => simpa [valueDiff, changesAt, hmanaged] using hentries []
        | some old =>
            cases old with
            | dict old => simpa [valueDiff, changesAt, hmanaged, changesBelow, hentries] using (hgone old).symm
            | _ => simp [valueDiff, changesAt, changesBelow, hmanaged, Json.equal, Json.wholeNumber]
  | .null, path, old => leafDiff_eq id path old
  | .bool b, path, old => leafDiff_eq id path old
  | .int n, path, old => leafDiff_eq id path old
  | .float x, path, old => leafDiff_eq id path old
  | .str s, path, old => leafDiff_eq id path old
  | .list items, path, old => leafDiff_eq id path old

theorem entriesDiff_eq : ∀ (new : List (String × Json F)) (path : List String) (old : JsonDict F),
    entriesDiff path old new = changesBelow path (changesIn Json.equal (fun back => isManaged (path ++ back)) old new)
  | [], path, old => rfl
  | (key, value) :: new, path, old => by
      have hvalue := valueDiff_eq value (path ++ [key]) (dictGet old key)
      have hrest := entriesDiff_eq new path old
      simp only [List.append_assoc, List.singleton_append] at hvalue
      simp [entriesDiff, changesIn, hvalue, hrest, changesBelow, List.map_map, Function.comp_def]

end

end Diff

end AutoTune
