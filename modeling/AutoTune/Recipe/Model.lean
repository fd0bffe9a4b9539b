import AutoTune.Recipe.Args
import AutoTune.Recipe.Address

/-!
# Recipes, and configs written into them

A recipe is a chart and its values. `apply` writes a flat config into a copy of one, address by
address; anything but a dictionary where the code asks for one raises, as it does there.
-/

namespace AutoTune

open Lib

/-- `Recipe`. -/
structure Recipe (F : Type) where
  engine : String := "sglang"
  chart : String := "sglang"
  version : String := ""
  values : JsonDict F := []
  imageDigest : String := ""

/-- `Recipe.topology`. -/
inductive Topology where
  | singleNode
  | lws
  | pd
deriving DecidableEq, Repr

section Recipe

variable {F : Type} [PyRuntime F]

/-- Whether `d.get(k)` is true. -/
def dictTrue (d : JsonDict F) (k : String) : Bool := (dictGet d k).any Json.truthy

/-- `Recipe.gpus`: `model.gpus`, 0 where it is not a whole number. -/
def Recipe.gpus (r : Recipe F) : Except PyError Int := do
  let model ← subDict r.values "model"
  let text := strip ((dictGet model "gpus").getD .null).text
  return if text = "" then 0 else (intOfText text).getD 0

/-- `Recipe.role`. -/
def Recipe.role (r : Recipe F) (role : Role) : Except PyError (JsonDict F) := do
  let pd ← subDict r.values "pd"
  subDict pd role.name

/-- `Recipe.topology`. -/
def Recipe.topology (r : Recipe F) : Except PyError Topology := do
  let pd ← subDict r.values "pd"
  if dictTrue pd "enabled" then return .pd
  let lws ← subDict r.values "lws"
  if dictTrue lws "enabled" then return .lws
  return .singleNode

/-! ## `apply` -/

/-- `_set`: a value at a path, sections made where there are none; `null` removes. -/
def setPath (tree : JsonDict F) : List String → Json F → JsonDict F
  | [], _ => tree
  | [key], .null => dictPop tree key
  | [key], value => dictSet tree key value
  | segment :: path, value =>
      let child := match dictGet tree segment with
        | some (.dict d) => d
        | _ => []
      dictSet tree segment (.dict (setPath child path value))

/-- `env_value`. -/
def envValue : Json F → String
  | .bool b => if b then "1" else "0"
  | value => value.text

/-- Whether an env entry is the one of this name. -/
def namesEnv (name : String) : Json F → Bool
  | .dict entry =>
      match dictGet entry "name" with
      | some (.str s) => s = name
      | _ => false
  | _ => false

/-- `_set_env`: the last entry of a name rewritten in place and the others dropped, a new one appended;
`null` removes. -/
def setEnv (entries : List (Json F)) (name : String) (value : Json F) : List (Json F) :=
  let others := entries.filter fun e => !namesEnv name e
  match value with
  | .null => others
  | _ =>
      let body : JsonDict F := match value with
        | .dict body => body
        | value => [("value", .str (envValue value))]
      let entry : Json F := .dict (body.foldl (fun d e => dictSet d e.1 e.2) [("name", .str name)])
      match (entries.reverse.dropWhile fun e => !namesEnv name e) with
      | [] => entries ++ [entry]
      | _ :: before =>
          (before.reverse.filter fun e => !namesEnv name e) ++ [entry] ++
            (entries.reverse.takeWhile fun e => !namesEnv name e).reverse

/-- `_canonical_flag`. -/
def canonicalFlag (engine key : String) : String :=
  (normalizeEntry engine key (.bool true : Json F)).1

/-- `d.setdefault(k, {})`, where the code then asks the value for a key. -/
def setDefault (d : JsonDict F) (k : String) : Except PyError (JsonDict F) :=
  match dictGet d k with
  | none => .ok []
  | some (.dict child) => .ok child
  | some _ => .error .attributeError

/-- One address of `apply`. -/
def applyEntry (engine : String) (values : JsonDict F) (key : String) (value : Json F) :
    Except PyError (JsonDict F) := do
  match ← parseAddress F key with
  | .flag name =>
      let items ← Json.items (dictGet values "extraArgs")
      return dictSet values "extraArgs"
        (.list (setFlag engine items (canonicalFlag (F := F) engine name) value))
  | .roleFlag role name =>
      let pd ← setDefault values "pd"
      let spec ← setDefault pd role.name
      let items ← Json.items (dictGet spec "extraArgs")
      let spec := dictSet spec "extraArgs"
        (.list (setFlag engine items (canonicalFlag (F := F) engine name) value))
      return dictSet values "pd" (.dict (dictSet pd role.name (.dict spec)))
  | .env name =>
      let entries ← Json.items (dictGet values "env")
      match setEnv entries name value with
      | [] => return dictPop values "env"
      | entries => return dictSet values "env" (.list entries)
  | .value path => return setPath values path value

/-- `apply`: a config written into a copy of a recipe. -/
def Recipe.apply (base : Recipe F) (config : JsonDict F) : Except PyError (Recipe F) := do
  let values ← config.foldlM (fun values entry => applyEntry base.engine values entry.1 entry.2)
    base.values
  return { base with values := values }

end Recipe

end AutoTune
