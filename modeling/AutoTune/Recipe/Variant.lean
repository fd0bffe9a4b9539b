import AutoTune.Lib.JsonText
import AutoTune.Recipe.Shape

/-!
# Recipes in the catalog's spelling

A variant file spells three fields of a recipe's values on its own: the image, the served name and the
cards. `toVariant` moves them out of the values, `fromVariant` back in. Two recipes are the same
configuration if their identities print the same.
-/

namespace AutoTune

open Lib

/-- The topologies as a variant names them. -/
def Topology.name : Topology → String
  | .singleNode => "single-node"
  | .lws => "lws"
  | .pd => "pd"

section Variant

variable {F : Type} [PyRuntime F]

/-! ## Identity -/

/-- `Recipe.flags`. -/
def Recipe.flags (r : Recipe F) : Except PyError (JsonDict F) :=
  (Json.items (dictGet r.values "extraArgs")).map fun items => argFlags r.engine items

/-- One entry of `Recipe.env`. -/
def envEntry (out : JsonDict F) : Json F → JsonDict F
  | .dict entry =>
      match (dictGet entry "name").filter Json.truthy with
      | some name => dictSet out name.text (.str (((dictGet entry "value").map Json.text).getD ""))
      | none => out
  | _ => out

/-- `Recipe.env`. -/
def Recipe.env (r : Recipe F) : Except PyError (JsonDict F) :=
  (Json.items (dictGet r.values "env")).map fun entries => entries.foldl envEntry []

/-- A role's flags read as what they mean, where it has any. -/
def roleIdentity (engine : String) (pd : JsonDict F) (role : Role) : Except PyError (JsonDict F) :=
  match dictGet pd role.name with
  | some (.dict spec) =>
      if dictHas spec "extraArgs" then
        (Json.items (dictGet spec "extraArgs")).map fun items =>
          dictSet pd role.name (.dict (dictSet spec "extraArgs" (.dict (argFlags engine items))))
      else .ok pd
  | _ => .ok pd

/-- The section of the roles, as `identity` leaves it. -/
def pdIdentity (engine : String) (values : JsonDict F) : Except PyError (JsonDict F) :=
  (subDict values "pd").bind fun pd =>
    (roles.foldlM (roleIdentity engine) pd).map fun pd' =>
      if dictTrue values "pd" then dictSet values "pd" (.dict pd') else values

/-- `Recipe.identity`. -/
def Recipe.identity (r : Recipe F) : Except PyError (JsonDict F) :=
  r.flags.bind fun flags =>
    r.env.bind fun env =>
      (pdIdentity r.engine (dictSet (dictSet r.values "extraArgs" (.dict flags)) "env"
        (.dict (sortEntries env)))).map fun values =>
          [("engine", .str r.engine), ("chart", .str r.chart), ("values", .dict values)]

/-- `Recipe.hash`, with what SHA-256 prints of a text as a parameter. -/
def Recipe.hash (sha256 : String → String) (r : Recipe F) : Except PyError String :=
  r.identity.map fun identity => "sha256:" ++ sha256 (Json.dumps (.dict identity))

/-! ## `to_variant` -/

/-- `int(value)`. -/
def intOfValue : Json F → Except PyError Int
  | .int n => .ok n
  | .bool b => .ok (if b then 1 else 0)
  | .float x => PyRuntime.trunc x
  | .str s =>
      match intOfText s with
      | some n => .ok n
      | none => .error (.valueError ("invalid literal for int() with base 10: " ++ PyRuntime.quote F s))
  | _ => .error .typeError

/-- `int(str(gpus)) if gpus not in (None, "") else 0`. -/
def gpusRequired : Option (Json F) → Except PyError Int
  | none => .ok 0
  | some .null => .ok 0
  | some (.str "") => .ok 0
  | some gpus => intOfValue (F := F) (.str gpus.text)

/-- `int((values.get("lws") or {}).get("size") or 1)` of a group, else 1. -/
def Recipe.nodesRequired (r : Recipe F) : Except PyError Int :=
  r.topology.bind fun topology =>
    if topology = .lws then
      (subDict r.values "lws").bind fun lws =>
        match (dictGet lws "size").filter Json.truthy with
        | some size => intOfValue size
        | none => .ok 1
    else .ok 1

/-- `requires`. -/
def Recipe.requires (r : Recipe F) (gpus : Option (Json F)) : Except PyError (JsonDict F) :=
  (gpusRequired gpus).bind fun gpus =>
    r.nodesRequired.bind fun nodes =>
      r.topology.bind fun topology =>
        (subDict r.values "rdma").map fun rdma =>
          [("gpus", .int gpus)] ++ (if 1 < nodes then [("nodes", .int nodes)] else []) ++
            [("topology", .str topology.name)] ++ if dictTrue rdma "enabled" then [("rdma", .bool true)] else []

/-- The values without what the variant file spells on its own; an empty `model` is left out. -/
def bareValues (values model : JsonDict F) : JsonDict F :=
  let values := dictPop values "image"
  let model := dictPop (dictPop model "name") "gpus"
  if model.isEmpty then dictPop values "model" else dictSet values "model" (.dict model)

/-- `str(value or "")`. -/
def textOr (value : Option (Json F)) : String := ((value.filter Json.truthy).map Json.text).getD ""

/-- The image as the variant file spells it. -/
def imageField (image : JsonDict F) (digest : String) : Option (JsonDict F) :=
  ((dictGet image "repository").filter Json.truthy).map fun repository =>
    [("repository", repository), ("tag", .str (textOr (dictGet image "tag")))] ++
      if digest = "" then [] else [("digest", .str digest)]

/-- `values.get("model") or {}`, where the code then pops keys. -/
def modelSection (values : JsonDict F) : Except PyError (JsonDict F) :=
  match dictGet values "model" with
  | some (.list (_ :: _)) => .error .typeError
  | model => Json.orEmpty model

/-- `Recipe.to_variant`. -/
def Recipe.toVariant (r : Recipe F) : Except PyError (JsonDict F) :=
  (subDict r.values "image").bind fun image =>
    (modelSection r.values).bind fun model =>
      (r.requires (dictGet model "gpus")).map fun requires =>
        [("engine", .str r.engine), ("chart", .dict [("name", .str r.chart), ("version", .str r.version)])] ++
          (((dictGet model "name").filter Json.truthy).map fun served => [("servedName", served)]).getD [] ++
          ((imageField image r.imageDigest).map fun image => [("image", .dict image)]).getD [] ++
          [("requires", .dict requires), ("values", .dict (bareValues r.values model))]

/-! ## `from_variant` -/

/-- The first of these that is true, an empty text else. -/
def firstTrue (choices : List (Option (Json F))) : Json F :=
  ((choices.filterMap fun v => v.filter Json.truthy).head?).getD (.str "")

/-- A field that has to be text. -/
def textField : Json F → Except PyError String
  | .str s => .ok s
  | _ => .error (.valueError "Input should be a valid string")

/-- `model = values.setdefault("model", {})` with the served name and the cards written into it. -/
def fillModel (values : JsonDict F) (served : Json F) (gpus : Option (Json F)) : Except PyError (JsonDict F) :=
  let written : JsonDict F := (if served.truthy then [("name", served)] else []) ++
    (gpus.map fun gpus => [("gpus", .str gpus.text)]).getD []
  let fill := fun model : JsonDict F =>
    dictSet values "model" (.dict (written.foldl (fun d e => dictSet d e.1 e.2) model))
  match dictGet values "model" with
  | none => .ok (fill [])
  | some (.dict model) => .ok (fill model)
  | some _ => if written.isEmpty then .ok values else .error .typeError

/-- `Recipe.from_variant`. -/
def Recipe.fromVariant (variant : JsonDict F) (modelName : String) : Except PyError (Recipe F) :=
  (subDict variant "values").bind fun values =>
    (subDict variant "image").bind fun image =>
      let values := match imageField image "" with
        | some image => dictSet values "image" (.dict image)
        | none => values
      (subDict variant "requires").bind fun requires =>
        (fillModel values
          (firstTrue [dictGet variant "servedName", some (.str modelName), dictGet variant "model"])
          ((dictGet requires "gpus").filter fun gpus => !gpus matches .null)).bind fun values =>
            (subDict variant "chart").bind fun chart =>
              (textField (firstTrue [dictGet variant "engine", dictGet chart "name", some (.str "sglang")])).bind
                fun engine =>
                  (textField (firstTrue [dictGet chart "name", some (.str "sglang")])).map fun name =>
                    { engine := engine
                      chart := name
                      version := textOr (dictGet chart "version")
                      values := values
                      imageDigest := textOr (dictGet image "digest") }

end Variant

end AutoTune
