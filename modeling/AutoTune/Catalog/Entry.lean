import AutoTune.Lib.Fresh
import AutoTune.Recipe.CommandLine
import AutoTune.Recipe.Variant
import AutoTune.Search.Space

/-!
# Building a catalog entry

Each source of an export becomes a variant under an id of its own: the one its caller chose, or one made
of engine, parallelism, card and role. A repeated id is numbered, and a derived one that the catalog
publishes for another deployment is renamed. What equals the published variant is not written again.
What a source's own body holds is data of the source here.
-/

namespace AutoTune

open Lib

/-! ## Ids -/

/-- What `str.lower` makes of a character, as far as a letter of an id comes of it. -/
def lowerId (c : Char) : List Char :=
  if 'A' ≤ c ∧ c ≤ 'Z' then [Char.ofNat (c.toNat + 32)]
  else if c.toNat = 0x212a then ['k']
  else if c.toNat = 0x130 then ['i', Char.ofNat 0x307]
  else [c]

/-- A character of an id. -/
def isIdChar (c : Char) : Bool := ('a' ≤ c && c ≤ 'z') || ('0' ≤ c && c ≤ '9')

/-- `re.sub(r"[^a-z0-9]+", "-", ...)`; `gap` says whether a run of other characters has begun. -/
def dashed : Bool → List Char → List Char
  | _, [] => []
  | gap, c :: cs =>
      if isIdChar c then c :: dashed false cs
      else if gap then dashed true cs
      else '-' :: dashed true cs

/-- `s.strip("-")`. -/
def stripDashes (s : List Char) : List Char :=
  ((s.dropWhile fun c => c == '-').reverse.dropWhile fun c => c == '-').reverse

/-- `_id_slug`. -/
def idSlug (text : String) : String := String.ofList (stripDashes (dashed false (text.toList.flatMap lowerId)))

/-- `"-".join`. -/
def joinDashes (parts : List String) : String := "-".intercalate parts

/-! ## Versions -/

/-- A character of a version's suffix. -/
def isSuffixChar (c : Char) : Bool :=
  isIdChar c || ('A' ≤ c && c ≤ 'Z') || c == '.' || c == '-'

/-- `_version_tuple`: zeros for what is no version. -/
def versionTuple (v : String) : Nat × Nat × Nat :=
  let text := withoutNewline v.toList
  let core := text.takeWhile fun c => c != '-'
  let suffix := text.dropWhile fun c => c != '-'
  let isDot := fun c : Char => c == '.'
  let major := core.takeWhile fun c => !isDot c
  let rest := (core.dropWhile fun c => !isDot c).drop 1
  let minor := rest.takeWhile fun c => !isDot c
  let patch := (rest.dropWhile fun c => !isDot c).drop 1
  let suffixed := suffix.isEmpty || (1 < suffix.length && (suffix.drop 1).all isSuffixChar)
  match readNumber major, readNumber minor, readNumber patch with
  | some a, some b, some c => if suffixed then (a, b, c) else (0, 0, 0)
  | _, _, _ => (0, 0, 0)

/-- `bump_minor`. -/
def bumpMinor (version : String) : String :=
  let (major, minor, _) := versionTuple version
  toString major ++ "." ++ toString (minor + 1) ++ ".0"

/-! ## Sources -/

/-- `VariantSource`. `body` is what `_variant` makes of it, its id aside; `cards` and `nodes` are what its
id is made with. -/
structure VariantSource where
  id : String := ""
  role : String := ""
  engine : String := "sglang"
  engineArgs : JsonDict ℚ := []
  gpuType : String := ""
  nodes : Int := 1
  cards : Int := 0
  modelPath : String := ""
  servedModelName : String := ""
  fromRecipe : Bool := false
  body : Config := Dict.empty

/-- `int(float(value))` in a `try`; infinite values have no place here. -/
def floatInt : Value → Option Int
  | .int n => some n
  | .bool b => some (if b then 1 else 0)
  | .float x => some (if x < 0 then -(-x).floor else x.floor)
  | .str s => (ratOfText s).map fun x => if x < 0 then -(-x).floor else x.floor
  | _ => none

/-- `_int`. -/
def atLeastOne (args : JsonDict ℚ) (keys : List String) : Int :=
  match keys.findSome? (dictGet args) with
  | some value => ((floatInt value).map fun n => max 1 n).getD 1
  | none => 1

/-- `parallelism`. -/
def parallelism (args : JsonDict ℚ) : String :=
  let tp := atLeastOne args ["tp", "tp_size", "tensor_parallel_size"]
  let pp := atLeastOne args ["pp", "pp_size", "pipeline_parallel_size"]
  let dp := atLeastOne args ["dp", "dp_size", "data_parallel_size"]
  joinDashes (["tp" ++ toString tp] ++ (if 1 < pp then ["pp" ++ toString pp] else []) ++
    if 1 < dp then ["dp" ++ toString dp] else [])

/-- The id a caller chose, as it is written. -/
def chosenId (src : VariantSource) : String := takeText 63 (idSlug src.id)

/-- `_variant_id`. -/
def variantId (src : VariantSource) : String :=
  if src.id ≠ "" then chosenId src
  else
    let slug := takeText 63 (idSlug (joinDashes ([src.engine, parallelism src.engineArgs] ++
      (if src.gpuType = "" then [] else [src.gpuType]) ++ (if 1 < src.nodes then ["lws"] else []) ++
        if src.role = "" then [] else [src.role])))
    if slug = "" then "variant-" ++ toString src.cards else slug

/-! ## What is published -/

/-- A published variant: its version and its document, when it could be read. -/
structure PublishedVariant where
  version : Option Value := none
  document : Option Value := none

/-- `CatalogModel`, as far as variants are concerned. -/
structure CatalogModel where
  name : String
  variants : List (String × PublishedVariant)

/-- What is asked of an export: the name and the served name as they were settled, and what the catalog
has already. -/
structure CatalogOptions where
  name : String
  servedName : String := ""
  existing : Option CatalogModel := none

/-- The document published under an id, where it is one. -/
def CatalogModel.document (existing : CatalogModel) (id : String) : Option (JsonDict ℚ) :=
  match (dictGet existing.variants id).bind PublishedVariant.document with
  | some (.dict old) => some old
  | _ => none

/-- A source under way: its id so far. -/
structure EntryBody where
  source : VariantSource
  id : String

/-- The body as a document under its id. -/
def EntryBody.fields (b : EntryBody) : JsonDict ℚ := ("id", .str b.id) :: b.source.body.entries

/-- `_deployment`. -/
def deployment (doc : JsonDict ℚ) : Except PyError (String × String × Int × Int) :=
  (subDict doc "image").bind fun image =>
    (subDict doc "values").bind fun values =>
      (subDict values "model").bind fun model =>
        (subDict doc "requires").bind fun requires =>
          (match (dictGet requires "gpus").filter Json.truthy with
            | some gpus => intOfValue gpus
            | none => .ok 0).bind fun gpus =>
              (match (dictGet requires "nodes").filter Json.truthy with
                | some nodes => intOfValue nodes
                | none => .ok 1).map fun nodes =>
                  (textOr (dictGet image "repository"), textOr (dictGet model "localPath"), gpus, nodes)

/-! ## Near copies -/

mutual

/-- `_leaves`. -/
def leaves (prefix_ : String) : Value → JsonDict ℚ
  | .dict (e :: entries) => leavesOf prefix_ (e :: entries) []
  | value => [(prefix_, value)]

def leavesOf (prefix_ : String) : JsonDict ℚ → JsonDict ℚ → JsonDict ℚ
  | [], out => out
  | (key, item) :: entries, out =>
      leavesOf prefix_ entries
        ((leaves (if prefix_ = "" then key else prefix_ ++ "." ++ key) item).foldl
          (fun out e => dictSet out e.1 e.2) out)

end

/-- `d.get(k, "")` as text. -/
def textAt (d : JsonDict ℚ) (k : String) : String := ((dictGet d k).map Json.text).getD ""

/-- `_serving`. -/
def serving (doc : JsonDict ℚ) : Except PyError (JsonDict ℚ) :=
  (Recipe.fromVariant doc (textOr (dictGet doc "model"))).bind fun recipe =>
    recipe.identity.bind fun identity =>
      (subDict doc "image").bind fun image =>
        (subDict doc "requires").map fun requires =>
          dictSet (dictSet identity "image" (.str (textAt image "repository" ++ ":" ++ textAt image "tag")))
            "nodes" (((dictGet requires "nodes").filter Json.truthy).getD (.int 1))

/-- `TWIN_MAX_DIFFERENCES`. -/
def twinMaxDifferences : Nat := 3

/-- The paths two sets of leaves differ in. -/
def differingPaths (mine theirs : JsonDict ℚ) : List String :=
  (((mine.map Prod.fst ++ theirs.map Prod.fst).dedup.filter fun path =>
    !Value.eq ((dictGet mine path).getD .null) ((dictGet theirs path).getD .null)).map fun path =>
      if startsWith path "values." then dropText 7 path else path).insertionSort (· ≤ ·)

/-- `_published_twin`: the closest published variant, and the paths they differ in. -/
def publishedTwin (doc : JsonDict ℚ) (existing : CatalogModel) (exclude : List String) :
    Option (String × List String) :=
  match serving doc with
  | .error _ => none
  | .ok mine =>
      existing.variants.foldl
        (fun best e =>
          if e.1 ∈ exclude then best
          else
            match e.2.document with
            | some (.dict old) =>
                match serving old with
                | .error _ => best
                | .ok theirs =>
                    let differs := differingPaths (leaves "" (.dict mine)) (leaves "" (.dict theirs))
                    if twinMaxDifferences < differs.length then best
                    else if best.all fun b => b.1 = "" || differs.length < b.2.length then some (e.1, differs)
                    else best
            | _ => best) none

/-! ## Numbering -/

/-- An id with a number, as a repeated one gets. -/
def numberedId (id : String) (n : Nat) : String := takeText 60 id ++ "-" ++ toString n

/-- The loop that numbers repeated ids; `seen` counts them. -/
def numberIds : List (String × Nat) → List EntryBody → List EntryBody
  | _, [] => []
  | seen, b :: bodies =>
      let n := (dictGet seen b.id).getD 0 + 1
      (if 1 < n then { b with id := numberedId b.id n } else b) :: numberIds (dictSet seen b.id n) bodies

/-- The bodies of an export, numbered. -/
def entryBodies (sources : List VariantSource) : List EntryBody :=
  numberIds [] (sources.map fun src => ⟨src, variantId src⟩)

/-! ## Lineage -/

/-- Does the catalog publish another deployment under the body's id? -/
def EntryBody.isForeign (existing : CatalogModel) (b : EntryBody) : Except PyError Bool :=
  match existing.document b.id with
  | none => .ok false
  | some old =>
      (deployment old).bind fun theirs => (deployment b.source.body.entries).map fun mine => theirs ≠ mine

/-- Is the body to be renamed? An id the caller chose is theirs. -/
def EntryBody.clashes (existing : CatalogModel) (b : EntryBody) : Except PyError Bool :=
  if b.source.id ≠ "" then .ok false else b.isForeign existing

/-- The next candidate of the renaming loop and the number after it. -/
def nextId (s : String × Nat) : String × Nat := (numberedId s.1 s.2, s.2 + 1)

/-- `while new in taken`. -/
def freeId (taken : List String) (new : String) : String :=
  (seekFree nextId Prod.fst taken (taken.length + 1) (new, 2)).1

/-- `d.get(k, {})`, where the code then asks for a key. -/
def openSection : Option Value → Except PyError (JsonDict ℚ)
  | none => .ok []
  | some (.dict d) => .ok d
  | some _ => .error .attributeError

/-- The weights a body loads. -/
def EntryBody.weights (b : EntryBody) : Except PyError String :=
  (subDict b.source.body.entries "values").bind fun values =>
    (openSection (dictGet values "model")).bind fun model =>
        match (dictGet model "localPath").filter Json.truthy with
        | none => .ok b.source.modelPath
        | some (.str path) => .ok path
        | some _ => .error .attributeError

/-- `weights.rstrip("/").rsplit("/", 1)[-1]`. -/
def lastDirectory (path : String) : String :=
  String.ofList (((path.toList.reverse.dropWhile fun c => c == '/').takeWhile fun c => c != '/').reverse)

/-- The id a renamed body gets if it is free. -/
def EntryBody.lineageId (lineage : String) (b : EntryBody) : Except PyError String :=
  b.weights.map fun weights =>
    let role := b.source.role
    let shape := if role ≠ "" ∧ endsWith b.id ("-" ++ role) then
      takeText (b.id.length - role.length - 1) b.id else b.id
    let stem := if lineage ≠ "" then lineage else
      joinDashes ([shape, idSlug (lastDirectory weights)].filter fun p => p ≠ "")
    takeText 63 (idSlug (joinDashes ([stem, role].filter fun p => p ≠ "")))

/-- The loop of `_own_lineage` that renames; `taken` grows by each new id. -/
def renameBodies (existing : CatalogModel) (lineage : String) :
    List String → List EntryBody → Except PyError (List EntryBody)
  | _, [] => .ok []
  | taken, b :: bodies =>
      (b.clashes existing).bind fun clash =>
        if clash then
          (b.lineageId lineage).bind fun new =>
            let id := freeId taken new
            (renameBodies existing lineage (id :: taken) bodies).map fun rest => { b with id := id } :: rest
        else (renameBodies existing lineage taken bodies).map fun rest => b :: rest

/-- `API_VERSION`. -/
def apiVersion : String := "catalog.swiss/v2"

/-- The published variant that the baseline is a near copy of. -/
def lineageOf (name : String) (existing : CatalogModel) (bodies : List EntryBody) (clashing : List String) : String :=
  match bodies.find? fun b => b.source.role = "baseline" with
  | none => ""
  | some base =>
      let doc := base.fields.foldl (fun d e => dictSet d e.1 e.2)
        [("apiVersion", .str apiVersion), ("kind", .str "Variant"), ("model", .str name)]
      ((publishedTwin doc existing clashing).map Prod.fst).getD ""

/-- `_own_lineage`. -/
def ownLineage (name : String) (existing : CatalogModel) (bodies : List EntryBody) :
    Except PyError (List EntryBody) :=
  (bodies.mapM (EntryBody.clashes existing)).bind fun clashes =>
    let clashing := ((bodies.zip clashes).filter Prod.snd).map fun e => e.1.id
    if clashing.isEmpty then .ok bodies
    else
      renameBodies existing (lineageOf name existing bodies clashing)
        (existing.variants.map Prod.fst ++ bodies.map EntryBody.id) bodies

/-! ## Variants -/

/-- How a variant stands against the catalog. -/
inductive VariantStatus where
  | new
  | updated
  | unchanged
deriving DecidableEq, Repr

/-- `ExportedVariant`. -/
structure ExportedVariant where
  source : VariantSource
  id : String
  version : String
  status : VariantStatus
  path : String
  document : JsonDict ℚ

/-- The document of a body. -/
def EntryBody.document (opts : CatalogOptions) (b : EntryBody) : JsonDict ℚ :=
  b.source.body.entries.foldl (fun d e => dictSet d e.1 e.2)
    ([("apiVersion", .str apiVersion), ("kind", .str "Variant"), ("model", .str opts.name), ("id", .str b.id),
      ("version", .str "1.0.0")] ++
        if opts.servedName ≠ "" ∧ opts.servedName ≠ opts.name then [("servedName", .str opts.servedName)] else [])

/-- `_same_variant`. -/
def sameVariant (old new : JsonDict ℚ) : Bool :=
  Value.eq (.dict (dictPop old "version")) (.dict (dictPop new "version"))

/-- The published variant a document is, word for word but for its own. -/
def exactTwin (existing : CatalogModel) (b : EntryBody) (doc : JsonDict ℚ) : Option (JsonDict ℚ) :=
  if b.source.fromRecipe then
    (publishedTwin doc existing []).bind fun twin =>
      if twin.1 ≠ "" ∧ twin.2.isEmpty then existing.document twin.1 else none
  else none

/-- Is the body's document the one published under its id, or another's word for word? -/
def EntryBody.isUnchanged (opts : CatalogOptions) (existing : CatalogModel) (b : EntryBody) : Bool :=
  (exactTwin existing b (b.document opts)).isSome ||
    (existing.document b.id).any fun old => sameVariant old (b.document opts)

/-- The version published under an id. -/
def PublishedVariant.was (p : PublishedVariant) : String :=
  ((p.version.filter Json.truthy).map Json.text).getD "1.0.0"

/-- `models/<name>/<id>.yaml`. -/
def variantPath (name id : String) : String := "models/" ++ name ++ "/" ++ id ++ ".yaml"

/-- A text of a document it cannot do without. -/
def requiredText (doc : JsonDict ℚ) (key : String) : Except PyError String :=
  match dictGet doc key with
  | some value => .ok value.text
  | none => .error (.valueError key)

/-- One turn of the loop over the bodies. -/
def exportVariant (opts : CatalogOptions) (b : EntryBody) : Except PyError ExportedVariant :=
  let doc := b.document opts
  let exported := fun (id version : String) (status : VariantStatus) (doc : JsonDict ℚ) =>
    ExportedVariant.mk b.source id version status (variantPath opts.name id) doc
  match opts.existing with
  | none => .ok (exported b.id "1.0.0" .new doc)
  | some existing =>
      match exactTwin existing b doc with
      | some old =>
          (requiredText old "id").bind fun id =>
            (requiredText old "version").map fun version => exported id version .unchanged old
      | none =>
          match dictGet existing.variants b.id with
          | none => .ok (exported b.id "1.0.0" .new doc)
          | some published =>
              let version := bumpMinor published.was
              let updated := exported b.id version .updated (dictSet doc "version" (.str version))
              match published.document with
              | none => .ok updated
              | some .null => .ok updated
              | some (.dict old) =>
                  if sameVariant old doc then
                    .ok (exported b.id published.was .unchanged (dictSet doc "version" (.str published.was)))
                  else .ok updated
              | some _ => .error .attributeError

/-- The ids the bodies are exported under. -/
def settleIds (opts : CatalogOptions) (bodies : List EntryBody) : Except PyError (List EntryBody) :=
  match opts.existing with
  | none => .ok bodies
  | some existing => ownLineage opts.name existing bodies

/-- `build_catalog_entry`, as far as its variants are concerned. -/
def buildCatalogEntry (sources : List VariantSource) (opts : CatalogOptions) :
    Except PyError (List ExportedVariant) :=
  if sources.isEmpty then .error (.valueError "at least one config is needed")
  else
    (settleIds opts (entryBodies sources)).bind fun bodies => bodies.mapM (exportVariant opts)

/-- Does the variant write a file? -/
def ExportedVariant.writes (v : ExportedVariant) : Bool := v.status ≠ .unchanged

end AutoTune
