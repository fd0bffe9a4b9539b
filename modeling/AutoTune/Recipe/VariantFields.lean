import AutoTune.Lib.Fallible
import AutoTune.Lib.JsonReading
import AutoTune.Recipe.Variant

/-!
# What a recipe becomes in the catalog's spelling, and what comes back

`toVariant` and `fromVariant` field by field: what is moved, what is written anew and what is only
copied. An identity reads its lists and its roles, and copies every other value.
-/

namespace AutoTune

open Lib

section Bare

variable {F : Type}

/-! ## What is left of the values -/

/-- The model without its served name and its cards. -/
def bareModel (model : JsonDict F) : JsonDict F := dictPop (dictPop model "name") "gpus"

theorem bareModel_get (model : JsonDict F) (k : String) :
    dictGet (bareModel model) k = if k = "name" ∨ k = "gpus" then none else dictGet model k := by
  unfold bareModel
  rw [dictGet_pop, dictGet_pop]
  by_cases hgpus : k = "gpus"
  · rw [if_pos hgpus, if_pos (Or.inr hgpus)]
  · rw [if_neg hgpus]
    by_cases hname : k = "name"
    · rw [if_pos hname, if_pos (Or.inl hname)]
    · rw [if_neg hname, if_neg fun h => h.elim hname hgpus]

theorem bareModel_nodup {model : JsonDict F} (h : (model.map Prod.fst).Nodup) :
    ((bareModel model).map Prod.fst).Nodup := nodup_keys_pop (nodup_keys_pop h _) _

theorem bareValues_get (values model : JsonDict F) (k : String) : dictGet (bareValues values model) k =
    if k = "image" then none
    else if k = "model" then (if bareModel model = [] then none else some (.dict (bareModel model)))
    else dictGet values k := by
  change dictGet (if (bareModel model).isEmpty then dictPop (dictPop values "image") "model"
    else dictSet (dictPop values "image") "model" (.dict (bareModel model))) k = _
  by_cases hempty : bareModel model = []
  · rw [if_pos (by rw [hempty]; rfl), if_pos hempty, dictGet_pop, dictGet_pop]
    split
    · rename_i hk
      rw [if_neg (by rw [hk]; decide)]
    · rfl
  · rw [if_neg (by rw [List.isEmpty_iff]; exact hempty), if_neg hempty, dictGet_set, dictGet_pop]
    split
    · rename_i hk
      rw [if_neg (by rw [hk]; decide)]
    · rfl

theorem bareValues_nodup {values : JsonDict F} (h : (values.map Prod.fst).Nodup) (model : JsonDict F) :
    ((bareValues values model).map Prod.fst).Nodup := by
  change ((if (bareModel model).isEmpty then dictPop (dictPop values "image") "model"
    else dictSet (dictPop values "image") "model" (.dict (bareModel model))).map Prod.fst).Nodup
  split
  · exact nodup_keys_pop (nodup_keys_pop h _) _
  · exact nodup_dictSet (nodup_keys_pop h _) _ _

theorem textField_ok_iff {v : Json F} {s : String} : textField v = .ok s ↔ v = .str s := by
  cases v with
  | str t =>
      constructor
      · intro h
        rw [Except.ok.inj h]
      · intro h
        cases h
        rfl
  | _ => exact ⟨fun h => (by cases h), fun h => (by cases h)⟩

/-- Values with their flags, their env and, where there are roles, the roles written anew. -/
def rewritten (flags env : JsonDict F) (pd : Option (JsonDict F)) (values : JsonDict F) : JsonDict F :=
  let values := dictSet (dictSet values "extraArgs" (.dict flags)) "env" (.dict env)
  match pd with
  | some pd => dictSet values "pd" (.dict pd)
  | none => values

theorem rewritten_get (flags env : JsonDict F) (pd : Option (JsonDict F)) (values : JsonDict F) (k : String) :
    dictGet (rewritten flags env pd values) k =
      if k = "pd" ∧ pd.isSome then pd.map Json.dict
      else if k = "env" then some (.dict env)
      else if k = "extraArgs" then some (.dict flags)
      else dictGet values k := by
  unfold rewritten
  cases pd <;> simp [dictGet_set]

theorem rewritten_nodup {values : JsonDict F} (h : (values.map Prod.fst).Nodup) (flags env : JsonDict F)
    (pd : Option (JsonDict F)) : ((rewritten flags env pd values).map Prod.fst).Nodup := by
  have hflags := nodup_dictSet (nodup_dictSet h "extraArgs" (.dict flags)) "env" (.dict env)
  unfold rewritten
  cases pd with
  | none => exact hflags
  | some pd => exact nodup_dictSet hflags _ _

end Bare

section Fields

variable {F : Type} [PyRuntime F]

/-! ## Sections -/

theorem subDict_of_dict {d c : JsonDict F} {k : String} (h : dictGet d k = some (.dict c)) :
    subDict d k = .ok c := by
  unfold subDict
  rw [h]
  rfl

theorem subDict_of_none {d : JsonDict F} {k : String} (h : dictGet d k = none) : subDict d k = .ok [] := by
  unfold subDict
  rw [h]
  rfl

/-- A section that has something is one. -/
theorem dict_of_subDict {d c : JsonDict F} {k : String} (h : subDict d k = .ok c) (hc : c ≠ []) :
    dictGet d k = some (.dict c) := by
  unfold subDict at h
  cases hget : dictGet d k with
  | none =>
      rw [hget] at h
      exact absurd (Except.ok.inj h).symm hc
  | some v =>
      rw [hget] at h
      cases v with
      | dict e => rw [Except.ok.inj h]
      | _ =>
          unfold Json.orEmpty at h
          dsimp only at h
          split at h
          · cases h
          · exact absurd (Except.ok.inj h).symm hc

theorem ne_nil_of_get {α : Type} {d : List (String × α)} {k : String} {v : α} (h : dictGet d k = some v) : d ≠ [] := by
  rintro rfl
  cases h

/-! ## The shape of the pods -/

/-- The size of a group can be read: it is left out, empty, or a number, perhaps as text. -/
def SizeReadable (lws : JsonDict F) : Prop :=
  ∀ size, dictGet lws "size" = some size → size.truthy = true → ∃ n, intOfValue size = .ok n

/-- The sections that `requires` is made of can be read. -/
structure ShapeReadable (values : JsonDict F) : Prop where
  topology : ∃ pd, subDict values "pd" = .ok pd ∧ (dictTrue pd "enabled" = false →
    ∃ lws, subDict values "lws" = .ok lws ∧ (dictTrue lws "enabled" = true → SizeReadable lws))
  rdma : ∃ rdma, subDict values "rdma" = .ok rdma

section Topology

variable {r : Recipe F} {pd lws : JsonDict F}

theorem topology_pd (hpd : subDict r.values "pd" = .ok pd) (h : dictTrue pd "enabled" = true) :
    r.topology = .ok .pd := by
  simp [Recipe.topology, bind, Except.bind, hpd, h, pure, Except.pure]

theorem topology_lws (hpd : subDict r.values "pd" = .ok pd) (h : dictTrue pd "enabled" = false)
    (hlws : subDict r.values "lws" = .ok lws) (hgroup : dictTrue lws "enabled" = true) : r.topology = .ok .lws := by
  simp [Recipe.topology, bind, Except.bind, hpd, h, hlws, hgroup, pure, Except.pure]

theorem topology_single (hpd : subDict r.values "pd" = .ok pd) (h : dictTrue pd "enabled" = false)
    (hlws : subDict r.values "lws" = .ok lws) (hgroup : dictTrue lws "enabled" = false) :
    r.topology = .ok .singleNode := by
  simp [Recipe.topology, bind, Except.bind, hpd, h, hlws, hgroup, pure, Except.pure]

/-- A group is what is enabled where the roles are not. -/
theorem topology_lws_section (h : r.topology = .ok .lws) : ∃ lws, subDict r.values "lws" = .ok lws := by
  unfold Recipe.topology at h
  rcases bind_eq_ok.mp h with ⟨pd, -, h⟩
  split at h
  · cases h
  · rcases bind_eq_ok.mp h with ⟨lws, hlws, -⟩
    exact ⟨lws, hlws⟩

end Topology

/-- The nodes of a group, as its size says. -/
def groupNodes (lws : JsonDict F) : Except PyError Int :=
  match (dictGet lws "size").filter Json.truthy with
  | some size => intOfValue size
  | none => .ok 1

theorem groupNodes_ok_iff {lws : JsonDict F} : (∃ n, groupNodes lws = .ok n) ↔ SizeReadable lws := by
  unfold groupNodes SizeReadable
  cases hget : dictGet lws "size" with
  | none => exact ⟨fun _ size h => (by cases h), fun _ => ⟨1, rfl⟩⟩
  | some size =>
      rw [Option.filter_some]
      by_cases htrue : size.truthy = true
      · rw [if_pos htrue]
        constructor
        · rintro ⟨n, h⟩ size' hsize' -
          cases hsize'
          exact ⟨n, h⟩
        · exact fun h => h size rfl htrue
      · rw [if_neg htrue]
        exact ⟨fun _ size' hsize' htrue' => absurd (Option.some.inj hsize' ▸ htrue') htrue, fun _ => ⟨1, rfl⟩⟩

theorem nodesRequired_lws {r : Recipe F} {lws : JsonDict F} (h : r.topology = .ok .lws)
    (hlws : subDict r.values "lws" = .ok lws) : r.nodesRequired = groupNodes lws := by
  unfold Recipe.nodesRequired
  rw [h]
  change (subDict r.values "lws").bind _ = _
  rw [hlws]
  rfl

theorem nodesRequired_other {r : Recipe F} {topology : Topology} (h : r.topology = .ok topology)
    (hne : topology ≠ .lws) : r.nodesRequired = .ok 1 := by
  unfold Recipe.nodesRequired
  rw [h]
  exact if_neg hne

theorem nodesRequired_ok_iff {r : Recipe F} : (∃ n, r.nodesRequired = .ok n) ↔
    ∃ pd, subDict r.values "pd" = .ok pd ∧ (dictTrue pd "enabled" = false →
      ∃ lws, subDict r.values "lws" = .ok lws ∧ (dictTrue lws "enabled" = true → SizeReadable lws)) := by
  constructor
  · rintro ⟨n, hn⟩
    rcases bind_eq_ok.mp hn with ⟨topology, htopology, -⟩
    have hreads := htopology
    unfold Recipe.topology at hreads
    rcases bind_eq_ok.mp hreads with ⟨pd, hpd, hreads⟩
    refine ⟨pd, hpd, fun henabled => ?_⟩
    rw [if_neg (Bool.eq_false_iff.mp henabled)] at hreads
    rcases bind_eq_ok.mp hreads with ⟨lws, hlws, -⟩
    refine ⟨lws, hlws, fun hgroup => ?_⟩
    rw [nodesRequired_lws (topology_lws hpd henabled hlws hgroup) hlws] at hn
    exact groupNodes_ok_iff.mp ⟨n, hn⟩
  · rintro ⟨pd, hpd, hrest⟩
    cases henabled : dictTrue pd "enabled" with
    | true => exact ⟨1, nodesRequired_other (topology_pd hpd henabled) (by decide)⟩
    | false =>
        rcases hrest henabled with ⟨lws, hlws, hsize⟩
        cases hgroup : dictTrue lws "enabled" with
        | true =>
            rw [nodesRequired_lws (topology_lws hpd henabled hlws hgroup) hlws]
            exact groupNodes_ok_iff.mpr (hsize hgroup)
        | false => exact ⟨1, nodesRequired_other (topology_single hpd henabled hlws hgroup) (by decide)⟩

/-- `requires` can be made where the sections it reads can. -/
theorem requires_ok_iff {r : Recipe F} {gpus : Option (Json F)} :
    (∃ requires, r.requires gpus = .ok requires) ↔ (∃ n, gpusRequired gpus = .ok n) ∧ ShapeReadable r.values := by
  constructor
  · rintro ⟨requires, h⟩
    rcases bind_eq_ok.mp h with ⟨n, hn, h⟩
    rcases bind_eq_ok.mp h with ⟨nodes, hnodes, h⟩
    rcases bind_eq_ok.mp h with ⟨topology, -, h⟩
    rcases map_eq_ok.mp h with ⟨rdma, hrdma, -⟩
    exact ⟨⟨n, hn⟩, { topology := nodesRequired_ok_iff.mp ⟨nodes, hnodes⟩, rdma := ⟨rdma, hrdma⟩ }⟩
  · rintro ⟨⟨n, hn⟩, hshape⟩
    rcases nodesRequired_ok_iff.mpr hshape.topology with ⟨nodes, hnodes⟩
    rcases bind_eq_ok.mp hnodes with ⟨topology, htopology, -⟩
    rcases hshape.rdma with ⟨rdma, hrdma⟩
    exact ⟨_, bind_eq_ok.mpr ⟨n, hn, bind_eq_ok.mpr ⟨nodes, hnodes, bind_eq_ok.mpr ⟨topology, htopology,
      map_eq_ok.mpr ⟨rdma, hrdma, rfl⟩⟩⟩⟩⟩

/-- What `requires` says of the cards and the nodes. -/
theorem requires_fields {r : Recipe F} {gpus : Option (Json F)} {requires : JsonDict F}
    (h : r.requires gpus = .ok requires) : ∃ n nodes, gpusRequired gpus = .ok n ∧ r.nodesRequired = .ok nodes ∧
      dictGet requires "gpus" = some (.int n) ∧
      dictGet requires "nodes" = if 1 < nodes then some (.int nodes) else none := by
  rcases bind_eq_ok.mp h with ⟨n, hn, h⟩
  rcases bind_eq_ok.mp h with ⟨nodes, hnodes, h⟩
  rcases bind_eq_ok.mp h with ⟨topology, -, h⟩
  rcases map_eq_ok.mp h with ⟨rdma, -, rfl⟩
  refine ⟨n, nodes, hn, hnodes, ?_, ?_⟩
  · rfl
  · by_cases hmany : 1 < nodes
    · rw [if_pos hmany, if_pos hmany]
      rfl
    · rw [if_neg hmany, if_neg hmany]
      cases dictTrue rdma "enabled" <;> rfl

/-! ## What is moved -/

/-- `fields` are those of the catalog's spelling of a recipe whose image, model and `requires` are these. -/
structure SpelledAs (r : Recipe F) (image model requires : JsonDict F) (fields : JsonDict F) : Prop where
  imageSection : subDict r.values "image" = .ok image
  modelRead : modelSection r.values = .ok model
  requiresMade : r.requires (dictGet model "gpus") = .ok requires
  getEngine : dictGet fields "engine" = some (.str r.engine)
  getChart : dictGet fields "chart" = some (.dict [("name", .str r.chart), ("version", .str r.version)])
  getServedName : dictGet fields "servedName" = (dictGet model "name").filter Json.truthy
  getImage : dictGet fields "image" = (imageField image r.imageDigest).map Json.dict
  getRequires : dictGet fields "requires" = some (.dict requires)
  getValues : dictGet fields "values" = some (.dict (bareValues r.values model))
  getModel : dictGet fields "model" = none

theorem toVariant_spelledAs {r : Recipe F} {v : JsonDict F} (h : r.toVariant = .ok v) :
    ∃ image model requires, SpelledAs r image model requires v := by
  rcases bind_eq_ok.mp h with ⟨image, himage, h⟩
  rcases bind_eq_ok.mp h with ⟨model, hmodel, h⟩
  rcases map_eq_ok.mp h with ⟨requires, hrequires, rfl⟩
  refine ⟨image, model, requires, ?_⟩
  cases hserved : (dictGet model "name").filter Json.truthy <;> cases hspelled : imageField image r.imageDigest <;>
    exact
      { imageSection := himage, modelRead := hmodel, requiresMade := hrequires, getEngine := rfl, getChart := rfl
        getServedName := by rw [hserved]; rfl
        getImage := by rw [hspelled]; rfl
        getRequires := rfl, getValues := rfl, getModel := rfl }

theorem toVariant_ok {r : Recipe F} {image model requires : JsonDict F}
    (himage : subDict r.values "image" = .ok image) (hmodel : modelSection r.values = .ok model)
    (hrequires : r.requires (dictGet model "gpus") = .ok requires) : ∃ v, r.toVariant = .ok v :=
  ⟨_, bind_eq_ok.mpr ⟨image, himage, bind_eq_ok.mpr ⟨model, hmodel, map_eq_ok.mpr ⟨requires, hrequires, rfl⟩⟩⟩⟩

theorem truthy_str {s : String} : (Json.str s : Json F).truthy = true ↔ s ≠ "" := by
  unfold Json.truthy
  exact bne_iff_ne

theorem textOr_str (s : String) : textOr (some (.str s : Json F)) = s := by
  unfold textOr
  by_cases hs : s = ""
  · rw [hs]
    rfl
  · rw [Option.filter_some, if_pos (truthy_str.mpr hs)]
    rfl

/-- The image of a variant is spelled in a recipe's values the way the recipe spells it, and again in the variant
that the recipe becomes. -/
theorem imageField_again {image spelled : JsonDict F} {digest : String} (h : imageField image digest = some spelled)
    (digest' : String) : imageField spelled digest' = imageField image digest' := by
  unfold imageField at h ⊢
  rcases Option.map_eq_some_iff.mp h with ⟨repository, hrepository, rfl⟩
  have htrue : repository.truthy = true := (Option.filter_eq_some_iff.mp hrepository).2
  have hget : dictGet (([("repository", repository), ("tag", .str (textOr (dictGet image "tag")))] ++
      if digest = "" then [] else [("digest", .str digest)] : JsonDict F)) "repository" = some repository := rfl
  have htag : dictGet (([("repository", repository), ("tag", .str (textOr (dictGet image "tag")))] ++
      if digest = "" then [] else [("digest", .str digest)] : JsonDict F)) "tag" =
        some (.str (textOr (dictGet image "tag"))) := rfl
  rw [hrepository, hget, htag, textOr_str, Option.filter_some, if_pos htrue]

/-- The digest is spelled beside them. -/
theorem imageField_digest {image spelled : JsonDict F} {digest : String}
    (h : imageField image digest = some spelled) : textOr (dictGet spelled "digest") = digest := by
  unfold imageField at h
  rcases Option.map_eq_some_iff.mp h with ⟨repository, -, rfl⟩
  by_cases hdigest : digest = ""
  · rw [if_pos hdigest, hdigest]
    rfl
  · rw [if_neg hdigest]
    exact textOr_str digest

/-! ## What comes back -/

/-- The model as it stands in a recipe's values again, the served name and the cards written into it. -/
def modelBack (model : JsonDict F) (served : Json F) (gpus : Option (Json F)) : JsonDict F :=
  let written : JsonDict F := (if served.truthy then [("name", served)] else []) ++
    (gpus.map fun gpus => [("gpus", .str gpus.text)]).getD []
  written.foldl (fun d e => dictSet d e.1 e.2) model

theorem modelBack_get (model : JsonDict F) (served : Json F) (gpus : Option (Json F)) (k : String) :
    dictGet (modelBack model served gpus) k =
      if k = "gpus" ∧ gpus.isSome then gpus.map fun gpus => .str gpus.text
      else if k = "name" ∧ served.truthy then some served
      else dictGet model k := by
  unfold modelBack
  cases served.truthy with
  | false => cases gpus <;> simp [dictGet_set]
  | true => cases gpus <;> simp [dictGet_set]

theorem modelBack_nodup {model : JsonDict F} (h : (model.map Prod.fst).Nodup) (served : Json F)
    (gpus : Option (Json F)) : ((modelBack model served gpus).map Prod.fst).Nodup :=
  nodup_foldl_dictSet _ h

/-- The served name that is read of the fields of a variant. -/
def servedIn (fields : JsonDict F) : Json F :=
  firstTrue [dictGet fields "servedName", some (.str ""), dictGet fields "model"]

/-- The cards that are read of its `requires`. -/
def gpusIn (requires : JsonDict F) : Option (Json F) :=
  (dictGet requires "gpus").filter fun gpus => !gpus matches .null

/-- The model section the served name and the cards are written into. -/
def ModelIn (values model : JsonDict F) : Prop :=
  (dictGet values "model" = none ∧ model = []) ∨ dictGet values "model" = some (.dict model)

/-- The sections of a variant, and what a recipe is made of them: the values with the image and the model
written into them. -/
structure ReadAs (fields values image requires chart model : JsonDict F) (r : Recipe F) : Prop where
  valuesSection : subDict fields "values" = .ok values
  imageSection : subDict fields "image" = .ok image
  requiresSection : subDict fields "requires" = .ok requires
  chartSection : subDict fields "chart" = .ok chart
  modelIn : ModelIn values model
  engine : firstTrue [dictGet fields "engine", dictGet chart "name", some (.str "sglang")] = .str r.engine
  chartName : firstTrue [dictGet chart "name", some (.str "sglang")] = .str r.chart
  version : r.version = textOr (dictGet chart "version")
  imageDigest : r.imageDigest = textOr (dictGet image "digest")
  getImage : dictGet r.values "image" =
    ((imageField image "").map fun image => some (.dict image)).getD (dictGet values "image")
  getModel : dictGet r.values "model" = some (.dict (modelBack model (servedIn fields) (gpusIn requires)))
  getOther : ∀ k, k ≠ "image" → k ≠ "model" → dictGet r.values k = dictGet values k
  nodup : (values.map Prod.fst).Nodup → (r.values.map Prod.fst).Nodup

/-- The values with the image written into them. -/
def withImage (values image : JsonDict F) : JsonDict F :=
  match imageField image "" with
  | some image => dictSet values "image" (.dict image)
  | none => values

theorem withImage_get (values image : JsonDict F) (k : String) : dictGet (withImage values image) k =
    if k = "image" then ((imageField image "").map fun image => some (.dict image)).getD (dictGet values "image")
    else dictGet values k := by
  unfold withImage
  cases imageField image "" with
  | none =>
      by_cases hk : k = "image"
      · rw [if_pos hk, hk]
        rfl
      · rw [if_neg hk]
  | some image =>
      dsimp only
      rw [dictGet_set]
      rfl

theorem withImage_nodup {values : JsonDict F} (h : (values.map Prod.fst).Nodup) (image : JsonDict F) :
    ((withImage values image).map Prod.fst).Nodup := by
  unfold withImage
  split
  · exact nodup_dictSet h _ _
  · exact h

/-- Where something is written into the model, it is a section or there is none yet. -/
theorem fillModel_ok_iff {values out : JsonDict F} {served : Json F} {gpus : Option (Json F)}
    (hwritten : served.truthy = true ∨ gpus.isSome = true) : fillModel values served gpus = .ok out ↔
      ∃ model, ModelIn values model ∧ out = dictSet values "model" (.dict (modelBack model served gpus)) := by
  have hsome : List.isEmpty ((if served.truthy then [("name", served)] else []) ++
      (gpus.map fun gpus => [("gpus", .str gpus.text)]).getD [] : JsonDict F) = false := by
    rcases hwritten with hserved | hgpus
    · rw [hserved]
      rfl
    · rcases Option.isSome_iff_exists.mp hgpus with ⟨g, rfl⟩
      cases served.truthy <;> rfl
  unfold fillModel ModelIn
  cases hget : dictGet values "model" with
  | none =>
      constructor
      · intro h
        cases h
        exact ⟨[], Or.inl ⟨rfl, rfl⟩, rfl⟩
      · rintro ⟨model, ⟨-, rfl⟩ | h, rfl⟩
        · rfl
        · cases h
  | some value =>
      cases value with
      | dict model =>
          constructor
          · intro h
            cases h
            exact ⟨model, Or.inr rfl, rfl⟩
          · rintro ⟨model', ⟨h, -⟩ | h, rfl⟩
            · cases h
            · cases h
              rfl
      | _ =>
          constructor
          · intro h
            dsimp only at h
            rw [hsome, if_neg Bool.false_ne_true] at h
            cases h
          · rintro ⟨model', ⟨h, -⟩ | h, -⟩
            · cases h
            · cases h

/-- What `from_variant` reads, where the served name or the cards are written into the model. -/
theorem fromVariant_readAs {fields : JsonDict F} {r : Recipe F} (h : Recipe.fromVariant fields "" = .ok r)
    (hwritten : ∀ requires, subDict fields "requires" = .ok requires →
      (servedIn fields).truthy = true ∨ (gpusIn requires).isSome = true) :
    ∃ values image requires chart model, ReadAs fields values image requires chart model r := by
  rcases bind_eq_ok.mp h with ⟨values, hvalues, h⟩
  rcases bind_eq_ok.mp h with ⟨image, himage, h⟩
  rcases bind_eq_ok.mp h with ⟨requires, hrequires, h⟩
  rcases bind_eq_ok.mp h with ⟨filled, hfilled, h⟩
  rcases bind_eq_ok.mp h with ⟨chart, hchart, h⟩
  rcases bind_eq_ok.mp h with ⟨engine, hengine, h⟩
  rcases map_eq_ok.mp h with ⟨name, hname, rfl⟩
  change fillModel (withImage values image) (servedIn fields) (gpusIn requires) = .ok filled at hfilled
  rcases (fillModel_ok_iff (hwritten requires hrequires)).mp hfilled with ⟨model, hmodel, rfl⟩
  have hmodelIn : ModelIn values model := by
    unfold ModelIn at hmodel ⊢
    rwa [withImage_get, if_neg (by decide)] at hmodel
  refine ⟨values, image, requires, chart, model, ?_⟩
  exact
    { valuesSection := hvalues, imageSection := himage, requiresSection := hrequires, chartSection := hchart
      modelIn := hmodelIn
      engine := textField_ok_iff.mp hengine
      chartName := textField_ok_iff.mp hname
      version := rfl
      imageDigest := rfl
      getImage := by
        dsimp only
        rw [dictGet_set, if_neg (by decide), withImage_get, if_pos rfl]
      getModel := by
        dsimp only
        rw [dictGet_set, if_pos rfl]
      getOther := fun k hk hk' => by
        dsimp only
        rw [dictGet_set, if_neg hk', withImage_get, if_neg hk]
      nodup := fun hnd => nodup_dictSet (withImage_nodup hnd image) _ _ }

theorem fromVariant_ok {fields values image requires chart model : JsonDict F} {engine name : String}
    (hvalues : subDict fields "values" = .ok values) (himage : subDict fields "image" = .ok image)
    (hrequires : subDict fields "requires" = .ok requires) (hchart : subDict fields "chart" = .ok chart)
    (hmodel : ModelIn values model) (hwritten : (servedIn fields).truthy = true ∨ (gpusIn requires).isSome = true)
    (hengine : firstTrue [dictGet fields "engine", dictGet chart "name", some (.str "sglang")] = .str engine)
    (hname : firstTrue [dictGet chart "name", some (.str "sglang")] = .str name) :
    ∃ r, Recipe.fromVariant fields "" = .ok r := by
  have hmodelIn : ModelIn (withImage values image) model := by
    unfold ModelIn at hmodel ⊢
    rwa [withImage_get, if_neg (by decide)]
  refine ⟨_, bind_eq_ok.mpr ⟨values, hvalues, bind_eq_ok.mpr ⟨image, himage, bind_eq_ok.mpr ⟨requires, hrequires,
    bind_eq_ok.mpr ⟨_, (fillModel_ok_iff hwritten).mpr ⟨model, hmodelIn, rfl⟩, bind_eq_ok.mpr ⟨chart, hchart,
      bind_eq_ok.mpr ⟨engine, textField_ok_iff.mpr hengine, map_eq_ok.mpr ⟨name, textField_ok_iff.mpr hname, rfl⟩⟩⟩⟩⟩⟩⟩⟩

/-! ## Identities -/

/-- An identity: the chart and the values as they are compared. -/
def identityOf (r : Recipe F) (values : JsonDict F) : JsonDict F :=
  [("engine", .str r.engine), ("chart", .str r.chart), ("values", .dict values)]

/-- What an identity writes anew depends on the engine, the flags, the env and the roles only. -/
theorem identity_rewritten {r : Recipe F} {identity : JsonDict F} (h : r.identity = .ok identity) :
    ∃ flags env pd, ∀ r' : Recipe F, r'.engine = r.engine →
      (∀ k ∈ ["extraArgs", "env", "pd"], dictGet r'.values k = dictGet r.values k) →
        r'.identity = .ok (identityOf r' (rewritten flags env pd r'.values)) := by
  rcases bind_eq_ok.mp h with ⟨flags, hflags, h⟩
  rcases bind_eq_ok.mp h with ⟨env, henv, h⟩
  rcases map_eq_ok.mp h with ⟨values, hvalues, -⟩
  rcases bind_eq_ok.mp hvalues with ⟨pd, hpd, hvalues⟩
  rcases map_eq_ok.mp hvalues with ⟨pd', hroles, -⟩
  refine ⟨flags, sortEntries env, if dictTrue r.values "pd" then some pd' else none, fun r' hengine hagree => ?_⟩
  have hflags' : r'.flags = .ok flags := by
    unfold Recipe.flags at hflags ⊢
    rw [hengine, hagree "extraArgs" (by simp), hflags]
  have henv' : r'.env = .ok env := by
    unfold Recipe.env at henv ⊢
    rw [hagree "env" (by simp), henv]
  have hget : ∀ values : JsonDict F, dictGet (dictSet (dictSet values "extraArgs" (.dict flags)) "env"
      (.dict (sortEntries env))) "pd" = dictGet values "pd" := by
    intro values
    rw [dictGet_set, if_neg (by decide), dictGet_set, if_neg (by decide)]
  have hpd' : subDict (dictSet (dictSet r'.values "extraArgs" (.dict flags)) "env" (.dict (sortEntries env))) "pd" =
      .ok pd := by
    unfold subDict at hpd ⊢
    rw [hget] at hpd ⊢
    rw [hagree "pd" (by simp), hpd]
  have htrue : dictTrue (dictSet (dictSet r'.values "extraArgs" (.dict flags)) "env" (.dict (sortEntries env))) "pd" =
      dictTrue r.values "pd" := by
    unfold dictTrue
    rw [hget, hagree "pd" (by simp)]
  refine bind_eq_ok.mpr ⟨flags, hflags', bind_eq_ok.mpr ⟨env, henv', map_eq_ok.mpr ⟨_,
    bind_eq_ok.mpr ⟨pd, hpd', map_eq_ok.mpr ⟨pd', ?_, rfl⟩⟩, ?_⟩⟩⟩
  · rw [hengine]
    exact hroles
  · rw [htrue]
    unfold identityOf rewritten
    cases dictTrue r.values "pd" <;> rfl

/-- Identities print the same where engine, chart and every value do. -/
theorem dump_identity_iff (hplain : PlainFloats F) {r r' : Recipe F} {values values' : JsonDict F}
    (h : (values.map Prod.fst).Nodup) (h' : (values'.map Prod.fst).Nodup) :
    (Json.dict (identityOf r values)).dump = (Json.dict (identityOf r' values')).dump ↔
      r.engine = r'.engine ∧ r.chart = r'.chart ∧
        ∀ k, (dictGet values k).map Json.dump = (dictGet values' k).map Json.dump := by
  have hnd : ∀ (r : Recipe F) (values : JsonDict F), ((identityOf r values).map Prod.fst).Nodup := by
    intro r values
    change ["engine", "chart", "values"].Nodup
    decide
  rw [Json.dump_dict_iff hplain (hnd r values) (hnd r' values'), ← Json.dump_dict_iff hplain h h']
  have hget : ∀ (r : Recipe F) (values : JsonDict F) (k : String), dictGet (identityOf r values) k =
      if "engine" = k then some (.str r.engine) else if "chart" = k then some (.str r.chart)
        else if "values" = k then some (.dict values) else none := by
    intro r values k
    unfold identityOf
    rw [dictGet_cons, dictGet_cons, dictGet_cons, dictGet_nil]
  constructor
  · intro hall
    refine ⟨?_, ?_, ?_⟩
    · exact quoted_injective (Option.some.inj (hall "engine"))
    · exact quoted_injective (Option.some.inj (hall "chart"))
    · exact Option.some.inj (hall "values")
  · rintro ⟨hengine, hchart, hvalues⟩ k
    rw [hget, hget, hengine, hchart]
    split
    · rfl
    split
    · rfl
    split
    · rw [Option.map_some, Option.map_some, hvalues]
    · rfl

end Fields

end AutoTune
