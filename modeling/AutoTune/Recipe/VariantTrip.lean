import AutoTune.Lib.Numerals
import AutoTune.Recipe.VariantFields

/-!
# There and back between a recipe and its variant

Which recipes come back from the catalog's spelling as they were, which variants come back from a recipe's,
and which groups make as many pods as their variant requires nodes.
-/

namespace AutoTune

open Lib

section Identity

variable {F : Type} [PyRuntime F]

/-! ## Recipes that have a hash -/

/-- A list can be read: it is a list, or what Python goes through as one. -/
def ListReadable (value : Option (Json F)) : Prop := ∃ items, Json.items value = .ok items

/-- The lists that an identity reads as what they mean can be read. -/
structure ListsReadable (values : JsonDict F) : Prop where
  extraArgs : ListReadable (dictGet values "extraArgs")
  env : ListReadable (dictGet values "env")
  roles : ∃ pd, subDict values "pd" = .ok pd ∧
    ∀ (role : Role) (spec : JsonDict F), dictGet pd role.name = some (.dict spec) → ListReadable (dictGet spec "extraArgs")

theorem roleIdentity_ok_iff {engine : String} {pd : JsonDict F} {role : Role} :
    (∃ pd', roleIdentity engine pd role = .ok pd') ↔
      ∀ spec, dictGet pd role.name = some (.dict spec) → ListReadable (dictGet spec "extraArgs") := by
  unfold roleIdentity
  cases hget : dictGet pd role.name with
  | none => exact ⟨fun _ spec h => (by cases h), fun _ => ⟨pd, rfl⟩⟩
  | some v =>
      cases v with
      | dict spec =>
          dsimp only
          cases hhas : dictHas spec "extraArgs" with
          | true =>
              rw [if_pos rfl]
              constructor
              · rintro ⟨pd', h⟩ spec' hspec'
                cases hspec'
                rcases map_eq_ok.mp h with ⟨items, hitems, -⟩
                exact ⟨items, hitems⟩
              · intro h
                rcases h spec rfl with ⟨items, hitems⟩
                exact ⟨_, map_eq_ok.mpr ⟨items, hitems, rfl⟩⟩
          | false =>
              rw [if_neg Bool.false_ne_true]
              refine ⟨fun _ spec' hspec' => ?_, fun _ => ⟨pd, rfl⟩⟩
              cases hspec'
              rw [dictHas_eq, Option.isSome_eq_false_iff, Option.isNone_iff_eq_none] at hhas
              exact ⟨[], by rw [hhas]; rfl⟩
      | _ => exact ⟨fun _ spec h => (by cases h), fun _ => ⟨pd, rfl⟩⟩

/-- A role leaves the other one alone. -/
theorem roleIdentity_get {engine : String} {pd pd' : JsonDict F} {role : Role}
    (h : roleIdentity engine pd role = .ok pd') {k : String} (hk : k ≠ role.name) : dictGet pd' k = dictGet pd k := by
  unfold roleIdentity at h
  split at h
  · split at h
    · rcases map_eq_ok.mp h with ⟨items, -, rfl⟩
      rw [dictGet_set, if_neg hk]
    · cases h
      rfl
  · cases h
    rfl

theorem rolesIdentity_ok_iff {engine : String} {pd : JsonDict F} :
    (∃ pd', roles.foldlM (roleIdentity engine) pd = .ok pd') ↔ ∀ (role : Role) (spec : JsonDict F),
      dictGet pd role.name = some (.dict spec) → ListReadable (dictGet spec "extraArgs") := by
  constructor
  · rintro ⟨pd', h⟩ role spec hspec
    rcases bind_eq_ok.mp h with ⟨pd₁, hprefill, h⟩
    rcases bind_eq_ok.mp h with ⟨pd₂, hdecode, -⟩
    cases role with
    | prefill => exact roleIdentity_ok_iff.mp ⟨pd₁, hprefill⟩ spec hspec
    | decode =>
        -- the first role has not touched the second
        have hsame := roleIdentity_get hprefill (k := Role.decode.name) (by decide)
        exact roleIdentity_ok_iff.mp ⟨pd₂, hdecode⟩ spec (hsame.trans hspec)
  · intro h
    have hfirst : ∃ pd₁, roleIdentity engine pd .prefill = .ok pd₁ := roleIdentity_ok_iff.mpr (h .prefill)
    rcases hfirst with ⟨pd₁, hprefill⟩
    have hsame := roleIdentity_get hprefill (k := Role.decode.name) (by decide)
    have hsecond : ∃ pd₂, roleIdentity engine pd₁ .decode = .ok pd₂ :=
      roleIdentity_ok_iff.mpr fun spec hspec => h .decode spec (hsame.symm.trans hspec)
    rcases hsecond with ⟨pd₂, hdecode⟩
    exact ⟨pd₂, bind_eq_ok.mpr ⟨pd₁, hprefill, bind_eq_ok.mpr ⟨pd₂, hdecode, rfl⟩⟩⟩

theorem identity_ok_iff {r : Recipe F} : (∃ identity, r.identity = .ok identity) ↔ ListsReadable r.values := by
  -- the roles are read after flags and env are written, which leaves them as they are
  have hget : ∀ flags env : JsonDict F, subDict (dictSet (dictSet r.values "extraArgs" (.dict flags)) "env"
      (.dict env)) "pd" = subDict r.values "pd" := by
    intro flags env
    unfold subDict
    rw [dictGet_set, if_neg (by decide), dictGet_set, if_neg (by decide)]
  constructor
  · rintro ⟨identity, h⟩
    rcases bind_eq_ok.mp h with ⟨flags, hflags, h⟩
    rcases bind_eq_ok.mp h with ⟨env, henv, h⟩
    rcases map_eq_ok.mp h with ⟨values, hvalues, -⟩
    rcases bind_eq_ok.mp hvalues with ⟨pd, hpd, hvalues⟩
    rcases map_eq_ok.mp hvalues with ⟨pd', hroles, -⟩
    rcases map_eq_ok.mp hflags with ⟨items, hitems, -⟩
    rcases map_eq_ok.mp henv with ⟨entries, hentries, -⟩
    rw [hget] at hpd
    exact { extraArgs := ⟨items, hitems⟩, env := ⟨entries, hentries⟩
            roles := ⟨pd, hpd, rolesIdentity_ok_iff.mp ⟨pd', hroles⟩⟩ }
  · intro h
    rcases h.extraArgs with ⟨items, hitems⟩
    rcases h.env with ⟨entries, hentries⟩
    rcases h.roles with ⟨pd, hpd, hspecs⟩
    have hfold : ∃ pd', roles.foldlM (roleIdentity r.engine) pd = .ok pd' := rolesIdentity_ok_iff.mpr hspecs
    rcases hfold with ⟨pd', hroles⟩
    exact ⟨_, bind_eq_ok.mpr ⟨_, map_eq_ok.mpr ⟨items, hitems, rfl⟩, bind_eq_ok.mpr ⟨_, map_eq_ok.mpr
      ⟨entries, hentries, rfl⟩, map_eq_ok.mpr ⟨_, bind_eq_ok.mpr ⟨pd, (hget _ _).trans hpd, map_eq_ok.mpr
        ⟨pd', hroles, rfl⟩⟩, rfl⟩⟩⟩⟩

/-- Both recipes have the hash, whatever SHA-256 makes of a text. -/
def Recipe.SameHash (r r' : Recipe F) : Prop :=
  ∀ sha256 : String → String, ∃ hash, r.hash sha256 = .ok hash ∧ r'.hash sha256 = .ok hash

theorem Recipe.SameHash.symm {r r' : Recipe F} (h : r.SameHash r') : r'.SameHash r := by
  intro sha256
  rcases h sha256 with ⟨hash, hr, hr'⟩
  exact ⟨hash, hr', hr⟩

theorem sameHash_iff {r r' : Recipe F} : r.SameHash r' ↔ ∃ identity identity', r.identity = .ok identity ∧
    r'.identity = .ok identity' ∧ (Json.dict identity).dump = (Json.dict identity').dump := by
  constructor
  · intro h
    rcases h id with ⟨hash, hr, hr'⟩
    rcases map_eq_ok.mp hr with ⟨identity, hidentity, rfl⟩
    rcases map_eq_ok.mp hr' with ⟨identity', hidentity', heq⟩
    refine ⟨identity, identity', hidentity, hidentity', ?_⟩
    have hchars := congrArg String.toList heq
    rw [String.toList_append, String.toList_append] at hchars
    exact (String.ofList_injective (String.toList_injective (List.append_cancel_left hchars))).symm
  · rintro ⟨identity, identity', hidentity, hidentity', heq⟩ sha256
    refine ⟨_, map_eq_ok.mpr ⟨identity, hidentity, rfl⟩, map_eq_ok.mpr ⟨identity', hidentity', ?_⟩⟩
    unfold Json.dumps
    rw [heq]

/-- Recipes with one hash are those of one engine and chart that print the same under every key which an
identity copies. -/
theorem Recipe.SameHash.fields (hplain : PlainFloats F) {r r' : Recipe F} (hnd : (r.values.map Prod.fst).Nodup)
    (hnd' : (r'.values.map Prod.fst).Nodup) (h : r.SameHash r') : r.engine = r'.engine ∧ r.chart = r'.chart ∧
      ∀ k, k ∉ ["extraArgs", "env", "pd"] →
        (dictGet r.values k).map Json.dump = (dictGet r'.values k).map Json.dump := by
  rcases sameHash_iff.mp h with ⟨identity, identity', hidentity, hidentity', heq⟩
  rcases identity_rewritten hidentity with ⟨flags, env, pd, hself⟩
  rcases identity_rewritten hidentity' with ⟨flags', env', pd', hself'⟩
  have hshape := hidentity.symm.trans (hself r rfl fun _ _ => rfl)
  have hshape' := hidentity'.symm.trans (hself' r' rfl fun _ _ => rfl)
  rw [Except.ok.inj hshape, Except.ok.inj hshape', dump_identity_iff hplain (rewritten_nodup hnd _ _ _)
    (rewritten_nodup hnd' _ _ _)] at heq
  rcases heq with ⟨hengine, hchart, hall⟩
  refine ⟨hengine, hchart, fun k hk => ?_⟩
  simp only [List.mem_cons, List.not_mem_nil, or_false, not_or] at hk
  have hkey := hall k
  rwa [rewritten_get, rewritten_get, if_neg fun h => hk.2.2 h.1, if_neg hk.2.1, if_neg hk.1,
    if_neg fun h => hk.2.2 h.1, if_neg hk.2.1, if_neg hk.1] at hkey

/-- They are, if what an identity reads anew is the same. -/
theorem sameHash_of_fields (hplain : PlainFloats F) {r r' : Recipe F} (hnd : (r.values.map Prod.fst).Nodup)
    (hnd' : (r'.values.map Prod.fst).Nodup) (hlists : ListsReadable r.values) (hengine : r'.engine = r.engine)
    (hchart : r'.chart = r.chart) (hread : ∀ k ∈ ["extraArgs", "env", "pd"], dictGet r'.values k = dictGet r.values k)
    (hcopied : ∀ k, k ∉ ["extraArgs", "env", "pd"] →
      (dictGet r.values k).map Json.dump = (dictGet r'.values k).map Json.dump) : r.SameHash r' := by
  rcases identity_ok_iff.mpr hlists with ⟨identity, hidentity⟩
  rcases identity_rewritten hidentity with ⟨flags, env, pd, hrewritten⟩
  refine sameHash_iff.mpr ⟨_, _, hrewritten r rfl fun _ _ => rfl, hrewritten r' hengine hread, ?_⟩
  rw [dump_identity_iff hplain (rewritten_nodup hnd _ _ _) (rewritten_nodup hnd' _ _ _)]
  refine ⟨hengine.symm, hchart.symm, fun k => ?_⟩
  rw [rewritten_get, rewritten_get]
  by_cases hk : k ∈ ["extraArgs", "env", "pd"]
  · rw [hread k hk]
  · rw [apply_ite (Option.map Json.dump), apply_ite (Option.map Json.dump), apply_ite (Option.map Json.dump),
      hcopied k hk, ← apply_ite (Option.map Json.dump), ← apply_ite (Option.map Json.dump),
      ← apply_ite (Option.map Json.dump)]

end Identity

section Recipes

variable {F : Type} [PyRuntime F]

/-! ## What a recipe is after the trip -/

theorem firstTrue_of_true {v : Json F} (h : v.truthy = true) (choices : List (Option (Json F))) :
    firstTrue (some v :: choices) = v := by
  unfold firstTrue
  rw [List.filterMap_cons, Option.filter_some, if_pos h]
  rfl

theorem firstTrue_of_false {v : Option (Json F)} (h : v.filter Json.truthy = none) (choices : List (Option (Json F))) :
    firstTrue (v :: choices) = firstTrue choices := by
  unfold firstTrue
  rw [List.filterMap_cons, h]

/-- Where the last choice is true, what is chosen is. -/
theorem firstTrue_truthy {v : Json F} (h : v.truthy = true) (choices : List (Option (Json F))) :
    (firstTrue (choices ++ [some v])).truthy = true := by
  induction choices with
  | nil => rwa [List.nil_append, firstTrue_of_true h]
  | cons choice choices ih =>
      rw [List.cons_append]
      cases hchoice : choice.filter Json.truthy with
      | none => rwa [firstTrue_of_false hchoice]
      | some w =>
          rcases Option.filter_eq_some_iff.mp hchoice with ⟨rfl, hw⟩
          rwa [firstTrue_of_true hw]

theorem sglang_truthy : (Json.str "sglang" : Json F).truthy = true := rfl

/-- A model that can be popped from is one that can be asked for a key. -/
theorem modelSection_ok_iff {values model : JsonDict F} :
    modelSection values = .ok model ↔ subDict values "model" = .ok model := by
  unfold modelSection subDict
  split
  · rename_i hget
    rw [hget]
    exact ⟨fun h => (by cases h), fun h => (by cases h)⟩
  · exact Iff.rfl

/-- A section has each key once. -/
theorem subDict_nodup {d c : JsonDict F} {k : String} (hkeyed : (Json.dict d).KeyedOnce) (h : subDict d k = .ok c) :
    (c.map Prod.fst).Nodup := by
  by_cases hc : c = []
  · rw [hc]
    exact List.nodup_nil
  · exact (hkeyed.get (dict_of_subDict h hc)).1

/-- `r'` is `r` with the image and the model written anew. -/
structure CameBack (r : Recipe F) (image model : JsonDict F) (r' : Recipe F) : Prop where
  engine : firstTrue [some (.str r.engine), some (.str r.chart), some (.str "sglang")] = (.str r'.engine : Json F)
  chart : firstTrue [some (.str r.chart), some (.str "sglang")] = (.str r'.chart : Json F)
  version : r'.version = r.version
  imageDigest : r'.imageDigest = if (imageField image "").isSome then r.imageDigest else ""
  getImage : dictGet r'.values "image" = (imageField image "").map Json.dict
  getModel : ∃ n back, gpusRequired (dictGet model "gpus") = .ok n ∧ dictGet r'.values "model" = some (.dict back) ∧
    ((model.map Prod.fst).Nodup → (back.map Prod.fst).Nodup) ∧ ∀ k, dictGet back k =
      if k = "gpus" then some (.str (toString n))
      else if k = "name" then (dictGet model "name").filter Json.truthy else dictGet model k
  getOther : ∀ k, k ≠ "image" → k ≠ "model" → dictGet r'.values k = dictGet r.values k
  nodup : (r.values.map Prod.fst).Nodup → (r'.values.map Prod.fst).Nodup

/-- The served name of a variant without a `model` of its own. -/
theorem servedIn_spelled {r : Recipe F} {image model requires v : JsonDict F}
    (h : SpelledAs r image model requires v) :
    servedIn v = ((dictGet model "name").filter Json.truthy).getD (.str "") := by
  unfold servedIn
  rw [h.getServedName, h.getModel]
  cases hname : (dictGet model "name").filter Json.truthy with
  | none => rfl
  | some served => exact firstTrue_of_true (Option.filter_eq_some_iff.mp hname).2 _

/-- The image of a recipe as the variant spells it, with the digest only where there is one. -/
theorem imageField_isSome (image : JsonDict F) (digest : String) :
    (imageField image digest).isSome = (imageField image "").isSome := by
  unfold imageField
  rw [Option.isSome_map, Option.isSome_map]

/-- The spelled image is a section of the variant, or there is none. -/
theorem imageSection_spelled {r : Recipe F} {image model requires v image' : JsonDict F}
    (h : SpelledAs r image model requires v) (hread : subDict v "image" = .ok image') :
    imageField image' "" = imageField image "" ∧
      textOr (dictGet image' "digest") = if (imageField image "").isSome then r.imageDigest else "" := by
  unfold subDict at hread
  rw [h.getImage] at hread
  rw [← imageField_isSome image r.imageDigest]
  cases hspelled : imageField image r.imageDigest with
  | none =>
      rw [hspelled] at hread
      cases hread
      have hnone : imageField image "" = none := by
        rw [← Option.not_isSome_iff_eq_none, ← imageField_isSome image r.imageDigest, hspelled]
        exact Bool.false_ne_true
      rw [hnone]
      exact ⟨rfl, rfl⟩
  | some spelled =>
      rw [hspelled] at hread
      cases hread
      exact ⟨imageField_again hspelled "", imageField_digest hspelled⟩

/-- What is read of a variant that a recipe has spelled is the recipe, its image and its model written anew. -/
theorem spelled_cameBack {r r' : Recipe F} {image model requires v : JsonDict F}
    (hspelled : SpelledAs r image model requires v) (hback : Recipe.fromVariant v "" = .ok r') :
    CameBack r image model r' := by
  rcases requires_fields hspelled.requiresMade with ⟨n, nodes, hn, -, hgpus, -⟩
  have hrequires : subDict v "requires" = .ok requires := subDict_of_dict hspelled.getRequires
  have hgpusIn : gpusIn requires = some (.int n) := by
    unfold gpusIn
    rw [hgpus]
    rfl
  have hwritten : ∀ requires', subDict v "requires" = .ok requires' →
      (servedIn v).truthy = true ∨ (gpusIn requires').isSome = true := by
    intro requires' h
    rw [hrequires] at h
    cases h
    exact Or.inr (by rw [hgpusIn]; rfl)
  rcases fromVariant_readAs hback hwritten with ⟨values', image', requires', chart', model', hread⟩
  have hvalues : values' = bareValues r.values model :=
    (Except.ok.inj ((subDict_of_dict hspelled.getValues).symm.trans hread.valuesSection)).symm
  have hrequires' : requires' = requires := Except.ok.inj (hread.requiresSection.symm.trans hrequires)
  have hchart' : chart' = [("name", .str r.chart), ("version", .str r.version)] :=
    (Except.ok.inj ((subDict_of_dict hspelled.getChart).symm.trans hread.chartSection)).symm
  rcases imageSection_spelled hspelled hread.imageSection with ⟨himage, hdigest⟩
  subst hvalues hrequires' hchart'
  -- the bare model is what the served name and the cards are written into
  have hmodel : model' = bareModel model := by
    have hin := hread.modelIn
    unfold ModelIn at hin
    rw [bareValues_get, if_neg (by decide), if_pos rfl] at hin
    split at hin
    · rename_i hempty
      rcases hin with ⟨-, rfl⟩ | h
      · exact hempty.symm
      · cases h
    · rcases hin with ⟨h, -⟩ | h
      · cases h
      · cases h
        rfl
  have hengine := hread.engine
  rw [hspelled.getEngine] at hengine
  refine
    { engine := hengine
      chart := hread.chartName
      version := hread.version.trans (textOr_str r.version)
      imageDigest := hread.imageDigest.trans hdigest
      getImage := ?_
      getModel := ⟨n, _, hn, hread.getModel, ?_, fun k => ?_⟩
      getOther := fun k hk hk' => ?_
      nodup := fun hnd => hread.nodup (bareValues_nodup hnd model) }
  · rw [hread.getImage, himage, bareValues_get, if_pos rfl]
    cases imageField image "" <;> rfl
  · intro hnd
    rw [hmodel]
    exact modelBack_nodup (bareModel_nodup hnd) _ _
  · rw [modelBack_get, hgpusIn, hmodel, bareModel_get, servedIn_spelled hspelled]
    by_cases hgpus : k = "gpus"
    · rw [if_pos ⟨hgpus, rfl⟩, if_pos hgpus]
      rfl
    · rw [if_neg fun h => hgpus h.1, if_neg hgpus]
      by_cases hname : k = "name"
      · rw [if_pos hname, if_pos (Or.inl hname)]
        cases hserved : (dictGet model "name").filter Json.truthy with
        | none => exact if_neg fun h => Bool.false_ne_true h.2
        | some served => exact if_pos ⟨hname, (Option.filter_eq_some_iff.mp hserved).2⟩
      · rw [if_neg fun h => hname h.1, if_neg (not_or.mpr ⟨hname, hgpus⟩), if_neg hname]
  · rw [hread.getOther k hk hk', bareValues_get, if_neg hk, if_neg hk']

/-- A variant that a recipe has spelled can be read. -/
theorem fromVariant_spelled {r : Recipe F} {image model requires v : JsonDict F}
    (h : SpelledAs r image model requires v) : ∃ r', Recipe.fromVariant v "" = .ok r' := by
  rcases requires_fields h.requiresMade with ⟨n, nodes, -, -, hgpus, -⟩
  have himage : ∃ image', subDict v "image" = .ok image' := by
    unfold subDict
    rw [h.getImage]
    cases imageField image r.imageDigest with
    | none => exact ⟨[], rfl⟩
    | some spelled => exact ⟨spelled, rfl⟩
  rcases himage with ⟨image', himage⟩
  have hmodel : ModelIn (bareValues r.values model) (bareModel model) := by
    unfold ModelIn
    rw [bareValues_get, if_neg (by decide), if_pos rfl]
    by_cases hempty : bareModel model = []
    · exact Or.inl ⟨if_pos hempty, hempty⟩
    · exact Or.inr (if_neg hempty)
  have hwritten : (gpusIn requires).isSome = true := by
    unfold gpusIn
    rw [hgpus]
    rfl
  -- what is chosen of texts is a text
  have hname : ∃ name, firstTrue [some (.str r.chart), some (.str "sglang")] = (.str name : Json F) := by
    by_cases hchart : r.chart = ""
    · exact ⟨"sglang", by rw [hchart]; rfl⟩
    · exact ⟨r.chart, firstTrue_of_true (truthy_str.mpr hchart) _⟩
  have hengine : ∃ engine, firstTrue [dictGet v "engine", some (.str r.chart), some (.str "sglang")] =
      (.str engine : Json F) := by
    rw [h.getEngine]
    by_cases hengine : r.engine = ""
    · rcases hname with ⟨name, hname⟩
      exact ⟨name, by rw [hengine, firstTrue_of_false rfl, hname]⟩
    · exact ⟨r.engine, firstTrue_of_true (truthy_str.mpr hengine) _⟩
  rcases hname with ⟨name, hname⟩
  rcases hengine with ⟨engine, hengine⟩
  exact fromVariant_ok (subDict_of_dict h.getValues) himage (subDict_of_dict h.getRequires)
    (subDict_of_dict h.getChart) hmodel (Or.inr hwritten) hengine hname

/-! ## Which recipes come back -/

/-- An image as a variant spells it: a repository, a tag as text, and the digest if there is one. -/
structure ImageFields (image : JsonDict F) (digest : String) : Prop where
  repository : ∃ repository, dictGet image "repository" = some repository ∧ repository.truthy = true
  tag : ∃ tag, dictGet image "tag" = some (.str tag)
  digest : dictGet image "digest" = if digest = "" then none else some (.str digest)
  others : ∀ k, k ∉ ["repository", "tag", "digest"] → dictGet image k = none

theorem imageField_eq_some {image spelled : JsonDict F} {digest : String} : imageField image digest = some spelled ↔
    ∃ repository, dictGet image "repository" = some repository ∧ repository.truthy = true ∧
      spelled = [("repository", repository), ("tag", .str (textOr (dictGet image "tag")))] ++
        if digest = "" then [] else [("digest", .str digest)] := by
  unfold imageField
  rw [Option.map_eq_some_iff]
  constructor
  · rintro ⟨repository, hrepository, rfl⟩
    rcases Option.filter_eq_some_iff.mp hrepository with ⟨hget, htrue⟩
    exact ⟨repository, hget, htrue, rfl⟩
  · rintro ⟨repository, hget, htrue, rfl⟩
    exact ⟨repository, Option.filter_eq_some_iff.mpr ⟨hget, htrue⟩, rfl⟩

/-- What is under the keys of a spelled image. -/
theorem imageField_get {image spelled : JsonDict F} {digest : String} (h : imageField image digest = some spelled)
    (k : String) : dictGet spelled k =
      if k = "repository" then dictGet image "repository"
      else if k = "tag" then some (.str (textOr (dictGet image "tag")))
      else if k = "digest" then (if digest = "" then none else some (.str digest)) else none := by
  rcases imageField_eq_some.mp h with ⟨repository, hget, -, rfl⟩
  rw [hget]
  by_cases hdigest : digest = ""
  · simp [hdigest, dictGet_cons, eq_comm]
  · simp [hdigest, dictGet_cons, eq_comm]

theorem imageField_nodup {image spelled : JsonDict F} {digest : String} (h : imageField image digest = some spelled) :
    (spelled.map Prod.fst).Nodup := by
  rcases imageField_eq_some.mp h with ⟨repository, -, -, rfl⟩
  by_cases hdigest : digest = ""
  · simp [hdigest]
  · simp [hdigest]

/-- An image prints as it is spelled if it has what is spelled and nothing else. -/
theorem imageField_dump_iff (hplain : PlainFloats F) {image : JsonDict F} (hnd : (image.map Prod.fst).Nodup)
    {digest : String} : (∃ spelled, imageField image digest = some spelled ∧
      (Json.dict image).dump = (Json.dict spelled).dump) ↔ ImageFields image digest := by
  constructor
  · rintro ⟨spelled, hspelled, hdump⟩
    have hall := (Json.dump_dict_iff hplain hnd (imageField_nodup hspelled)).mp hdump
    rcases imageField_eq_some.mp hspelled with ⟨repository, hget, htrue, -⟩
    refine { repository := ⟨repository, hget, htrue⟩, tag := ?_, digest := ?_, others := fun k hk => ?_ }
    · have htag := hall "tag"
      rw [imageField_get hspelled, if_neg (by decide), if_pos rfl, Option.map_some] at htag
      rcases Option.map_eq_some_iff.mp htag with ⟨tag, htag, hprint⟩
      exact ⟨_, htag.trans (congrArg some ((Json.dump_eq_str hplain).mp hprint))⟩
    · have hkey := hall "digest"
      rw [imageField_get hspelled, if_neg (by decide), if_neg (by decide), if_pos rfl] at hkey
      by_cases hempty : digest = ""
      · rw [if_pos hempty] at hkey ⊢
        exact Option.map_eq_none_iff.mp hkey
      · rw [if_neg hempty, Option.map_some] at hkey
        rw [if_neg hempty]
        rcases Option.map_eq_some_iff.mp hkey with ⟨printed, hkey, hprint⟩
        exact hkey.trans (congrArg some ((Json.dump_eq_str hplain).mp hprint))
    · simp only [List.mem_cons, List.not_mem_nil, or_false, not_or] at hk
      have hkey := hall k
      rw [imageField_get hspelled, if_neg hk.1, if_neg hk.2.1, if_neg hk.2.2] at hkey
      exact Option.map_eq_none_iff.mp hkey
  · intro h
    rcases h.repository with ⟨repository, hget, htrue⟩
    rcases h.tag with ⟨tag, htag⟩
    have hsome : ∃ spelled, imageField image digest = some spelled :=
      ⟨_, imageField_eq_some.mpr ⟨repository, hget, htrue, rfl⟩⟩
    rcases hsome with ⟨spelled, hspelled⟩
    refine ⟨spelled, hspelled, (Json.dump_dict_iff hplain hnd (imageField_nodup hspelled)).mpr fun k => ?_⟩
    rw [imageField_get hspelled]
    by_cases hk : k ∈ ["repository", "tag", "digest"]
    · simp only [List.mem_cons, List.not_mem_nil, or_false] at hk
      rcases hk with rfl | rfl | rfl
      · rfl
      · rw [htag, textOr_str]
        rfl
      · rw [h.digest]
        rfl
    · rw [h.others k hk]
      simp only [List.mem_cons, List.not_mem_nil, or_false, not_or] at hk
      rw [if_neg hk.1, if_neg hk.2.1, if_neg hk.2.2]

/-- The image of a recipe is one a variant spells, or there is none and no digest either. -/
def ImageSpelled (image : Option (Json F)) (digest : String) : Prop :=
  (image = none ∧ digest = "") ∨ ∃ fields, image = some (.dict fields) ∧ ImageFields fields ""

/-- The cards are claimed in plain decimals, and a served name is a true one. -/
def ModelSpelled (model : Option (Json F)) : Prop :=
  ∃ fields n, model = some (.dict fields) ∧ dictGet fields "gpus" = some (.str (toString (n : Int))) ∧
    ∀ served, dictGet fields "name" = some served → served.truthy = true

theorem image_back_iff (hplain : PlainFloats F) {values image : JsonDict F} {digest : String}
    (hkeyed : (Json.dict values).KeyedOnce) (himage : subDict values "image" = .ok image) :
    ((dictGet values "image").map Json.dump = ((imageField image "").map Json.dict).map Json.dump ∧
      (if (imageField image "").isSome then digest else "") = digest) ↔
        ImageSpelled (dictGet values "image") digest := by
  have hnd := subDict_nodup hkeyed himage
  constructor
  · rintro ⟨hdump, hdigest⟩
    cases hspelled : imageField image "" with
    | none =>
        rw [hspelled] at hdump hdigest
        exact Or.inl ⟨Option.map_eq_none_iff.mp hdump, hdigest.symm⟩
    | some spelled =>
        rw [hspelled] at hdump
        have hget : dictGet values "image" = some (.dict image) := by
          refine dict_of_subDict himage ?_
          rintro rfl
          cases hspelled
        rw [hget] at hdump
        exact Or.inr ⟨image, hget, (imageField_dump_iff hplain hnd).mp ⟨spelled, hspelled, Option.some.inj hdump⟩⟩
  · rintro (⟨hnone, rfl⟩ | ⟨fields, hget, hfields⟩)
    · rw [subDict_of_none hnone] at himage
      cases himage
      rw [hnone]
      exact ⟨rfl, rfl⟩
    · rw [subDict_of_dict hget] at himage
      cases himage
      rcases (imageField_dump_iff hplain hnd).mpr hfields with ⟨spelled, hspelled, hdump⟩
      rw [hget, hspelled, Option.map_some, Option.map_some, Option.map_some, hdump]
      exact ⟨rfl, rfl⟩

/-- Cards in plain decimals are the number they read as. -/
theorem gpusRequired_toString (n : Int) : gpusRequired (some (.str (toString n) : Json F)) = .ok n := by
  have hread := intOfText_toString n
  have hne : toString n ≠ "" := by
    intro h
    rw [h] at hread
    cases hread
  unfold gpusRequired
  split
  · rename_i heq
    cases heq
  · rename_i heq
    cases heq
  · rename_i heq
    exact absurd (Json.str.inj (Option.some.inj heq)) hne
  · rename_i heq
    cases heq
    unfold intOfValue Json.text
    dsimp only
    rw [hread]

theorem model_back_iff (hplain : PlainFloats F) {values model back : JsonDict F} {n : Int}
    (hkeyed : (Json.dict values).KeyedOnce) (hmodel : subDict values "model" = .ok model)
    (hn : gpusRequired (dictGet model "gpus") = .ok n)
    (hnd : (model.map Prod.fst).Nodup → (back.map Prod.fst).Nodup)
    (hback : ∀ k, dictGet back k = if k = "gpus" then some (.str (toString n))
      else if k = "name" then (dictGet model "name").filter Json.truthy else dictGet model k) :
    (dictGet values "model").map Json.dump = some (Json.dict back).dump ↔ ModelSpelled (dictGet values "model") := by
  have hndModel := subDict_nodup hkeyed hmodel
  constructor
  · intro h
    rcases Option.map_eq_some_iff.mp h with ⟨v, hget, hdump⟩
    rcases Json.dump_eq_dict hplain hdump with ⟨fields, rfl⟩
    rw [subDict_of_dict hget] at hmodel
    cases hmodel
    have hall := (Json.dump_dict_iff hplain hndModel (hnd hndModel)).mp hdump
    refine ⟨model, n, hget, ?_, fun served hserved => ?_⟩
    · have hkey := hall "gpus"
      rw [hback, if_pos rfl, Option.map_some] at hkey
      rcases Option.map_eq_some_iff.mp hkey with ⟨printed, hkey, hprint⟩
      exact hkey.trans (congrArg some ((Json.dump_eq_str hplain).mp hprint))
    · have hkey := hall "name"
      rw [hback, if_neg (by decide), if_pos rfl, hserved, Option.filter_some] at hkey
      by_contra hfalse
      rw [if_neg hfalse] at hkey
      cases hkey
  · rintro ⟨fields, m, hget, hgpus, hserved⟩
    rw [subDict_of_dict hget] at hmodel
    cases hmodel
    rw [hgpus, gpusRequired_toString] at hn
    cases hn
    rw [hget, Option.map_some]
    refine congrArg some ((Json.dump_dict_iff hplain hndModel (hnd hndModel)).mpr fun k => ?_)
    rw [hback]
    by_cases hk : k = "gpus"
    · rw [if_pos hk, hk, hgpus]
    · rw [if_neg hk]
      by_cases hname : k = "name"
      · rw [if_pos hname, hname]
        cases hget' : dictGet model "name" with
        | none => rfl
        | some served => rw [Option.filter_some, if_pos (hserved served hget')]
      · rw [if_neg hname]

/-- The recipe comes back from the catalog's spelling with the hash, the chart's version and the digest it had. -/
def Recipe.Survives (r : Recipe F) : Prop :=
  ∃ v r', r.toVariant = .ok v ∧ Recipe.fromVariant v "" = .ok r' ∧ r'.SameHash r ∧ r'.version = r.version ∧
    r'.imageDigest = r.imageDigest

/-- Nothing of the recipe is lost, defaulted or read as something else in the catalog's spelling. -/
structure Recipe.Spellable (r : Recipe F) : Prop where
  engine : r.engine ≠ ""
  chart : r.chart ≠ ""
  image : ImageSpelled (dictGet r.values "image") r.imageDigest
  model : ModelSpelled (dictGet r.values "model")
  shape : ShapeReadable r.values
  lists : ListsReadable r.values

theorem survives_iff (hplain : PlainFloats F) {r : Recipe F} (hkeyed : (Json.dict r.values).KeyedOnce) :
    r.Survives ↔ r.Spellable := by
  constructor
  · rintro ⟨v, r', hv, hr', hhash, hversion, hdigest⟩
    rcases toVariant_spelledAs hv with ⟨image, model, requires, hspelled⟩
    have hback := spelled_cameBack hspelled hr'
    rcases hback.getModel with ⟨n, back, hn, hmodel, hnd, hfields⟩
    rcases hhash.fields hplain (hback.nodup hkeyed.1) hkeyed.1 with ⟨hengine, hchart, hcopied⟩
    rcases sameHash_iff.mp hhash with ⟨-, identity, -, hidentity, -⟩
    have hsection := modelSection_ok_iff.mp hspelled.modelRead
    refine
      { engine := ?_
        chart := ?_
        image := (image_back_iff hplain hkeyed hspelled.imageSection).mp ⟨?_, hback.imageDigest.symm.trans hdigest⟩
        model := (model_back_iff hplain hkeyed hsection hn hnd hfields).mp ?_
        shape := (requires_ok_iff.mp ⟨requires, hspelled.requiresMade⟩).2
        lists := identity_ok_iff.mp ⟨identity, hidentity⟩ }
    · -- what comes back has an engine, if only the default one
      rw [← hengine, ← truthy_str (F := F), ← hback.engine]
      exact firstTrue_truthy sglang_truthy [some (.str r.engine), some (.str r.chart)]
    · rw [← hchart, ← truthy_str (F := F), ← hback.chart]
      exact firstTrue_truthy sglang_truthy [some (.str r.chart)]
    · rw [← hcopied "image" (by decide), hback.getImage]
    · rw [← hcopied "model" (by decide), hmodel, Option.map_some]
  · intro h
    rcases h.model with ⟨model, m, hgetModel, hgpus, -⟩
    have hmodel := subDict_of_dict hgetModel
    have himage : ∃ image, subDict r.values "image" = .ok image := by
      rcases h.image with ⟨hnone, -⟩ | ⟨image, hget, -⟩
      · exact ⟨[], subDict_of_none hnone⟩
      · exact ⟨image, subDict_of_dict hget⟩
    rcases himage with ⟨image, himage⟩
    have hrequires : ∃ requires, r.requires (dictGet model "gpus") = .ok requires :=
      requires_ok_iff.mpr ⟨⟨m, by rw [hgpus, gpusRequired_toString]⟩, h.shape⟩
    rcases hrequires with ⟨requires, hrequires⟩
    rcases toVariant_ok himage (modelSection_ok_iff.mpr hmodel) hrequires with ⟨v, hv⟩
    rcases toVariant_spelledAs hv with ⟨image', model', requires', hspelled⟩
    rw [Except.ok.inj (himage.symm.trans hspelled.imageSection)] at himage
    rw [Except.ok.inj (hmodel.symm.trans (modelSection_ok_iff.mp hspelled.modelRead))] at hmodel
    rcases fromVariant_spelled hspelled with ⟨r', hr'⟩
    have hback := spelled_cameBack hspelled hr'
    rcases hback.getModel with ⟨n, back, hn, hgetBack, hnd, hfields⟩
    rcases (image_back_iff hplain hkeyed himage).mpr h.image with ⟨hdumpImage, hdigest⟩
    have hdumpModel := (model_back_iff hplain hkeyed hmodel hn hnd hfields).mpr h.model
    have hengine : r'.engine = r.engine := by
      have hfirst := hback.engine
      rw [firstTrue_of_true (truthy_str.mpr h.engine)] at hfirst
      exact (Json.str.inj hfirst).symm
    have hchart : r'.chart = r.chart := by
      have hfirst := hback.chart
      rw [firstTrue_of_true (truthy_str.mpr h.chart)] at hfirst
      exact (Json.str.inj hfirst).symm
    refine ⟨v, r', hv, hr', ?_, hback.version, hback.imageDigest.trans hdigest⟩
    have hread : ∀ k ∈ ["extraArgs", "env", "pd"], dictGet r'.values k = dictGet r.values k := by
      intro k hk
      refine hback.getOther k ?_ ?_
      · rintro rfl
        exact absurd hk (by decide)
      · rintro rfl
        exact absurd hk (by decide)
    refine (sameHash_of_fields hplain hkeyed.1 (hback.nodup hkeyed.1) h.lists hengine hchart hread fun k _ => ?_).symm
    by_cases hkImage : k = "image"
    · rw [hkImage, hdumpImage, hback.getImage]
    · by_cases hkModel : k = "model"
      · rw [hkModel, hdumpModel, hgetBack, Option.map_some]
      · rw [hback.getOther k hkImage hkModel]

end Recipes

end AutoTune
