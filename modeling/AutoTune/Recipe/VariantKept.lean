import AutoTune.Recipe.VariantTrip

/-!
# Variants that are restored, and the nodes they require

A variant is read as a recipe and spelled again. What was spelled in another place, by another type or not at all
is not restored; and a group without a size makes more pods than its variant requires nodes.
-/

namespace AutoTune

open Lib

section Variants

variable {F : Type} [PyRuntime F]

/-! ## Which variants are restored -/

/-- The cards a variant requires. -/
def requiredGpus (v : JsonDict F) : Option (Json F) :=
  match dictGet v "requires" with
  | some (.dict requires) => dictGet requires "gpus"
  | _ => none

/-- Spelled again from the recipe it is read as, the variant has the engine, the chart, the image, the served name,
the values and the cards it had. -/
def Restored (v : JsonDict F) : Prop :=
  ∃ r v', Recipe.fromVariant v "" = .ok r ∧ r.toVariant = .ok v' ∧
    (∀ k ∈ ["engine", "chart", "image", "servedName", "values"],
      (dictGet v' k).map Json.dump = (dictGet v k).map Json.dump) ∧
    (requiredGpus v').map Json.dump = (requiredGpus v).map Json.dump

/-- A chart as a recipe spells it: a name, and a version as text. -/
structure ChartFields (chart : JsonDict F) : Prop where
  name : ∃ name, name ≠ "" ∧ dictGet chart "name" = some (.str name)
  version : ∃ version, dictGet chart "version" = some (.str version)
  others : ∀ k, k ∉ ["name", "version"] → dictGet chart k = none

/-- Values that spell nothing the variant spells elsewhere, and no empty model. -/
structure ValuesFields (values : JsonDict F) : Prop where
  image : dictGet values "image" = none
  model : dictGet values "model" = none ∨ ∃ model, dictGet values "model" = some (.dict model) ∧ model ≠ [] ∧
    dictGet model "name" = none ∧ dictGet model "gpus" = none

/-- Everything the variant spells is where a recipe spells it, and of the type it spells it by. -/
structure VariantSpelled (v : JsonDict F) : Prop where
  engine : ∃ engine, engine ≠ "" ∧ dictGet v "engine" = some (.str engine)
  chart : ∃ chart, dictGet v "chart" = some (.dict chart) ∧ ChartFields chart
  image : dictGet v "image" = none ∨ ∃ image digest, dictGet v "image" = some (.dict image) ∧ ImageFields image digest
  gpus : ∃ gpus n, requiredGpus v = some gpus ∧ gpus.dump = (Json.int n : Json F).dump
  values : ∃ values, dictGet v "values" = some (.dict values) ∧ ValuesFields values ∧ ShapeReadable values

section Kept

variable {v values image requires chart model : JsonDict F} {r : Recipe F}

theorem engine_kept_iff (hplain : PlainFloats F) (hread : ReadAs v values image requires chart model r) :
    some (Json.str r.engine : Json F).dump = (dictGet v "engine").map Json.dump ↔
      ∃ engine, engine ≠ "" ∧ dictGet v "engine" = some (.str engine) := by
  constructor
  · intro h
    rcases Option.map_eq_some_iff.mp h.symm with ⟨engine, hget, hprint⟩
    refine ⟨r.engine, ?_, hget.trans (congrArg some ((Json.dump_eq_str hplain).mp hprint))⟩
    rw [← truthy_str (F := F), ← hread.engine]
    exact firstTrue_truthy sglang_truthy [dictGet v "engine", dictGet chart "name"]
  · rintro ⟨engine, hne, hget⟩
    have hfirst := hread.engine
    rw [hget, firstTrue_of_true (truthy_str.mpr hne)] at hfirst
    rw [hget, hfirst]
    rfl

theorem chart_kept_iff (hplain : PlainFloats F) (hkeyed : (Json.dict v).KeyedOnce)
    (hread : ReadAs v values image requires chart model r) :
    some (Json.dict [("name", .str r.chart), ("version", .str r.version)] : Json F).dump =
      (dictGet v "chart").map Json.dump ↔ ∃ chart, dictGet v "chart" = some (.dict chart) ∧ ChartFields chart := by
  have hnd := subDict_nodup hkeyed hread.chartSection
  have hget : ∀ k, dictGet ([("name", .str r.chart), ("version", .str r.version)] : JsonDict F) k =
      if k = "name" then some (.str r.chart) else if k = "version" then some (.str r.version) else none := by
    intro k
    rw [dictGet_cons, dictGet_cons, dictGet_nil, if_congr eq_comm rfl (if_congr eq_comm rfl rfl)]
  have hndSpelled : (([("name", .str r.chart), ("version", .str r.version)] : JsonDict F).map Prod.fst).Nodup := by
    change ["name", "version"].Nodup
    decide
  constructor
  · intro h
    rcases Option.map_eq_some_iff.mp h.symm with ⟨value, hchart, hprint⟩
    rcases Json.dump_eq_dict hplain hprint with ⟨fields, rfl⟩
    have hsection := hread.chartSection
    rw [subDict_of_dict hchart] at hsection
    cases hsection
    have hall := (Json.dump_dict_iff hplain hnd hndSpelled).mp hprint
    refine ⟨chart, hchart, { name := ⟨r.chart, ?_, ?_⟩, version := ⟨r.version, ?_⟩, others := fun k hk => ?_ }⟩
    · rw [← truthy_str (F := F), ← hread.chartName]
      exact firstTrue_truthy sglang_truthy [dictGet chart "name"]
    · have hkey := hall "name"
      rw [hget, if_pos rfl, Option.map_some] at hkey
      rcases Option.map_eq_some_iff.mp hkey with ⟨printed, hkey, hprint⟩
      exact hkey.trans (congrArg some ((Json.dump_eq_str hplain).mp hprint))
    · have hkey := hall "version"
      rw [hget, if_neg (by decide), if_pos rfl, Option.map_some] at hkey
      rcases Option.map_eq_some_iff.mp hkey with ⟨printed, hkey, hprint⟩
      exact hkey.trans (congrArg some ((Json.dump_eq_str hplain).mp hprint))
    · simp only [List.mem_cons, List.not_mem_nil, or_false, not_or] at hk
      have hkey := hall k
      rw [hget, if_neg hk.1, if_neg hk.2] at hkey
      exact Option.map_eq_none_iff.mp hkey
  · rintro ⟨fields, hchart, hfields⟩
    have hsection := hread.chartSection
    rw [subDict_of_dict hchart] at hsection
    cases hsection
    rcases hfields.name with ⟨name, hne, hname⟩
    rcases hfields.version with ⟨version, hversion⟩
    have hfirst := hread.chartName
    rw [hname, firstTrue_of_true (truthy_str.mpr hne)] at hfirst
    rw [hchart, Option.map_some]
    refine congrArg some ((Json.dump_dict_iff hplain hndSpelled hnd).mpr fun k => ?_)
    rw [hget]
    by_cases hk : k ∈ ["name", "version"]
    · simp only [List.mem_cons, List.not_mem_nil, or_false] at hk
      rcases hk with rfl | rfl
      · rw [hname, hfirst]
        rfl
      · rw [hversion, hread.version, hversion, textOr_str]
        rfl
    · rw [hfields.others k hk]
      simp only [List.mem_cons, List.not_mem_nil, or_false, not_or] at hk
      rw [if_neg hk.1, if_neg hk.2]

/-- The image is restored where the values have none of their own. -/
theorem image_kept_iff (hplain : PlainFloats F) (hkeyed : (Json.dict v).KeyedOnce)
    (hread : ReadAs v values image requires chart model r) (hnone : dictGet values "image" = none)
    {image' : JsonDict F} (himage' : subDict r.values "image" = .ok image') :
    ((imageField image' r.imageDigest).map Json.dict).map Json.dump = (dictGet v "image").map Json.dump ↔
      dictGet v "image" = none ∨ ∃ image digest, dictGet v "image" = some (.dict image) ∧ ImageFields image digest := by
  have hnd := subDict_nodup hkeyed hread.imageSection
  have hgetImage := hread.getImage
  rw [hnone] at hgetImage
  cases hspelled : imageField image "" with
  | none =>
      rw [hspelled] at hgetImage
      rw [subDict_of_none hgetImage] at himage'
      cases himage'
      constructor
      · exact fun h => Or.inl (Option.map_eq_none_iff.mp h.symm)
      · rintro (h | ⟨fields, digest, hget, hfields⟩)
        · rw [h]
          rfl
        · -- an image with a repository is spelled
          have hsection := hread.imageSection
          rw [subDict_of_dict hget] at hsection
          cases hsection
          rcases (imageField_dump_iff hplain hnd).mpr hfields with ⟨spelled, hsome, -⟩
          rw [← Option.not_isSome_iff_eq_none, ← imageField_isSome image digest, hsome] at hspelled
          exact absurd rfl hspelled
  | some spelled =>
      rw [hspelled] at hgetImage
      rw [subDict_of_dict hgetImage] at himage'
      cases himage'
      have hget : dictGet v "image" = some (.dict image) := by
        refine dict_of_subDict hread.imageSection ?_
        rintro rfl
        cases hspelled
      have hsome : (imageField image r.imageDigest).isSome = true := by
        rw [imageField_isSome, hspelled]
        rfl
      rcases Option.isSome_iff_exists.mp hsome with ⟨again, hagain⟩
      rw [imageField_again hspelled, hget, hagain, Option.map_some, Option.map_some, Option.map_some]
      constructor
      · intro h
        refine Or.inr ⟨image, r.imageDigest, rfl, (imageField_dump_iff hplain hnd).mp ⟨again, hagain, ?_⟩⟩
        exact (Option.some.inj h).symm
      · rintro (h | ⟨fields, digest, hfields, himage⟩)
        · cases h
        · cases hfields
          have hdigest : r.imageDigest = digest := by
            rw [hread.imageDigest, himage.digest]
            by_cases hempty : digest = ""
            · rw [if_pos hempty, hempty]
              rfl
            · rw [if_neg hempty, textOr_str]
          rcases (imageField_dump_iff hplain hnd).mpr himage with ⟨spelled', hspelled', hdump⟩
          rw [← hdigest, hagain] at hspelled'
          cases hspelled'
          rw [hdump]

/-- A value that prints as a whole number has its text. -/
theorem text_of_dump_int {value : Json F} {n : Int} (h : value.dump = (Json.int n : Json F).dump) :
    value.text = toString n ∧ value ≠ .null := by
  rcases Json.dump_eq_int h with rfl | ⟨x, rfl⟩
  · exact ⟨rfl, fun h => by cases h⟩
  · exact ⟨String.toList_injective h, fun h => by cases h⟩

theorem requiredGpus_eq (h : subDict v "requires" = .ok requires) : requiredGpus v = dictGet requires "gpus" := by
  unfold requiredGpus
  by_cases hempty : requires = []
  · rw [hempty]
    cases hget : dictGet v "requires" with
    | none => rfl
    | some value =>
        cases value with
        | dict fields =>
            rw [subDict_of_dict hget] at h
            rw [Except.ok.inj h, hempty]
        | _ => rfl
  · rw [dict_of_subDict h hempty]

/-- The cards of the variant, where they are a whole number, are what the recipe's model claims. -/
theorem gpusRequired_back (h : subDict v "requires" = .ok requires) {gpus served : Json F} {n : Int}
    (hgpus : requiredGpus v = some gpus) (hprint : gpus.dump = (Json.int n : Json F).dump) :
    gpusRequired (dictGet (modelBack model served (gpusIn requires)) "gpus") = .ok n := by
  rcases text_of_dump_int hprint with ⟨htext, hnull⟩
  have hin : gpusIn requires = some gpus := by
    unfold gpusIn
    rw [← requiredGpus_eq h, hgpus, Option.filter_some]
    cases gpus with
    | null => exact absurd rfl hnull
    | _ => rfl
  rw [modelBack_get, hin, if_pos ⟨rfl, rfl⟩, Option.map_some, htext, gpusRequired_toString]

theorem gpus_kept_iff (hread : ReadAs v values image requires chart model r) {n : Int}
    (hn : gpusRequired (dictGet (modelBack model (servedIn v) (gpusIn requires)) "gpus") = .ok n) :
    some (Json.int n : Json F).dump = (requiredGpus v).map Json.dump ↔
      ∃ gpus n, requiredGpus v = some gpus ∧ gpus.dump = (Json.int n : Json F).dump := by
  constructor
  · intro h
    rcases Option.map_eq_some_iff.mp h.symm with ⟨gpus, hgpus, hprint⟩
    exact ⟨gpus, n, hgpus, hprint⟩
  · rintro ⟨gpus, m, hgpus, hprint⟩
    rw [gpusRequired_back hread.requiresSection hgpus hprint] at hn
    rw [hgpus, Option.map_some, hprint, Except.ok.inj hn]

/-- The bare model that is spelled again is the one that was read. -/
theorem bareModel_back_get {served : Json F} {gpus : Option (Json F)} (k : String) :
    dictGet (bareModel (modelBack model served gpus)) k =
      if k = "name" ∨ k = "gpus" then none else dictGet model k := by
  rw [bareModel_get, modelBack_get]
  by_cases hk : k = "name" ∨ k = "gpus"
  · rw [if_pos hk, if_pos hk]
  · rw [if_neg hk, if_neg hk, if_neg fun h => hk (Or.inr h.1), if_neg fun h => hk (Or.inl h.1)]

theorem values_kept_iff (hplain : PlainFloats F) (hkeyed : (Json.dict v).KeyedOnce)
    (hread : ReadAs v values image requires chart model r) {back : JsonDict F}
    (hback : back = modelBack model (servedIn v) (gpusIn requires)) :
    some (Json.dict (bareValues r.values back)).dump = (dictGet v "values").map Json.dump ↔
      ∃ values, dictGet v "values" = some (.dict values) ∧ ValuesFields values := by
  have hnd := subDict_nodup hkeyed hread.valuesSection
  have hndBack := bareValues_nodup (hread.nodup hnd) back
  have hbare : ∀ k, dictGet (bareModel back) k = if k = "name" ∨ k = "gpus" then none else dictGet model k := by
    intro k
    rw [hback, bareModel_back_get]
  constructor
  · intro h
    rcases Option.map_eq_some_iff.mp h.symm with ⟨value, hget, hprint⟩
    rcases Json.dump_eq_dict hplain hprint with ⟨fields, rfl⟩
    have hsection := hread.valuesSection
    rw [subDict_of_dict hget] at hsection
    cases hsection
    have hall := (Json.dump_dict_iff hplain hnd hndBack).mp hprint
    refine ⟨values, hget, { image := ?_, model := ?_ }⟩
    · have hkey := hall "image"
      rw [bareValues_get, if_pos rfl] at hkey
      exact Option.map_eq_none_iff.mp hkey
    · rcases hread.modelIn with ⟨hnone, -⟩ | hmodel
      · exact Or.inl hnone
      · have hkey := hall "model"
        have hkeyedValues := hkeyed.get hget
        have hndModel := (hkeyedValues.get hmodel).1
        rw [hmodel, bareValues_get, if_neg (by decide), if_pos rfl, Option.map_some] at hkey
        by_cases hempty : bareModel back = []
        · rw [if_pos hempty] at hkey
          cases hkey
        · rw [if_neg hempty, Option.map_some] at hkey
          have hndBare : ((bareModel back).map Prod.fst).Nodup := by
            rw [hback]
            exact bareModel_nodup (modelBack_nodup hndModel _ _)
          have hsame := (Json.dump_dict_iff hplain hndModel hndBare).mp (Option.some.inj hkey)
          refine Or.inr ⟨model, hmodel, ?_, ?_, ?_⟩
          · rintro rfl
            refine hempty (eq_nil_iff_get.mpr fun k => ?_)
            rw [hbare, dictGet_nil, ite_self]
          · have hname := hsame "name"
            rw [hbare, if_pos (Or.inl rfl)] at hname
            exact Option.map_eq_none_iff.mp hname
          · have hgpus := hsame "gpus"
            rw [hbare, if_pos (Or.inr rfl)] at hgpus
            exact Option.map_eq_none_iff.mp hgpus
  · rintro ⟨fields, hget, hfields⟩
    have hsection := hread.valuesSection
    rw [subDict_of_dict hget] at hsection
    cases hsection
    rw [hget, Option.map_some]
    refine congrArg some ((Json.dump_dict_iff hplain hndBack hnd).mpr fun k => ?_)
    rw [bareValues_get]
    by_cases himage : k = "image"
    · rw [if_pos himage, himage, hfields.image]
    rw [if_neg himage]
    by_cases hmodelKey : k = "model"
    · rw [if_pos hmodelKey, hmodelKey]
      rcases hfields.model with hnone | ⟨fields, hmodel, hne, hname, hgpus⟩
      · have hempty : model = [] := by
          rcases hread.modelIn with ⟨-, hempty⟩ | h
          · exact hempty
          · rw [hnone] at h
            cases h
        have hbareEmpty : bareModel back = [] := by
          refine eq_nil_iff_get.mpr fun k => ?_
          rw [hbare, hempty, dictGet_nil, ite_self]
        rw [if_pos hbareEmpty, hnone]
      · have hfieldsModel : fields = model := by
          rcases hread.modelIn with ⟨h, -⟩ | h
          · rw [hmodel] at h
            cases h
          · rw [hmodel] at h
            exact Json.dict.inj (Option.some.inj h)
        subst hfieldsModel
        have hsame : ∀ k, dictGet (bareModel back) k = dictGet fields k := by
          intro k
          rw [hbare]
          split
          · rename_i hk
            rcases hk with rfl | rfl
            · exact hname.symm
            · exact hgpus.symm
          · rfl
        have hbareNe : bareModel back ≠ [] := by
          intro hempty
          refine hne (eq_nil_iff_get.mpr fun k => ?_)
          rw [← hsame, hempty, dictGet_nil]
        have hndModel := ((hkeyed.get hget).get hmodel).1
        have hndBare : ((bareModel back).map Prod.fst).Nodup := by
          rw [hback]
          exact bareModel_nodup (modelBack_nodup hndModel _ _)
        rw [if_neg hbareNe, hmodel, Option.map_some, Option.map_some]
        refine congrArg some ((Json.dump_dict_iff hplain hndBare hndModel).mpr fun k => ?_)
        rw [hsame]
    · rw [if_neg hmodelKey, hread.getOther k himage hmodelKey]

end Kept

/-- Whether the shape can be read depends on three sections only. -/
theorem ShapeReadable.congr {values values' : JsonDict F} (h : ShapeReadable values)
    (hsame : ∀ k ∈ ["pd", "lws", "rdma"], dictGet values' k = dictGet values k) : ShapeReadable values' := by
  have hsub : ∀ k ∈ ["pd", "lws", "rdma"], subDict values' k = subDict values k := by
    intro k hk
    unfold subDict
    rw [hsame k hk]
  refine { topology := ?_, rdma := ?_ }
  · rw [hsub "pd" (by simp), hsub "lws" (by simp)]
    exact h.topology
  · rw [hsub "rdma" (by simp)]
    exact h.rdma

/-- The sections of the shape are copied both ways. -/
theorem shapeReadable_read_iff {v values image requires chart model : JsonDict F} {r : Recipe F}
    (hread : ReadAs v values image requires chart model r) : ShapeReadable r.values ↔ ShapeReadable values := by
  have hsame : ∀ k ∈ ["pd", "lws", "rdma"], dictGet r.values k = dictGet values k := by
    intro k hk
    refine hread.getOther k ?_ ?_
    · rintro rfl
      exact absurd hk (by decide)
    · rintro rfl
      exact absurd hk (by decide)
  exact ⟨fun h => h.congr fun k hk => (hsame k hk).symm, fun h => h.congr hsame⟩

/-- What is spelled of a recipe that was read of a variant with a served name. -/
theorem restored_of_spelled (hplain : PlainFloats F) {v v' values image requires chart model image' model' requires' :
    JsonDict F} {r : Recipe F} (hkeyed : (Json.dict v).KeyedOnce)
    (hread : ReadAs v values image requires chart model r) (hspelled : SpelledAs r image' model' requires' v')
    (htrue : (servedIn v).truthy = true) (hserved : dictGet v "servedName" = some (servedIn v)) :
    ((∀ k ∈ ["engine", "chart", "image", "servedName", "values"],
        (dictGet v' k).map Json.dump = (dictGet v k).map Json.dump) ∧
      (requiredGpus v').map Json.dump = (requiredGpus v).map Json.dump) ∧ ShapeReadable values ↔
        VariantSpelled v := by
  have hmodel : model' = modelBack model (servedIn v) (gpusIn requires) :=
    Except.ok.inj ((modelSection_ok_iff.mp hspelled.modelRead).symm.trans (subDict_of_dict hread.getModel))
  rcases requires_fields hspelled.requiresMade with ⟨n, nodes, hn, -, hgpus, -⟩
  rw [hmodel] at hn
  have hgpus' : requiredGpus v' = some (.int n) :=
    (requiredGpus_eq (subDict_of_dict hspelled.getRequires)).trans hgpus
  have hserved' : dictGet v' "servedName" = dictGet v "servedName" := by
    rw [hspelled.getServedName, hmodel, modelBack_get, if_neg fun h => absurd h.1 (by decide), if_pos ⟨rfl, htrue⟩,
      Option.filter_some, if_pos htrue, hserved]
  constructor
  · rintro ⟨⟨hall, hcards⟩, hshape⟩
    have hengine := hall "engine" (by simp)
    have hchart := hall "chart" (by simp)
    have himage := hall "image" (by simp)
    have hvalues := hall "values" (by simp)
    rw [hspelled.getEngine] at hengine
    rw [hspelled.getChart] at hchart
    rw [hspelled.getImage] at himage
    rw [hspelled.getValues] at hvalues
    rw [hgpus'] at hcards
    rcases (values_kept_iff hplain hkeyed hread hmodel).mp hvalues with ⟨fields, hget, hfields⟩
    have hsection := hread.valuesSection
    rw [subDict_of_dict hget] at hsection
    cases hsection
    exact
      { engine := (engine_kept_iff hplain hread).mp hengine
        chart := (chart_kept_iff hplain hkeyed hread).mp hchart
        image := (image_kept_iff hplain hkeyed hread hfields.image hspelled.imageSection).mp himage
        gpus := (gpus_kept_iff hread hn).mp hcards
        values := ⟨values, hget, hfields, hshape⟩ }
  · intro h
    rcases h.values with ⟨fields, hget, hfields, hshape⟩
    have hsection := hread.valuesSection
    rw [subDict_of_dict hget] at hsection
    cases hsection
    refine ⟨⟨fun k hk => ?_, ?_⟩, hshape⟩
    · simp only [List.mem_cons, List.not_mem_nil, or_false] at hk
      rcases hk with rfl | rfl | rfl | rfl | rfl
      · rw [hspelled.getEngine]
        exact (engine_kept_iff hplain hread).mpr h.engine
      · rw [hspelled.getChart]
        exact (chart_kept_iff hplain hkeyed hread).mpr h.chart
      · rw [hspelled.getImage]
        exact (image_kept_iff hplain hkeyed hread hfields.image hspelled.imageSection).mpr h.image
      · rw [hserved']
      · rw [hspelled.getValues]
        exact (values_kept_iff hplain hkeyed hread hmodel).mpr ⟨values, hget, hfields⟩
    · rw [hgpus']
      exact (gpus_kept_iff hread hn).mpr h.gpus

/-- The sections that are read of a variant in a recipe's spelling. -/
theorem fromVariant_of_spelled {v : JsonDict F} (h : VariantSpelled v) (htrue : (servedIn v).truthy = true) :
    ∃ r, Recipe.fromVariant v "" = .ok r := by
  rcases h.values with ⟨values, hvalues, hfields, -⟩
  rcases h.chart with ⟨chart, hchart, hchartFields⟩
  rcases hchartFields.name with ⟨name, hne, hname⟩
  rcases h.engine with ⟨engine, hneEngine, hengine⟩
  have himage : ∃ image, subDict v "image" = .ok image := by
    rcases h.image with hnone | ⟨image, digest, hget, -⟩
    · exact ⟨[], subDict_of_none hnone⟩
    · exact ⟨image, subDict_of_dict hget⟩
  have hrequires : ∃ requires, subDict v "requires" = .ok requires := by
    rcases h.gpus with ⟨gpus, n, hgpus, -⟩
    unfold requiredGpus at hgpus
    split at hgpus
    · rename_i requires hget
      exact ⟨requires, subDict_of_dict hget⟩
    · cases hgpus
  have hmodel : ∃ model, ModelIn values model := by
    rcases hfields.model with hnone | ⟨model, hget, -, -, -⟩
    · exact ⟨[], Or.inl ⟨hnone, rfl⟩⟩
    · exact ⟨model, Or.inr hget⟩
  rcases himage with ⟨image, himage⟩
  rcases hrequires with ⟨requires, hrequires⟩
  rcases hmodel with ⟨model, hmodel⟩
  have hfirst : firstTrue [dictGet v "engine", dictGet chart "name", some (.str "sglang")] = .str engine := by
    rw [hengine]
    exact firstTrue_of_true (truthy_str.mpr hneEngine) _
  have hfirstName : firstTrue [dictGet chart "name", some (.str "sglang")] = .str name := by
    rw [hname]
    exact firstTrue_of_true (truthy_str.mpr hne) _
  exact fromVariant_ok (subDict_of_dict hvalues) himage hrequires (subDict_of_dict hchart) hmodel (Or.inl htrue)
    hfirst hfirstName

/-- A recipe that was read of a variant in a recipe's spelling can be spelled again. -/
theorem toVariant_of_spelled {v values image requires chart model : JsonDict F} {r : Recipe F} (h : VariantSpelled v)
    (hread : ReadAs v values image requires chart model r) : ∃ v', r.toVariant = .ok v' := by
  rcases h.values with ⟨fields, hget, hfields, hshape⟩
  have hsection := hread.valuesSection
  rw [subDict_of_dict hget] at hsection
  cases hsection
  have himage : ∃ image', subDict r.values "image" = .ok image' := by
    have hgetImage := hread.getImage
    rw [hfields.image] at hgetImage
    cases hspelled : imageField image "" with
    | none =>
        rw [hspelled] at hgetImage
        exact ⟨[], subDict_of_none hgetImage⟩
    | some spelled =>
        rw [hspelled] at hgetImage
        exact ⟨spelled, subDict_of_dict hgetImage⟩
  have hgpus : ∃ n, gpusRequired (dictGet (modelBack model (servedIn v) (gpusIn requires)) "gpus") = .ok n := by
    rcases h.gpus with ⟨gpus, n, hgpus, hprint⟩
    exact ⟨n, gpusRequired_back hread.requiresSection hgpus hprint⟩
  have hshape' : ShapeReadable r.values := (shapeReadable_read_iff hread).mpr hshape
  rcases himage with ⟨image', himage⟩
  rcases requires_ok_iff.mpr ⟨hgpus, hshape'⟩ with ⟨requires', hrequires⟩
  exact toVariant_ok himage (modelSection_ok_iff.mpr (subDict_of_dict hread.getModel)) hrequires

theorem restored_iff (hplain : PlainFloats F) {v : JsonDict F} (hkeyed : (Json.dict v).KeyedOnce) {served : Json F}
    (hserved : dictGet v "servedName" = some served) (htrue : served.truthy = true) :
    Restored v ↔ VariantSpelled v := by
  have hin : servedIn v = served := by
    unfold servedIn
    rw [hserved]
    exact firstTrue_of_true htrue _
  have hwritten : ∀ requires, subDict v "requires" = .ok requires →
      (servedIn v).truthy = true ∨ (gpusIn requires).isSome = true := fun _ _ => Or.inl (hin ▸ htrue)
  rw [← hin] at hserved htrue
  constructor
  · rintro ⟨r, v', hr, hv', hrestored⟩
    rcases fromVariant_readAs hr hwritten with ⟨values, image, requires, chart, model, hread⟩
    rcases toVariant_spelledAs hv' with ⟨image', model', requires', hspelled⟩
    refine (restored_of_spelled hplain hkeyed hread hspelled htrue hserved).mp ⟨hrestored, ?_⟩
    exact (shapeReadable_read_iff hread).mp (requires_ok_iff.mp ⟨requires', hspelled.requiresMade⟩).2
  · intro h
    rcases fromVariant_of_spelled h htrue with ⟨r, hr⟩
    rcases fromVariant_readAs hr hwritten with ⟨values, image, requires, chart, model, hread⟩
    rcases toVariant_of_spelled h hread with ⟨v', hv'⟩
    rcases toVariant_spelledAs hv' with ⟨image', model', requires', hspelled⟩
    have hrestored := (restored_of_spelled hplain hkeyed hread hspelled htrue hserved).mpr h
    exact ⟨r, v', hr, hv', hrestored.1⟩

/-! ## Nodes and pods -/

/-- The nodes a variant requires, one where it says nothing. -/
def requiredNodes (v : JsonDict F) : Json F :=
  match dictGet v "requires" with
  | some (.dict requires) => (dictGet requires "nodes").getD (.int 1)
  | _ => .int 1

/-- No float has the text of a whole number. -/
def FractionTexts (F : Type) [PyRuntime F] : Prop := ∀ x : F, intOfText (PyRuntime.text x) = none

/-- A size that is said: a whole number, its text, or a float that is cut off to two. -/
def SaidSize : Json F → Prop
  | .int _ => True
  | .str s => ∃ n, intOfText s = some n
  | .float x => (Json.float x : Json F).truthy = true ∧ PyRuntime.trunc x = .ok 2
  | _ => False

/-- The size of a group is said. -/
def SizeSaid (lws : JsonDict F) : Prop := ∃ size, dictGet lws "size" = some size ∧ SaidSize size

theorem null_text : intOfText (Json.null : Json F).text = none := by
  change intOfText "None" = none
  decide

theorem bool_text (b : Bool) : intOfText (Json.bool b : Json F).text = none := by
  cases b with
  | true =>
      change intOfText "True" = none
      decide
  | false =>
      change intOfText "False" = none
      decide

theorem emptyList_text : intOfText (Json.list [] : Json F).text = none := by
  have htext : (Json.list [] : Json F).text = "[]" := by
    simp only [Json.text, Json.repr, Json.reprItems]
    decide
  rw [htext]
  decide

theorem emptyDict_text : intOfText (Json.dict [] : Json F).text = none := by
  have htext : (Json.dict [] : Json F).text = "\x7b\x7d" := by
    simp only [Json.text, Json.repr, Json.reprEntries]
    decide
  rw [htext]
  decide

theorem intOfValue_str {s : String} {n : Int} : intOfValue (Json.str s : Json F) = .ok n ↔ intOfText s = some n := by
  unfold intOfValue
  dsimp only
  split
  · rename_i m hread
    rw [hread]
    exact ⟨fun h => congrArg some (Except.ok.inj h), fun h => congrArg Except.ok (Option.some.inj h)⟩
  · rename_i hread
    rw [hread]
    constructor
    · intro h
      cases h
    · intro h
      cases h

/-- A size that neither side reads is one node to the variant and two pods to the shape. -/
theorem default_disagrees {size : Json F} {nodes : Except PyError Int} (htext : intOfText size.text = none)
    (hnodes : ∀ n, nodes = .ok n → n = 1) :
    ¬ ∃ n, nodes = .ok n ∧ max 1 n = max 1 ((intOfText size.text).getD 2) := by
  rintro ⟨n, hn, hsame⟩
  rw [htext, Option.getD_none, hnodes n hn] at hsame
  exact absurd hsame (by decide)

/-- A size that is said is read alike on both sides, and no other one is. -/
theorem saidSize_iff (hfloat : FractionTexts F) (size : Json F) :
    (∃ n, (if size.truthy then intOfValue size else .ok 1) = .ok n ∧
      max 1 n = max 1 ((intOfText size.text).getD 2)) ↔ SaidSize size := by
  have hone : ∀ n : Int, (Except.ok 1 : Except PyError Int) = .ok n → n = 1 := fun n h => (Except.ok.inj h).symm
  cases size with
  | null => exact ⟨fun h => default_disagrees null_text hone h, False.elim⟩
  | bool b =>
      refine ⟨fun h => default_disagrees (bool_text b) (fun n hn => ?_) h, False.elim⟩
      cases b with
      | true => exact hone n hn
      | false => exact hone n hn
  | int m =>
      refine ⟨fun _ => trivial, fun _ => ?_⟩
      have htext : intOfText (Json.int m : Json F).text = some m := intOfText_toString m
      rw [htext, Option.getD_some]
      by_cases hm : m = 0
      · rw [hm]
        exact ⟨1, rfl, by decide⟩
      · have htrue : (Json.int m : Json F).truthy = true := bne_iff_ne.mpr hm
        rw [if_pos htrue]
        exact ⟨m, rfl, rfl⟩
  | float x =>
      have htext : intOfText (Json.float x : Json F).text = none := hfloat x
      rw [htext, Option.getD_none]
      constructor
      · rintro ⟨n, hn, hsame⟩
        have htwo : n = 2 := by omega
        by_cases htrue : (Json.float x : Json F).truthy = true
        · rw [if_pos htrue, htwo] at hn
          exact ⟨htrue, hn⟩
        · rw [if_neg htrue] at hn
          exact absurd ((hone n hn).symm.trans htwo) (by decide)
      · rintro ⟨htrue, htwo⟩
        rw [if_pos htrue]
        exact ⟨2, htwo, rfl⟩
  | str s =>
      by_cases hs : s = ""
      · have hread : intOfText s = none := by
          rw [hs]
          decide
        have htext : intOfText (Json.str s : Json F).text = none := hread
        rw [if_neg fun h => truthy_str.mp h hs]
        refine ⟨fun h => absurd h (default_disagrees htext hone), fun ⟨n, hn⟩ => ?_⟩
        rw [hread] at hn
        cases hn
      · rw [if_pos (truthy_str.mpr hs)]
        constructor
        · rintro ⟨n, hn, -⟩
          exact ⟨n, intOfValue_str.mp hn⟩
        · rintro ⟨n, hn⟩
          have htext : intOfText (Json.str s : Json F).text = some n := hn
          rw [htext]
          exact ⟨n, intOfValue_str.mpr hn, rfl⟩
  | list items =>
      cases items with
      | nil => exact ⟨fun h => default_disagrees emptyList_text hone h, False.elim⟩
      | cons item items => exact ⟨fun ⟨n, hn, _⟩ => (by cases hn), False.elim⟩
  | dict entries =>
      cases entries with
      | nil => exact ⟨fun h => default_disagrees emptyDict_text hone h, False.elim⟩
      | cons entry entries => exact ⟨fun ⟨n, hn, _⟩ => (by cases hn), False.elim⟩

theorem groupNodes_some {lws : JsonDict F} {size : Json F} (h : dictGet lws "size" = some size) :
    groupNodes lws = if size.truthy then intOfValue size else .ok 1 := by
  unfold groupNodes
  rw [h, Option.filter_some]
  cases size.truthy <;> rfl

theorem groupNodes_agree_iff (hfloat : FractionTexts F) {lws : JsonDict F} :
    (∃ n, groupNodes lws = .ok n ∧ max 1 n = max 1 (intAt lws "size" 2)) ↔ SizeSaid lws := by
  unfold intAt SizeSaid
  cases hget : dictGet lws "size" with
  | none =>
      have hnodes : groupNodes lws = .ok 1 := by
        unfold groupNodes
        rw [hget]
        rfl
      rw [Option.getD_none]
      refine ⟨fun h => absurd h (default_disagrees null_text fun n hn => ?_), ?_⟩
      · rw [hnodes] at hn
        exact (Except.ok.inj hn).symm
      · rintro ⟨size, h, -⟩
        cases h
  | some size =>
      rw [groupNodes_some hget, Option.getD_some, saidSize_iff hfloat]
      constructor
      · exact fun h => ⟨size, rfl, h⟩
      · rintro ⟨size', h, hsaid⟩
        cases h
        exact hsaid

/-- A leader and its workers are as many pods as the group is large. -/
theorem shape_lws_pods {r : Recipe F} {s : Shape} {lws : JsonDict F} (h : r.topology = .ok .lws)
    (hlws : subDict r.values "lws" = .ok lws) (hs : shape r = .ok s) : s.pods = max 1 (intAt lws "size" 2) := by
  unfold shape at hs
  rw [h] at hs
  rcases bind_eq_ok.mp hs with ⟨topology, htopology, hs⟩
  cases htopology
  rcases bind_eq_ok.mp hs with ⟨lws', hlws', hs⟩
  rcases bind_eq_ok.mp hs with ⟨gpus, -, hs⟩
  cases hs
  rw [Except.ok.inj (hlws'.symm.trans hlws)]
  unfold Shape.pods
  simp only [List.map_cons, List.map_nil, List.sum_cons, List.sum_nil]
  omega

/-- A variant requires as many nodes as the recipe says, and says one by leaving it out. -/
theorem requiredNodes_spelled {r : Recipe F} {image model requires v : JsonDict F}
    (h : SpelledAs r image model requires v) : ∃ n, r.nodesRequired = .ok n ∧ requiredNodes v = .int (max 1 n) := by
  rcases requires_fields h.requiresMade with ⟨gpus, n, -, hn, -, hnodes⟩
  refine ⟨n, hn, ?_⟩
  unfold requiredNodes
  rw [h.getRequires]
  dsimp only
  rw [hnodes]
  by_cases hmany : 1 < n
  · rw [if_pos hmany, Option.getD_some, max_eq_right (by omega)]
  · rw [if_neg hmany, Option.getD_none, max_eq_left (by omega)]

/-- The group has a size that is said, and the rest of its recipe can be spelled. -/
structure Recipe.GroupSpelled (r : Recipe F) : Prop where
  size : ∃ lws, subDict r.values "lws" = .ok lws ∧ SizeSaid lws
  image : ∃ image, subDict r.values "image" = .ok image
  gpus : ∃ model n, subDict r.values "model" = .ok model ∧ gpusRequired (dictGet model "gpus") = .ok n
  rdma : ∃ rdma, subDict r.values "rdma" = .ok rdma

theorem nodes_agree_iff (hfloat : FractionTexts F) {r : Recipe F} {s : Shape} (h : r.topology = .ok .lws)
    (hs : shape r = .ok s) : (∃ v, r.toVariant = .ok v ∧ requiredNodes v = .int s.pods) ↔ r.GroupSpelled := by
  rcases topology_lws_section h with ⟨lws, hlws⟩
  have hpods := shape_lws_pods h hlws hs
  have hrequired := nodesRequired_lws h hlws
  constructor
  · rintro ⟨v, hv, hnodes⟩
    rcases toVariant_spelledAs hv with ⟨image, model, requires, hspelled⟩
    rcases requiredNodes_spelled hspelled with ⟨n, hn, hmax⟩
    rcases requires_ok_iff.mp ⟨requires, hspelled.requiresMade⟩ with ⟨⟨gpus, hgpus⟩, hshape⟩
    rw [hmax, hpods] at hnodes
    rw [hrequired] at hn
    exact
      { size := ⟨lws, hlws, (groupNodes_agree_iff hfloat).mp ⟨n, hn, Json.int.inj hnodes⟩⟩
        image := ⟨image, hspelled.imageSection⟩
        gpus := ⟨model, gpus, modelSection_ok_iff.mp hspelled.modelRead, hgpus⟩
        rdma := hshape.rdma }
  · intro hgroup
    rcases hgroup.size with ⟨lws', hlws', hsize⟩
    rcases hgroup.image with ⟨image, himage⟩
    rcases hgroup.gpus with ⟨model, gpus, hmodel, hgpus⟩
    rw [Except.ok.inj (hlws'.symm.trans hlws)] at hsize
    rcases (groupNodes_agree_iff hfloat).mpr hsize with ⟨n, hn, hsame⟩
    have hshape : ShapeReadable r.values :=
      { topology := nodesRequired_ok_iff.mp ⟨n, hrequired.trans hn⟩, rdma := hgroup.rdma }
    rcases requires_ok_iff.mpr ⟨⟨gpus, hgpus⟩, hshape⟩ with ⟨requires, hrequires⟩
    rcases toVariant_ok himage (modelSection_ok_iff.mpr hmodel) hrequires with ⟨v, hv⟩
    rcases toVariant_spelledAs hv with ⟨image', model', requires', hspelled⟩
    rcases requiredNodes_spelled hspelled with ⟨m, hm, hmax⟩
    rw [hrequired, hn] at hm
    cases hm
    exact ⟨v, hv, by rw [hmax, hpods, hsame]⟩

/-! ## The trip as a whole -/

/-- A recipe survives the catalog's spelling, a variant with a served name is restored from its recipe, and a group
makes as many pods as its variant requires nodes, each exactly where nothing has to be defaulted or respelled. -/
theorem variantTrip_iff (hplain : PlainFloats F) (hfloat : FractionTexts F) :
    (∀ r : Recipe F, (Json.dict r.values).KeyedOnce → (r.Survives ↔ r.Spellable)) ∧
    (∀ v : JsonDict F, (Json.dict v).KeyedOnce →
      ∀ served, dictGet v "servedName" = some served → served.truthy = true → (Restored v ↔ VariantSpelled v)) ∧
    (∀ (r : Recipe F) (s : Shape), r.topology = .ok .lws → shape r = .ok s →
      ((∃ v, r.toVariant = .ok v ∧ requiredNodes v = .int s.pods) ↔ r.GroupSpelled)) := by
  refine ⟨fun r hkeyed => survives_iff hplain hkeyed, ?_, ?_⟩
  · intro v hkeyed served hserved htrue
    exact restored_iff hplain hkeyed hserved htrue
  · intro r s h hs
    exact nodes_agree_iff hfloat h hs

end Variants

/-! ### Examples -/

theorem emptyPlain : PlainFloats Empty := fun x => x.elim

theorem emptyFractions : FractionTexts Empty := fun x => x.elim

/-- A group of two machines. -/
def pairRecipe : Recipe Empty where
  values := [("image", .dict [("repository", .str "engine"), ("tag", .str "v1")]),
    ("model", .dict [("name", .str "m"), ("gpus", .str "8")]),
    ("lws", .dict [("enabled", .bool true), ("size", .int 2)])]

/-- The variant of one card. -/
def plainVariant : JsonDict Empty :=
  [("engine", .str "sglang"), ("chart", .dict [("name", .str "sglang"), ("version", .str "")]),
    ("servedName", .str "m"), ("requires", .dict [("gpus", .int 1)]), ("values", .dict [])]

theorem variantTrip_pair : pairRecipe.Survives ∧ Restored plainVariant ∧
    ∃ v, pairRecipe.toVariant = .ok v ∧ requiredNodes v = .int 2 := by
  have htrip := variantTrip_iff emptyPlain emptyFractions
  have hlws : subDict pairRecipe.values "lws" = .ok [("enabled", .bool true), ("size", .int 2)] := rfl
  have hshape : ShapeReadable pairRecipe.values :=
    { topology := ⟨[], rfl, fun _ => ⟨_, hlws, fun _ size hsize _ => ⟨2, by cases hsize; rfl⟩⟩⟩
      rdma := ⟨[], rfl⟩ }
  have hlists : ListsReadable pairRecipe.values :=
    { extraArgs := ⟨[], rfl⟩, env := ⟨[], rfl⟩
      roles := ⟨[], rfl, fun role spec h => by cases h⟩ }
  have height : toString (8 : Int) = "8" := by decide
  refine ⟨(htrip.1 pairRecipe ?_).mpr ?_, (htrip.2.1 plainVariant ?_ (.str "m") rfl rfl).mpr ?_,
    (htrip.2.2 pairRecipe ⟨.lws, [⟨.leader, 8, 1⟩, ⟨.worker, 8, 1⟩]⟩ rfl ?_).mpr ?_⟩
  · simp [pairRecipe, Json.KeyedOnce, Json.EntriesKeyedOnce]
  · refine
      { engine := by decide
        chart := by decide
        image := Or.inr ⟨_, rfl, { repository := ⟨_, rfl, rfl⟩, tag := ⟨_, rfl⟩, digest := rfl, others := ?_ }⟩
        model := ⟨_, 8, rfl, by rw [height]; rfl, fun served h => by cases h; rfl⟩
        shape := hshape
        lists := hlists }
    intro k hk
    simp only [List.mem_cons, List.not_mem_nil, or_false, not_or] at hk
    rw [dictGet_cons, if_neg (Ne.symm hk.1), dictGet_cons, if_neg (Ne.symm hk.2.1), dictGet_nil]
  · simp [plainVariant, Json.KeyedOnce, Json.EntriesKeyedOnce]
  · refine
      { engine := ⟨"sglang", by decide, rfl⟩
        chart := ⟨_, rfl, { name := ⟨"sglang", by decide, rfl⟩, version := ⟨"", rfl⟩, others := ?_ }⟩
        image := Or.inl rfl
        gpus := ⟨.int 1, 1, rfl, rfl⟩
        values := ⟨[], rfl, { image := rfl, model := Or.inl rfl },
          { topology := ⟨[], rfl, fun _ => ⟨[], rfl, fun h => by cases h⟩⟩, rdma := ⟨[], rfl⟩ }⟩ }
    intro k hk
    simp only [List.mem_cons, List.not_mem_nil, or_false, not_or] at hk
    rw [dictGet_cons, if_neg (Ne.symm hk.1), dictGet_cons, if_neg (Ne.symm hk.2), dictGet_nil]
  · rfl
  · exact
      { size := ⟨_, hlws, .int 2, rfl, trivial⟩
        image := ⟨_, rfl⟩
        gpus := ⟨_, 8, rfl, by rw [show dictGet _ "gpus" = some (.str (toString (8 : Int))) from rfl,
          gpusRequired_toString]⟩
        rdma := ⟨[], rfl⟩ }

/-- A recipe without cards. -/
def cardless : Recipe Empty where
  values := [("image", .dict [("repository", .str "engine"), ("tag", .str "v1")]),
    ("model", .dict [("name", .str "m")])]

/-- A recipe whose image has a key more than a variant spells. -/
def pullPolicy : Recipe Empty where
  values := [("image", .dict [("repository", .str "engine"), ("tag", .str "v1"), ("pullPolicy", .str "Always")]),
    ("model", .dict [("gpus", .str "1")])]

/-- A variant with an empty model. -/
def emptyModel : JsonDict Empty :=
  [("engine", .str "sglang"), ("chart", .dict [("name", .str "sglang"), ("version", .str "")]),
    ("servedName", .str "m"), ("requires", .dict [("gpus", .int 1)]), ("values", .dict [("model", .dict [])])]

/-- A group without a size. -/
def sizeless : Recipe Empty where
  values := [("image", .dict [("repository", .str "engine"), ("tag", .str "v1")]),
    ("model", .dict [("gpus", .str "1")]), ("lws", .dict [("enabled", .bool true)])]

/-- The cards are defaulted, the image is cut, the empty model is dropped and the group is one node of two pods. -/
theorem variantTrip_loses : ¬ cardless.Survives ∧ ¬ pullPolicy.Survives ∧ ¬ Restored emptyModel ∧
    sizeless.topology = .ok .lws ∧ ∃ s, shape sizeless = .ok s ∧ s.pods = 2 ∧
      ¬ ∃ v, sizeless.toVariant = .ok v ∧ requiredNodes v = .int s.pods := by
  refine ⟨?_, ?_, ?_, rfl, ⟨.lws, [⟨.leader, 1, 1⟩, ⟨.worker, 1, 1⟩]⟩, rfl, rfl, ?_⟩
  · rw [survives_iff emptyPlain (by simp [cardless, Json.KeyedOnce, Json.EntriesKeyedOnce])]
    intro h
    rcases h.model with ⟨fields, n, hget, hgpus, -⟩
    cases hget
    cases hgpus
  · rw [survives_iff emptyPlain (by simp [pullPolicy, Json.KeyedOnce, Json.EntriesKeyedOnce])]
    intro h
    rcases h.image with ⟨hnone, -⟩ | ⟨fields, hget, hfields⟩
    · cases hnone
    · cases hget
      cases hfields.others "pullPolicy" (by decide)
  · rw [restored_iff emptyPlain (by simp [emptyModel, Json.KeyedOnce, Json.EntriesKeyedOnce]) rfl rfl]
    intro h
    rcases h.values with ⟨values, hget, hfields, -⟩
    cases hget
    rcases hfields.model with hnone | ⟨model, hmodel, hne, -⟩
    · cases hnone
    · cases hmodel
      exact hne rfl
  · rw [nodes_agree_iff emptyFractions rfl rfl]
    intro h
    rcases h.size with ⟨lws, hlws, size, hsize, -⟩
    cases hlws
    cases hsize

end AutoTune
