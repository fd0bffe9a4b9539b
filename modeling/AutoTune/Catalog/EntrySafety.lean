import AutoTune.Catalog.EntryIds
import AutoTune.Lib.Fallible

/-!
# An export writes its own files only

A renamed variant has an id nothing else has, so two variants write one file only where a numbered id
meets another one; and a file of another deployment is written only where an id the caller chose was
numbered into it.
-/

namespace AutoTune

open Lib

/-! ## What is asked of an export -/

/-- The document published under an id, if anything is. -/
def CatalogOptions.published (opts : CatalogOptions) (id : String) : Option (JsonDict ℚ) :=
  opts.existing.bind fun existing => existing.document id

/-- An export writes each file once, writes an id that is published and that the caller did not choose
only where the document there is the same deployment, and gives what it updates a greater version. -/
structure KeepsFiles (opts : CatalogOptions) (out : List ExportedVariant) : Prop where
  ids : ((out.filter ExportedVariant.writes).map ExportedVariant.id).Nodup
  paths : ((out.filter ExportedVariant.writes).map ExportedVariant.path).Nodup
  sameDeployment : ∀ v ∈ out, v.writes = true → ¬ (v.source.id ≠ "" ∧ v.id = chosenId v.source) →
    ∀ old, opts.published v.id = some old → deployment old = deployment v.document
  newer : ∀ v ∈ out, v.status = .updated → ∃ existing published, opts.existing = some existing ∧
    dictGet existing.variants v.id = some published ∧ versionLt (versionTuple published.was) (versionTuple v.version)

/-- Is the body renamed? -/
def CatalogOptions.renames (opts : CatalogOptions) (b : EntryBody) : Except PyError Bool :=
  match opts.existing with
  | none => .ok false
  | some existing => b.clashes existing

/-- Is nothing written for the body, as the catalog has it already? -/
def CatalogOptions.hasAlready (opts : CatalogOptions) (b : EntryBody) : Bool :=
  opts.existing.any fun existing => b.isUnchanged opts existing

/-- Does the catalog publish another deployment under the body's id? -/
def CatalogOptions.publishesOther (opts : CatalogOptions) (b : EntryBody) : Prop :=
  ∃ old, opts.published b.id = some old ∧ deployment old ≠ deployment b.source.body.entries

/-- Two bodies with one id, of which one is renamed or not written. -/
def KeepApart (opts : CatalogOptions) (a b : EntryBody) : Prop :=
  a.id = b.id → (opts.renames a = .ok true ∨ opts.hasAlready a = true) ∨
    (opts.renames b = .ok true ∨ opts.hasAlready b = true)

/-- Numbering does no harm: where it makes an id another body has, one of the two is renamed or not
written; and where it makes a chosen id one of another deployment, nothing is written. -/
structure NumbersApart (opts : CatalogOptions) (bodies : List EntryBody) : Prop where
  apart : bodies.Pairwise (KeepApart opts)
  chosen : ∀ b ∈ bodies, b.source.id ≠ "" → b.id ≠ chosenId b.source → opts.publishesOther b →
    opts.hasAlready b = true

/-! ## Renaming -/

/-- The bodies as they are renamed; `taken` are the ids a new one must not be. -/
inductive Renamed (opts : CatalogOptions) : List String → List EntryBody → List EntryBody → Prop where
  | nil {taken : List String} : Renamed opts taken [] []
  | kept {taken : List String} {b : EntryBody} {bodies bodies' : List EntryBody} (h : opts.renames b = .ok false)
      (rest : Renamed opts taken bodies bodies') : Renamed opts taken (b :: bodies) (b :: bodies')
  | renamed {taken : List String} {b : EntryBody} {bodies bodies' : List EntryBody} {id : String}
      (h : opts.renames b = .ok true) (hfree : id ∉ taken) (rest : Renamed opts (id :: taken) bodies bodies') :
      Renamed opts taken (b :: bodies) ({ b with id := id } :: bodies')

theorem renameBodies_renamed {opts : CatalogOptions} {existing : CatalogModel} (hopts : opts.existing = some existing)
    {lineage : String} {taken : List String} {bodies out : List EntryBody}
    (h : renameBodies existing lineage taken bodies = .ok out) : Renamed opts taken bodies out := by
  induction bodies generalizing taken out with
  | nil =>
      cases h
      exact Renamed.nil
  | cons b bodies ih =>
      rw [renameBodies] at h
      rcases bind_eq_ok.mp h with ⟨clash, hclash, h⟩
      have hrenames : opts.renames b = .ok clash := by
        unfold CatalogOptions.renames
        rw [hopts]
        exact hclash
      cases clash with
      | false =>
          rcases map_eq_ok.mp h with ⟨rest, hrest, rfl⟩
          exact Renamed.kept hrenames (ih hrest)
      | true =>
          rcases bind_eq_ok.mp h with ⟨new, -, h⟩
          rcases map_eq_ok.mp h with ⟨rest, hrest, rfl⟩
          exact Renamed.renamed hrenames (freeId_notMem taken new) (ih hrest)

/-- Where nothing clashes nothing is renamed. -/
theorem renamed_refl {opts : CatalogOptions} {taken : List String} {bodies : List EntryBody}
    (h : ∀ b ∈ bodies, opts.renames b = .ok false) : Renamed opts taken bodies bodies := by
  induction bodies with
  | nil => exact Renamed.nil
  | cons b bodies ih =>
      exact Renamed.kept (h b List.mem_cons_self) (ih fun b' hb' => h b' (List.mem_cons_of_mem b hb'))

/-- With no clashing id every body answers false. -/
theorem clashes_false {existing : CatalogModel} {bodies : List EntryBody} {clashes : List Bool}
    (hall : List.Forall₂ (fun b c => EntryBody.clashes existing b = .ok c) bodies clashes)
    (hempty : (((bodies.zip clashes).filter Prod.snd).map fun e => e.1.id).isEmpty = true) :
    ∀ b ∈ bodies, b.clashes existing = .ok false := by
  induction hall with
  | nil => exact fun b hb => absurd hb List.not_mem_nil
  | @cons b clash bodies clashes hb _ ih =>
      rw [List.zip_cons_cons, List.filter_cons] at hempty
      cases clash with
      | true => simp at hempty
      | false =>
          simp only [Bool.false_eq_true, if_false] at hempty
          intro b' hb'
          rcases List.mem_cons.mp hb' with rfl | hb'
          · exact hb
          · exact ih hempty b' hb'

/-- The ids no renamed body gets. -/
def takenIds (opts : CatalogOptions) (bodies : List EntryBody) : List String :=
  (opts.existing.map fun existing => existing.variants.map Prod.fst).getD [] ++ bodies.map EntryBody.id

theorem settleIds_renamed {opts : CatalogOptions} {bodies out : List EntryBody}
    (h : settleIds opts bodies = .ok out) : Renamed opts (takenIds opts bodies) bodies out := by
  unfold settleIds at h
  cases hopts : opts.existing with
  | none =>
      rw [hopts] at h
      cases h
      refine renamed_refl fun b _ => ?_
      unfold CatalogOptions.renames
      rw [hopts]
  | some existing =>
      rw [hopts] at h
      have htaken : takenIds opts bodies = existing.variants.map Prod.fst ++ bodies.map EntryBody.id := by
        unfold takenIds
        rw [hopts]
        rfl
      rw [htaken]
      unfold ownLineage at h
      rcases bind_eq_ok.mp h with ⟨clashes, hclashes, h⟩
      dsimp only at h
      split at h
      · -- no clash: every body answers false
        rename_i hempty
        cases h
        refine renamed_refl fun b hb => ?_
        unfold CatalogOptions.renames
        rw [hopts]
        exact clashes_false (mapM_eq_ok.mp hclashes) hempty b hb
      · exact renameBodies_renamed hopts h

/-! ## One variant -/

theorem deployment_congr {d e : JsonDict ℚ} (himage : dictGet d "image" = dictGet e "image")
    (hvalues : dictGet d "values" = dictGet e "values") (hrequires : dictGet d "requires" = dictGet e "requires") :
    deployment d = deployment e := by
  unfold deployment subDict
  rw [himage, hvalues, hrequires]

/-- What the head of a document holds is nothing of a deployment. -/
theorem deployment_document (opts : CatalogOptions) (b : EntryBody) :
    deployment (b.document opts) = deployment b.source.body.entries := by
  have hget : ∀ key ∈ ["image", "values", "requires"],
      dictGet (b.document opts) key = dictGet b.source.body.entries key := by
    intro key hkey
    unfold EntryBody.document
    rw [dictGet_assignAll b.source.body.nodup]
    have hhead : ∀ served : List (String × Value), (∀ e ∈ served, e.1 = "servedName") →
        dictGet ([("apiVersion", .str apiVersion), ("kind", .str "Variant"), ("model", .str opts.name),
          ("id", .str b.id), ("version", .str "1.0.0")] ++ served) key = none := by
      intro served hserved
      rw [← Option.not_isSome_iff_eq_none, dictGet_isSome]
      intro hmem
      rcases List.mem_map.mp hmem with ⟨e, he, rfl⟩
      rcases List.mem_append.mp he with he | he
      · simp only [List.mem_cons, List.not_mem_nil, or_false] at he hkey
        rcases he with rfl | rfl | rfl | rfl | rfl <;> simp at hkey
      · rw [hserved e he] at hkey
        simp at hkey
    rw [hhead, Option.or_none]
    split
    · intro e he
      rw [List.mem_singleton.mp he]
    · exact fun e he => absurd he List.not_mem_nil
  exact deployment_congr (hget _ (by simp)) (hget _ (by simp)) (hget _ (by simp))

theorem deployment_version (doc : JsonDict ℚ) (v : Value) : deployment (dictSet doc "version" v) = deployment doc := by
  have hget : ∀ key, key ≠ "version" → dictGet (dictSet doc "version" v) key = dictGet doc key := by
    intro key hkey
    rw [dictGet_set, if_neg hkey]
  exact deployment_congr (hget _ (by decide)) (hget _ (by decide)) (hget _ (by decide))

/-- A variant that writes goes under its body's id, with its body's deployment; what is updated has a
greater version. -/
structure ExportedFrom (opts : CatalogOptions) (b : EntryBody) (v : ExportedVariant) : Prop where
  source : v.source = b.source
  writes : v.writes = true ↔ opts.hasAlready b = false
  file : v.writes = true → v.id = b.id ∧ v.path = variantPath opts.name b.id ∧
    deployment v.document = deployment b.source.body.entries
  newer : v.status = .updated → ∃ existing published, opts.existing = some existing ∧
    dictGet existing.variants v.id = some published ∧ versionLt (versionTuple published.was) (versionTuple v.version)

/-! One lemma for each status a variant can get. -/

theorem exportedFrom_new {opts : CatalogOptions} {b : EntryBody} (hnot : opts.hasAlready b = false) :
    ExportedFrom opts b ⟨b.source, b.id, "1.0.0", .new, variantPath opts.name b.id, b.document opts⟩ where
  source := rfl
  writes := ⟨fun _ => hnot, fun _ => rfl⟩
  file := fun _ => ⟨rfl, rfl, deployment_document opts b⟩
  newer := fun h => by cases h

theorem exportedFrom_unchanged {opts : CatalogOptions} {b : EntryBody} (halready : opts.hasAlready b = true)
    (id version path : String) (doc : JsonDict ℚ) :
    ExportedFrom opts b ⟨b.source, id, version, .unchanged, path, doc⟩ where
  source := rfl
  writes := ⟨fun h => (by cases h), fun h => by rw [halready] at h; cases h⟩
  file := fun h => by cases h
  newer := fun h => by cases h

theorem exportedFrom_updated {opts : CatalogOptions} {b : EntryBody} {existing : CatalogModel}
    {published : PublishedVariant} (hopts : opts.existing = some existing)
    (hget : dictGet existing.variants b.id = some published) (hnot : opts.hasAlready b = false) :
    ExportedFrom opts b ⟨b.source, b.id, bumpMinor published.was, .updated, variantPath opts.name b.id,
      dictSet (b.document opts) "version" (.str (bumpMinor published.was))⟩ where
  source := rfl
  writes := ⟨fun _ => hnot, fun _ => rfl⟩
  file := fun _ => ⟨rfl, rfl, (deployment_version _ _).trans (deployment_document opts b)⟩
  newer := fun _ => ⟨existing, published, hopts, hget, bumpMinor_greater published.was⟩

/-- Without an exact twin the catalog has a body already if its document under the id is the same variant. -/
theorem hasAlready_of_noTwin {opts : CatalogOptions} {b : EntryBody} {existing : CatalogModel}
    (hopts : opts.existing = some existing) (htwin : exactTwin existing b (b.document opts) = none) :
    opts.hasAlready b = (existing.document b.id).any fun old => sameVariant old (b.document opts) := by
  unfold CatalogOptions.hasAlready EntryBody.isUnchanged
  rw [hopts, Option.any_some, htwin, Option.isSome_none, Bool.false_or]

theorem exportVariant_exportedFrom {opts : CatalogOptions} {b : EntryBody} {v : ExportedVariant}
    (h : exportVariant opts b = .ok v) : ExportedFrom opts b v := by
  unfold exportVariant at h
  dsimp only at h
  cases hopts : opts.existing with
  | none =>
      rw [hopts] at h
      cases h
      refine exportedFrom_new ?_
      unfold CatalogOptions.hasAlready
      rw [hopts]
      rfl
  | some existing =>
      rw [hopts] at h
      dsimp only at h
      cases htwin : exactTwin existing b (b.document opts) with
      | some old =>
          have halready : opts.hasAlready b = true := by
            unfold CatalogOptions.hasAlready EntryBody.isUnchanged
            rw [hopts, Option.any_some, htwin]
            rfl
          rw [htwin] at h
          rcases bind_eq_ok.mp h with ⟨id, -, h⟩
          rcases map_eq_ok.mp h with ⟨version, -, rfl⟩
          exact exportedFrom_unchanged halready _ _ _ _
      | none =>
          have halready := hasAlready_of_noTwin hopts htwin
          rw [htwin] at h
          dsimp only at h
          unfold CatalogModel.document at halready
          cases hget : dictGet existing.variants b.id with
          | none =>
              rw [hget] at h halready
              cases h
              exact exportedFrom_new halready
          | some published =>
              rw [hget] at h
              rw [hget, Option.bind_some] at halready
              dsimp only at h
              -- a document that is no map was never this variant
              cases hdocument : published.document with
              | none =>
                  rw [hdocument] at h halready
                  cases h
                  exact exportedFrom_updated hopts hget halready
              | some value =>
                  cases value with
                  | null =>
                      rw [hdocument] at h halready
                      cases h
                      exact exportedFrom_updated hopts hget halready
                  | dict old =>
                      rw [hdocument] at h halready
                      dsimp only at h
                      cases hsame : sameVariant old (b.document opts) with
                      | true =>
                          rw [hsame, if_pos rfl] at h
                          cases h
                          exact exportedFrom_unchanged (halready.trans hsame) _ _ _ _
                      | false =>
                          rw [hsame, if_neg Bool.false_ne_true] at h
                          cases h
                          exact exportedFrom_updated hopts hget (halready.trans hsame)
                  | _ =>
                      rw [hdocument] at h
                      cases h

/-! ## The whole export -/

section Export

variable {opts : CatalogOptions} {taken : List String} {bodies bodies' : List EntryBody} {out : List ExportedVariant}

/-- A body that is not renamed is exported as it is. -/
theorem exported_of_kept (hren : Renamed opts taken bodies bodies')
    (hout : List.Forall₂ (fun b v => exportVariant opts b = .ok v) bodies' out) {b : EntryBody} (hb : b ∈ bodies)
    (hkept : opts.renames b = .ok false) : ∃ v ∈ out, ExportedFrom opts b v := by
  induction hren generalizing out with
  | nil => exact absurd hb List.not_mem_nil
  | kept h rest ih =>
      cases hout with
      | cons hv hout =>
          rcases List.mem_cons.mp hb with rfl | hb
          · exact ⟨_, List.mem_cons_self, exportVariant_exportedFrom hv⟩
          · rcases ih hout hb with ⟨v, hv', hfrom⟩
            exact ⟨v, List.mem_cons_of_mem _ hv', hfrom⟩
  | renamed h hfree rest ih =>
      cases hout with
      | cons hv hout =>
          rcases List.mem_cons.mp hb with rfl | hb
          · rw [hkept] at h
            cases h
          · rcases ih hout hb with ⟨v, hv', hfrom⟩
            exact ⟨v, List.mem_cons_of_mem _ hv', hfrom⟩

/-- A variant that writes is a body's that was not renamed, or has an id that was free. -/
theorem kept_or_free (hren : Renamed opts taken bodies bodies')
    (hout : List.Forall₂ (fun b v => exportVariant opts b = .ok v) bodies' out) {v : ExportedVariant} (hv : v ∈ out)
    (hwrites : v.writes = true) :
    (∃ b ∈ bodies, opts.renames b = .ok false ∧ ExportedFrom opts b v) ∨ v.id ∉ taken := by
  induction hren generalizing out with
  | nil =>
      cases hout
      exact absurd hv List.not_mem_nil
  | kept h rest ih =>
      cases hout with
      | cons hfirst hout =>
          rcases List.mem_cons.mp hv with rfl | hv
          · exact Or.inl ⟨_, List.mem_cons_self, h, exportVariant_exportedFrom hfirst⟩
          · rcases ih hout hv with ⟨b, hb, hkept, hfrom⟩ | hnot
            · exact Or.inl ⟨b, List.mem_cons_of_mem _ hb, hkept, hfrom⟩
            · exact Or.inr hnot
  | renamed h hfree rest ih =>
      cases hout with
      | cons hfirst hout =>
          rcases List.mem_cons.mp hv with rfl | hv
          · right
            rw [((exportVariant_exportedFrom hfirst).file hwrites).1]
            exact hfree
          · rcases ih hout hv with ⟨b, hb, hkept, hfrom⟩ | hnot
            · exact Or.inl ⟨b, List.mem_cons_of_mem _ hb, hkept, hfrom⟩
            · exact Or.inr fun hmem => hnot (List.mem_cons_of_mem _ hmem)

/-- Each body was asked whether it clashes. -/
theorem renames_of_mem (hren : Renamed opts taken bodies bodies') {b : EntryBody} (hb : b ∈ bodies) :
    opts.renames b = .ok false ∨ opts.renames b = .ok true := by
  induction hren with
  | nil => exact absurd hb List.not_mem_nil
  | kept h rest ih =>
      rcases List.mem_cons.mp hb with rfl | hb
      · exact Or.inl h
      · exact ih hb
  | renamed h hfree rest ih =>
      rcases List.mem_cons.mp hb with rfl | hb
      · exact Or.inr h
      · exact ih hb

/-- The ids that are written. -/
def writtenIds (out : List ExportedVariant) : List String :=
  (out.filter ExportedVariant.writes).map ExportedVariant.id

theorem mem_writtenIds {id : String} : id ∈ writtenIds out ↔ ∃ v ∈ out, v.writes = true ∧ v.id = id := by
  unfold writtenIds
  rw [List.mem_map]
  constructor
  · rintro ⟨v, hv, rfl⟩
    rcases List.mem_filter.mp hv with ⟨hmem, hwrites⟩
    exact ⟨v, hmem, hwrites, rfl⟩
  · rintro ⟨v, hmem, hwrites, rfl⟩
    exact ⟨v, List.mem_filter.mpr ⟨hmem, hwrites⟩, rfl⟩

theorem writtenIds_cons (v : ExportedVariant) :
    writtenIds (v :: out) = if v.writes then v.id :: writtenIds out else writtenIds out := by
  unfold writtenIds
  rw [List.filter_cons]
  split <;> rfl

/-- A body that is renamed or not written keeps apart from every other. -/
theorem pairwise_cons_of_left {a : EntryBody} (h : opts.renames a = .ok true ∨ opts.hasAlready a = true) :
    (a :: bodies).Pairwise (KeepApart opts) ↔ bodies.Pairwise (KeepApart opts) := by
  rw [List.pairwise_cons]
  exact ⟨And.right, fun hrest => ⟨fun b _ _ => Or.inl h, hrest⟩⟩

/-- No id is written twice exactly if the numbered bodies keep apart. -/
theorem nodup_writtenIds_iff (hren : Renamed opts taken bodies bodies')
    (hout : List.Forall₂ (fun b v => exportVariant opts b = .ok v) bodies' out)
    (htaken : ∀ b ∈ bodies, b.id ∈ taken) : (writtenIds out).Nodup ↔ bodies.Pairwise (KeepApart opts) := by
  induction hren generalizing out with
  | nil =>
      cases hout
      exact ⟨fun _ => List.Pairwise.nil, fun _ => List.nodup_nil⟩
  | @kept taken b bodies bodies' h rest ih =>
      cases hout with
      | @cons _ v _ out hv hout =>
          have hfrom := exportVariant_exportedFrom hv
          have ih := ih hout fun b' hb' => htaken b' (List.mem_cons_of_mem _ hb')
          rw [writtenIds_cons]
          cases halready : opts.hasAlready b with
          | true =>
              have hwrites : v.writes = false := by
                rw [Bool.eq_false_iff, Ne, hfrom.writes, halready]
                decide
              rw [hwrites, if_neg Bool.false_ne_true, ih, pairwise_cons_of_left (Or.inr halready)]
          | false =>
              have hwrites := hfrom.writes.mpr halready
              rw [hwrites, if_pos rfl, List.nodup_cons, ih, List.pairwise_cons, (hfrom.file hwrites).1]
              refine and_congr_left' ?_
              constructor
              · intro hnot b' hb' hid
                -- a body that is written under the same id would have been met
                by_contra hstays
                rw [not_or, not_or, not_or] at hstays
                have hkept : opts.renames b' = .ok false := by
                  rcases renames_of_mem rest hb' with hfalse | htrue
                  · exact hfalse
                  · exact absurd htrue hstays.2.1
                rcases exported_of_kept rest hout hb' hkept with ⟨v', hv', hfrom'⟩
                have hwrites' := hfrom'.writes.mpr (Bool.eq_false_iff.mpr hstays.2.2)
                exact hnot (mem_writtenIds.mpr ⟨v', hv', hwrites', (hfrom'.file hwrites').1.trans hid.symm⟩)
              · intro hapart hmem
                rcases mem_writtenIds.mp hmem with ⟨v', hv', hwrites', hid⟩
                rcases kept_or_free rest hout hv' hwrites' with ⟨b', hb', hkept, hfrom'⟩ | hfree
                · have hsame : b.id = b'.id := hid.symm.trans (hfrom'.file hwrites').1
                  rcases hapart b' hb' hsame with hleft | hright
                  · rcases hleft with hren | halready'
                    · rw [h] at hren
                      cases hren
                    · rw [halready] at halready'
                      cases halready'
                  · rcases hright with hren | halready'
                    · rw [hkept] at hren
                      cases hren
                    · rw [hfrom'.writes.mp hwrites'] at halready'
                      cases halready'
                · rw [hid] at hfree
                  exact hfree (htaken b List.mem_cons_self)
  | @renamed taken b bodies bodies' id h hfree rest ih =>
      cases hout with
      | @cons _ v _ out hv hout =>
          have hfrom := exportVariant_exportedFrom hv
          have htaken' : ∀ b' ∈ bodies, b'.id ∈ taken := fun b' hb' => htaken b' (List.mem_cons_of_mem _ hb')
          have ih := ih hout fun b' hb' => List.mem_cons_of_mem _ (htaken' b' hb')
          rw [writtenIds_cons, pairwise_cons_of_left (Or.inl h), ← ih]
          cases hwrites : v.writes with
          | false => rw [if_neg Bool.false_ne_true]
          | true =>
              rw [if_pos rfl, List.nodup_cons, (hfrom.file hwrites).1]
              refine ⟨And.right, fun hnd => ⟨fun hmem => ?_, hnd⟩⟩
              rcases mem_writtenIds.mp hmem with ⟨v', hv', hwrites', hid⟩
              rcases kept_or_free rest hout hv' hwrites' with ⟨b', hb', -, hfrom'⟩ | hfree'
              · have hin := htaken' b' hb'
                rw [← (hfrom'.file hwrites').1, hid] at hin
                exact hfree hin
              · rw [hid] at hfree'
                exact hfree' List.mem_cons_self

/-- The paths that are written tell apart what the ids do. -/
theorem nodup_paths_iff (hpath : ∀ v ∈ out, v.writes = true → v.path = variantPath opts.name v.id) :
    ((out.filter ExportedVariant.writes).map ExportedVariant.path).Nodup ↔ (writtenIds out).Nodup := by
  have hpaths : (out.filter ExportedVariant.writes).map ExportedVariant.path =
      (writtenIds out).map (variantPath opts.name) := by
    unfold writtenIds
    rw [List.map_map]
    refine List.map_congr_left fun v hv => ?_
    rcases List.mem_filter.mp hv with ⟨hmem, hwrites⟩
    exact hpath v hmem hwrites
  rw [hpaths, List.nodup_map_iff (variantPath_injective opts.name)]

end Export

theorem exported_mem {opts : CatalogOptions} {bodies : List EntryBody} {out : List ExportedVariant}
    (hout : List.Forall₂ (fun b v => exportVariant opts b = .ok v) bodies out) {v : ExportedVariant} (hv : v ∈ out) :
    ∃ b ∈ bodies, ExportedFrom opts b v := by
  induction hout with
  | nil => exact absurd hv List.not_mem_nil
  | cons hfirst _ ih =>
      rcases List.mem_cons.mp hv with rfl | hv
      · exact ⟨_, List.mem_cons_self, exportVariant_exportedFrom hfirst⟩
      · rcases ih hv with ⟨b, hb, hfrom⟩
        exact ⟨b, List.mem_cons_of_mem _ hb, hfrom⟩

/-- What is published under an id is among the ids no renamed body gets. -/
theorem mem_takenIds_of_published {opts : CatalogOptions} {bodies : List EntryBody} {id : String}
    {old : JsonDict ℚ} (h : opts.published id = some old) : id ∈ takenIds opts bodies := by
  unfold CatalogOptions.published at h
  rcases Option.bind_eq_some_iff.mp h with ⟨existing, hopts, hdoc⟩
  unfold CatalogModel.document at hdoc
  have hsome : (dictGet existing.variants id).isSome = true := by
    cases hget : dictGet existing.variants id with
    | some _ => rfl
    | none =>
        rw [hget] at hdoc
        cases hdoc
  unfold takenIds
  rw [hopts]
  exact List.mem_append_left _ (dictGet_isSome.mp hsome)

/-- A body with a derived id that is not renamed has the deployment that is published under its id. -/
theorem sameDeployment_of_kept {opts : CatalogOptions} {b : EntryBody} (hderived : b.source.id = "")
    (hkept : opts.renames b = .ok false) {old : JsonDict ℚ} (h : opts.published b.id = some old) :
    deployment old = deployment b.source.body.entries := by
  unfold CatalogOptions.published at h
  rcases Option.bind_eq_some_iff.mp h with ⟨existing, hopts, hdoc⟩
  unfold CatalogOptions.renames at hkept
  rw [hopts] at hkept
  change b.clashes existing = .ok false at hkept
  unfold EntryBody.clashes at hkept
  rw [if_neg (by rw [hderived]; exact fun hne => hne rfl)] at hkept
  unfold EntryBody.isForeign at hkept
  rw [hdoc] at hkept
  rcases bind_eq_ok.mp hkept with ⟨theirs, htheirs, hkept⟩
  rcases map_eq_ok.mp hkept with ⟨mine, hmine, hsame⟩
  rw [htheirs, hmine, not_not.mp (of_decide_eq_false hsame)]

theorem renames_of_chosen {opts : CatalogOptions} {b : EntryBody} (h : b.source.id ≠ "") :
    opts.renames b = .ok false := by
  unfold CatalogOptions.renames
  cases opts.existing with
  | none => rfl
  | some existing => exact if_pos h

end AutoTune
