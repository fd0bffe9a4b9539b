import AutoTune.Catalog.Publish

/-!
# Edits of others

A PUT is conditional on the ETag read just before it, so it replaces what was read; it replaces what the
export was built from if that was still there to be read. An edit between the export and the reading is
overwritten.
-/

namespace AutoTune

open Lib

variable {etag : String → String}

/-! ## Files stay -/

/-- A file that is there stays there. -/
def FilesStay (files files' : CatalogPath → Option String) : Prop :=
  ∀ path, (files path).isSome = true → (files' path).isSome = true

theorem FilesStay.refl (files : CatalogPath → Option String) : FilesStay files files := fun _ h => h

theorem FilesStay.trans {files files' files'' : CatalogPath → Option String} (h : FilesStay files files')
    (h' : FilesStay files' files'') : FilesStay files files'' := fun path hsome => h' path (h path hsome)

theorem writeFile_stay (files : CatalogPath → Option String) (p : CatalogPath) (text : String) :
    FilesStay files (writeFile files p text) := by
  intro path h
  unfold writeFile
  by_cases hpath : path = p
  · rw [hpath, Function.update_self]
    rfl
  · rw [Function.update_of_ne hpath]
    exact h

theorem writeAll_stay (p : Publication) (l : List (String × String)) (files : CatalogPath → Option String) :
    FilesStay files (l.foldl (fun files f => writeFile files (p.pathOf f) f.2) files) := by
  induction l generalizing files with
  | nil => exact FilesStay.refl files
  | cons f l ih => exact (writeFile_stay files (p.pathOf f) f.2).trans (ih _)

theorem request_stay (files : CatalogPath → Option String) (p : Publication) :
    FilesStay files (request etag files p).1 := by
  unfold request
  cases p.stage with
  | readModel dry =>
      dsimp only
      split
      · exact FilesStay.refl files
      · split <;> exact FilesStay.refl files
  | addModel dry text =>
      dsimp only
      split
      · cases dry with
        | true => exact FilesStay.refl files
        | false => exact (writeFile_stay files _ text).trans (writeAll_stay p _ _)
      · exact FilesStay.refl files
  | readVariant dry modelTag file rest => exact FilesStay.refl files
  | putVariant dry modelTag file tag rest =>
      dsimp only
      split
      · cases dry with
        | true => exact FilesStay.refl files
        | false => exact writeFile_stay files _ _
      · exact FilesStay.refl files
  | readMetadata modelTag text => exact FilesStay.refl files
  | putMetadata dry tag text =>
      dsimp only
      split
      · cases dry with
        | true => exact FilesStay.refl files
        | false => exact writeFile_stay files _ _
      · exact FilesStay.refl files
  | ended outcome => exact FilesStay.refl files

/-! ## What a publish has read -/

/-- The ETag a publish is about to send names what its export was built from; and a publish that writes
variants has seen the model's metadata. -/
def Prepared (etag : String → String) (files : CatalogPath → Option String) (p : Publication) : Prop :=
  match p.stage with
  | .readVariant false _ _ _ => (files p.metadataPath).isSome = true
  | .putVariant false _ file tag _ => (files p.metadataPath).isSome = true ∧
      ∀ t, tag.filter (fun t => t ≠ "") = some t →
        ∃ text, etag text = t ∧ p.basis (p.pathOf file) = some text
  | .readMetadata _ _ => (files p.metadataPath).isSome = true
  | .putMetadata false tag _ => ∃ text, etag text = tag ∧ p.basis p.metadataPath = some text
  | _ => True

theorem Prepared.stay {files files' : CatalogPath → Option String} {p : Publication}
    (h : Prepared etag files p) (hstay : FilesStay files files') : Prepared etag files' p := by
  unfold Prepared at h ⊢
  split
  · rename_i hstage
    rw [hstage] at h
    exact hstay _ h
  · rename_i hstage
    rw [hstage] at h
    exact ⟨hstay _ h.1, h.2⟩
  · rename_i hstage
    rw [hstage] at h
    exact hstay _ h
  · rename_i hstage
    rw [hstage] at h
    exact h
  · trivial

/-- The stage after a pass. -/
theorem finishPass_prepared (files : CatalogPath → Option String) (p : Publication) (dry : Bool) :
    Prepared etag files { p with stage := p.finishPass dry } := by
  unfold Publication.finishPass
  cases dry with
  | false => trivial
  | true =>
      cases hdry : p.dryRun with
      | true =>
          simp only [Bool.not_true, Bool.false_eq_true, if_false, if_true]
          trivial
      | false =>
          simp only [Bool.not_true, Bool.false_eq_true, if_false]
          trivial

/-- The stage after a variant. -/
theorem nextVariant_prepared {files : CatalogPath → Option String} (p : Publication) (dry : Bool)
    (modelTag : String) (hthere : (files p.metadataPath).isSome = true) (rest : List (String × String)) :
    Prepared etag files { p with stage := p.nextVariant dry modelTag rest } := by
  cases rest with
  | nil =>
      unfold Publication.nextVariant Publication.afterVariants
      dsimp only
      split
      · exact finishPass_prepared files p dry
      · cases dry with
        | true => trivial
        | false => exact hthere
  | cons file rest =>
      cases dry with
      | true => trivial
      | false => exact hthere

/-- The dry run writes nothing, so nothing is asked of its stages. -/
theorem nextVariant_dry_prepared {files : CatalogPath → Option String} (p : Publication) (modelTag : String)
    (rest : List (String × String)) :
    Prepared etag files { p with stage := p.nextVariant true modelTag rest } := by
  cases rest with
  | nil =>
      unfold Publication.nextVariant Publication.afterVariants
      dsimp only
      split
      · exact finishPass_prepared files p true
      · trivial
  | cons file rest => trivial

/-- A request of a publish that reads its basis leaves it prepared. -/
theorem request_prepared (hne : ∀ text, etag text ≠ "") {files : CatalogPath → Option String} {p : Publication}
    (h : Prepared etag files p) (hreads : p.readsBasis files) :
    Prepared etag (request etag files p).1 { p with stage := (request etag files p).2 } := by
  unfold Prepared at h
  unfold Publication.readsBasis at hreads
  have hstay := @request_stay etag files p
  unfold request at hstay ⊢
  cases hstage : p.stage with
  | readModel dry =>
      rw [hstage] at hstay
      dsimp only at hstay ⊢
      cases htag : etagOf etag files p.metadataPath with
      | some tag =>
          -- there is a metadata file, and its tag is what the pass goes on with
          rw [etagOf, Option.map_eq_some_iff] at htag
          rcases htag with ⟨text, htext, -⟩
          have hthere : (files p.metadataPath).isSome = true := by rw [htext]; rfl
          exact nextVariant_prepared p dry tag hthere p.export_.variants
      | none =>
          dsimp only
          split <;> trivial
  | addModel dry text =>
      dsimp only
      split
      · exact finishPass_prepared _ p dry
      · trivial
  | readVariant dry modelTag file rest =>
      rw [hstage] at h hreads
      cases dry with
      | true => trivial
      | false =>
          -- what is read here is the basis the variant's write is conditioned on
          refine ⟨h, fun t ht => ?_⟩
          rw [Option.filter_eq_some_iff, etagOf, Option.map_eq_some_iff] at ht
          rcases ht with ⟨⟨text, htext, htag⟩, -⟩
          exact ⟨text, htag, hreads text htext⟩
  | putVariant dry modelTag file tag rest =>
      rw [hstage] at h hstay
      dsimp only at hstay ⊢
      split
      · rename_i hmet
        -- the write was admitted; it leaves the other files as they were
        rw [if_pos hmet] at hstay
        cases dry with
        | true => exact nextVariant_dry_prepared p modelTag rest
        | false => exact nextVariant_prepared p false modelTag (hstay _ h.1) rest
      · trivial
  | readMetadata modelTag text =>
      rw [hstage] at h hreads
      -- the metadata file is still there, and its tag is not the empty one
      rcases Option.isSome_iff_exists.mp h with ⟨current, hcurrent⟩
      refine ⟨current, ?_, hreads current hcurrent⟩
      rw [etagOf, hcurrent, Option.map_some, Option.filter_some]
      rw [if_pos (by simpa using hne current)]
      rfl
  | putMetadata dry tag text =>
      dsimp only
      split
      · exact finishPass_prepared _ p dry
      · trivial
  | ended outcome => trivial

/-- A condition on what the export was built from is not met by a file edited since. -/
theorem conditionMet_edited (hinj : Function.Injective etag) {files : CatalogPath → Option String}
    {path : CatalogPath} {text : String} {basis tag : Option String} (htext : files path = some text)
    (hedited : basis ≠ some text)
    (htag : ∀ t, tag.filter (fun t => t ≠ "") = some t → ∃ old, etag old = t ∧ basis = some old) :
    conditionMet etag files path tag = false := by
  unfold conditionMet
  rw [htext]
  cases hasked : tag.filter fun t => t ≠ "" with
  | none => rfl
  | some t =>
      rcases htag t hasked with ⟨old, hold, hbasis⟩
      refine decide_eq_false fun heq => hedited ?_
      rw [hbasis, hinj (heq.trans hold.symm)]

/-- A prepared publish replaces nothing but what its export was built from. -/
theorem request_keepsEdits (hinj : Function.Injective etag) {files : CatalogPath → Option String}
    {p : Publication} (h : Prepared etag files p) {path : CatalogPath} (hpath : path ∈ p.writes) {text : String}
    (htext : files path = some text) (hedited : p.basis path ≠ some text) :
    (request etag files p).1 = files ∧ ∃ path, (request etag files p).2 = .ended (.refused path) := by
  unfold Prepared at h
  unfold Publication.writes at hpath
  unfold request
  cases hstage : p.stage with
  | addModel dry new =>
      rw [hstage] at hpath
      dsimp only
      cases dry with
      | true => exact absurd hpath List.not_mem_nil
      | false =>
          -- a new model is added only where none of its files is there, and this one is
          have hthere : ((files p.metadataPath).isNone &&
              p.export_.variants.all fun f => (files (p.pathOf f)).isNone) = false := by
            rw [Bool.eq_false_iff, Ne, Bool.and_eq_true, List.all_eq_true]
            rintro ⟨hmetadata, hvariants⟩
            rcases List.mem_cons.mp hpath with rfl | hvariant
            · rw [htext] at hmetadata
              cases hmetadata
            · rcases List.mem_map.mp hvariant with ⟨f, hf, rfl⟩
              have hnone := hvariants f hf
              rw [htext] at hnone
              cases hnone
          rw [hthere]
          exact ⟨rfl, _, rfl⟩
  | putVariant dry modelTag file tag rest =>
      rw [hstage] at hpath h
      dsimp only
      cases dry with
      | true => exact absurd hpath List.not_mem_nil
      | false =>
          -- the condition is the tag of the basis, and the file has another text by now
          rw [List.mem_singleton.mp hpath] at htext hedited
          rw [conditionMet_edited hinj htext hedited h.2]
          exact ⟨rfl, _, rfl⟩
  | putMetadata dry tag new =>
      rw [hstage] at hpath h
      dsimp only
      cases dry with
      | true => exact absurd hpath List.not_mem_nil
      | false =>
          -- likewise for the metadata
          rw [List.mem_singleton.mp hpath] at htext hedited
          have htag : ∀ t, (some tag).filter (fun t => t ≠ "") = some t →
              ∃ old, etag old = t ∧ p.basis p.metadataPath = some old := by
            intro t ht
            rw [← Option.some.inj (Option.filter_eq_some_iff.mp ht).1]
            exact h
          rw [conditionMet_edited hinj htext hedited htag]
          exact ⟨rfl, _, rfl⟩
  | _ =>
      rw [hstage] at hpath
      exact absurd hpath List.not_mem_nil

/-! ## Runs -/

/-- Every publish is prepared. -/
def AllPrepared (etag : String → String) (w : CatalogWorld) : Prop :=
  ∀ k p, w.publications k = some p → Prepared etag w.files p

theorem act_prepared (hne : ∀ text, etag text ≠ "") {w : CatalogWorld} (h : AllPrepared etag w)
    {m : PublishMove} (hreads : ReadsItsBasis w m) : AllPrepared etag (w.act etag m) := by
  cases m with
  | begin k e dryRun =>
      unfold CatalogWorld.act
      dsimp only
      split
      · exact h
      -- a publish that begins has read nothing yet
      · intro k' p hp
        dsimp only at hp ⊢
        by_cases hk : k' = k
        · rw [hk, Function.update_self] at hp
          cases hp
          trivial
        · rw [Function.update_of_ne hk] at hp
          exact h k' p hp
  | proceed k =>
      unfold CatalogWorld.act
      dsimp only
      cases hk : w.publications k with
      | none => exact h
      | some p =>
          -- the publish that moves is prepared by its own request, the others stay prepared
          intro k' p' hp'
          dsimp only at hp' ⊢
          by_cases hsame : k' = k
          · rw [hsame, Function.update_self] at hp'
            cases hp'
            exact request_prepared hne (h k p hk) (hreads p hk)
          · rw [Function.update_of_ne hsame] at hp'
            exact (h k' p' hp').stay (request_stay w.files p)
  | lose k =>
      unfold CatalogWorld.act
      dsimp only
      cases hk : w.publications k with
      | none => exact h
      | some p =>
          dsimp only
          split
          · exact h
          · intro k' p' hp'
            dsimp only at hp' ⊢
            by_cases hsame : k' = k
            · rw [hsame, Function.update_self] at hp'
              cases hp'
              trivial
            · rw [Function.update_of_ne hsame] at hp'
              exact h k' p' hp'

theorem keepsEdits_of_prepared (hinj : Function.Injective etag) {w : CatalogWorld} (h : AllPrepared etag w)
    (m : PublishMove) : KeepsEdits etag w m := by
  cases m with
  | begin k e dryRun => trivial
  | lose k => trivial
  | proceed k =>
      intro p hp
      refine ⟨fun path hpath text htext hedited =>
        request_keepsEdits hinj (h k p hp) hpath htext hedited, fun outcome hended => ?_⟩
      unfold request
      rw [hended]

/-- Edits are kept: if every file a publish reads for good is what its export was built from, or is not
there yet, then no write of it replaces another content, and a refused one is its last. -/
theorem publishing_keeps_edits (etag : String → String) (hinj : Function.Injective etag)
    (hne : ∀ text, etag text ≠ "") (w : CatalogWorld) (hstart : ∀ k, w.publications k = none)
    (l : List PublishMove) (hreads : Along (CatalogWorld.act etag) ReadsItsBasis w l) :
    Along (CatalogWorld.act etag) (KeepsEdits etag) w l := by
  refine along_of_invariant (I := AllPrepared etag)
    (fun _ m hprepared hm => ⟨act_prepared hne hprepared hm, keepsEdits_of_prepared hinj hprepared m⟩) ?_ hreads
  intro k p hp
  rw [hstart k] at hp
  cases hp

/-! ## Two publishers of one variant -/

/-- A catalog with one model of one variant. -/
def oneVariant : CatalogWorld where
  files := fun path =>
    match path with
    | .metadata "m" => some "defaultVariant: v"
    | .variant "m" "v" => some "image: a"
    | _ => none
  publications := fun _ => none

/-- An export that writes the variant. -/
def variantExport (text : String) : ModelExport := { name := "m", metadata := none, variants := [("v", text)] }

/-- A content's name in quotes. -/
def quotedTag (text : String) : String := "\"" ++ text ++ "\""

theorem quotedTag_injective : Function.Injective quotedTag := by
  intro s t h
  have hlist := congrArg String.toList h
  unfold quotedTag at hlist
  rw [String.toList_append, String.toList_append, String.toList_append, String.toList_append] at hlist
  exact String.toList_injective (List.append_cancel_left (List.append_cancel_right hlist))

theorem quotedTag_ne (text : String) : quotedTag text ≠ "" := by
  intro h
  have hlist := congrArg String.toList h
  unfold quotedTag at hlist
  rw [String.toList_append, String.toList_append] at hlist
  cases hlist

/-- Both read the catalog, one publishes, and the other is about to write. -/
def readAfterwards : List PublishMove :=
  [.begin 0 (variantExport "image: b") false, .begin 1 (variantExport "image: c") false] ++
    List.replicate 6 (.proceed 1) ++ List.replicate 5 (.proceed 0)

/-- The first edit is lost: the other publish read its ETag after it. -/
theorem readAfterwards_loses :
    ¬ Along (CatalogWorld.act quotedTag) (KeepsEdits quotedTag) oneVariant (readAfterwards ++ [.proceed 0]) := by
  intro h
  have hlast := (along_append.mp h).2.1
  have hput := (hlast _ rfl).1 (.variant "m" "v") List.mem_cons_self "image: c" (by decide)
    (by decide)
  rcases hput.2 with ⟨path, hrefused⟩
  cases hrefused

/-- Both read the catalog, one reads its ETag for good, and then the other publishes. -/
def readBefore : List PublishMove :=
  [.begin 0 (variantExport "image: b") false, .begin 1 (variantExport "image: c") false] ++
    List.replicate 5 (.proceed 0) ++ List.replicate 6 (.proceed 1) ++ [.proceed 0]

theorem readBefore_readsItsBasis :
    Along (CatalogWorld.act quotedTag) ReadsItsBasis oneVariant readBefore := by
  refine ⟨trivial, trivial, ?_, ?_, ?_, ?_, ?_, ?_, ?_, ?_, ?_, ?_, ?_, ?_, trivial⟩
  all_goals
    rintro p ⟨⟩
    first
    | exact trivial
    | exact fun _ h => h

/-- Its second write is refused: the edit is kept. -/
theorem readBefore_keepsEdits :
    Along (CatalogWorld.act quotedTag) (KeepsEdits quotedTag) oneVariant readBefore :=
  publishing_keeps_edits quotedTag quotedTag_injective quotedTag_ne oneVariant (fun _ => rfl) readBefore
    readBefore_readsItsBasis

end AutoTune
