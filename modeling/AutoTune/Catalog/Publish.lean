import AutoTune.Lib.Trace
import Mathlib.Logic.Function.Basic

/-!
# Publishing an export

A publish sends its files to a catalog server one by one, each under the ETag the file has just then:
once as a dry run, then for good. The export it sends was built from an earlier reading of the catalog.
What the server names a content by is a parameter.
-/

namespace AutoTune

open Lib

/-- The files of a catalog. -/
inductive CatalogPath where
  | metadata (model : String)
  | variant (model id : String)
deriving DecidableEq, Repr

/-- What is published of an export: the files it writes. -/
structure ModelExport where
  name : String
  metadata : Option String
  variants : List (String × String)
deriving DecidableEq, Repr

/-- How a publish ended: its dry run passed, it committed, a write of it was refused, or it raised. -/
inductive PublishOutcome where
  | checked
  | committed
  | refused (path : CatalogPath)
  | raised
deriving DecidableEq, Repr

/-- The request a publish makes next; `dry` says in which of its two passes. -/
inductive PublishStage where
  | readModel (dry : Bool)
  | addModel (dry : Bool) (metadata : String)
  | readVariant (dry : Bool) (modelTag : String) (file : String × String) (rest : List (String × String))
  | putVariant (dry : Bool) (modelTag : String) (file : String × String) (tag : Option String)
      (rest : List (String × String))
  | readMetadata (modelTag text : String)
  | putMetadata (dry : Bool) (tag text : String)
  | ended (outcome : PublishOutcome)
deriving DecidableEq, Repr

/-- A publish. `basis` is what the catalog held when its export was built. -/
structure Publication where
  export_ : ModelExport
  basis : CatalogPath → Option String
  dryRun : Bool := false
  stage : PublishStage := .readModel true

/-- The catalog's files, and who publishes to it. -/
structure CatalogWorld where
  files : CatalogPath → Option String
  publications : Nat → Option Publication

/-- Somebody reads the catalog, builds an export and starts to publish it; or a publish makes its next
request, or fails to reach the server. -/
inductive PublishMove where
  | begin (k : Nat) (export_ : ModelExport) (dryRun : Bool)
  | proceed (k : Nat)
  | lose (k : Nat)

section

variable (etag : String → String)

/-- `_Catalog.etag`: the ETag of a file, if it is there. -/
def etagOf (files : CatalogPath → Option String) (p : CatalogPath) : Option String := (files p).map etag

/-- Is the condition of a PUT met: `If-Match` the given ETag, `If-None-Match: *` without one? -/
def conditionMet (files : CatalogPath → Option String) (p : CatalogPath) (tag : Option String) : Bool :=
  match tag.filter fun t => t ≠ "" with
  | some t => (files p).any fun text => etag text = t
  | none => (files p).isNone

namespace Publication

/-- A pass is through. -/
def finishPass (p : Publication) (dry : Bool) : PublishStage :=
  if !dry then .ended .committed else if p.dryRun then .ended .checked else .readModel false

/-- After the variants the metadata is written: a `defaultVariant` may name one just added. The real pass
reads its ETag again. -/
def afterVariants (p : Publication) (dry : Bool) (modelTag : String) : PublishStage :=
  match p.export_.metadata with
  | none => p.finishPass dry
  | some text => if dry then .putMetadata true modelTag text else .readMetadata modelTag text

/-- The loop over the variants. -/
def nextVariant (p : Publication) (dry : Bool) (modelTag : String) :
    List (String × String) → PublishStage
  | [] => p.afterVariants dry modelTag
  | file :: rest => .readVariant dry modelTag file rest

/-- The file a variant is written to. -/
def pathOf (p : Publication) (file : String × String) : CatalogPath := .variant p.export_.name file.1

def metadataPath (p : Publication) : CatalogPath := .metadata p.export_.name

end Publication

/-- The files with one of them written. -/
def writeFile (files : CatalogPath → Option String) (p : CatalogPath) (text : String) :
    CatalogPath → Option String := Function.update files p (some text)

/-- The next request of a publish: the files and the stage it leaves. A POST of a model the catalog has
is refused, as a PUT is whose condition is not met. -/
def request (files : CatalogPath → Option String) (p : Publication) :
    (CatalogPath → Option String) × PublishStage :=
  match p.stage with
  | .readModel dry =>
      match etagOf etag files p.metadataPath with
      | some tag => (files, p.nextVariant dry tag p.export_.variants)
      | none =>
          match p.export_.metadata, p.export_.variants with
          | some text, _ :: _ => (files, .addModel dry text)
          | _, _ => (files, .ended .raised)
  | .addModel dry text =>
      if (files p.metadataPath).isNone && p.export_.variants.all fun f => (files (p.pathOf f)).isNone then
        (if dry then files
          else p.export_.variants.foldl (fun files f => writeFile files (p.pathOf f) f.2)
            (writeFile files p.metadataPath text),
          p.finishPass dry)
      else (files, .ended (.refused p.metadataPath))
  | .readVariant dry modelTag file rest =>
      (files, .putVariant dry modelTag file (etagOf etag files (p.pathOf file)) rest)
  | .putVariant dry modelTag file tag rest =>
      if conditionMet etag files (p.pathOf file) tag then
        (if dry then files else writeFile files (p.pathOf file) file.2, p.nextVariant dry modelTag rest)
      else (files, .ended (.refused (p.pathOf file)))
  | .readMetadata modelTag text =>
      (files, .putMetadata false ((etagOf etag files p.metadataPath).filter (· ≠ "") |>.getD modelTag) text)
  | .putMetadata dry tag text =>
      if conditionMet etag files p.metadataPath (some tag) then
        (if dry then files else writeFile files p.metadataPath text, p.finishPass dry)
      else (files, .ended (.refused p.metadataPath))
  | .ended outcome => (files, .ended outcome)

/-- One move. -/
def CatalogWorld.act (w : CatalogWorld) : PublishMove → CatalogWorld
  | .begin k e dryRun =>
      match w.publications k with
      | some _ => w
      | none =>
          { w with
            publications := Function.update w.publications k
              (some { export_ := e, basis := w.files, dryRun := dryRun }) }
  | .proceed k =>
      match w.publications k with
      | none => w
      | some p =>
          let (files, stage) := request etag w.files p
          { files := files
            publications := Function.update w.publications k (some { p with stage := stage }) }
  | .lose k =>
      match w.publications k with
      | none => w
      | some p =>
          match p.stage with
          | .ended _ => w
          | _ =>
              { w with
                publications := Function.update w.publications k (some { p with stage := .ended .raised }) }

/-! ## What is asked of it -/

/-- The files a publish is about to write for good. -/
def Publication.writes (p : Publication) : List CatalogPath :=
  match p.stage with
  | .addModel false _ => p.metadataPath :: p.export_.variants.map p.pathOf
  | .putVariant false _ file _ _ => [p.pathOf file]
  | .putMetadata false _ _ => [p.metadataPath]
  | _ => []

/-- A publish that is about to replace a file with another content than its export was built from is
refused and over, and the catalog stays as it is; what is over sends nothing. -/
def KeepsEdits (w : CatalogWorld) : PublishMove → Prop
  | .proceed k => ∀ p, w.publications k = some p →
      (∀ path ∈ p.writes, ∀ text, w.files path = some text → p.basis path ≠ some text →
        (request etag w.files p).1 = w.files ∧
          ∃ path, (request etag w.files p).2 = .ended (.refused path)) ∧
      ∀ outcome, p.stage = .ended outcome → request etag w.files p = (w.files, .ended outcome)
  | _ => True

/-- What a publish reads for good is what its export was built from, or not there. -/
def Publication.readsBasis (files : CatalogPath → Option String) (p : Publication) : Prop :=
  match p.stage with
  | .readVariant false _ file _ =>
      ∀ text, files (p.pathOf file) = some text → p.basis (p.pathOf file) = some text
  | .readMetadata _ _ => ∀ text, files p.metadataPath = some text → p.basis p.metadataPath = some text
  | _ => True

def ReadsItsBasis (w : CatalogWorld) : PublishMove → Prop
  | .proceed k => ∀ p, w.publications k = some p → p.readsBasis w.files
  | _ => True

end

end AutoTune
