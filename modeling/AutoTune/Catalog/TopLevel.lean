import AutoTune.Lib.Dict
import AutoTune.Lib.TextLines

/-!
# Editing a published file

A published file is changed key by key. It is cut at its top-level keys, each with the lines up to the next
key's leading comments. A key whose value differs is written anew, a new one behind the key it follows, and the
rest of the lines stays. What YAML reads and writes is a parameter.
-/

namespace AutoTune

open Lib

/-- What the code uses of YAML, and of the values of a document. -/
structure YamlTools (V : Type) where
  /-- `yaml.safe_load(text)`: `none` for a YAMLError. A document that is no mapping, or that has a key which is
  no text and so none of the file's top-level keys, is `some none`. -/
  load : String → Option (Option (Dict V))
  /-- `dump({key: value})` -/
  dump : String → V → String
  /-- `==` on two values -/
  same : V → V → Bool
  /-- what `\w` matches in a key -/
  isWord : Char → Bool

section Edit

variable {V : Type} (yaml : YamlTools V)

/-- `==` on two documents. -/
def YamlTools.sameDocument (d e : Dict V) : Bool :=
  d.entries.length = e.entries.length && d.entries.all fun x => (e.get? x.1).any (yaml.same x.2)

/-! ## Cutting the text -/

/-- The lines, the last one completed. -/
def completed (lines : List String) : List String :=
  match lines.getLast? with
  | none => []
  | some last => if last.toList.getLast? = some '\n' then lines else lines.dropLast ++ [last ++ "\n"]

/-- `_TOP_KEY.match`: the key a line begins with. -/
def YamlTools.topKey (line : String) : Option String :=
  match line.toList with
  | [] => none
  | c :: cs =>
      if c.isAlpha || c == '_' then
        let inKey := fun c : Char => yaml.isWord c || c == '.' || c == '-'
        match cs.dropWhile inKey with
        | ':' :: rest => if rest.head?.all isSpace then some (String.ofList (c :: cs.takeWhile inKey)) else none
        | _ => none
      else none

/-- A top-level comment. -/
def isComment (line : String) : Bool := startsWith line "#"

/-- `keys`: the line of every top-level key. -/
def YamlTools.keyLines (lines : List String) : List (Nat × String) :=
  lines.zipIdx.filterMap fun e => (yaml.topKey e.1).map fun key => (e.2, key)

/-- A key, its lines from `start` to `stop`, and where the next key begins. Between the two are the next key's
leading comments. -/
structure KeySpan where
  key : String
  start : Nat
  stop : Nat
  next : Nat
deriving DecidableEq, Repr

/-- `while end > start + 1 and lines[end - 1].startswith("#")`, from this end. -/
def trimComments (lines : List String) (start : Nat) : Nat → Nat
  | 0 => 0
  | last + 1 => if start < last && (lines[last]?).any isComment then trimComments lines start last else last + 1

/-- `spans`. -/
def keySpans (lines : List String) : List (Nat × String) → List KeySpan
  | [] => []
  | (start, key) :: rest =>
      let next := (rest.head?.map Prod.fst).getD lines.length
      ⟨key, start, trimComments lines start next, next⟩ :: keySpans lines rest

/-- `lines[a:b]`. -/
def lineSlice (lines : List String) (a b : Nat) : List String := (lines.take b).drop a

/-! ## Putting it together -/

/-- `chunks[key]`. The keys of the file are those of `old`, each once. -/
def YamlTools.chunk (lines : List String) (old document : Dict V) (span : KeySpan) : List String :=
  match old.get? span.key, document.get? span.key with
  | some _, none => []
  | some v, some w =>
      if yaml.same w v then lineSlice lines span.start span.stop else splitLines (yaml.dump span.key w)
  | none, _ => lineSlice lines span.start span.stop

/-- One turn of the loop over the document: the key that was met last, and the lines to insert after each. -/
def YamlTools.insertKey (old : Dict V) (state : String × List (String × List String)) (entry : String × V) :
    String × List (String × List String) :=
  if old.has entry.1 then (entry.1, state.2)
  else (state.1, dictSet state.2 state.1
    ((dictGet state.2 state.1).getD [] ++ splitLines (yaml.dump entry.1 entry.2)))

/-- `inserted.get(key, [])`. -/
def YamlTools.insertedAfter (old document : Dict V) (key : String) : List String :=
  (dictGet (document.entries.foldl (yaml.insertKey old) ("", [])).2 key).getD []

/-- `out`. -/
def YamlTools.edited (lines : List String) (keys : List (Nat × String)) (old document : Dict V) : List String :=
  lines.take ((keys.head?.map Prod.fst).getD lines.length) ++ yaml.insertedAfter old document "" ++
    (keySpans lines keys).flatMap fun span =>
      yaml.chunk lines old document span ++ yaml.insertedAfter old document span.key ++
        lineSlice lines span.stop span.next

/-- `edit_top_level`. -/
def YamlTools.editTopLevel (text : String) (document : Dict V) : Option String :=
  match yaml.load text with
  | some (some old) =>
      let lines := completed (splitLines text)
      let keys := yaml.keyLines lines
      if keys.map Prod.snd = old.keys then
        let result := joinLines (yaml.edited lines keys old document)
        match yaml.load result with
        | some (some read) => if yaml.sameDocument read document then some result else none
        | _ => none
      else none
  | _ => none

/-! ## What an edit may touch -/

/-- A part of an edited file: a line of the original, by its number, or an entry of the document. -/
inductive Piece where
  | line (i : Nat)
  | entry (key : String)
deriving DecidableEq, Repr

/-- The text of a part. -/
def YamlTools.render (lines : List String) (document : Dict V) : Piece → String
  | .line i => (lines[i]?).getD ""
  | .entry key => ((document.get? key).map (yaml.dump key)).getD ""

/-- A key of the old document that is dropped, or has another value. -/
def YamlTools.Changed (old document : Dict V) (key : String) : Prop :=
  ∃ v, old.get? key = some v ∧ ∀ w, document.get? key = some w → yaml.same w v = false

/-- A key of the document that is written: it is new, or its value differs. -/
def YamlTools.Written (old document : Dict V) (key : String) : Prop :=
  ∃ w, document.get? key = some w ∧ ∀ v, old.get? key = some v → yaml.same w v = false

/-- The key of the old document a new key follows in the new one, if there is one. -/
def follows (old document : Dict V) (key : String) : Option String :=
  ((document.keys.takeWhile fun k => k != key).filter old.has).getLast?

/-- Where a part stands: each line has a place, with room before it for entries in the document's order. An
entry of the file takes the place of its key's line, and a new one stands behind the lines of the key it
follows, or before all keys. -/
def place (first : Nat) (spans : List KeySpan) (old document : Dict V) : Piece → Nat × Nat
  | .line i => (2 * i + 1, 0)
  | .entry key =>
      match spans.find? fun span => span.key = key with
      | some span => (2 * span.start + 1, 0)
      | none =>
          (2 * (((follows old document key).bind fun a => spans.find? fun span => span.key = a).map
            KeySpan.stop |>.getD first), document.keys.idxOf key + 1)

/-- One part stands before another. -/
def Before (p q : Nat × Nat) : Prop := p.1 < q.1 ∨ p.1 = q.1 ∧ p.2 < q.2

/-- The result is the original with the lines of changed keys replaced: its parts stand in order, each once;
they are the lines outside the changed keys and the entries that are written; and no top-level comment is
missing. -/
structure YamlTools.EditsOnly (text : String) (old document : Dict V) (result : String) : Prop where
  parts : ∃ pieces : List Piece,
    let lines := splitLines text
    let keys := yaml.keyLines (completed lines)
    let spans := keySpans (completed lines) keys
    let first := (keys.head?.map Prod.fst).getD lines.length
    pieces.Pairwise (fun p q => Before (place first spans old document p) (place first spans old document q)) ∧
      (∀ i, .line i ∈ pieces ↔ i < lines.length ∧
        ∀ span ∈ spans, yaml.Changed old document span.key → ¬ (span.start ≤ i ∧ i < span.stop)) ∧
      (∀ key, .entry key ∈ pieces ↔ yaml.Written old document key) ∧
      (∀ i line, lines[i]? = some line → isComment line = true → .line i ∈ pieces) ∧
      result = joinLines (pieces.map (yaml.render lines document))

/-- No changed key has a top-level comment among its lines, and the text ends in a newline or with a line of a
changed key. -/
structure YamlTools.CommentsApart (text : String) (old document : Dict V) : Prop where
  comments : ∀ span ∈ keySpans (completed (splitLines text)) (yaml.keyLines (completed (splitLines text))),
    yaml.Changed old document span.key → ∀ i, span.start ≤ i → i < span.stop →
      ∀ line, (splitLines text)[i]? = some line → isComment line = false
  ending : ∀ last, (splitLines text).getLast? = some last → last.toList.getLast? = some '\n' ∨
    ∃ span ∈ keySpans (completed (splitLines text)) (yaml.keyLines (completed (splitLines text))),
      yaml.Changed old document span.key ∧ span.stop = (splitLines text).length

end Edit

end AutoTune
