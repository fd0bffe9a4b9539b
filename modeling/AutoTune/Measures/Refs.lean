import AutoTune.Lib.Exact
import AutoTune.Lib.Scan
import AutoTune.Measures.Catalog

/-!
# Measure references

`[<scenario>/]<measure>[@<stat>][[<qualifier>]][:<point>]` names one number: which measure, which
statistic, where. A text is told apart from a raw key by its characters, and parsed by a regular
expression once its blanks are stripped.
-/

namespace AutoTune

open Lib

/-! ## The grammar -/

/-- `[A-Za-z0-9_\-]` -/
def isScenarioChar (c : Char) : Bool :=
  ('a' ≤ c && c ≤ 'z') || ('A' ≤ c && c ≤ 'Z') || ('0' ≤ c && c ≤ '9') || c == '_' || c == '-'

/-- `[a-z0-9]` -/
def isStatChar (c : Char) : Bool := ('a' ≤ c && c ≤ 'z') || ('0' ≤ c && c ≤ '9')

/-- `[a-z0-9_]` -/
def isMeasureChar (c : Char) : Bool := isStatChar c || c == '_'

/-- `[A-Za-z0-9_\-.]` -/
def isQualifierChar (c : Char) : Bool := isScenarioChar c || c == '.'

/-- `\d` -/
def isDecimal (c : Char) : Bool := (digitValue c).isSome

/-- What `_REF` captures. -/
structure RefMatch where
  scenario : Option (List Char)
  measure : List Char
  stat : Option (List Char)
  qualifier : Option (List Char)
  point : Option (List Char)
deriving DecidableEq, Repr

/-- `(?:([A-Za-z0-9_\-]+(?:#\d+)?)/)?` -/
def scenarioGroup (cs : List Char) : Option (List Char) × List Char :=
  let name := cs.takeWhile isScenarioChar
  let (ordinal, after) := optionalGroup '#' isDecimal [] (cs.dropWhile isScenarioChar)
  match name, after with
  | _ :: _, '/' :: rest => (some (name ++ writeGroup '#' [] ordinal), rest)
  | _, _ => (none, cs)

/-- `_REF.match`: `$` also stands before a last newline. -/
def matchRef (cs : List Char) : Option RefMatch :=
  let (scenario, cs) := scenarioGroup cs
  let measure := cs.takeWhile isMeasureChar
  let (stat, cs) := optionalGroup '@' isStatChar [] (cs.dropWhile isMeasureChar)
  let (qualifier, cs) := optionalGroup '[' isQualifierChar [']'] cs
  let (point, cs) := optionalGroup ':' isStatChar [] cs
  if measure ≠ [] ∧ (cs = [] ∨ cs = ['\n']) then some ⟨scenario, measure, stat, qualifier, point⟩ else none

/-- `_POINT`: a sweep level, or one of the named points. -/
def isPoint (point : String) : Bool :=
  point == "operating" || point == "peak" ||
    match point.toList with
    | 'c' :: digits => !digits.isEmpty && digits.all isDecimal
    | _ => false

/-! ## References -/

/-- `MeasureRef`. -/
structure MeasureRef where
  measure : String
  stat : Option String := none
  qualifier : Option String := none
  point : Option String := none
  scenario : Option String := none
deriving DecidableEq, Repr

/-- A field that is there and not empty, after a sign and before another. -/
def fieldText (opening closing : String) (field : Option String) : String :=
  match field.filter fun s => s ≠ "" with
  | some s => opening ++ s ++ closing
  | none => ""

/-- `MeasureRef.key`: what an adapter's output is keyed by. -/
def MeasureRef.key (r : MeasureRef) : String :=
  r.measure ++ fieldText "@" "" r.stat ++ fieldText "[" "]" r.qualifier

/-- `MeasureRef.__str__`. -/
def MeasureRef.text (r : MeasureRef) : String :=
  fieldText "" "/" r.scenario ++ (r.key ++ fieldText ":" "" (r.point.filter fun p => p ≠ "operating"))

/-- Does the text use the reference syntax? -/
def usesSyntax (text : String) : Bool := text.toList.any fun c => c == '/' || c == '@' || c == '[' || c == ':'

/-- `is_measure_ref`. -/
def isMeasureRef (text : String) : Bool :=
  if text = "" || hasChar text '.' then false
  else
    match matchRef text.toList with
    | none => usesSyntax text
    | some m => usesSyntax text || (lookup (String.ofList m.measure)).isSome

/-- `RefError`. -/
structure RefError where
  message : String
deriving DecidableEq, Repr

/-- `", ".join`. -/
def commaList (items : List String) : String := ", ".intercalate items

/-- What is wrong with the statistic. -/
def statProblem (spec : Measure) (given : Option String) : Option String :=
  if spec.stats = [] then
    given.map fun _ => spec.name ++ " takes no statistic"
  else
    match given.or spec.defaultStat with
    | none =>
        some (spec.name ++ " needs a statistic, one of " ++ commaList spec.stats ++ ": e.g. " ++ spec.name ++
          "@" ++ spec.stats.getLastD "")
    | some stat =>
        if stat ∈ spec.stats then none
        else some (spec.name ++ " has no statistic " ++ quoteText stat ++ "; it has " ++ commaList spec.stats)

/-- What is wrong with the qualifier. One from an open set cannot be left out. -/
def qualifierProblem (spec : Measure) (given : Option String) : Option String :=
  match given with
  | some qualifier =>
      if spec.qualifier = "" then some (spec.name ++ " takes no qualifier")
      else if spec.qualifierValues ≠ [] ∧ qualifier ∉ spec.qualifierValues then
        some (spec.name ++ " has no " ++ spec.qualifier ++ " " ++ quoteText qualifier ++ "; it has " ++
          commaList spec.qualifierValues)
      else none
  | none =>
      if spec.qualifier ≠ "" ∧ spec.qualifierValues = [] then
        some (spec.name ++ " needs a " ++ spec.qualifier ++ ": e.g. " ++ spec.name ++ "[gpqa_diamond]")
      else none

/-- What is wrong with the point. -/
def pointProblem (given : Option String) : Option String :=
  (given.filter fun p => !isPoint p).map fun p =>
    "unknown point " ++ quoteText p ++ ": use operating, peak or a sweep level like c8"

/-- What a match is read as, once its measure is found. -/
def RefMatch.ref (m : RefMatch) (spec : Measure) : MeasureRef where
  measure := spec.name
  stat := if spec.stats = [] then none else (m.stat.map String.ofList).or spec.defaultStat
  qualifier := m.qualifier.map String.ofList
  point := (m.point.map String.ofList).filter fun p => p ≠ "operating"
  scenario := m.scenario.map String.ofList

/-- What is wrong with a match, its measure aside. -/
def RefMatch.problem (m : RefMatch) (spec : Measure) : Option String :=
  ((statProblem spec (m.stat.map String.ofList)).or (qualifierProblem spec (m.qualifier.map String.ofList))).or
    (pointProblem (m.point.map String.ofList))

/-- `parse`. -/
def parse (text : String) : Except RefError MeasureRef :=
  match matchRef (strip text).toList with
  | none => .error ⟨"not a measure reference: " ++ quoteText text⟩
  | some m =>
      match lookup (String.ofList m.measure) with
      | none => .error ⟨"unknown measure " ++ quoteText (String.ofList m.measure)⟩
      | some spec =>
          match m.problem spec with
          | some message => .error ⟨message⟩
          | none => .ok (m.ref spec)

example : parse " replay#2/uptime:c8" =
    .ok { measure := "success_rate", point := some "c8", scenario := some "replay#2" } := by decide

end AutoTune
