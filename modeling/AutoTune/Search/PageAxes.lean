import AutoTune.Lib.EcmaScript
import AutoTune.Lib.Fallible
import AutoTune.Search.RangeSteps
import AutoTune.Search.SweptAxes

/-!
# The page's reading of a space

The page has a reader of its own for the axes of a space, from the same document the platform expands. This
module has that reader, what it means that the two read a space alike, and how a space has to be written for
that.
-/

namespace AutoTune

open Lib

/-- A search space as it is saved. The grid holds what was typed under each parameter, a list or not. -/
structure SavedSpace where
  base : Config := Dict.empty
  grid : Dict Value := Dict.empty
  tied : List (Dict (List Value)) := []
  range : Dict Config := Dict.empty
  conditions : Dict Config := Dict.empty

/-! ## What the platform takes from the grid -/

/-- What Python runs through under a grid parameter; `none` where it raises. Nothing is what `_grid` drops. -/
def gridColumn (v : Value) : Option (List Value) := (Json.items (some v)).toOption

/-- The space the platform expands. -/
def SavedSpace.read (saved : SavedSpace) : Option SearchSpace :=
  if saved.grid.entries.all fun e => (gridColumn e.2).isSome then
    some { base := saved.base
           grid := saved.grid.mapValues fun v => (gridColumn v).getD []
           tied := saved.tied
           range := saved.range
           conditions := saved.conditions }
  else none

/-! ## The page's axes -/

inductive AxisKind where
  | list
  | tied
  | range
deriving DecidableEq, Repr

/-- Set when the parameter only applies for certain values of another. -/
structure AxisGate where
  on : String
  values : List String
deriving DecidableEq, Repr

/-- `Axis`. -/
structure Axis where
  label : String
  keys : List String
  kind : AxisKind
  values : List String
  hidden : Nat
  count : Nat
  gate : Option AxisGate := none
  interval : Option String := none
deriving DecidableEq, Repr

/-- `MAX_SHOWN`. -/
def maxShown : Nat := 8

/-- An axis with its values cut: both ends are kept. -/
def Axis.cut (label : String) (keys : List String) (kind : AxisKind) (values : List String)
    (interval : Option String) : Axis :=
  if values.length ≤ maxShown then
    { label, keys, kind, interval, values, hidden := 0, count := values.length }
  else
    { label, keys, kind, interval, values := values.take (maxShown - 1) ++ values.getLast?.toList,
      hidden := values.length - maxShown, count := values.length }

@[simp] theorem Axis.cut_keys (label : String) (keys : List String) (kind : AxisKind) (values : List String)
    (interval : Option String) : (Axis.cut label keys kind values interval).keys = keys := by
  unfold Axis.cut
  split <;> rfl

@[simp] theorem Axis.cut_kind (label : String) (keys : List String) (kind : AxisKind) (values : List String)
    (interval : Option String) : (Axis.cut label keys kind values interval).kind = kind := by
  unfold Axis.cut
  split <;> rfl

/-- An axis counts what is cut from it. -/
@[simp] theorem Axis.cut_count (label : String) (keys : List String) (kind : AxisKind) (values : List String)
    (interval : Option String) : (Axis.cut label keys kind values interval).count = values.length := by
  unfold Axis.cut
  split <;> rfl

/-- `Number(spec?.bound)`. -/
def pageBound (spec : Config) (bound : String) : Option ℚ := (spec.get? bound).bind Json.scriptNumber

/-- `String(spec?.bound)`. -/
def boundText (spec : Config) (bound : String) : String :=
  ((spec.get? bound).map Json.scriptText).getD "undefined"

/-- `(String(spec?.step).split('.')[1] ?? '').length`: what is behind the first point, up to a second. -/
def typedDecimals (spec : Config) : Nat :=
  (((boundText spec "step").toList.splitOn '.')[1]?.getD []).length

/-- `expandRange`: the numbers it spells, and whether the interval is usable; `none` where `toFixed` throws. -/
def expandRange (spec : Config) : Option (List ℚ × Bool) :=
  match pageBound spec "min", pageBound spec "max", pageBound spec "step" with
  | some low, some high, some step =>
      if 0 < step ∧ low ≤ high then
        let count : Int := ((high - low) / step + 1 / 10 ^ 9).floor + 1
        ((List.range count.toNat).mapM fun i : Nat => toFixed (typedDecimals spec) (low + i * step)).map
          fun numbers => (numbers, true)
      else some ([], false)
  | _, _, _ => some ([], false)

/-- The axis of a grid parameter. -/
def listAxis (e : String × Value) : Axis :=
  let items := match e.2 with
    | .list items => items
    | raw => [raw]
  Axis.cut e.1 [e.1] .list (items.map Json.scriptText) none

/-- The axis of a range: one that is not usable has no values. -/
def rangeAxis (e : String × Config) : Option Axis :=
  (expandRange e.2).map fun read =>
    Axis.cut e.1 [e.1] .range (if read.2 then read.1.map numberText else [])
      (some (boundText e.2 "min" ++ " … " ++ boundText e.2 "max" ++ " step " ++ boundText e.2 "step"))

/-- The axis of a tied group, zipped to its shortest column; a group without keys has none. -/
def groupAxis (group : Dict (List Value)) : Option Axis :=
  let columns := objectEntries group.entries
  if columns.isEmpty then none
  else
    let keys := columns.map Prod.fst
    let rows := (columns.map fun c => c.2.length).min?.getD 0
    some (Axis.cut (" + ".intercalate keys) keys .tied
      ((List.range rows).map fun i =>
        " / ".intercalate (columns.map fun c => ((c.2[i]?).getD .null).scriptText)) none)

namespace SavedSpace

variable (saved : SavedSpace)

/-- The axes, before conditions gate them: listed values, then intervals, then tied groups. -/
def bareAxes : Option (List Axis) :=
  ((objectEntries saved.range.entries).mapM rangeAxis).map fun ranges =>
    (objectEntries saved.grid.entries).map listAxis ++ ranges ++ saved.tied.filterMap groupAxis

end SavedSpace

/-- `(allowed ?? []).map(String)`; only a list has a `map`. -/
def gateValues : Value → Option (List String)
  | .null => some []
  | .list items => some (items.map Json.scriptText)
  | _ => none

/-- One condition: the first axis that moves its parameter is gated. -/
def gateAxis (axes : List Axis) (e : String × Config) : Option (List Axis) :=
  match (objectEntries e.2.entries).head? with
  | none => some axes
  | some (on, allowed) =>
      if on = "" then some axes
      else
        match axes.findIdx? fun a => a.keys.contains e.1 with
        | none => some axes
        | some i => (gateValues allowed).map fun values =>
            axes.modify i fun a => { a with gate := some ⟨on, values⟩ }

namespace SavedSpace

variable (saved : SavedSpace)

/-- `axesOf`. -/
def axesOf : Option (List Axis) :=
  saved.bareAxes.bind fun axes => (objectEntries saved.conditions.entries).foldlM gateAxis axes

/-- `sweptKeysOf`. -/
def sweptKeysOf : Option (List String) := saved.axesOf.map fun axes => axes.flatMap Axis.keys

/-- `crossProduct`. -/
def crossProduct : Option Nat :=
  saved.axesOf.map fun axes => axes.foldl (fun total axis => total * max 1 axis.count) 1

end SavedSpace

/-! ## Two readers of one space -/

/-- The platform's axes, each with its kind. -/
def SearchSpace.kindedAxes (space : SearchSpace) : List (AxisKind × List Part) :=
  ((sortEntries space.gridValues.entries).map (fun e => (AxisKind.list, e.2.map fun v => [(e.1, v)])) ++
    space.tiedGroups.map (fun group => (AxisKind.tied, tiedAxis group)) ++
    space.rangeSpecs.map fun r => (AxisKind.range, r.values.map fun v => [(r.name, v)])).filter
      fun axis => !axis.2.isEmpty

theorem SearchSpace.kindedAxes_axes (space : SearchSpace) : space.kindedAxes.map Prod.snd = space.axes := by
  unfold kindedAxes axes
  simp [List.filter_map, Function.comp_def]

/-- An axis of the page is an axis of the platform: of the same kind, over the same parameters, with as many
points, and on a range with the same numbers in the same order. -/
structure SavedSpace.Shows (saved : SavedSpace) (shown : Axis) (axis : AxisKind × List Part) : Prop where
  kind : shown.kind = axis.1
  keys : shown.keys.Perm (axisKeys axis.2)
  count : shown.count = axis.2.length
  steps : axis.1 = .range → ∃ k spec numbers, shown.keys = [k] ∧ saved.range.get? k = some spec ∧
    expandRange spec = some (numbers, true) ∧ axis.2.flatten.map (fun e => e.2.number) = numbers.map some

/-- The page reads a space the way the platform expands it: its axes with points are the platform's, so are
their product and the swept parameters, and the product is not below the number of candidates. -/
structure SavedSpace.ReadsAlike (saved : SavedSpace) (space : SearchSpace) : Prop where
  axes : ∃ shown, saved.axesOf = some shown ∧ ∃ matched, matched.Perm space.kindedAxes ∧
    List.Forall₂ saved.Shows (shown.filter fun a => 0 < a.count) matched
  product : saved.crossProduct = some space.axisProduct
  candidates : ∀ total, saved.crossProduct = some total → space.candidateCount ≤ total
  keys : ∃ keys, saved.sweptKeysOf = some keys ∧ ∀ k, k ∈ keys ↔ k ∈ space.sweptKeys

/-! ## How a space has to be written -/

/-- `p` decimals to Python and `q` on the page leave the same of a step. From 10^21 on the page rounds no
more. -/
def StepAlike (p q : Nat) (x : ℚ) : Prop := if 10 ^ 21 ≤ |x| then WritesOut p x else SameRounding p q x

/-- A range whose bounds the page reads, whose step has at most a hundred decimals as it is written, and whose
steps are the same to the decimals of both readers. -/
structure RangeAlike (spec : Config) (r : RangeSpec) : Prop where
  bounds : ∀ bound ∈ ["min", "max", "step"], (pageBound spec bound).isSome = true
  decimals : typedDecimals spec ≤ 100
  steps : ∀ i, r.Reaches i → StepAlike (rangeDecimals r.step) (typedDecimals spec) (r.point i)

namespace SavedSpace

variable (saved : SavedSpace)

/-- A parameter that is given values: in the grid, in a tied group with a value in some column, or in a
range. -/
def Varies (k : String) : Prop :=
  (∃ v, saved.grid.get? k = some v ∧ v.truthy = true) ∨
    (∃ group ∈ saved.tied, group.has k = true ∧ ∃ c ∈ group.entries, c.2 ≠ []) ∨
    saved.range.has k = true

/-- A parameter the page has an axis for. -/
def Named (k : String) : Prop :=
  saved.grid.has k = true ∨ saved.range.has k = true ∨ ∃ group ∈ saved.tied, group.has k = true

/-- What the two readers need to read a space alike: a grid of lists, or of what holds one item; ranges that
are alike; no parameter that is only named by an empty list or a tied group without values; and the first
part of every condition on a parameter of the space a list of values. -/
structure SpelledAlike : Prop where
  grid : ∀ e ∈ saved.grid.entries, (∃ items, e.2 = .list items) ∨ ∃ v, gridColumn e.2 = some [v]
  ranges : ∀ e ∈ saved.range.entries, ∀ r, SearchSpace.rangeSpecOf e = some r → RangeAlike e.2 r
  filled : ∀ k, saved.Named k → saved.Varies k
  gates : ∀ e ∈ saved.conditions.entries, saved.Named e.1 → ∀ on allowed,
    (objectEntries e.2.entries).head? = some (on, allowed) → on ≠ "" → (gateValues allowed).isSome = true

end SavedSpace

end AutoTune
