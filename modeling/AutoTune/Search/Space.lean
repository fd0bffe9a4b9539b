import AutoTune.Lib.Exact
import AutoTune.Lib.Product

/-!
# Search spaces

A space declares parameters that are fixed, swept on their own, swept together, swept over an interval,
and which of them only mean something in company. What it expands to, what it drops from a config and
where a config steps outside of it are all read from the one declaration. Floats are exact.
-/

namespace AutoTune

open Lib

abbrev Value := Json ℚ

abbrev Config := Dict Value

/-- A search space, in the shape the editor saves it: `range` holds `min`, `max` and `step` as they
were written, `conditions` a value or a list of values under each gating parameter. -/
structure SearchSpace where
  base : Config := Dict.empty
  grid : Dict (List Value) := Dict.empty
  tied : List (Dict (List Value)) := []
  range : Dict Config := Dict.empty
  conditions : Dict Config := Dict.empty

/-- `MAX_RANGE_VALUES`. -/
def maxRangeValues : Nat := 512

/-- `MAX_SPACE_CANDIDATES`. -/
def maxSpaceCandidates : Nat := 5000

/-! ## Values -/

/-- The number a boolean, a whole number or a float is to `==`. -/
def Value.number : Value → Option ℚ
  | .bool b => some (if b then 1 else 0)
  | .int n => some n
  | .float x => some x
  | _ => none

mutual

/-- `a == b`. -/
def Value.eq : Value → Value → Bool
  | .null, .null => true
  | .str s, .str t => s = t
  | .list items, .list others => Value.eqItems items others
  | .dict entries, .dict others =>
      entries.length = others.length && Value.eqEntries entries others
  | .bool b, w => Value.number w = some (if b then 1 else 0)
  | .int n, w => Value.number w = some (n : ℚ)
  | .float x, w => Value.number w = some x
  | _, _ => false

def Value.eqItems : List Value → List Value → Bool
  | [], [] => true
  | v :: items, w :: others => Value.eq v w && Value.eqItems items others
  | _, _ => false

def Value.eqEntries : List (String × Value) → List (String × Value) → Bool
  | [], _ => true
  | (k, v) :: entries, others =>
      (match dictGet others k with
        | some w => Value.eq v w
        | none => false) && Value.eqEntries entries others

end

/-- `_as_float`. -/
def asFloat : Value → Option ℚ
  | .int n => some n
  | .float x => some x
  | .str s => ratOfText s
  | _ => none

def Value.isBool : Value → Bool
  | .bool _ => true
  | _ => false

/-- `_same_value`: the editor stores everything as text. -/
def sameValue (a b : Value) : Bool :=
  if Value.eq a b then true
  else if a.isBool || b.isBool then lowerAscii (strip a.text) = lowerAscii (strip b.text)
  else
    match asFloat a, asFloat b with
    | some x, some y => x = y
    | _, _ => strip a.text = strip b.text

theorem sameValue_refl (v : Value) : sameValue v v = true := by
  unfold sameValue
  split
  · rfl
  · split
    · simp
    · split
      · rename_i x y hx hy
        rw [hx] at hy
        simpa using Option.some.inj hy
      · simp

/-! ## The declaration -/

/-- `RangeSpec`. -/
structure RangeSpec where
  name : String
  minimum : ℚ
  maximum : ℚ
  step : ℚ
deriving DecidableEq, Repr

/-- `_decimals`. -/
def rangeDecimals (step : ℚ) : Nat :=
  if reprExponent step then 10 else (decimalDigits step).getD 17

/-- `RangeSpec.is_integer`. -/
def RangeSpec.isInteger (r : RangeSpec) : Bool :=
  r.minimum.den = 1 && r.maximum.den = 1 && r.step.den = 1

/-- The value at a step of the interval, rounded to the step's precision. -/
def RangeSpec.valueAt (r : RangeSpec) (index : Nat) : Value :=
  let value := r.minimum + index * r.step
  if r.isInteger then .int (roundHalfEven value) else .float (roundTo (rangeDecimals r.step) value)

/-- The loop of `RangeSpec.values`. -/
def RangeSpec.valuesFrom (r : RangeSpec) : Nat → Nat → List Value
  | 0, _ => []
  | fuel + 1, index =>
      if r.maximum + r.step / 10 ^ 9 < r.minimum + index * r.step then []
      else r.valueAt index :: r.valuesFrom fuel (index + 1)

/-- `RangeSpec.values`: one value over the limit is listed before the loop breaks. -/
def RangeSpec.values (r : RangeSpec) : List Value := r.valuesFrom (maxRangeValues + 1) 0

/-- A bound of a range, read tolerantly. -/
def rangeBound (spec : Config) (bound : String) : Option ℚ := (spec.get? bound).bind asFloat

/-- The parameters a parameter is conditional on, and the values each has to take. -/
abbrev Clause := List (String × List Value)

/-- A value or a list of values. -/
def valuesOf : Value → List Value
  | .list items => items
  | v => [v]

namespace SearchSpace

variable (space : SearchSpace)

/-- `tied_groups`. -/
def tiedGroups : List (Dict (List Value)) :=
  space.tied.filter fun group => group.entries.any fun e => !e.2.isEmpty

/-- `grid_values`. -/
def gridValues : Dict (List Value) := space.grid.filter fun e => !e.2.isEmpty

/-- The interval a declared range is, if it is one. -/
def rangeSpecOf (entry : String × Config) : Option RangeSpec :=
  match rangeBound entry.2 "min", rangeBound entry.2 "max", rangeBound entry.2 "step" with
  | some low, some high, some step =>
      if step ≤ 0 ∨ high < low then none
      else some { name := entry.1, minimum := low, maximum := high, step := step }
  | _, _, _ => none

/-- `range_specs`. -/
def rangeSpecs : List RangeSpec := (sortEntries space.range.entries).filterMap rangeSpecOf

/-- `conditions`. -/
def gates : List (String × Clause) :=
  (space.conditions.entries.filter fun e => !e.2.entries.isEmpty).map fun e =>
    (e.1, e.2.entries.map fun c => (c.1, valuesOf c.2))

end SearchSpace

/-! ## Dropping what is inactive -/

/-- Does a config meet every part of a clause? -/
def clauseHolds (clause : Clause) (active : Config) : Bool :=
  clause.all fun c => (active.get? c.1).any fun v => c.2.any fun w => sameValue v w

/-- The body of the loop over the conditions. -/
def pruneStep (state : Config × Bool) (gate : String × Clause) : Config × Bool :=
  if !state.1.has gate.1 then state
  else if clauseHolds gate.2 state.1 then state
  else (state.1.erase gate.1, true)

/-- One pass over the declared conditions; was anything removed? -/
def pruneRound (declared : List (String × Clause)) (active : Config) : Config × Bool :=
  declared.foldl pruneStep (active, false)

/-- The passes, until one removes nothing. -/
def prunePasses (declared : List (String × Clause)) : Nat → Config → Config
  | 0, active => active
  | passes + 1, active =>
      let round := pruneRound declared active
      if round.2 then prunePasses declared passes round.1 else round.1

/-- `prune_inactive`. -/
def pruneInactive (config : Config) (space : SearchSpace) : Config :=
  if space.gates.isEmpty then config
  else prunePasses space.gates (space.gates.length + 1) config

/-! ## Expanding -/

/-- A partial config. -/
abbrev Part := List (String × Value)

/-- One row of a tied group. -/
def tiedRow (columns : List (String × List Value)) (row : Nat) : Part :=
  columns.map fun c => (c.1, (c.2[row]?).getD .null)

/-- A tied group, zipped to its shortest column. -/
def tiedAxis (group : Dict (List Value)) : List Part :=
  let columns := sortEntries group.entries
  let rows := (columns.map fun c => c.2.length).min?.getD 0
  (List.range rows).map (tiedRow columns)

namespace SearchSpace

variable (space : SearchSpace)

/-- `axes`. -/
def axes : List (List Part) :=
  ((sortEntries space.gridValues.entries).map (fun e => e.2.map fun v => [(e.1, v)]) ++
    space.tiedGroups.map tiedAxis ++
    space.rangeSpecs.map fun r => r.values.map fun v => [(r.name, v)]).filter fun axis => !axis.isEmpty

end SearchSpace

/-- The text two configs are compared by. -/
def jsonKey (config : Config) : String := config.toJson.dumps

/-- The configs whose key was not met before: the loop of `expand` over the text with what it has
`seen`, and of `_plan` over the hash with its `existing_hashes`. -/
def keepFirst (key : Config → String) : List String → List Config → List Config
  | _, [] => []
  | seen, config :: configs =>
      if seen.contains (key config) then keepFirst key seen configs
      else config :: keepFirst key (key config :: seen) configs

namespace SearchSpace

variable (space : SearchSpace)

/-- The base with one part of every axis written into it. -/
def mergedWith (combo : List Part) : Config := combo.foldl Dict.setAll space.base

/-- `expand`. -/
def expand : List Config :=
  let merged := (product space.axes).map space.mergedWith
  if space.gates.isEmpty then merged
  else keepFirst jsonKey [] (merged.map fun config => pruneInactive config space)

/-- `swept_keys`. -/
def sweptKeys : List String :=
  let keys := space.tiedGroups.foldl
    (fun keys group => keys ++ group.keys.filter fun k => !keys.contains k) space.gridValues.keys
  let keys := keys ++ (space.rangeSpecs.map RangeSpec.name).filter fun k => !keys.contains k
  keys.insertionSort (· ≤ ·)

/-- `axis_product`. -/
def axisProduct : Nat := (space.axes.map List.length).foldl (· * ·) 1

/-- `too_large`. -/
def tooLarge : Bool := maxSpaceCandidates < space.axisProduct

/-- `candidate_count`. -/
def candidateCount : Nat :=
  if !space.gates.isEmpty && space.axisProduct ≤ maxSpaceCandidates then space.expand.length
  else space.axisProduct

end SearchSpace

/-! ## Where a config steps outside -/

inductive DeviationKind where
  | unknown
  | offGrid
  | outOfRange
  | baseOverride
  | conditionalViolation
deriving DecidableEq, Repr

def DeviationKind.value : DeviationKind → String
  | .unknown => "unknown"
  | .offGrid => "off_grid"
  | .outOfRange => "out_of_range"
  | .baseOverride => "base_override"
  | .conditionalViolation => "conditional_violation"

/-- One finding. -/
structure Deviation where
  param : String
  kind : DeviationKind
  value : Value

namespace SearchSpace

variable (space : SearchSpace)

/-- The values a parameter is given in the grid and in the tied columns, if it stands in one. -/
def declaredValues (param : String) : Option (List Value) :=
  let columns := space.tiedGroups.filterMap fun group => group.get? param
  match space.gridValues.get? param with
  | some values => some (values ++ columns.flatten)
  | none => if columns.isEmpty then none else some columns.flatten

/-- The interval of a parameter. -/
def rangeOf (param : String) : Option RangeSpec :=
  space.rangeSpecs.find? fun r => r.name = param

/-- What is wrong with the value of a parameter whose condition, if it has one, holds. -/
def valueDeviation (param : String) (value : Value) : Option DeviationKind :=
  match space.declaredValues param, space.rangeOf param, space.base.get? param with
  | some values, _, _ => if values.any fun v => sameValue value v then none else some .offGrid
  | none, some r, _ =>
      if (asFloat value).all fun x => !(r.minimum ≤ x && x ≤ r.maximum) then some .outOfRange
      else if r.values.any fun v => sameValue value v then none
      else some .offGrid
  | none, none, some fixed => if sameValue value fixed then none else some .baseOverride
  | none, none, none => if dictHas space.gates param then none else some .unknown

/-- What `deviations` says of one parameter, given what pruning leaves. -/
def deviationOf (pruned : Config) (entry : String × Value) : Option Deviation :=
  if dictHas space.gates entry.1 && !pruned.has entry.1 then
    some ⟨entry.1, .conditionalViolation, entry.2⟩
  else (space.valueDeviation entry.1 entry.2).map fun kind => ⟨entry.1, kind, entry.2⟩

end SearchSpace

/-- `deviations`. -/
def deviations (config : Config) (space : SearchSpace) : List Deviation :=
  (sortEntries config.entries).filterMap (space.deviationOf (pruneInactive config space))

/-! ## Mistakes in a space -/

/-- The parameters met so far, and where each stood. -/
abbrev Seen := Dict String

/-- The errors found so far. -/
structure SpaceCheck where
  errors : List String
  seen : Seen

/-- A parameter is swept in one place only. -/
def SpaceCheck.sweep (check : SpaceCheck) (param place : String) : SpaceCheck :=
  match check.seen.get? param with
  | some other => { check with errors := check.errors ++ [param ++ " appears in both " ++ other ++ " and " ++ place] }
  | none => { check with seen := check.seen.set param place }

/-- One tied group of `space_errors`; `index` counts from 1. -/
def checkTied (check : SpaceCheck) (group : Dict (List Value)) (index : Nat) : SpaceCheck :=
  let place := "tied group " ++ toString index
  let lengths := (group.entries.filter fun e => !e.2.isEmpty).map fun e => (e.1, e.2.length)
  let few := if lengths.length < 2 then
      [place ++ " ties fewer than two parameters — sweep it in the grid instead"]
    else []
  let ragged := if 1 < (lengths.map Prod.snd).dedup.length then
      [place ++ ": tied parameters need the same number of values (" ++
        ", ".intercalate ((sortEntries lengths).map fun e => e.1 ++ " has " ++ toString e.2) ++ ")"]
    else []
  lengths.foldl (fun check e => check.sweep e.1 place)
    { check with errors := check.errors ++ few ++ ragged }

/-- One range of `_range_errors`. -/
def checkRange (check : SpaceCheck) (entry : String × Config) : SpaceCheck :=
  let place := "range " ++ entry.1
  let fails := fun text => { check with errors := check.errors ++ [place ++ text] }
  match rangeBound entry.2 "min", rangeBound entry.2 "max", rangeBound entry.2 "step" with
  | some low, some high, some step =>
      if step ≤ 0 then fails ": step must be positive"
      else if high < low then
        fails (": max " ++ formatG high ++ " is below min " ++ formatG low)
      else
        let values := (RangeSpec.mk entry.1 low high step).values
        let many := if maxRangeValues < values.length then
            [place ++ " expands to more than " ++ toString maxRangeValues ++ " values — widen the step"]
          else []
        ({ check with errors := check.errors ++ many }).sweep entry.1 place
  | some _, some _, none =>
      fails (" needs a step — a range without one cannot be counted, " ++
        "and the campaign preview has to say how big the night is")
  | _, _, _ => fails " needs numeric min and max"

/-- One condition of `_condition_errors`. -/
def conditionErrors (known : List String) (gate : String × Clause) : List String :=
  let place := "condition on " ++ gate.1
  (if known.contains gate.1 then []
    else [place ++ ": " ++ gate.1 ++ " is not in this space, so the condition can " ++
      "never apply to anything"]) ++
    (sortEntries gate.2).flatMap fun c =>
      (if c.1 = gate.1 then [place ++ ": a parameter cannot be conditional on itself"]
        else if !known.contains c.1 then
          [place ++ ": gated on " ++ c.1 ++ ", which this space never sets — " ++ gate.1 ++
            " would be dropped from every candidate"]
        else []) ++
      (if c.2.isEmpty then [place ++ ": " ++ c.1 ++ " has no values to match against"] else [])

namespace SearchSpace

variable (space : SearchSpace)

/-- The swept parameters, each with its place. -/
def sweepCheck : SpaceCheck :=
  let check : SpaceCheck := ⟨[], Dict.empty.setAll (space.gridValues.keys.map fun k => (k, "the grid"))⟩
  let check := space.tiedGroups.zipIdx.foldl
    (fun check group => checkTied check group.1 (group.2 + 1)) check
  (sortEntries space.range.entries).foldl checkRange check

/-- `space_errors`. -/
def spaceErrors : List String :=
  let check := space.sweepCheck
  let known := check.seen.keys ++ space.base.keys
  check.errors ++ (sortEntries space.gates).flatMap (conditionErrors known) ++
    if space.tooLarge then
      ["this space expands to " ++ formatComma space.axisProduct ++ " configurations, over the " ++
        formatComma maxSpaceCandidates ++ " limit — widen a step or drop an axis " ++
        "(a night runs on the order of twenty)"]
    else []

end SearchSpace

end AutoTune
