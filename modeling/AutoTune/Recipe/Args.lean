import AutoTune.Recipe.Flags

/-!
# A chart's `extraArgs` list, read and edited as flags

The list is a command line in pieces. `scan` finds the flags in it, `flags` reads them as typed values
under canonical keys, and `setFlag` rewrites one flag where it stands, in the spelling it was written
in.
-/

namespace AutoTune

open Lib

/-! ## Values as flags spell them -/

/-- `^-?\d+$` of a stripped text. -/
def isIntText (s : String) : Bool :=
  let digits := fun ds : List Char => !ds.isEmpty && ds.all fun c => (digitValue c).isSome
  match s.toList with
  | '-' :: ds => digits ds
  | ds => digits ds

/-- An exponent, its letter included: `[eE][-+]?\d+`. -/
def isExponent : List Char → Bool
  | e :: ds =>
      (e = 'e' || e = 'E') &&
        (let digits := match ds with
          | '-' :: ds => ds
          | '+' :: ds => ds
          | ds => ds
        !digits.isEmpty && digits.all fun c => (digitValue c).isSome)
  | [] => false

/-- `^-?(\d+\.\d*|\.\d+|\d+(\.\d*)?[eE][-+]?\d+)$` of a stripped text. -/
def isFloatText (s : String) : Bool :=
  let isDigit := fun c : Char => (digitValue c).isSome
  let unsigned := match s.toList with
    | '-' :: cs => cs
    | cs => cs
  let before := unsigned.takeWhile isDigit
  match unsigned.dropWhile isDigit with
  | '.' :: rest =>
      let after := rest.takeWhile isDigit
      let tail := rest.dropWhile isDigit
      if before.isEmpty then !after.isEmpty && tail.isEmpty
      else tail.isEmpty || isExponent tail
  | tail => !before.isEmpty && isExponent tail

section Args

variable {F : Type} [PyRuntime F]

/-- `coerce`: a written value as the type a search space would hold it in. -/
def coerceText (raw : String) : Json F :=
  let text := strip raw
  if isIntText text then ((intOfText text).map Json.int).getD (.str raw)
  else if isFloatText text then ((PyRuntime.ofText text).map Json.float).getD (.str raw)
  else .str raw

/-- `fmt`: a value as a flag spells it, a whole float below 10^15 without its point. -/
def fmt (value : Json F) : String :=
  match value with
  | .float x =>
      match PyRuntime.whole x with
      | some n => if n.natAbs < 10 ^ 15 then toString n else value.text
      | none => value.text
  | _ => value.text

/-! ## Reading the list -/

/-- How a flag is spelled in the list. -/
inductive ArgForm where
  | eq
  | space
  | pair
  | switch
deriving DecidableEq, Repr

/-- `Arg`: one flag as it sits in the list. `raw` is `none` for a bare switch. -/
structure Arg where
  start : Nat
  width : Nat
  flag : String
  raw : Option String
  form : ArgForm
deriving DecidableEq, Repr

/-- The loop of `scan`, from one position of the list on. -/
def scanFrom : Nat → List String → List Arg
  | _, [] => []
  | i, text :: rest =>
      if !startsWith text "--" then scanFrom (i + 1) rest
      else if hasChar text '=' then
        let (flag, value) := partitionAt '=' text
        ⟨i, 1, flag, some value, .eq⟩ :: scanFrom (i + 1) rest
      else if hasChar text ' ' then
        let (flag, value) := partitionAt ' ' text
        ⟨i, 1, flag, some (strip value), .space⟩ :: scanFrom (i + 1) rest
      else
        match rest with
        | following :: after =>
            if !startsWith following "--" then
              ⟨i, 2, text, some following, .pair⟩ :: scanFrom (i + 2) after
            else ⟨i, 1, text, none, .switch⟩ :: scanFrom (i + 1) (following :: after)
        | [] => [⟨i, 1, text, none, .switch⟩]

/-- `scan`. -/
def scan (items : List (Json F)) : List Arg := scanFrom 0 (items.map Json.text)

/-- `_key`. -/
def flagKey (flag : String) : String := replaceChar '-' '_' (lstripChar '-' flag)

/-- `_canonical` of a flag in the list. -/
def Arg.canonical (engine : String) (arg : Arg) : String × Json F :=
  let entry := normalizeEntry engine (flagKey arg.flag) ((arg.raw.map Json.str).getD (.bool true))
  (entry.1, entry.2.1)

/-- `args.flags`: the list as typed values under canonical keys, the last occurrence last. -/
def argFlags (engine : String) (items : List (Json F)) : JsonDict F :=
  (scan items).foldl
    (fun out arg =>
      let (key, value) := arg.canonical engine
      let typed := match value with
        | .str s => coerceText s
        | value => value
      dictSet (dictPop out key) key typed)
    []

/-! ## Editing it -/

/-- `_positions`: every occurrence of a key, either polarity, any spelling. -/
def positions (engine : String) (items : List (Json F)) (key : String) : List Arg :=
  (scan items).filter fun arg => (arg.canonical (F := F) engine).1 = key

/-- `_rendered`: `key: value` as list items, spelled as `like` is. -/
def rendered (engine key : String) (value : Json F) (like : Option Arg) : Option (List String) :=
  let written := like.filter fun arg => !startsWith arg.flag "--no-"
  match value with
  | .bool true =>
      match written.filter fun arg => arg.raw.isNone with
      | some arg => some [arg.flag]
      | none => some [renderFlag engine key]
  | .bool false => (negatedFlag engine key).map fun flag => [flag]
  | _ =>
      let flag := (written.map Arg.flag).getD (renderFlag engine key)
      let text := fmt value
      match like.map Arg.form with
      | some .pair => some [flag, text]
      | some .space => some [flag ++ " " ++ text]
      | _ => some [flag ++ "=" ++ text]

/-- `set_flag`: the last occurrence rewritten in place and the others dropped, a new flag appended.
`null` removes. -/
def setFlag (engine : String) (items : List (Json F)) (key : String) (value : Json F) :
    List (Json F) :=
  let found := positions engine items key
  let last := found.getLast?
  let replacement : Option (List (Json F)) := match value with
    | .null => none
    | _ => (rendered engine key value last).map fun items => items.map Json.str
  let dropped := fun i => found.any fun arg => arg.start ≤ i && i < arg.start + arg.width
  let kept := items.zipIdx.flatMap fun (item, i) =>
    (if last.any fun arg => arg.start = i then replacement.getD [] else []) ++
      (if dropped i then [] else [item])
  match last with
  | some _ => kept
  | none => kept ++ replacement.getD []

end Args

end AutoTune
