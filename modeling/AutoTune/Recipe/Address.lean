import AutoTune.Lib.Python

/-!
# Knob addresses

How a key of a flat config names a place in a recipe: a flag of the top-level `extraArgs`, an entry of
`env`, a flag of a role's `extraArgs`, or any chart value by its dotted path.
-/

namespace AutoTune

open Lib

/-- The two roles of a disaggregated deployment. -/
inductive Role where
  | prefill
  | decode
deriving DecidableEq, Repr

def Role.name : Role → String
  | .prefill => "prefill"
  | .decode => "decode"

/-- `ROLES`. -/
def roles : List Role := [.prefill, .decode]

/-- `Address`. -/
inductive Address where
  | flag (name : String)
  | env (name : String)
  | roleFlag (role : Role) (name : String)
  | value (path : List String)
deriving DecidableEq, Repr

/-- `MANAGED_PATHS`: the value paths a flag or env address already reaches. -/
def managedPaths : List (List String) :=
  [["extraArgs"], ["env"], ["pd", "prefill", "extraArgs"], ["pd", "decode", "extraArgs"]]

/-- `is_managed`. -/
def isManaged (path : List String) : Bool := managedPaths.any fun m => m.isPrefixOf path

/-- What stands between `["` and `"]`, unescaped, and what follows. A backslash takes the next
character, a newline excepted. -/
def readQuoted : List Char → Option (List Char × List Char)
  | '"' :: ']' :: rest => some ([], rest)
  | '"' :: _ => none
  | '\\' :: c :: rest =>
      if c = '\n' then none else (readQuoted rest).map fun (segment, tail) => (c :: segment, tail)
  | '\\' :: [] => none
  | c :: rest => (readQuoted rest).map fun (segment, tail) => (c :: segment, tail)
  | [] => none

/-- Whether a character may stand in a bare segment. -/
def isBare (c : Char) : Bool := c != '.' && c != '[' && c != ']'

/-- One match of `_SEGMENT`. -/
def readSegment : List Char → Option (List Char × List Char)
  | '[' :: '"' :: rest => readQuoted rest
  | c :: rest =>
      if isBare c then some (c :: rest.takeWhile isBare, rest.dropWhile isBare) else none
  | [] => none

/-- The loop of `parse_path`; every round consumes a character, so the length of the text bounds
the rounds. The error is the text that cannot be read. -/
def readPath : Nat → List Char → Except (List Char) (List String)
  | _, [] => .ok []
  | 0, cs => .error cs
  | fuel + 1, '.' :: cs => readPath fuel cs
  | fuel + 1, cs =>
      match readSegment cs with
      | some (segment, rest) => (readPath fuel rest).map fun path => String.ofList segment :: path
      | none => .error cs

section Parse

variable (F : Type) [PyRuntime F]

/-- `parse_path`. -/
def parsePath (text : String) : Except PyError (List String) :=
  match readPath text.toList.length text.toList with
  | .ok [] => .error (.valueError "an empty value path")
  | .ok path => .ok path
  | .error rest => .error (.valueError ("cannot read the value path " ++ PyRuntime.quote F text ++
      " at " ++ PyRuntime.quote F (String.ofList rest)))

/-- The name after a role's prefix. -/
def parseRole (key : String) (role : Role) : Option (Except PyError Address) :=
  let lead := role.name ++ "."
  if startsWith key lead then
    let name := dropText lead.toList.length key
    if name = "" ∨ hasChar name '.' then
      some (.error (.valueError (PyRuntime.quote F key ++ ": a role flag is " ++ lead ++ "<flag>")))
    else some (.ok (.roleFlag role name))
  else none

/-- `parse`. -/
def parseAddress (key : String) : Except PyError Address :=
  if startsWith key "env." then
    let name := dropText 4 key
    if name = "" then .error (.valueError (PyRuntime.quote F key ++ " names no variable"))
    else .ok (.env name)
  else if startsWith key "values." then (parsePath F (dropText 7 key)).map .value
  else
    match roles.findSome? (parseRole F key) with
    | some result => result
    | none =>
        if hasChar key '.' then
          .error (.valueError (PyRuntime.quote F key ++
            " is not an address: a flag has no dot; chart values are values.<path>"))
        else .ok (.flag key)

end Parse

end AutoTune
