import AutoTune.Lib.JsonText
import AutoTune.Recipe.Flags

/-!
# An engine's command line

A config is rendered to the engine's argv, sorted by key, and a captured argv is read back as a config.
`roundTripProblems` renders a config, reads the result and says what did not come back.
-/

namespace AutoTune

open Lib

/-- `s.endswith(p)`. -/
def endsWith (s p : String) : Bool := p.toList.isSuffixOf s.toList

/-- `flag_name`. -/
def flagName (key : String) : String := "--" ++ replaceChar '_' '-' key

/-- `is_env_key`. -/
def isEnvKey (key : String) : Bool := startsWith key "env."

/-- `_flag_to_key`. -/
def flagToKey (flag : String) : String := replaceChar '-' '_' (lstripChar '-' flag)

/-! ## Reading -/

/-- The last piece of a path. -/
def lastSegment (path : String) : String :=
  String.ofList (path.toList.reverse.takeWhile fun c => c != '/').reverse

/-- Does the engine's own command line begin after this token? `prev` is the token before it. -/
def isLauncher (prev : Option String) (token : String) : Bool :=
  endsWith token "launch_server" || endsWith token "api_server" ||
    (token = "serve" && prev.any fun p => lastSegment p = "sglang")

/-- The tokens after the first launcher. -/
def afterLauncher : Option String → List String → Option (List String)
  | _, [] => none
  | prev, token :: rest => if isLauncher prev token then some rest else afterLauncher (some token) rest

/-- What is read as the engine's arguments: stripped, blanks dropped, everything before the launcher cut. -/
def engineTokens (command : List String) : List String :=
  let tokens := (command.map strip).filter fun t => t ≠ ""
  (afterLauncher none tokens).getD tokens

section CommandLine

variable {F : Type} [PyRuntime F]

/-- The loop of `parse_engine_args`: what it assigns, in order. -/
def readFlags : List String → List (String × Json F)
  | [] => []
  | token :: rest =>
      if !startsWith token "--" then readFlags rest
      else if hasChar token '=' then
        -- the first "=" only: a value may hold one itself
        let (flag, value) := partitionAt '=' token
        (flagToKey flag, .str value) :: readFlags rest
      else
        match rest with
        | [] => [(flagToKey token, .bool true)]
        | following :: after =>
            if startsWith following "--" then (flagToKey token, .bool true) :: readFlags (following :: after)
            else (flagToKey token, .str following) :: readFlags after

/-- `parse_engine_args` of an argv list. -/
def parseEngineArgs (command : List String) : JsonDict F :=
  (readFlags (engineTokens command)).foldl (fun args e => dictSet args e.1 e.2) []

/-! ## Writing -/

/-- What one entry adds to the command line. -/
def renderEntry (engine : String) (entry : String × Json F) : List String :=
  if isEnvKey entry.1 then []
  else
    let flag := if engine = "" then flagName entry.1 else renderFlag engine entry.1
    match entry.2 with
    | .bool true => [flag]
    | .bool false => if engine = "" then [] else (negatedFlag engine entry.1).toList
    | value => [flag, value.text]

/-- `render_args`. -/
def renderArgs (engineArgs : JsonDict F) (engine : String) : List String :=
  (sortEntries engineArgs).flatMap (renderEntry engine)

/-! ## There and back -/

/-- `[a-z0-9][a-z0-9_]*`. -/
def isSnake (key : String) : Bool :=
  let plain := fun c : Char => ('a' ≤ c && c ≤ 'z') || ('0' ≤ c && c ≤ '9')
  match key.toList with
  | [] => false
  | c :: cs => plain c && cs.all fun d => plain d || d = '_'

/-- `_KEY_SHAPE`: `$` also stands before a last newline. -/
def keyShape (key : String) : Bool :=
  isSnake (match key.toList.reverse with
    | '\n' :: rest => String.ofList rest.reverse
    | _ => key)

/-- A problem of `round_trip_problems`. -/
structure RoundTripProblem where
  param : String
  kind : String
  message : String
deriving DecidableEq, Repr

/-- What keeps an entry from being rendered at all. -/
def renderProblem (entry : String × Json F) : Option RoundTripProblem :=
  let key := entry.1
  if !keyShape key then
    some ⟨key, "bad_key", PyRuntime.quote F key ++ " is not a snake_case flag name"⟩
  else
    let structured := fun what => some (RoundTripProblem.mk key "not_renderable"
      (key ++ " is " ++ what ++ "; give the value as the one string the engine expects on its command line " ++
        "(JSON text for a JSON flag)"))
    match entry.2 with
    | .null => some ⟨key, "not_renderable", key ++ " has no value (null)"⟩
    | .list _ => structured "a list"
    | .dict _ => structured "an object"
    | .str s =>
        if strip s = "" then some ⟨key, "not_renderable", key ++ " is an empty string"⟩
        else if startsWith s "--" then
          some ⟨key, "not_renderable", key ++ "=" ++ PyRuntime.quote F s ++ " would be read back as a flag"⟩
        else none
    | _ => none

/-- What an expected entry came back as, and what is left of the command line: a `--no-` flag the
catalogue does not know comes back under its own name. -/
def takeBack (parsed : JsonDict F) (entry : String × Json F) : Option (Json F) × JsonDict F :=
  let rest := dictPop parsed entry.1
  match entry.2, dictGet parsed entry.1 with
  | .bool false, none =>
      let negated := "no_" ++ entry.1
      (match dictGet rest negated with
        | some (.bool true) => some (.bool false)
        | _ => none, dictPop rest negated)
  | _, back => (back, rest)

/-- Is this the value that was sent? -/
def isBack (value : Json F) (back : Option (Json F)) : Bool :=
  match value, back with
  | .bool b, some (.bool c) => b == c
  | .bool b, none => !b
  | .bool _, some _ => false
  | _, none => false
  | value, some back => back.text = value.text

/-- One turn of the comparison: the problems found and what is left to compare with. -/
def compareEntry (out : List RoundTripProblem × JsonDict F) (entry : String × Json F) :
    List RoundTripProblem × JsonDict F :=
  let (back, rest) := takeBack out.2 entry
  (if isBack entry.2 back then out.1
    else out.1 ++ [⟨entry.1, "round_trip", entry.1 ++ "=" ++ entry.2.repr ++
      " comes back from the command line as " ++ (back.map Json.repr).getD "None"⟩], rest)

/-- `round_trip_problems`. -/
def roundTripProblems (config : JsonDict F) (engine : String) : List RoundTripProblem :=
  let problems := config.filterMap renderProblem
  if problems.isEmpty then
    let parsed := (normalizeArgs engine (parseEngineArgs (F := F) (renderArgs config engine))).1
    let expected := (normalizeArgs engine config).1
    let out := expected.foldl compareEntry ([], parsed)
    out.1 ++ out.2.map fun e =>
      ⟨e.1, "round_trip", "the command line gains " ++ e.1 ++ "=" ++ e.2.repr⟩
  else problems

end CommandLine

end AutoTune
