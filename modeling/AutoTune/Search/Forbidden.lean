import AutoTune.Lib.Grouping
import AutoTune.Recipe.NormalForm
import AutoTune.Search.Space

/-!
# Forbidden parameters

A policy may not change some parameters: those whose canonical name matches a pattern of a list, unless the
campaign's own space sweeps them or their value is the one the campaign already gives. The list is held against
the normalized config, while a launch renders the config as it is and the engine reads the argv. The two say the
same where each forbidden flag the engine reads was judged with the value it reads.
-/

namespace AutoTune

open Lib

/-! ## Patterns -/

/-- What a pattern asks of one character, or `*`. -/
inductive GlobPiece where
  | any
  | one
  | char (c : Char)
  | among (negated : Bool) (body : List Char)
deriving DecidableEq, Repr

/-- Does the inside of `[...]` name a character? A hyphen behind a range stands for itself. -/
def namesChar : List Char → Char → Bool
  | low :: '-' :: high :: rest, c => (low ≤ c && c ≤ high) || namesChar rest c
  | d :: rest, c => d = c || namesChar rest c
  | [], _ => false

/-- The set behind a `[`, and what is behind its `]`, which may also stand first for itself. -/
def readSet (pattern : List Char) : Option (GlobPiece × List Char) :=
  let (negated, text) := match pattern with
    | '!' :: rest => (true, rest)
    | _ => (false, pattern)
  let (first, text) := match text with
    | ']' :: rest => ([']'], rest)
    | _ => ([], text)
  match text.dropWhile fun c => c ≠ ']' with
  | _ :: rest => some (.among negated (first ++ text.takeWhile fun c => c ≠ ']'), rest)
  | [] => none

/-- A pattern in its pieces; a `[` that is not closed stands for itself. -/
def globFrom : Nat → List Char → List GlobPiece
  | fuel + 1, '*' :: rest => .any :: globFrom fuel rest
  | fuel + 1, '?' :: rest => .one :: globFrom fuel rest
  | fuel + 1, '[' :: rest =>
      match readSet rest with
      | some (piece, rest) => piece :: globFrom fuel rest
      | none => .char '[' :: globFrom fuel rest
  | fuel + 1, c :: rest => .char c :: globFrom fuel rest
  | _, _ => []

def globMatches : List GlobPiece → List Char → Bool
  | [], text => text.isEmpty
  | .any :: pieces, text => text.tails.any (globMatches pieces)
  | .one :: pieces, _ :: text => globMatches pieces text
  | .char c :: pieces, d :: text => c = d && globMatches pieces text
  | .among negated body :: pieces, c :: text => (namesChar body c != negated) && globMatches pieces text
  | _, [] => false

/-- `fnmatch.fnmatchcase`. -/
def fnmatchCase (name pattern : String) : Bool :=
  globMatches (globFrom pattern.length pattern.toList) name.toList

example : fnmatchCase "tool_call_parser" "*_parser" && fnmatchCase "dp_size" "[!a-ct]p_s?ze" &&
    !fnmatchCase "tp_size" "[!a-ct]p_s?ze" && fnmatchCase "a]-" "[a-c][]]-" := by decide

/-! ## The list -/

/-- One finding. -/
structure ForbiddenHit where
  param : String
  pattern : String
  value : Value

section List

variable (space : SearchSpace) (patterns : List String) (engine : String) (anchor : Config)

/-- The values the campaign gives: the flags of its recipe, and over them the base of its space. -/
def givenValues : JsonDict ℚ := (normalizeArgs engine (anchor.merge space.base).entries).1

/-- The parameters the space sweeps, under their canonical names. -/
def sweptParams : List String :=
  (normalizeArgs engine (Dict.ofEntries (space.sweptKeys.map fun k => (k, (Json.null : Value)))).entries).1.map Prod.fst

/-- What is found of one parameter. -/
def forbiddenHit (entry : String × Value) : Option ForbiddenHit :=
  if (sweptParams space engine).contains entry.1 then none
  else
    match patterns.find? (fnmatchCase entry.1) with
    | none => none
    | some pattern =>
        if (dictGet (givenValues space engine anchor) entry.1).any (sameValue entry.2) then none
        else some ⟨entry.1, pattern, entry.2⟩

/-- `forbidden_hits`. -/
def forbiddenHits (config : Config) : List ForbiddenHit :=
  if patterns.isEmpty then []
  else (sortEntries (normalizeArgs engine config.entries).1).filterMap (forbiddenHit space patterns engine anchor)

end List

/-- What the engine reads of the command line a config is rendered to. -/
def engineReads (engine : String) (config : Config) : JsonDict ℚ :=
  (normalizeArgs engine (parseEngineArgs (F := ℚ) (renderArgs config.entries engine))).1

/-- The list holds a parameter of this name: a pattern matches it and the space does not sweep it. -/
def IsForbidden (space : SearchSpace) (patterns : List String) (engine k : String) : Prop :=
  patterns.any (fnmatchCase k) = true ∧ k ∉ sweptParams space engine

/-- Without a hit, the engine gets a forbidden parameter with the value the campaign gives it. -/
def KeepsForbidden (space : SearchSpace) (patterns : List String) (engine : String) (anchor config : Config) : Prop :=
  forbiddenHits space patterns engine anchor config = [] →
    ∀ k v, dictGet (engineReads engine config) k = some v → IsForbidden space patterns engine k →
      ∃ given, dictGet (givenValues space engine anchor) k = some given ∧ sameValue v given = true

/-- A forbidden parameter the engine reads was judged under its name, with a value that equals no other given
value than the engine's does. -/
def JudgedAsRead (space : SearchSpace) (patterns : List String) (engine : String) (config : Config) : Prop :=
  ∀ k v, dictGet (engineReads engine config) k = some v → IsForbidden space patterns engine k →
    ∃ judged, dictGet (normalizeArgs engine config.entries).1 k = some judged ∧
      ∀ given, IsNormal engine (k, given) → sameValue judged given = true → sameValue v given = true

/-! ## What is found -/

section Found

variable (space : SearchSpace) (patterns : List String) (engine : String) (anchor config : Config)

theorem forbiddenHit_eq_none (e : String × Value) : forbiddenHit space patterns engine anchor e = none ↔
    (IsForbidden space patterns engine e.1 →
      ∃ given, dictGet (givenValues space engine anchor) e.1 = some given ∧ sameValue e.2 given = true) := by
  unfold forbiddenHit IsForbidden
  by_cases hswept : e.1 ∈ sweptParams space engine
  · rw [if_pos (List.contains_iff_mem.mpr hswept)]
    exact iff_of_true rfl fun h => absurd hswept h.2
  rw [if_neg fun h => hswept (List.contains_iff_mem.mp h)]
  cases hpattern : patterns.find? (fnmatchCase e.1) with
  | none =>
      refine iff_of_true rfl fun h => ?_
      rcases List.any_eq_true.mp h.1 with ⟨pattern, hmem, hmatch⟩
      exact absurd hmatch (List.find?_eq_none.mp hpattern pattern hmem)
  | some pattern =>
      have hmatch : patterns.any (fnmatchCase e.1) = true :=
        List.any_eq_true.mpr ⟨pattern, List.mem_of_find?_eq_some hpattern, List.find?_some hpattern⟩
      dsimp only
      rw [← Option.any_eq_true]
      constructor
      · intro h _
        by_contra hnone
        rw [if_neg hnone] at h
        cases h
      · intro h
        rw [if_pos (h ⟨hmatch, hswept⟩)]

/-- There is no hit where the campaign gives each forbidden parameter the value it is judged with. -/
theorem forbiddenHits_eq_nil : forbiddenHits space patterns engine anchor config = [] ↔
    ∀ k judged, dictGet (normalizeArgs engine config.entries).1 k = some judged → IsForbidden space patterns engine k →
      ∃ given, dictGet (givenValues space engine anchor) k = some given ∧ sameValue judged given = true := by
  unfold forbiddenHits
  split
  · rename_i hempty
    refine iff_of_true rfl fun k judged _ h => ?_
    rw [List.isEmpty_iff.mp hempty] at h
    cases h.1
  · rw [List.filterMap_eq_nil_iff]
    constructor
    · intro h k judged hjudged
      exact (forbiddenHit_eq_none space patterns engine anchor (k, judged)).mp
        (h _ (mem_sortEntries.mpr (mem_of_dictGet hjudged)))
    · intro h e he
      exact (forbiddenHit_eq_none space patterns engine anchor e).mpr
        (h e.1 e.2 (dictGet_of_mem (normalizeArgs_nodup engine _) (mem_sortEntries.mp he)))

end Found

section Kept

variable {space : SearchSpace} {patterns : List String} {engine : String} {config : Config}

/-- A base of normal entries, and no recipe, give just those. -/
theorem givenValues_normal {base : Config} (h : ∀ e ∈ base.entries, IsNormal engine e) :
    givenValues { space with base := base } engine Dict.empty = base.entries := by
  unfold givenValues
  rw [Dict.empty_merge, normalizeArgs_normal base.nodup h]

/-- The normal form of a config. -/
def normalForm (engine : String) (config : Config) : Config where
  entries := (normalizeArgs engine config.entries).1
  nodup := normalizeArgs_nodup engine config.entries

theorem normalForm_normal {e : String × Value} (h : e ∈ (normalForm engine config).entries) : IsNormal engine e :=
  isNormal_of_mem h

/-- A base of normal entries that gives what the config is judged with draws no hit. -/
theorem no_hit_under {base : Config} (hnormal : ∀ e ∈ base.entries, IsNormal engine e)
    (hgives : ∀ k judged, (normalForm engine config).get? k = some judged →
      ∃ given, base.get? k = some given ∧ sameValue judged given = true) :
    forbiddenHits { space with base := base } patterns engine Dict.empty config = [] := by
  refine (forbiddenHits_eq_nil _ patterns engine Dict.empty config).mpr fun k judged hjudged _ => ?_
  rw [givenValues_normal hnormal]
  exact hgives k judged hjudged

/-- An entry that comes back from the command line, if at all, as it was sent: a text, a switch that is on, or one
that is off and is written as off or not at all. -/
def ComesBackAlike (engine : String) (e : String × Value) : Prop :=
  (∃ s, e.2 = .str s) ∨ e.2 = .bool true ∨
    e.2 = .bool false ∧ (isSwitch engine e.1 = true ∨ negatedFlag engine e.1 = none)

/-- A config of such entries, each flag in its own shape and once, is judged as it is read. -/
theorem judgedAsRead_of_alike (hfloats : ∀ x : ℚ, IsValueText (PyRuntime.text x))
    (hengine : engine = "sglang" ∨ engine = "vllm") (hshape : ∀ e ∈ config.entries, IsRenderable isSnake engine e)
    (halike : ∀ e ∈ config.entries, ComesBackAlike engine e) : JudgedAsRead space patterns engine config := by
  intro k v hread _
  unfold engineReads at hread
  rw [read_rendered hfloats hengine config hshape] at hread
  rcases List.mem_filterMap.mp (mem_of_dictGet hread) with ⟨⟨key, value⟩, he, hback⟩
  rw [mem_sortEntries] at he
  have hsame : (key, value) = (k, v) := by
    rcases halike _ he with ⟨s, hvalue⟩ | hvalue | ⟨hvalue, hoff⟩
    · cases hvalue
      exact Option.some.inj hback
    · cases hvalue
      exact Option.some.inj hback
    · cases hvalue
      rcases hoff with hswitch | hnone
      · rcases Option.map_eq_some_iff.mp hback with ⟨-, -, heq⟩
        rwa [if_pos hswitch] at heq
      · unfold cameBack at hback
        rw [hnone] at hback
        cases hback
  refine ⟨v, ?_, fun given _ h => h⟩
  rw [normalizeArgs_renderable config hshape]
  exact dictGet_of_mem config.nodup (hsame ▸ he)

end Kept

/-! ### A dashed key -/

/-- A context length under a dashed key: no pattern matches the key, and the engine reads the flag. -/
def dashedConfig : Config := Dict.ofEntries [("context-length", .str "8192")]

end AutoTune
