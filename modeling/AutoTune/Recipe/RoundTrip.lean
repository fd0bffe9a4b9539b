import AutoTune.Recipe.FlagText

/-!
# Render, then read

A rendered command line is a row of flags, each with its value or without one. Reading it gives what was
written, entry by entry, so a config comes back as it was sent.
-/

namespace AutoTune

open Lib

/-! ## Reading what was written -/

section Written

variable {F : Type}

/-- The tokens of one flag of a command line. -/
def flagTokens (e : String × Json F) : List String :=
  kebab e.1 :: match e.2 with
    | .str t => [t]
    | _ => []

/-- A flag that can be read back: a switch, or a value that is taken for nothing else. -/
def IsWritten (e : String × Json F) : Prop :=
  isSnake e.1 = true ∧ (e.2 = .bool true ∨ ∃ t, e.2 = .str t ∧ IsValueText t)

/-- Reading a row of flags gives them in their order. -/
theorem readFlags_written {l : List (String × Json F)} (h : ∀ e ∈ l, IsWritten e) :
    readFlags (l.flatMap flagTokens) = l := by
  induction l with
  | nil => rfl
  | cons e l ih =>
      have ih := ih fun e' he' => h e' (List.mem_cons_of_mem e he')
      rcases e with ⟨key, value⟩
      rcases h (key, value) List.mem_cons_self with ⟨hkey, hvalue⟩
      dsimp only at hkey hvalue
      have hflag : (!startsWith (kebab key) "--") = false := by rw [kebab_startsWith]; rfl
      rw [List.flatMap_cons]
      rcases hvalue with rfl | ⟨t, rfl, ht⟩
      · -- a bare switch: what follows is the next flag, or nothing
        change readFlags (kebab key :: l.flatMap flagTokens) = _
        cases l with
        | nil =>
            rw [List.flatMap_nil, readFlags, hflag, kebab_noEquals hkey, flagToKey_kebab hkey]
            rfl
        | cons e' l =>
            have hnext : startsWith (kebab e'.1) "--" = true := kebab_startsWith e'.1
            rw [List.flatMap_cons] at ih ⊢
            change readFlags (kebab key :: kebab e'.1 :: _) = _
            rw [readFlags, hflag, kebab_noEquals hkey, hnext, flagToKey_kebab hkey]
            simp only [Bool.false_eq_true, if_false, if_true]
            exact congrArg _ ih
      · change readFlags (kebab key :: t :: l.flatMap flagTokens) = _
        rw [readFlags, hflag, kebab_noEquals hkey, ht.notFlag, flagToKey_kebab hkey, ih]
        rfl

/-- No token of a row of flags is a launcher. -/
theorem afterLauncher_written {l : List (String × Json F)} (h : ∀ e ∈ l, IsWritten e) :
    ∀ prev, afterLauncher prev (l.flatMap flagTokens) = none := by
  induction l with
  | nil => exact fun _ => rfl
  | cons e l ih =>
      have ih := ih fun e' he' => h e' (List.mem_cons_of_mem e he')
      rcases e with ⟨key, value⟩
      rcases h (key, value) List.mem_cons_self with ⟨hkey, hvalue⟩
      dsimp only at hkey hvalue
      intro prev
      rw [List.flatMap_cons]
      rcases hvalue with rfl | ⟨t, rfl, ht⟩
      · change afterLauncher prev (kebab key :: l.flatMap flagTokens) = none
        rw [afterLauncher, isLauncher_kebab hkey]
        exact ih _
      · change afterLauncher prev (kebab key :: t :: l.flatMap flagTokens) = none
        rw [afterLauncher, isLauncher_kebab hkey, afterLauncher, isLauncher_value ht hkey]
        exact ih _

/-- A row of flags is read as it is. -/
theorem engineTokens_written {l : List (String × Json F)} (h : ∀ e ∈ l, IsWritten e) :
    engineTokens (l.flatMap flagTokens) = l.flatMap flagTokens := by
  have htoken : ∀ t ∈ l.flatMap flagTokens, strip t = t ∧ t ≠ "" := by
    intro t ht
    rcases List.mem_flatMap.mp ht with ⟨⟨key, value⟩, he, ht⟩
    rcases h _ he with ⟨hkey, hvalue⟩
    rcases List.mem_cons.mp ht with rfl | ht
    · exact ⟨strip_kebab hkey, kebab_ne_empty key⟩
    · dsimp only at hvalue ht
      rcases hvalue with rfl | ⟨s, rfl, hs⟩
      · exact absurd ht List.not_mem_nil
      · rw [List.mem_singleton.mp ht]
        exact ⟨hs.stripped, hs.stripped ▸ hs.notBlank⟩
  have hstrip : (l.flatMap flagTokens).map strip = l.flatMap flagTokens := by
    rw [List.map_congr_left fun t ht => (htoken t ht).1, List.map_id']
  unfold engineTokens
  rw [hstrip, List.filter_eq_self.mpr fun t ht => decide_eq_true (htoken t ht).2]
  dsimp only
  rw [afterLauncher_written h none]
  rfl

/-- A row of flags with distinct keys is read back as it was written. -/
theorem parseEngineArgs_written {l : List (String × Json F)} (h : ∀ e ∈ l, IsWritten e)
    (hnd : (l.map Prod.fst).Nodup) : parseEngineArgs (l.flatMap flagTokens) = l := by
  unfold parseEngineArgs
  rw [engineTokens_written h, readFlags_written h]
  exact foldl_dictSet_fresh hnd

end Written

/-! ## Spellings -/

/-- The key a spelling stands for. -/
def canonicalKey (engine key : String) : String := (dictGet (aliasMap engine) key).getD key

/-- Does the catalogue list the flag as a switch? -/
def isSwitch (engine key : String) : Bool := (dictGet (specMap engine) key).any fun s => s.kind = .switch

/-- Does the catalogue list the flag as one that takes a value? -/
def isValueFlag (engine key : String) : Bool := (dictGet (specMap engine) key).any fun s => s.kind = .value

/-- The raw key a flag is read back under. -/
def writtenKey (engine key : String) : String := flagToKey (renderFlag engine key)

/-- The spellings of one flag. -/
def spellingsOf (spec : FlagSpec) : List (String × String) :=
  (spec.key, spec.key) :: spec.aliases.map fun other => (other, spec.key)

theorem aliasMap_foldl (engine : String) :
    aliasMap engine = ((specsOf engine).flatMap spellingsOf).foldl (fun d e => dictSet d e.1 e.2) [] := by
  unfold aliasMap
  rw [List.foldl_flatMap]
  refine congrArg (fun turn => List.foldl turn [] (specsOf engine)) (funext fun out => funext fun spec => ?_)
  unfold spellingsOf
  rw [List.foldl_cons, List.foldl_map]

/-- No spelling is listed twice. -/
theorem listed_nodup {engine : String} (hengine : engine = "sglang" ∨ engine = "vllm") :
    (((specsOf engine).flatMap spellingsOf).map Prod.fst).Nodup := by
  rcases hengine with rfl | rfl
  · decide
  · decide

theorem aliasMap_eq {engine : String} (hengine : engine = "sglang" ∨ engine = "vllm") :
    aliasMap engine = (specsOf engine).flatMap spellingsOf := by
  rw [aliasMap_foldl]
  exact foldl_dictSet_fresh (listed_nodup hengine)

theorem keys_nodup {engine : String} (hengine : engine = "sglang" ∨ engine = "vllm") :
    ((specsOf engine).map FlagSpec.key).Nodup := by
  refine (listed_nodup hengine).sublist ?_
  induction specsOf engine with
  | nil => exact List.Sublist.refl _
  | cons spec specs ih =>
      rw [List.flatMap_cons, List.map_append, List.map_cons]
      exact (ih.trans (List.sublist_append_right _ _)).cons_cons spec.key

theorem specMap_eq {engine : String} (hengine : engine = "sglang" ∨ engine = "vllm") :
    specMap engine = (specsOf engine).map fun spec => (spec.key, spec) := by
  have hfold : specMap engine =
      ((specsOf engine).map fun spec => (spec.key, spec)).foldl (fun d e => dictSet d e.1 e.2) [] := by
    rw [List.foldl_map]
    rfl
  rw [hfold]
  exact foldl_dictSet_fresh (by rw [List.nil_append, List.map_map]; exact keys_nodup hengine)

/-- A listed flag is found under its key. -/
theorem specOf_listed {engine : String} (hengine : engine = "sglang" ∨ engine = "vllm") {spec : FlagSpec}
    (h : spec ∈ specsOf engine) :
    dictGet (aliasMap engine) spec.key = some spec.key ∧ dictGet (specMap engine) spec.key = some spec := by
  constructor
  · rw [aliasMap_eq hengine]
    exact dictGet_of_mem (listed_nodup hengine) (List.mem_flatMap.mpr ⟨spec, h, List.mem_cons_self⟩)
  · rw [specMap_eq hengine]
    refine dictGet_of_mem ?_ (List.mem_map.mpr ⟨spec, h, rfl⟩)
    rw [List.map_map]
    exact keys_nodup hengine

/-- Each listed flag has a snake_case key; where the catalogue names another spelling, that is one of its
aliases in kebab case. -/
theorem listed_snake {engine : String} (hengine : engine = "sglang" ∨ engine = "vllm") :
    ∀ spec ∈ specsOf engine, isSnake spec.key = true ∧
      (spec.flag = "" ∨ ∃ other ∈ spec.aliases, isSnake other = true ∧ kebab other = spec.flag) := by
  rcases hengine with rfl | rfl
  · decide
  · decide

/-- No listed spelling begins with `no_`. -/
theorem listed_notNegated {engine : String} (hengine : engine = "sglang" ∨ engine = "vllm") :
    ∀ e ∈ (specsOf engine).flatMap spellingsOf, startsWith e.1 "no_" = false := by
  rcases hengine with rfl | rfl
  · decide
  · decide

/-- What a spelling stands for is a listed flag. -/
theorem listed_of_alias {engine : String} (hengine : engine = "sglang" ∨ engine = "vllm") {key listed : String}
    (h : dictGet (aliasMap engine) key = some listed) : ∃ spec ∈ specsOf engine, spec.key = listed := by
  rw [aliasMap_eq hengine] at h
  rcases List.mem_flatMap.mp (mem_of_dictGet h) with ⟨spec, hspec, hmem⟩
  refine ⟨spec, hspec, ?_⟩
  rcases List.mem_cons.mp hmem with heq | hmem
  · exact (congrArg Prod.snd heq).symm
  · rcases List.mem_map.mp hmem with ⟨other, -, heq⟩
    exact congrArg Prod.snd heq

/-- A listed switch has a snake_case key that does not begin with `no_`. -/
theorem isSwitch_listed {engine : String} (hengine : engine = "sglang" ∨ engine = "vllm") {key : String}
    (h : isSwitch engine key = true) : isSnake key = true ∧ startsWith key "no_" = false := by
  unfold isSwitch at h
  cases hget : dictGet (specMap engine) key with
  | none =>
      rw [hget] at h
      cases h
  | some spec =>
      rw [specMap_eq hengine] at hget
      rcases List.mem_map.mp (mem_of_dictGet hget) with ⟨spec', hspec, heq⟩
      have hkey : spec'.key = key := congrArg Prod.fst heq
      have hspelled : (key, key) ∈ (specsOf engine).flatMap spellingsOf :=
        List.mem_flatMap.mpr ⟨spec', hspec, hkey ▸ List.mem_cons_self⟩
      exact ⟨hkey ▸ (listed_snake hengine spec' hspec).1, listed_notNegated hengine _ hspelled⟩

/-- A canonical key is the spelling itself or a listed key. -/
theorem canonicalKey_listed {engine : String} (hengine : engine = "sglang" ∨ engine = "vllm") (key : String) :
    canonicalKey engine key = key ∨ isSnake (canonicalKey engine key) = true ∧
      canonicalKey engine (canonicalKey engine key) = canonicalKey engine key := by
  cases hget : dictGet (aliasMap engine) key with
  | none =>
      left
      simp [canonicalKey, hget]
  | some listed =>
      right
      have hlisted : canonicalKey engine key = listed := by simp [canonicalKey, hget]
      rcases listed_of_alias hengine hget with ⟨spec, hspec, rfl⟩
      rw [hlisted]
      exact ⟨(listed_snake hengine spec hspec).1, by simp [canonicalKey, (specOf_listed hengine hspec).1]⟩

theorem canonicalKey_canonical {engine : String} (hengine : engine = "sglang" ∨ engine = "vllm") (key : String) :
    canonicalKey engine (canonicalKey engine key) = canonicalKey engine key := by
  rcases canonicalKey_listed hengine key with hself | ⟨-, hsame⟩
  · rw [hself, hself]
  · exact hsame

/-- A listed flag is written in kebab case, and reading it gives a spelling of it. -/
theorem writtenKey_listed {engine : String} (hengine : engine = "sglang" ∨ engine = "vllm") {spec : FlagSpec}
    (h : spec ∈ specsOf engine) :
    isSnake (writtenKey engine spec.key) = true ∧
      kebab (writtenKey engine spec.key) = renderFlag engine spec.key ∧
        canonicalKey engine (writtenKey engine spec.key) = spec.key := by
  rcases specOf_listed hengine h with ⟨halias, hspec⟩
  rcases listed_snake hengine spec h with ⟨hkey, hflag⟩
  have hrender : renderFlag engine spec.key = if spec.flag = "" then kebab spec.key else spec.flag := by
    unfold renderFlag specOf
    rw [halias, Option.bind_some, hspec]
  unfold writtenKey
  rcases hflag with hflag | ⟨other, hother, hsnake, hkebab⟩
  · rw [hrender, if_pos hflag, flagToKey_kebab hkey]
    refine ⟨hkey, rfl, ?_⟩
    unfold canonicalKey
    rw [halias]
    rfl
  · have hnamed : ¬ spec.flag = "" := by
      rw [← hkebab]
      exact kebab_ne_empty other
    rw [hrender, if_neg hnamed, ← hkebab, flagToKey_kebab hsnake]
    refine ⟨hsnake, rfl, ?_⟩
    have hmem : (other, spec.key) ∈ (specsOf engine).flatMap spellingsOf :=
      List.mem_flatMap.mpr ⟨spec, h, List.mem_cons_of_mem _ (List.mem_map.mpr ⟨other, hother, rfl⟩)⟩
    unfold canonicalKey
    rw [aliasMap_eq hengine, dictGet_of_mem (listed_nodup hengine) hmem]
    rfl

/-- What stands for itself is listed or unknown; either way it is written in kebab case. -/
theorem writtenKey_spec {engine : String} (hengine : engine = "sglang" ∨ engine = "vllm") {key : String}
    (hsnake : isSnake key = true) (hcanonical : canonicalKey engine key = key) :
    isSnake (writtenKey engine key) = true ∧ kebab (writtenKey engine key) = renderFlag engine key ∧
      canonicalKey engine (writtenKey engine key) = key := by
  cases hget : dictGet (aliasMap engine) key with
  | some listed =>
      have hlisted : listed = key := by
        unfold canonicalKey at hcanonical
        rw [hget] at hcanonical
        exact hcanonical
      rcases listed_of_alias hengine hget with ⟨spec, hspec, hkey⟩
      have h := writtenKey_listed hengine hspec
      rw [hkey, hlisted] at h
      exact h
  | none =>
      have hrender : renderFlag engine key = kebab key := by
        unfold renderFlag specOf
        rw [hget]
        rfl
      have hwritten : writtenKey engine key = key := by
        unfold writtenKey
        rw [hrender, flagToKey_kebab hsnake]
      rw [hwritten, hrender]
      exact ⟨hsnake, rfl, hcanonical⟩

theorem toList_no (key : String) : ("no_" ++ key).toList = 'n' :: 'o' :: '_' :: key.toList :=
  String.toList_append

theorem startsWith_no (key : String) : startsWith ("no_" ++ key) "no_" = true := by
  unfold startsWith
  rw [toList_no]
  rfl

theorem dropText_no (key : String) : dropText 3 ("no_" ++ key) = key := by
  unfold dropText
  rw [toList_no]
  exact String.ofList_toList

theorem no_injective {key key' : String} (h : "no_" ++ key = "no_" ++ key') : key = key' := by
  rw [← dropText_no key, h, dropText_no]

theorem isSnake_no {key : String} (h : isSnake key = true) : isSnake ("no_" ++ key) = true := by
  unfold isSnake
  rw [toList_no]
  refine Bool.and_eq_true_iff.mpr ⟨by decide, List.all_eq_true.mpr fun d hd => ?_⟩
  rcases List.mem_cons.mp hd with rfl | hd
  · decide
  rcases List.mem_cons.mp hd with rfl | hd
  · decide
  rcases isSnake_chars h d hd with hplain | rfl
  · exact Bool.or_eq_true_iff.mpr (Or.inl hplain)
  · decide

/-- A negated spelling is listed nowhere. -/
theorem canonicalKey_no {engine : String} (hengine : engine = "sglang" ∨ engine = "vllm") (key : String) :
    canonicalKey engine ("no_" ++ key) = "no_" ++ key := by
  unfold canonicalKey
  cases hget : dictGet (aliasMap engine) ("no_" ++ key) with
  | none => rfl
  | some listed =>
      rw [aliasMap_eq hengine] at hget
      have hfalse := listed_notNegated hengine _ (mem_of_dictGet hget)
      rw [startsWith_no] at hfalse
      cases hfalse

/-- The negated form of a flag in kebab case is the kebab case of `no_` and its key. -/
theorem negated_kebab {key : String} (h : isSnake key = true) :
    "--no-" ++ lstripChar '-' (kebab key) = kebab ("no_" ++ key) := by
  rcases isSnake_cons h with ⟨c, cs, hkey, hc, -⟩
  have hdash : ¬ c = '_' := isKeyChar_ne hc (by decide)
  have hhyphen : ¬ (c == '-') = true := by
    rw [beq_iff_eq]
    exact isKeyChar_ne hc (by decide)
  apply String.toList_injective
  have happend : ("--no-" ++ lstripChar '-' (kebab key)).toList =
      "--no-".toList ++ (lstripChar '-' (kebab key)).toList := String.toList_append
  rw [happend, toList_kebab, toList_no, lstripChar, String.toList_ofList, toList_kebab, hkey, List.map_cons,
    if_neg hdash, List.dropWhile_cons_of_pos (by decide), List.dropWhile_cons_of_pos (by decide),
    List.dropWhile_cons_of_neg (p := fun d => d == '-') hhyphen]
  simp [hdash]

/-! ## What the canonical vocabulary makes of an entry -/

section Normalized

variable {F : Type}

/-- An entry under its canonical key. -/
def normalized (engine : String) (e : String × Json F) : String × Json F :=
  ((normalizeEntry engine e.1 e.2).1, (normalizeEntry engine e.1 e.2).2.1)

/-- One turn of `normalize_args`. -/
def normalizeTurn (engine : String) (out : JsonDict F × List String) (e : String × Json F) :
    JsonDict F × List String :=
  (dictSet out.1 (normalized engine e).1 (normalized engine e).2,
    out.2 ++ (normalizeEntry engine e.1 e.2).2.2 ++ if dictHas out.1 (normalized engine e).1 then
      [(normalized engine e).1 ++ " given twice — the later value wins"] else [])

theorem normalizeArgs_fst (engine : String) (args : JsonDict F) :
    (normalizeArgs engine args).1 =
      (args.map (normalized engine)).foldl (fun d e => dictSet d e.1 e.2) [] := by
  suffices h : ∀ out, (args.foldl (normalizeTurn engine) out).1 =
      (args.map (normalized engine)).foldl (fun d e => dictSet d e.1 e.2) out.1 from h ([], [])
  induction args with
  | nil => exact fun _ => rfl
  | cons e args ih =>
      intro out
      rw [List.foldl_cons, ih]
      rfl

/-- A switch that is on: a negated spelling of a listed switch turns it off. -/
theorem normalized_true (engine key : String) :
    normalized (F := F) engine (key, .bool true) =
      if startsWith (canonicalKey engine key) "no_" &&
          isSwitch engine (canonicalKey engine (dropText 3 (canonicalKey engine key))) then
        (canonicalKey engine (dropText 3 (canonicalKey engine key)), .bool false)
      else (canonicalKey engine key, .bool true) := by
  unfold normalized normalizeEntry isSwitch canonicalKey
  dsimp only
  generalize (dictGet (aliasMap engine) key).getD key = canonical
  generalize (dictGet (aliasMap engine) (dropText 3 canonical)).getD (dropText 3 canonical) = target
  generalize ((dictGet (specMap engine) target).any fun s => decide (s.kind = FlagKind.switch)) = switch
  cases startsWith canonical "no_" with
  | false => rfl
  | true =>
      cases switch with
      | false => rfl
      | true => rfl

/-- A text under a key that is no switch stays as it is. -/
theorem normalized_str {engine key : String} (h : isSwitch engine (canonicalKey engine key) = false) (s : String) :
    normalized (F := F) engine (key, .str s) = (canonicalKey engine key, .str s) := by
  unfold isSwitch canonicalKey at h
  unfold normalized normalizeEntry canonicalKey
  dsimp only
  rw [h]
  rfl

/-- Other values stay as they are. -/
theorem normalized_plain (engine key : String) {value : Json F} (htrue : value ≠ .bool true)
    (hstr : ∀ s, value ≠ .str s) : normalized engine (key, value) = (canonicalKey engine key, value) := by
  cases value with
  | bool b =>
      cases b with
      | true => exact absurd rfl htrue
      | false => rfl
  | str s => exact absurd rfl (hstr s)
  | null => rfl
  | int n => rfl
  | float x => rfl
  | list items => rfl
  | dict entries => rfl

end Normalized

/-! ## One entry, there and back -/

section Entry

variable {F : Type} [PyRuntime F]

/-- Is this a value the flag takes: a switch is on or off, a value is a number or a text that can stand on
a command line, an unknown flag may be either. -/
def FitsFlag (engine key : String) : Json F → Prop
  | .bool _ => isValueFlag engine key = false
  | .int _ => isSwitch engine key = false
  | .float _ => isSwitch engine key = false
  | .str s => isSwitch engine key = false ∧ IsValueText s
  | _ => False

/-- An entry that should survive the trip. `shape` is the shape of its key. -/
structure IsRenderable (shape : String → Bool) (engine : String) (e : String × Json F) : Prop where
  shape : shape e.1 = true
  canonical : canonicalKey engine e.1 = e.1
  notNegated : startsWith e.1 "no_" = false
  value : FitsFlag engine e.1 e.2

/-- What an entry is written as. -/
def writtenAs (engine : String) (e : String × Json F) : Option (String × Json F) :=
  match e.2 with
  | .bool true => some (writtenKey engine e.1, .bool true)
  | .bool false => (negatedFlag engine e.1).map fun _ => ("no_" ++ writtenKey engine e.1, .bool true)
  | value => some (writtenKey engine e.1, .str value.text)

/-- What it comes back as. -/
def cameBack (engine : String) (e : String × Json F) : Option (String × Json F) :=
  match e.2 with
  | .bool true => some (e.1, .bool true)
  | .bool false => (negatedFlag engine e.1).map fun _ =>
      if isSwitch engine e.1 then (e.1, .bool false) else ("no_" ++ e.1, .bool true)
  | value => some (e.1, .str value.text)

/-- What stands for itself and is neither a switch nor a value is written under its own name. -/
theorem writtenKey_unlisted {engine : String} (hengine : engine = "sglang" ∨ engine = "vllm") {key : String}
    (hsnake : isSnake key = true) (hcanonical : canonicalKey engine key = key)
    (hswitch : isSwitch engine key = false) (hvalue : isValueFlag engine key = false) :
    writtenKey engine key = key := by
  cases hget : dictGet (aliasMap engine) key with
  | none =>
      have hrender : renderFlag engine key = kebab key := by
        unfold renderFlag specOf
        rw [hget]
        rfl
      unfold writtenKey
      rw [hrender, flagToKey_kebab hsnake]
  | some listed =>
      have hkey : listed = key := by
        unfold canonicalKey at hcanonical
        rw [hget] at hcanonical
        exact hcanonical
      rcases listed_of_alias hengine hget with ⟨spec, hlisted, hname⟩
      have hspec := (specOf_listed hengine hlisted).2
      rw [hname, hkey] at hspec
      unfold isSwitch at hswitch
      unfold isValueFlag at hvalue
      rw [hspec] at hswitch hvalue
      cases hkind : spec.kind with
      | switch => simp [hkind] at hswitch
      | value => simp [hkind] at hvalue

theorem negatedFlag_written {engine : String} (hengine : engine = "sglang" ∨ engine = "vllm") {key : String}
    (hsnake : isSnake key = true) (hcanonical : canonicalKey engine key = key) {flag : String}
    (h : negatedFlag engine key = some flag) : flag = kebab ("no_" ++ writtenKey engine key) := by
  rcases writtenKey_spec hengine hsnake hcanonical with ⟨hwritten, hrender, -⟩
  unfold negatedFlag at h
  dsimp only at h
  split at h
  · rw [← Option.some.inj h, ← hrender, negated_kebab hwritten]
  · cases h

theorem renderEntry_written {engine : String} (hengine : engine = "sglang" ∨ engine = "vllm")
    {e : String × Json F} (h : IsRenderable isSnake engine e) :
    renderEntry engine e = (writtenAs engine e).toList.flatMap flagTokens := by
  rcases writtenKey_spec hengine h.shape h.canonical with ⟨-, hrender, -⟩
  have hnamed : ¬ engine = "" := by
    rcases hengine with rfl | rfl
    · decide
    · decide
  rcases e with ⟨key, value⟩
  have hfits := h.value
  dsimp only at hrender hfits
  unfold renderEntry writtenAs
  dsimp only
  rw [isSnake_notEnv h.shape, if_neg hnamed, if_neg hnamed, ← hrender]
  cases value with
  | bool b =>
      cases b with
      | true => rfl
      | false =>
          cases hnegated : negatedFlag engine key with
          | none => rfl
          | some flag =>
              rw [negatedFlag_written hengine h.shape h.canonical hnegated]
              rfl
  | int n => rfl
  | float x => rfl
  | str s => rfl
  | null => exact hfits.elim
  | list items => exact hfits.elim
  | dict entries => exact hfits.elim

/-- What an entry is written as can be read back. -/
theorem writtenAs_isWritten (hfloats : ∀ x : F, IsValueText (PyRuntime.text x)) {engine : String}
    (hengine : engine = "sglang" ∨ engine = "vllm") {e : String × Json F} (h : IsRenderable isSnake engine e)
    {o : String × Json F} (ho : writtenAs engine e = some o) : IsWritten o := by
  rcases writtenKey_spec hengine h.shape h.canonical with ⟨hwritten, -, -⟩
  rcases e with ⟨key, value⟩
  have hfits := h.value
  dsimp only at hwritten hfits
  unfold writtenAs at ho
  dsimp only at ho
  cases value with
  | bool b =>
      cases b with
      | true =>
          rw [← Option.some.inj ho]
          exact ⟨hwritten, Or.inl rfl⟩
      | false =>
          rcases Option.map_eq_some_iff.mp ho with ⟨flag, -, rfl⟩
          exact ⟨isSnake_no hwritten, Or.inl rfl⟩
  | int n =>
      rw [← Option.some.inj ho]
      exact ⟨hwritten, Or.inr ⟨_, rfl, isValueText_int n⟩⟩
  | float x =>
      rw [← Option.some.inj ho]
      exact ⟨hwritten, Or.inr ⟨_, rfl, hfloats x⟩⟩
  | str s =>
      rw [← Option.some.inj ho]
      exact ⟨hwritten, Or.inr ⟨_, rfl, hfits.2⟩⟩
  | null => exact hfits.elim
  | list items => exact hfits.elim
  | dict entries => exact hfits.elim

/-- The canonical vocabulary makes of it what it comes back as. -/
theorem normalized_writtenAs {engine : String} (hengine : engine = "sglang" ∨ engine = "vllm")
    {e : String × Json F} (h : IsRenderable isSnake engine e) :
    (writtenAs engine e).map (normalized engine) = cameBack engine e := by
  rcases writtenKey_spec hengine h.shape h.canonical with ⟨-, -, hback⟩
  rcases e with ⟨key, value⟩
  have hfits := h.value
  have hnot := h.notNegated
  dsimp only at hback hfits hnot
  unfold writtenAs cameBack
  dsimp only
  cases value with
  | bool b =>
      cases b with
      | true =>
          rw [Option.map_some, normalized_true, hback, hnot, Bool.false_and, if_neg Bool.false_ne_true]
      | false =>
          cases hnegated : negatedFlag engine key with
          | none => rfl
          | some flag =>
              rw [Option.map_some, Option.map_some, Option.map_some, normalized_true, canonicalKey_no hengine,
                startsWith_no, dropText_no, hback, Bool.true_and]
              cases hswitch : isSwitch engine key with
              | true => rw [if_pos rfl, if_pos rfl]
              | false =>
                  rw [if_neg Bool.false_ne_true, if_neg Bool.false_ne_true,
                    writtenKey_unlisted hengine h.shape h.canonical hswitch hfits]
  | int n =>
      have hplain : isSwitch engine (canonicalKey engine (writtenKey engine key)) = false := by rw [hback]; exact hfits
      rw [Option.map_some, normalized_str hplain, hback]
  | float x =>
      have hplain : isSwitch engine (canonicalKey engine (writtenKey engine key)) = false := by rw [hback]; exact hfits
      rw [Option.map_some, normalized_str hplain, hback]
  | str s =>
      have hplain : isSwitch engine (canonicalKey engine (writtenKey engine key)) = false := by rw [hback]; exact hfits.1
      rw [Option.map_some, normalized_str hplain, hback]
  | null => exact hfits.elim
  | list items => exact hfits.elim
  | dict entries => exact hfits.elim

end Entry

/-! ## A config, there and back -/

section Config

variable {F : Type} [PyRuntime F]

/-- Entries that keep their keys apart are sent to entries that do. -/
theorem nodup_filterMap {α β : Type} {l : List (String × α)} {f : String × α → Option (String × β)}
    (hnd : (l.map Prod.fst).Nodup)
    (hapart : ∀ e ∈ l, ∀ e' ∈ l, ∀ p p', f e = some p → f e' = some p' → p.1 = p'.1 → e.1 = e'.1) :
    ((l.filterMap f).map Prod.fst).Nodup := by
  induction l with
  | nil => exact List.nodup_nil
  | cons e l ih =>
      rw [List.map_cons, List.nodup_cons] at hnd
      have hrest := ih hnd.2 fun a ha b hb =>
        hapart a (List.mem_cons_of_mem e ha) b (List.mem_cons_of_mem e hb)
      cases hfe : f e with
      | none =>
          rw [List.filterMap_cons_none hfe]
          exact hrest
      | some p =>
          rw [List.filterMap_cons_some hfe, List.map_cons, List.nodup_cons]
          refine ⟨fun hmem => hnd.1 ?_, hrest⟩
          rcases List.mem_map.mp hmem with ⟨p', hp', hkey⟩
          rcases List.mem_filterMap.mp hp' with ⟨e', he', hfe'⟩
          have hsame := hapart e List.mem_cons_self e' (List.mem_cons_of_mem e he') p p' hfe hfe' hkey.symm
          exact List.mem_map.mpr ⟨e', he', hsame.symm⟩

theorem writtenAs_key {engine : String} {e o : String × Json F} (h : writtenAs engine e = some o) :
    o.1 = writtenKey engine e.1 ∨ o.1 = "no_" ++ writtenKey engine e.1 := by
  rcases e with ⟨key, value⟩
  unfold writtenAs at h
  dsimp only at h
  split at h
  · exact Or.inl (congrArg Prod.fst (Option.some.inj h)).symm
  · rcases Option.map_eq_some_iff.mp h with ⟨flag, -, rfl⟩
    exact Or.inr rfl
  · exact Or.inl (congrArg Prod.fst (Option.some.inj h)).symm

theorem cameBack_key {engine : String} {e o : String × Json F} (h : cameBack engine e = some o) :
    o.1 = e.1 ∨ o.1 = "no_" ++ e.1 := by
  rcases e with ⟨key, value⟩
  unfold cameBack at h
  dsimp only at h
  split at h
  · exact Or.inl (congrArg Prod.fst (Option.some.inj h)).symm
  · rcases Option.map_eq_some_iff.mp h with ⟨flag, -, rfl⟩
    split
    · exact Or.inl rfl
    · exact Or.inr rfl
  · exact Or.inl (congrArg Prod.fst (Option.some.inj h)).symm

/-- A key that is not negated is no negated key. -/
theorem ne_no {key key' : String} (h : startsWith key "no_" = false) : key ≠ "no_" ++ key' := by
  rintro rfl
  rw [startsWith_no] at h
  cases h

/-- Two entries are not written under one key. -/
theorem writtenAs_apart {engine : String} (hengine : engine = "sglang" ∨ engine = "vllm")
    {e e' : String × Json F} (h : IsRenderable isSnake engine e) (h' : IsRenderable isSnake engine e')
    {o o' : String × Json F} (ho : writtenAs engine e = some o) (ho' : writtenAs engine e' = some o')
    (hkey : o.1 = o'.1) : e.1 = e'.1 := by
  have hback := (writtenKey_spec hengine h.shape h.canonical).2.2
  have hback' := (writtenKey_spec hengine h'.shape h'.canonical).2.2
  rcases writtenAs_key ho with h1 | h1
  · rcases writtenAs_key ho' with h2 | h2
    · rw [h1, h2] at hkey
      rw [← hback, hkey, hback']
    · rw [h1, h2] at hkey
      exact absurd (by rw [← hback, hkey, canonicalKey_no hengine]) (ne_no h.notNegated)
  · rcases writtenAs_key ho' with h2 | h2
    · rw [h1, h2] at hkey
      exact absurd (by rw [← hback', ← hkey, canonicalKey_no hengine]) (ne_no h'.notNegated)
    · rw [h1, h2] at hkey
      rw [← hback, no_injective hkey, hback']

/-- Two entries do not come back under one key. -/
theorem cameBack_apart {engine : String} {e e' : String × Json F} (h : startsWith e.1 "no_" = false)
    (h' : startsWith e'.1 "no_" = false) {o o' : String × Json F} (ho : cameBack engine e = some o)
    (ho' : cameBack engine e' = some o') (hkey : o.1 = o'.1) : e.1 = e'.1 := by
  rcases cameBack_key ho with h1 | h1
  · rcases cameBack_key ho' with h2 | h2
    · rw [← h1, hkey, h2]
    · exact absurd (by rw [← h1, hkey, h2]) (ne_no h)
  · rcases cameBack_key ho' with h2 | h2
    · exact absurd (by rw [← h2, ← hkey, h1]) (ne_no h')
    · exact no_injective (by rw [← h1, hkey, h2])

theorem renderArgs_written {engine : String} (hengine : engine = "sglang" ∨ engine = "vllm")
    {config : JsonDict F} (h : ∀ e ∈ config, IsRenderable isSnake engine e) :
    renderArgs config engine = ((sortEntries config).filterMap (writtenAs engine)).flatMap flagTokens := by
  suffices hrow : ∀ l : JsonDict F, (∀ e ∈ l, IsRenderable isSnake engine e) →
      l.flatMap (renderEntry engine) = (l.filterMap (writtenAs engine)).flatMap flagTokens from
    hrow _ fun e he => h e (mem_sortEntries.mp he)
  intro l h
  induction l with
  | nil => rfl
  | cons e l ih =>
      have ih := ih fun e' he' => h e' (List.mem_cons_of_mem e he')
      rw [List.flatMap_cons, renderEntry_written hengine (h e List.mem_cons_self), ih]
      cases hwritten : writtenAs engine e with
      | none => rw [List.filterMap_cons_none hwritten, Option.toList_none, List.flatMap_nil, List.nil_append]
      | some o =>
          rw [List.filterMap_cons_some hwritten, Option.toList_some, List.flatMap_cons, List.flatMap_nil,
            List.append_nil, List.flatMap_cons]

theorem map_filterMap_eq {α β γ : Type} {l : List α} {f : α → Option β} {g : β → γ} {k : α → Option γ}
    (h : ∀ a ∈ l, (f a).map g = k a) : (l.filterMap f).map g = l.filterMap k := by
  rw [List.map_filterMap]
  exact List.filterMap_congr h

/-- What is read of a rendered config: what each entry came back as, in the order of the keys. -/
theorem read_rendered (hfloats : ∀ x : F, IsValueText (PyRuntime.text x)) {engine : String}
    (hengine : engine = "sglang" ∨ engine = "vllm") (config : Dict (Json F))
    (h : ∀ e ∈ config.entries, IsRenderable isSnake engine e) :
    (normalizeArgs engine (parseEngineArgs (F := F) (renderArgs config.entries engine))).1 =
      (sortEntries config.entries).filterMap (cameBack engine) := by
  have hsorted : ∀ e ∈ sortEntries config.entries, IsRenderable isSnake engine e :=
    fun e he => h e (mem_sortEntries.mp he)
  have hnd : ((sortEntries config.entries).map Prod.fst).Nodup :=
    ((perm_sortEntries config.entries).map Prod.fst).nodup_iff.mpr config.nodup
  have hwritten : ∀ o ∈ (sortEntries config.entries).filterMap (writtenAs engine), IsWritten o := by
    intro o ho
    rcases List.mem_filterMap.mp ho with ⟨e, he, ho⟩
    exact writtenAs_isWritten hfloats hengine (hsorted e he) ho
  have hkeys : (((sortEntries config.entries).filterMap (writtenAs engine)).map Prod.fst).Nodup :=
    nodup_filterMap hnd fun e he e' he' _ _ ho ho' hkey =>
      writtenAs_apart hengine (hsorted e he) (hsorted e' he') ho ho' hkey
  have hback : (((sortEntries config.entries).filterMap (cameBack engine)).map Prod.fst).Nodup :=
    nodup_filterMap hnd fun e he e' he' _ _ ho ho' hkey =>
      cameBack_apart (hsorted e he).notNegated (hsorted e' he').notNegated ho ho' hkey
  rw [renderArgs_written hengine h, parseEngineArgs_written hwritten hkeys, normalizeArgs_fst,
    map_filterMap_eq fun e he => normalized_writtenAs hengine (hsorted e he)]
  exact foldl_dictSet_fresh hback

/-- An entry that should survive stands in the canonical vocabulary already. -/
theorem normalized_renderable {G : Type} {shape : String → Bool} {engine : String} {e : String × Json G}
    (h : IsRenderable shape engine e) : normalized engine e = e := by
  rcases e with ⟨key, value⟩
  have hcanonical := h.canonical
  have hnot := h.notNegated
  have hfits := h.value
  dsimp only at hcanonical hnot hfits
  cases value with
  | bool b =>
      cases b with
      | true => rw [normalized_true, hcanonical, hnot, Bool.false_and, if_neg Bool.false_ne_true]
      | false => rw [normalized_plain engine key (by simp) (by simp), hcanonical]
  | str s => rw [normalized_str (by rw [hcanonical]; exact hfits.1), hcanonical]
  | int n => rw [normalized_plain engine key (by simp) (by simp), hcanonical]
  | float x => rw [normalized_plain engine key (by simp) (by simp), hcanonical]
  | null => exact hfits.elim
  | list items => exact hfits.elim
  | dict entries => exact hfits.elim

theorem normalizeArgs_renderable {G : Type} {shape : String → Bool} {engine : String} (config : Dict (Json G))
    (h : ∀ e ∈ config.entries, IsRenderable shape engine e) :
    (normalizeArgs engine config.entries).1 = config.entries := by
  rw [normalizeArgs_fst, List.map_congr_left fun e he => normalized_renderable (h e he), List.map_id']
  exact foldl_dictSet_fresh config.nodup

/-! ### The comparison -/

/-- What is left of the command line is what these entries came back as. -/
structure Outstanding (engine : String) (l rest : JsonDict F) : Prop where
  keys : (rest.map Prod.fst).Nodup
  mem : ∀ p, p ∈ rest ↔ ∃ e ∈ l, cameBack engine e = some p

theorem mem_dictPop {α : Type} {d : List (String × α)} {key : String} {p : String × α} :
    p ∈ dictPop d key ↔ p ∈ d ∧ p.1 ≠ key := by
  unfold dictPop
  rw [List.mem_filter, decide_eq_true_eq]

/-- What came back under the name of an entry, or its negation, came back from it. -/
theorem cameBack_owner {engine : String} {e e' : String × Json F} {l : JsonDict F}
    (hnd : ((e :: l).map Prod.fst).Nodup) (hnot : ∀ e' ∈ e :: l, startsWith e'.1 "no_" = false)
    (he' : e' ∈ e :: l) {p : String × Json F} (h : cameBack engine e' = some p)
    (hkey : p.1 = e.1 ∨ p.1 = "no_" ++ e.1) : e' = e := by
  have hname : e'.1 = e.1 := by
    rcases cameBack_key h with h1 | h1
    · rcases hkey with h2 | h2
      · rw [← h1, h2]
      · exact absurd (h1.symm.trans h2) (ne_no (hnot e' he'))
    · rcases hkey with h2 | h2
      · exact absurd (h2.symm.trans h1) (ne_no (hnot e List.mem_cons_self))
      · exact no_injective (h1.symm.trans h2)
  rcases List.mem_cons.mp he' with rfl | hmem
  · rfl
  · rw [List.map_cons, List.nodup_cons] at hnd
    exact absurd (List.mem_map.mpr ⟨e', hmem, hname⟩) hnd.1

theorem Outstanding.get {engine : String} {e : String × Json F} {l rest : JsonDict F}
    (h : Outstanding engine (e :: l) rest) (hnd : ((e :: l).map Prod.fst).Nodup)
    (hnot : ∀ e' ∈ e :: l, startsWith e'.1 "no_" = false) {key : String}
    (hkey : key = e.1 ∨ key = "no_" ++ e.1) :
    dictGet rest key = (cameBack engine e).bind fun p => if p.1 = key then some p.2 else none := by
  cases hback : (cameBack engine e).bind fun p => if p.1 = key then some p.2 else none with
  | some v =>
      rcases Option.bind_eq_some_iff.mp hback with ⟨⟨key', v'⟩, hp, hv⟩
      dsimp only at hv
      split at hv
      · rename_i hsame
        cases hv
        rw [hsame] at hp
        exact dictGet_of_mem h.keys ((h.mem _).mpr ⟨e, List.mem_cons_self, hp⟩)
      · cases hv
  | none =>
      cases hget : dictGet rest key with
      | none => rfl
      | some v =>
          rcases (h.mem _).mp (mem_of_dictGet hget) with ⟨e', he', hp⟩
          rw [cameBack_owner hnd hnot he' hp hkey] at hp
          rw [hp] at hback
          simp at hback

/-- With the entry's name, and its negation if it came back so, taken out, the others' are left. -/
theorem Outstanding.pop {engine : String} {e : String × Json F} {l rest rest' : JsonDict F}
    (h : Outstanding engine (e :: l) rest) (hnd : ((e :: l).map Prod.fst).Nodup)
    (hnot : ∀ e' ∈ e :: l, startsWith e'.1 "no_" = false) (hkeys : (rest'.map Prod.fst).Nodup)
    (hsub : ∀ p ∈ rest', p ∈ rest ∧ cameBack engine e ≠ some p)
    (hsup : ∀ p ∈ rest, p.1 ≠ e.1 → p.1 ≠ "no_" ++ e.1 → p ∈ rest') : Outstanding engine l rest' where
  keys := hkeys
  mem p := by
    constructor
    · intro hp
      rcases hsub p hp with ⟨hmem, hother⟩
      rcases (h.mem p).mp hmem with ⟨e', he', hback⟩
      rcases List.mem_cons.mp he' with rfl | he'
      · exact absurd hback hother
      · exact ⟨e', he', hback⟩
    · rintro ⟨e', he', hback⟩
      have hmem := (h.mem p).mpr ⟨e', List.mem_cons_of_mem e he', hback⟩
      have hne : e' ≠ e := by
        rintro rfl
        rw [List.map_cons, List.nodup_cons] at hnd
        exact hnd.1 (List.mem_map.mpr ⟨e', he', rfl⟩)
      refine hsup p hmem ?_ ?_
      · exact fun hkey => hne (cameBack_owner hnd hnot (List.mem_cons_of_mem e he') hback (Or.inl hkey))
      · exact fun hkey => hne (cameBack_owner hnd hnot (List.mem_cons_of_mem e he') hback (Or.inr hkey))

/-- An entry is taken back as it was sent. -/
theorem compareEntry_back {engine : String} {e : String × Json F} {l rest : JsonDict F}
    (hnd : ((e :: l).map Prod.fst).Nodup) (hnot : ∀ e' ∈ e :: l, startsWith e'.1 "no_" = false)
    (h : Outstanding engine (e :: l) rest) (ps : List RoundTripProblem) :
    ∃ rest', compareEntry (ps, rest) e = (ps, rest') ∧ Outstanding engine l rest' := by
  have hname := h.get hnd hnot (Or.inl rfl)
  have hnegation := h.get hnd hnot (Or.inr rfl)
  have hne : e.1 ≠ "no_" ++ e.1 := ne_no (hnot e List.mem_cons_self)
  -- the name alone is taken out where the entry came back under it
  have hpop : ∀ v, cameBack engine e = some (e.1, v) → Outstanding engine l (dictPop rest e.1) := by
    intro v hv
    refine h.pop hnd hnot (nodup_keys_pop h.keys _) (fun p hp => ?_) fun p hp hkey _ => mem_dictPop.mpr ⟨hp, hkey⟩
    refine ⟨(mem_dictPop.mp hp).1, fun hback => (mem_dictPop.mp hp).2 ?_⟩
    rw [hv] at hback
    rw [← Option.some.inj hback]
  have hpop2 : Outstanding engine l (dictPop (dictPop rest e.1) ("no_" ++ e.1)) := by
    refine h.pop hnd hnot (nodup_keys_pop (nodup_keys_pop h.keys _) _) (fun p hp => ?_) fun p hp hkey hkey' =>
      mem_dictPop.mpr ⟨mem_dictPop.mpr ⟨hp, hkey⟩, hkey'⟩
    have hp1 := (mem_dictPop.mp (mem_dictPop.mp hp).1)
    refine ⟨hp1.1, fun hback => ?_⟩
    rcases cameBack_key hback with hkey | hkey
    · exact hp1.2 hkey
    · exact (mem_dictPop.mp hp).2 hkey
  rcases e with ⟨key, value⟩
  dsimp only at hname hnegation hne hpop hpop2
  cases value with
  | bool b =>
      cases b with
      | true =>
          refine ⟨dictPop rest key, ?_, hpop (.bool true) rfl⟩
          rw [show cameBack engine (key, Json.bool (F := F) true) = some (key, .bool true) from rfl,
            Option.bind_some, if_pos rfl] at hname
          unfold compareEntry takeBack
          dsimp only
          rw [hname]
          rfl
      | false =>
          cases hnegated : negatedFlag engine key with
          | none =>
              -- a switch that is off and has no negated form is not written
              have hback : cameBack engine (key, Json.bool (F := F) false) = none := by
                unfold cameBack
                dsimp only
                rw [hnegated, Option.map_none]
              rw [hback, Option.bind_none] at hname hnegation
              refine ⟨_, ?_, hpop2⟩
              unfold compareEntry takeBack
              dsimp only
              rw [hname]
              dsimp only
              rw [dictGet_pop, if_neg hne.symm, hnegation]
              rfl
          | some flag =>
              have hback : cameBack engine (key, Json.bool (F := F) false) =
                  some (if isSwitch engine key then (key, .bool false) else ("no_" ++ key, .bool true)) := by
                unfold cameBack
                dsimp only
                rw [hnegated, Option.map_some]
              cases hswitch : isSwitch engine key with
              | true =>
                  rw [hswitch, if_pos rfl] at hback
                  rw [hback, Option.bind_some, if_pos rfl] at hname
                  refine ⟨dictPop rest key, ?_, hpop _ hback⟩
                  unfold compareEntry takeBack
                  dsimp only
                  rw [hname]
                  rfl
              | false =>
                  -- the catalogue does not know it: it comes back under its negated name
                  rw [hswitch, if_neg Bool.false_ne_true] at hback
                  rw [hback, Option.bind_some, if_neg hne.symm] at hname
                  rw [hback, Option.bind_some, if_pos rfl] at hnegation
                  refine ⟨_, ?_, hpop2⟩
                  unfold compareEntry takeBack
                  dsimp only
                  rw [hname]
                  dsimp only
                  rw [dictGet_pop, if_neg hne.symm, hnegation]
                  rfl
  | _ =>
      refine ⟨dictPop rest key, ?_, hpop _ rfl⟩
      rw [show cameBack engine (key, _) = some (key, .str _) from rfl, Option.bind_some, if_pos rfl] at hname
      unfold compareEntry takeBack
      dsimp only
      rw [hname]
      simp [isBack, Json.text]

/-- The comparison finds nothing and leaves nothing. -/
theorem compare_back {engine : String} {l : JsonDict F} (ps : List RoundTripProblem) {rest : JsonDict F}
    (hnd : (l.map Prod.fst).Nodup) (hnot : ∀ e ∈ l, startsWith e.1 "no_" = false)
    (h : Outstanding engine l rest) : l.foldl compareEntry (ps, rest) = (ps, []) := by
  induction l generalizing rest with
  | nil =>
      have hrest : rest = [] := List.eq_nil_iff_forall_not_mem.mpr fun p hp => by
        rcases (h.mem p).mp hp with ⟨e, he, -⟩
        exact absurd he List.not_mem_nil
      rw [List.foldl_nil, hrest]
  | cons e l ih =>
      rcases compareEntry_back hnd hnot h ps with ⟨rest', hstep, hrest'⟩
      rw [List.map_cons, List.nodup_cons] at hnd
      rw [List.foldl_cons, hstep]
      exact ih hnd.2 (fun e' he' => hnot e' (List.mem_cons_of_mem e he')) hrest'

theorem keyShape_snake {key : String} (h : isSnake key = true) : keyShape key = true := by
  unfold keyShape
  split
  · rename_i rest hrest
    have hmem : '\n' ∈ key.toList := by
      rw [← List.mem_reverse, hrest]
      exact List.mem_cons_self
    rcases isSnake_chars h _ hmem with hc | hc
    · exact absurd hc (by decide)
    · exact absurd hc (by decide)
  · exact h

theorem renderProblem_none {engine : String} {e : String × Json F} (h : IsRenderable isSnake engine e) :
    renderProblem e = none := by
  rcases e with ⟨key, value⟩
  have hfits := h.value
  dsimp only at hfits
  unfold renderProblem
  dsimp only
  rw [keyShape_snake h.shape]
  cases value with
  | str s =>
      simp only [Bool.not_true, Bool.false_eq_true, if_false]
      rw [if_neg hfits.2.notBlank, if_neg (by rw [hfits.2.notFlag]; exact Bool.false_ne_true)]
  | bool b => rfl
  | int n => rfl
  | float x => rfl
  | null => exact hfits.elim
  | list items => exact hfits.elim
  | dict entries => exact hfits.elim

/-- A command line gives a config back: what was on is on, what was off is off or not there, a value has
the text it had, and nothing is there besides, where an unknown switch that is off may be under its
negated name. -/
structure GivesBack (config : Dict (Json F)) (parsed : JsonDict F) : Prop where
  on : ∀ key, config.get? key = some (.bool true) → dictGet parsed key = some (.bool true)
  off : ∀ key, config.get? key = some (.bool false) →
    dictGet parsed key = some (.bool false) ∨ dictGet parsed key = none
  value : ∀ key v, config.get? key = some v → (∀ b, v ≠ .bool b) → dictGet parsed key = some (.str v.text)
  only : ∀ p ∈ parsed, config.has p.1 = true ∨
    ∃ key, config.get? key = some (.bool false) ∧ p = ("no_" ++ key, .bool true)

theorem givesBack_of_outstanding {engine : String} {config : Dict (Json F)} {parsed : JsonDict F}
    (hnot : ∀ e ∈ config.entries, startsWith e.1 "no_" = false) (h : Outstanding engine config.entries parsed) :
    GivesBack config parsed where
  on key hkey := dictGet_of_mem h.keys ((h.mem _).mpr ⟨_, Dict.mem_entries.mpr hkey, rfl⟩)
  off key hkey := by
    cases hget : dictGet parsed key with
    | none => exact Or.inr rfl
    | some v =>
        left
        have hn : startsWith key "no_" = false := hnot (key, .bool false) (Dict.mem_entries.mpr hkey)
        rcases (h.mem _).mp (mem_of_dictGet hget) with ⟨⟨key', value⟩, he, hback⟩
        have hname : key' = key := by
          rcases cameBack_key hback with hname | hname
          · exact hname.symm
          · exact absurd hname (ne_no hn)
        rw [hname] at he hback
        have hvalue : value = .bool false := Option.some.inj ((Dict.mem_entries.mp he).symm.trans hkey)
        rw [hvalue] at hback
        rcases Option.map_eq_some_iff.mp hback with ⟨flag, -, heq⟩
        split at heq
        · exact congrArg some (Prod.ext_iff.mp heq).2.symm
        · exact absurd (Prod.ext_iff.mp heq).1.symm (ne_no hn)
  value key v hkey hbool := by
    refine dictGet_of_mem h.keys ((h.mem _).mpr ⟨_, Dict.mem_entries.mpr hkey, ?_⟩)
    cases v with
    | bool b => exact absurd rfl (hbool b)
    | _ => rfl
  only p hp := by
    rcases (h.mem p).mp hp with ⟨⟨key, value⟩, he, hback⟩
    have hkey := Dict.mem_entries.mp he
    have hn : startsWith key "no_" = false := hnot (key, value) he
    rcases cameBack_key hback with hname | hname
    · left
      rw [hname]
      exact Dict.has_iff.mpr ⟨value, hkey⟩
    · right
      unfold cameBack at hback
      dsimp only at hback
      split at hback
      · exact absurd ((congrArg Prod.fst (Option.some.inj hback)).trans hname) (ne_no hn)
      · rcases Option.map_eq_some_iff.mp hback with ⟨flag, -, rfl⟩
        refine ⟨key, hkey, ?_⟩
        split
        · rename_i hswitch
          rw [if_pos hswitch] at hname
          exact absurd hname (ne_no hn)
        · rfl
      · exact absurd ((congrArg Prod.fst (Option.some.inj hback)).trans hname) (ne_no hn)

/-- Rendering a config and reading it back finds no problem. -/
theorem rendered_comes_back (hfloats : ∀ x : F, IsValueText (PyRuntime.text x)) {engine : String}
    (hengine : engine = "sglang" ∨ engine = "vllm") (config : Dict (Json F))
    (h : ∀ e ∈ config.entries, IsRenderable isSnake engine e) :
    roundTripProblems config.entries engine = [] ∧
      GivesBack config
        (normalizeArgs engine (parseEngineArgs (F := F) (renderArgs config.entries engine))).1 := by
  have hnot : ∀ e ∈ config.entries, startsWith e.1 "no_" = false := fun e he => (h e he).notNegated
  have hread := read_rendered hfloats hengine config h
  have hout : Outstanding engine config.entries
      (normalizeArgs engine (parseEngineArgs (F := F) (renderArgs config.entries engine))).1 := by
    rw [hread]
    refine ⟨nodup_filterMap (((perm_sortEntries config.entries).map Prod.fst).nodup_iff.mpr config.nodup)
      fun e he e' he' _ _ ho ho' hkey => cameBack_apart (hnot e (mem_sortEntries.mp he))
        (hnot e' (mem_sortEntries.mp he')) ho ho' hkey, fun p => ?_⟩
    rw [List.mem_filterMap]
    exact exists_congr fun e => and_congr_left' mem_sortEntries
  refine ⟨?_, givesBack_of_outstanding hnot hout⟩
  have hproblems : config.entries.filterMap renderProblem = [] :=
    List.filterMap_eq_nil_iff.mpr fun e he => renderProblem_none (h e he)
  unfold roundTripProblems
  dsimp only
  rw [hproblems, normalizeArgs_renderable config h, compare_back [] config.nodup hnot hout]
  rfl

end Config

/-! ### Configs -/

/-- Switches on and off, listed and not, next to values that look like something else. -/
def vllmConfig : Dict (Json Empty) :=
  Dict.ofEntries [("tp", .int 8), ("enable_lora", .bool false), ("a_new_switch", .bool false),
    ("trust_remote_code", .bool true), ("speculative_config", .str "\x7b\"k\": \"a=b --c\"\x7d"), ("seed", .int (-1))]

theorem vllmConfig_renderable : ∀ e ∈ vllmConfig.entries, IsRenderable isSnake "vllm" e := by
  have hlisted : ∀ e ∈ vllmConfig.entries, isSnake e.1 = true ∧ canonicalKey "vllm" e.1 = e.1 ∧
      startsWith e.1 "no_" = false := by decide
  have hvalue : ∀ e ∈ vllmConfig.entries, FitsFlag "vllm" e.1 e.2 := by
    have hint : isSwitch "vllm" "tp" = false ∧ isSwitch "vllm" "seed" = false := by decide
    have hbool : isValueFlag "vllm" "enable_lora" = false ∧ isValueFlag "vllm" "a_new_switch" = false ∧
        isValueFlag "vllm" "trust_remote_code" = false := by decide
    have htext : isSwitch "vllm" "speculative_config" = false ∧
        IsValueText "\x7b\"k\": \"a=b --c\"\x7d" :=
      ⟨by decide, by decide, by decide, by decide, by decide,
        by decide⟩
    intro e he
    rcases List.mem_cons.mp he with rfl | he
    · exact hint.1
    rcases List.mem_cons.mp he with rfl | he
    · exact hbool.1
    rcases List.mem_cons.mp he with rfl | he
    · exact hbool.2.1
    rcases List.mem_cons.mp he with rfl | he
    · exact hbool.2.2
    rcases List.mem_cons.mp he with rfl | he
    · exact htext
    rw [List.mem_singleton.mp he]
    exact hint.2
  exact fun e he => ⟨(hlisted e he).1, (hlisted e he).2.1, (hlisted e he).2.2, hvalue e he⟩

theorem vllmConfig_comesBack : roundTripProblems vllmConfig.entries "vllm" = [] ∧
    GivesBack vllmConfig
      (normalizeArgs "vllm" (parseEngineArgs (F := Empty) (renderArgs vllmConfig.entries "vllm"))).1 :=
  rendered_comes_back (fun x => x.elim) (Or.inr rfl) vllmConfig vllmConfig_renderable

/-- A key that ends in a newline has the shape, and is stripped when it is read. -/
theorem newlineKey_lost : ¬ ∀ (engine : String) (config : Dict (Json Empty)),
    engine = "sglang" ∨ engine = "vllm" → (∀ e ∈ config.entries, IsRenderable keyShape engine e) →
      roundTripProblems config.entries engine = [] := by
  intro h
  have hempty := h "sglang" (Dict.ofEntries [("a\n", .int 1)]) (Or.inl rfl) fun e he => by
    rw [List.mem_singleton.mp he]
    exact
      { shape := by decide
        canonical := by decide
        notNegated := by decide
        value := by
          change isSwitch "sglang" "a\n" = false
          decide }
  have hone : (roundTripProblems (Dict.ofEntries [("a\n", Json.int (F := Empty) 1)]).entries "sglang").length = 2 := by
    decide
  rw [hempty] at hone
  cases hone

end AutoTune
