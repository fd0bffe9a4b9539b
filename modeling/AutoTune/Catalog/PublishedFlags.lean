import AutoTune.Catalog.ExtraArgs
import AutoTune.Recipe.EditReads

/-!
# Published flags, read back

Each item of `extraArgs` is read alone, and gives the argument it was written from where its key is spelled as
the vocabulary spells keys. An unknown switch that is off is read back under its negated name, which may be
the name of another argument.
-/

namespace AutoTune

open Lib

section Published

variable {F : Type} [PyRuntime F]

/-- Is the argument written as a flag at all? -/
def isPublished (key : String) : Bool := !(contextKeys.contains key || chartOwned.contains key)

/-- On or off. -/
def isOnOff : Json F → Bool
  | .bool _ => true
  | _ => false

/-- A boolean, a number or a text. -/
def IsArgValue : Json F → Prop
  | .bool _ | .int _ | .float _ => True
  | .str s => s ≠ ""
  | _ => False

instance : DecidablePred (IsArgValue (F := F)) := fun value =>
  match value with
  | .bool _ | .int _ | .float _ => .isTrue trivial
  | .str s => inferInstanceAs (Decidable (s ≠ ""))
  | .null | .list _ | .dict _ => .isFalse id

/-- What an argument is to be read back as. -/
def readAs (engine : String) (e : String × Json F) : Option (String × Json F) :=
  if isPublished e.1 then
    match e.2 with
    | .bool true => some (e.1, .bool true)
    | .bool false => (negatedFlag engine e.1).map fun _ =>
        if isSwitch engine e.1 then (e.1, .bool false) else ("no_" ++ writtenKey engine e.1, .bool true)
    | value => some (e.1, coerceText (fmtValue value))
  else none

/-- The published arguments read back as they were measured. -/
structure ReadsBackAs (engine : String) (args : JsonDict F) : Prop where
  flags : ∀ p, p ∈ argFlags engine ((extraArgs engine args).items.map (Json.str (F := F))) ↔
    ∃ e ∈ args, readAs engine e = some p
  context : ∀ key ∈ contextKeys, ∀ value, (key, value) ∈ args → (extraArgs engine args).context = fmtValue value
  noContext : (∀ e ∈ args, e.1 ∉ contextKeys) → (extraArgs engine args).context = ""

/-! ## The items -/

/-- The items are those of the published arguments, in the order of their keys. -/
theorem extraArgs_items (engine : String) (args : JsonDict F) : (extraArgs engine args).items =
    ((sortEntries args).filter fun e => isPublished e.1).flatMap fun e => (argItem engine e.1 e.2).toList := by
  have hfold : ∀ (l : JsonDict F) (out : ExtraArgs), (l.foldl (ExtraArgs.add engine) out).items =
      out.items ++ (l.filter fun e => isPublished e.1).flatMap fun e => (argItem engine e.1 e.2).toList := by
    intro l
    induction l with
    | nil => intro out; simp
    | cons e l ih =>
        intro out
        rw [List.foldl_cons, ih]
        unfold ExtraArgs.add
        by_cases hcontext : e.1 ∈ contextKeys
        · simp [isPublished, hcontext]
        · by_cases howned : e.1 ∈ chartOwned
          · simp [isPublished, hcontext, howned]
          · simp [isPublished, hcontext, howned]
  have h := hfold (sortEntries args) {}
  rwa [List.nil_append] at h

/-- The context length is that of the last context key in the order of the keys. -/
theorem extraArgs_context (engine : String) (args : JsonDict F) : (extraArgs engine args).context =
    ((((sortEntries args).filter fun e => contextKeys.contains e.1).getLast?).map fun e => fmtValue e.2).getD "" := by
  have hfold : ∀ (l : JsonDict F), (l.foldl (ExtraArgs.add engine) {}).context =
      (((l.filter fun e => contextKeys.contains e.1).getLast?).map fun e => fmtValue e.2).getD "" := by
    intro l
    induction l using List.reverseRecOn with
    | nil => rfl
    | append_singleton l e ih =>
        rw [List.foldl_append, List.foldl_cons, List.foldl_nil, List.filter_append]
        have hadd : ∀ out : ExtraArgs, (ExtraArgs.add engine out e).context =
            if e.1 ∈ contextKeys then fmtValue e.2 else out.context := by
          intro out
          unfold ExtraArgs.add
          split
          · rfl
          · split <;> rfl
        rw [hadd]
        by_cases hcontext : e.1 ∈ contextKeys
        · simp [hcontext]
        · simpa [hcontext] using ih
  exact hfold (sortEntries args)

/-! ## One item -/

/-- The flag and the text of an item that stands alone. -/
def itemParts (text : String) : String × Option String :=
  if hasChar text '=' then ((partitionAt '=' text).1, some (partitionAt '=' text).2)
  else if hasChar text ' ' then ((partitionAt ' ' text).1, some (strip (partitionAt ' ' text).2))
  else (text, none)

/-- What a flag with its text is read as. -/
def readParts (engine : String) (parts : String × Option String) : String × Json F :=
  let entry := normalized engine (flagKey parts.1, (parts.2.map Json.str).getD (.bool true))
  (entry.1, coerced entry.2)

/-- Items that all begin as flags are found one by one. -/
theorem scanFrom_items {items : List String} (h : ∀ t ∈ items, startsWith t "--" = true) (i : Nat) :
    (scanFrom i items).map (fun arg => (arg.flag, arg.raw)) = items.map itemParts := by
  induction items generalizing i with
  | nil => rfl
  | cons t items ih =>
      have ih := ih (fun t' ht' => h t' (List.mem_cons_of_mem _ ht')) (i + 1)
      have ht : startsWith t "--" = true := h t List.mem_cons_self
      rw [List.map_cons, ← ih]
      unfold itemParts
      cases items with
      | nil =>
          conv_lhs => rw [scanFrom, ht]
          cases hasChar t '=' with
          | true => rfl
          | false => cases hasChar t ' ' <;> rfl
      | cons next items =>
          have hnext : startsWith next "--" = true := h next (List.mem_cons_of_mem _ List.mem_cons_self)
          conv_lhs => rw [scanFrom, ht]
          cases hasChar t '=' with
          | true => rfl
          | false =>
              cases hasChar t ' ' with
              | true => rfl
              | false =>
                  simp only [hnext, Bool.not_true, Bool.false_eq_true, if_false]
                  rfl

/-- A dictionary filled with entries, each put last. -/
def filled {α : Type} (l : List (String × α)) : List (String × α) :=
  l.foldl (fun d e => dictSet (dictPop d e.1) e.1 e.2) []

theorem filled_nodup {α : Type} (l : List (String × α)) : ((filled l).map Prod.fst).Nodup := by
  unfold filled
  induction l using List.reverseRecOn with
  | nil => exact List.nodup_nil
  | append_singleton l e ih =>
      rw [List.foldl_append, List.foldl_cons, List.foldl_nil]
      exact nodup_dictSet (nodup_keys_pop ih e.1) e.1 e.2

theorem dictGet_filled {α : Type} (l : List (String × α)) (key : String) :
    dictGet (filled l) key = lastUnder key l := by
  have hturn : ∀ (d : List (String × α)) (e : String × α) (key : String),
      dictGet (dictSet (dictPop d e.1) e.1 e.2) key = if key = e.1 then some e.2 else dictGet d key := by
    intro d e key
    rw [dictGet_set]
    by_cases hkey : key = e.1
    · simp [hkey]
    · simp [hkey, dictGet_pop]
  simpa [filled] using dictGet_foldl id hturn l key

theorem mem_of_filled {α : Type} {l : List (String × α)} {p : String × α} (hp : p ∈ filled l) : p ∈ l := by
  have hlast : dictGet l.reverse p.1 = some p.2 :=
    (dictGet_filled l p.1).symm.trans (dictGet_of_mem (filled_nodup l) hp)
  exact List.mem_reverse.mp (mem_of_dictGet hlast)

/-- Where entries of one key are one entry, the dictionary holds just these. -/
theorem mem_filled {α : Type} {l : List (String × α)} (honly : ∀ e ∈ l, ∀ e' ∈ l, e.1 = e'.1 → e = e')
    (p : String × α) : p ∈ filled l ↔ p ∈ l := by
  refine ⟨mem_of_filled, fun hp => ?_⟩
  -- whatever was put last under its key is the entry itself
  cases hlast : lastUnder p.1 l with
  | none =>
      have hin : dictHas l.reverse p.1 = true :=
        List.any_eq_true.mpr ⟨p, List.mem_reverse.mpr hp, decide_eq_true rfl⟩
      rw [dictHas_eq, show dictGet l.reverse p.1 = none from hlast] at hin
      cases hin
  | some v =>
      have hmem : (p.1, v) ∈ l := List.mem_reverse.mp (mem_of_dictGet hlast)
      have hsame : p = (p.1, v) := honly p hp _ hmem rfl
      rw [hsame]
      exact mem_of_dictGet ((dictGet_filled l p.1).trans hlast)

/-- The items as the reader takes them, in their order. -/
theorem argFlags_items {items : List String} (h : ∀ t ∈ items, startsWith t "--" = true) (engine : String) :
    argFlags engine (items.map (Json.str (F := F))) = filled (items.map fun t => readParts engine (itemParts t)) := by
  have htexts : (items.map (Json.str (F := F))).map Json.text = items := by
    rw [List.map_map]
    exact List.map_id' items
  have hmap : (items.map fun t => readParts (F := F) engine (itemParts t)) =
      (scanFrom 0 items).map fun arg => readParts engine (arg.flag, arg.raw) := by
    have hparts := congrArg (List.map (readParts (F := F) engine)) (scanFrom_items h 0)
    simpa [List.map_map, Function.comp_def] using hparts.symm
  unfold argFlags scan filled
  rw [htexts, hmap, List.foldl_map]
  rfl

/-! ## What an item reads as -/

section Parts

variable (engine : String)

/-- What is read from a flag with a text. -/
theorem readParts_some (flag text : String) : readParts (F := F) engine (flag, some text) =
    (canonicalKey engine (flagKey flag), coerced (textUnder engine (canonicalKey engine (flagKey flag)) text)) := by
  unfold readParts
  dsimp only [Option.map_some, Option.getD_some]
  rw [normalized_text]

/-- What is read from a bare flag. -/
theorem readParts_none (flag : String) : readParts (F := F) engine (flag, none) =
    normalized engine (flagKey flag, .bool true) := by
  rcases normalized_bare (G := F) engine (flagKey flag) with ⟨b, hb⟩
  refine Prod.ext rfl ?_
  calc coerced (normalized (F := F) engine (flagKey flag, .bool true)).2
      = coerced (.bool b) := by rw [hb]
    _ = (normalized (F := F) engine (flagKey flag, .bool true)).2 := hb.symm

/-- A flag without a separator that stands alone is on. -/
theorem readParts_bare {flag : String} (heq : hasChar flag '=' = false) (hblank : hasChar flag ' ' = false) :
    readParts engine (itemParts flag) = normalized (F := F) engine (flagKey flag, .bool true) := by
  have hparts : itemParts flag = (flag, none) := by simp [itemParts, heq, hblank]
  rw [hparts, readParts_none]

/-- A flag before an equals sign has the text behind it for its value. -/
theorem readParts_joined {flag : String} (heq : hasChar flag '=' = false) (text : String) :
    readParts (F := F) engine (itemParts (flag ++ "=" ++ text)) =
      (canonicalKey engine (flagKey flag), coerced (textUnder engine (canonicalKey engine (flagKey flag)) text)) := by
  have hjoined : hasChar (flag ++ "=" ++ text) '=' = true := by simp [hasChar_append, hasChar_iff]
  have hcut : partitionAt '=' (flag ++ "=" ++ text) = (flag, text) := partitionAt_append heq text
  have hparts : itemParts (flag ++ "=" ++ text) = (flag, some text) := by simp [itemParts, hjoined, hcut]
  rw [hparts, readParts_some]

/-- The flag of an item ends at the first equals sign, and at the first blank where there is none. -/
theorem itemParts_noSeparator (text : String) :
    hasChar (itemParts text).1 '=' = false ∧ ((itemParts text).2 = none → hasChar (itemParts text).1 ' ' = false) := by
  unfold itemParts
  cases heq : hasChar text '=' with
  | true => exact ⟨partitionAt_noSep '=' text, fun h => by cases h⟩
  | false =>
      cases hblank : hasChar text ' ' with
      | true =>
          refine ⟨?_, fun h => by cases h⟩
          rw [Bool.eq_false_iff]
          intro h
          exact absurd ((hasChar_partitionAt h).symm.trans heq) (by decide)
      | false => exact ⟨heq, fun _ => hblank⟩

theorem coerceText_notBool (text : String) (b : Bool) : coerceText (F := F) text ≠ .bool b := by
  rcases coerceText_cases (F := F) text with h | ⟨n, h⟩ | ⟨x, h⟩
  · simp [h]
  · simp [h]
  · simp [h]

/-! ## The keys that are read -/

variable {engine} (hengine : engine = "sglang" ∨ engine = "vllm")

include hengine

/-- What is read stands under the flag's own name or under a listed key. -/
theorem readKey_listed (parts : String × Option String) :
    (readParts (F := F) engine parts).1 = flagKey parts.1 ∨ isSnake (readParts (F := F) engine parts).1 = true := by
  have hcanonical : canonicalKey engine (flagKey parts.1) = flagKey parts.1 ∨
      isSnake (canonicalKey engine (flagKey parts.1)) = true :=
    (canonicalKey_listed hengine (flagKey parts.1)).imp_right And.left
  rcases parts with ⟨flag, _ | text⟩
  · rw [readParts_none, normalized_true]
    split
    · rename_i hno
      exact Or.inr (isSwitch_listed hengine (Bool.and_eq_true_iff.mp hno).2).1
    · exact hcanonical
  · rw [readParts_some]
    exact hcanonical

/-- No key that is read holds an equals sign. -/
theorem readKey_noEquals (text : String) : hasChar (readParts (F := F) engine (itemParts text)).1 '=' = false := by
  rcases readKey_listed (F := F) hengine (itemParts text) with hself | hsnake
  · rw [hself, hasChar_flagKey (Or.inl rfl)]
    exact (itemParts_noSeparator text).1
  · exact hasChar_snake (Or.inl rfl) hsnake

/-- A key that holds a blank is read with a text, and not as on or off. -/
theorem readKey_blank {text : String} (h : hasChar (readParts (F := F) engine (itemParts text)).1 ' ' = true)
    (b : Bool) : (readParts (F := F) engine (itemParts text)).2 ≠ .bool b := by
  have hkey : (readParts (F := F) engine (itemParts text)).1 = flagKey (itemParts text).1 := by
    refine (readKey_listed hengine (itemParts text)).resolve_right fun hsnake => ?_
    exact absurd (h.symm.trans (hasChar_snake (Or.inr rfl) hsnake)) (by decide)
  have hflag : hasChar (itemParts text).1 ' ' = true := by
    rwa [hkey, hasChar_flagKey (Or.inr rfl)] at h
  cases hraw : (itemParts text).2 with
  | none => exact absurd (hflag.symm.trans ((itemParts_noSeparator text).2 hraw)) (by decide)
  | some raw =>
      have hparts : itemParts text = ((itemParts text).1, some raw) := Prod.ext rfl hraw
      rw [hparts, readParts_some]
      -- a name with a blank is not listed
      have hplain : isSwitch engine (canonicalKey engine (flagKey (itemParts text).1)) = false := by
        rw [Bool.eq_false_iff]
        intro hswitch
        rw [hparts, readParts_some] at h
        exact absurd (h.symm.trans (hasChar_snake (Or.inr rfl) (isSwitch_listed hengine hswitch).1)) (by decide)
      simpa [textUnder, hplain, coerced] using coerceText_notBool raw b

/-- What is on under a negated name is not the negation of a listed switch. -/
theorem readKey_negated {parts : String × Option String} {name : String}
    (h : readParts (F := F) engine parts = ("no_" ++ name, .bool true)) :
    isSwitch engine (canonicalKey engine name) = false := by
  have hplain : isSwitch engine ("no_" ++ name) = false := by
    rw [Bool.eq_false_iff]
    intro hswitch
    exact absurd ((startsWith_no name).symm.trans (isSwitch_listed hengine hswitch).2) (by decide)
  rcases parts with ⟨flag, _ | text⟩
  · rw [readParts_none, normalized_true] at h
    split at h
    · cases (Prod.ext_iff.mp h).2
    · rename_i hno
      have hkey : canonicalKey engine (flagKey flag) = "no_" ++ name := (Prod.ext_iff.mp h).1
      rw [hkey, startsWith_no, dropText_no, Bool.true_and] at hno
      exact Bool.eq_false_iff.mpr hno
  · rw [readParts_some] at h
    rcases Prod.ext_iff.mp h with ⟨hkey, hvalue⟩
    dsimp only at hkey hvalue
    rw [hkey] at hvalue
    simp only [textUnder, hplain, Bool.false_eq_true, if_false, coerced] at hvalue
    exact absurd hvalue (coerceText_notBool text true)

end Parts

end Published

end AutoTune
