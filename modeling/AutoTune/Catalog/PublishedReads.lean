import AutoTune.Catalog.PublishedFlags
import AutoTune.Recipe.NormalForm
import Mathlib.Data.List.DropRight

/-!
# A published config, read back

A normalised argument is read back as it was measured where its key is spelled as the reader spells keys and
its text is none of the words for on and off. The items are apart but for a switch that is off under a name
the catalogue does not list: it is read as its negated name, which may be the name of another argument.
-/

namespace AutoTune

open Lib

section Published

variable {F : Type} [PyRuntime F]

/-! ## Which arguments can be read back -/

/-- Is a flag written for the argument? A switch that is off may have no form. -/
def isPosted (engine : String) (e : String × Json F) : Bool :=
  isPublished e.1 &&
    match e.2 with
    | .bool false => (negatedFlag engine e.1).isSome
    | _ => true

/-- Is the argument read under its own key, not as the negated name of an unknown switch? -/
def underOwnKey (engine : String) (e : String × Json F) : Bool :=
  match e.2 with
  | .bool false => isSwitch engine e.1
  | _ => true

/-- The key is spelled as the reader spells keys, the flag does not end in it, and an unknown switch that is
off is no other spelling of a known one. -/
structure IsSpelled (engine : String) (e : String × Json F) : Prop where
  spelled : underOwnKey engine e = true → flagKey (kebab e.1) = e.1
  joined : hasChar e.1 '=' = false
  oneWord : isOnOff e.2 = true → hasChar e.1 ' ' = false
  unknown : underOwnKey engine e = false → isSwitch engine (canonicalKey engine (writtenKey engine e.1)) = false

/-- A value on a known switch does not read as on or off. -/
def ReadsAsText (engine : String) (e : String × Json F) : Prop :=
  isSwitch engine e.1 = true → isOnOff e.2 = false →
    lowerAscii (strip (fmtValue e.2)) ∉ trueWords ∧ lowerAscii (strip (fmtValue e.2)) ∉ falseWords

/-- Arguments that can be read back: each alone, an unknown switch that is off not next to its negated name
with a value, and one context length. -/
structure Publishable (engine : String) (args : JsonDict F) : Prop where
  spelled : ∀ e ∈ args, isPosted engine e = true → IsSpelled engine e
  asText : ∀ e ∈ args, isPosted engine e = true → ReadsAsText engine e
  negated : ∀ e ∈ args, isPosted engine e = true → underOwnKey engine e = false →
    ∀ e' ∈ args, e'.1 = "no_" ++ writtenKey engine e.1 → isOnOff e'.2 = true
  oneContext : ∀ e ∈ args, ∀ e' ∈ args, e.1 ∈ contextKeys → e'.1 ∈ contextKeys → fmtValue e.2 = fmtValue e'.2

/-- The item of an argument, and what it is to be read back as. -/
inductive Posted (engine : String) (e : String × Json F) : String → String × Json F → Prop
  | on : e.2 = .bool true → Posted engine e (renderFlag engine e.1) (e.1, .bool true)
  | off {flag : String} : e.2 = .bool false → negatedFlag engine e.1 = some flag →
      Posted engine e flag
        (if isSwitch engine e.1 then (e.1, .bool false) else ("no_" ++ writtenKey engine e.1, .bool true))
  | value : isOnOff e.2 = false →
      Posted engine e (renderFlag engine e.1 ++ "=" ++ fmtValue e.2) (e.1, coerceText (fmtValue e.2))

/-! ## The flag of an argument -/

theorem renderFlag_kebab (engine key : String) : ∃ name, renderFlag engine key = kebab name := by
  unfold renderFlag
  cases hspec : specOf engine key with
  | none => exact ⟨key, rfl⟩
  | some spec =>
      rcases Option.bind_eq_some_iff.mp hspec with ⟨listed, -, hlisted⟩
      rcases specMap_kebab engine _ (mem_of_dictGet hlisted) with ⟨name, -, hflag⟩
      exact ⟨name, hflag⟩

/-- A flag is written without underscores. -/
theorem renderFlag_noLine (engine key : String) : hasChar (renderFlag engine key) '_' = false := by
  rcases renderFlag_kebab engine key with ⟨name, hname⟩
  rw [hname, kebab, hasChar_append, hasChar_replaced (by decide)]
  decide

theorem negatedFlag_noLine {engine key flag : String} (h : negatedFlag engine key = some flag) :
    hasChar flag '_' = false := by
  rw [negatedFlag_eq h, hasChar_append, hasChar_lstripChar (by decide), renderFlag_noLine]
  decide

theorem flagKey_negated {engine key flag : String} (h : negatedFlag engine key = some flag) :
    flagKey flag = "no_" ++ writtenKey engine key := by
  rw [negatedFlag_eq h]
  apply String.toList_injective
  simp [flagKey, writtenKey, flagToKey, lstripChar, replaceChar]

/-- A name without underscores is read as it would be written. -/
theorem flagKey_kebab_flagKey {flag : String} (h : hasChar flag '_' = false) :
    flagKey (kebab (flagKey flag)) = flagKey flag := by
  have hline : ∀ c ∈ (lstripChar '-' flag).toList, c ≠ '_' := by
    rintro c hc rfl
    have hflag := hasChar_iff.mpr hc
    rw [hasChar_lstripChar (by decide), h] at hflag
    cases hflag
  have hback : ((flagKey flag).toList.map fun c => if c = '_' then '-' else c) = (lstripChar '-' flag).toList := by
    rw [flagKey, replaceChar, String.toList_ofList, List.map_map]
    refine (List.map_congr_left fun c hc => ?_).trans (List.map_id' _)
    by_cases hdash : c = '-'
    · simp [hdash]
    · simp [hdash, hline c hc]
  have hstrip : lstripChar '-' (kebab (flagKey flag)) = lstripChar '-' flag := by
    apply String.toList_injective
    rw [lstripChar, String.toList_ofList, toList_kebab, hback, lstripChar, String.toList_ofList]
    rw [List.dropWhile_cons_of_pos (by decide), List.dropWhile_cons_of_pos (by decide)]
    exact List.dropWhile_idempotent (fun d => d == '-') flag.toList
  rw [flagKey, hstrip]
  rfl

/-- A negated name is neither a context key nor the chart's. -/
theorem isPublished_no (name : String) : isPublished ("no_" ++ name) = true := by
  have hnone : ∀ key ∈ contextKeys ++ chartOwned, startsWith key "no_" = false := by decide
  have hout : ¬ "no_" ++ name ∈ contextKeys ++ chartOwned := by
    intro hin
    exact absurd ((startsWith_no name).symm.trans (hnone _ hin)) (by decide)
  rw [List.mem_append, not_or] at hout
  simp [isPublished, hout.1, hout.2]

/-! ## One argument, written and read -/

section OneArgument

variable {engine : String} {e : String × Json F} {text : String} {p : String × Json F}

/-- Every argument that is posted has an item. -/
theorem exists_posted (h : isPosted engine e = true) : ∃ text p, Posted engine e text p := by
  rcases e with ⟨key, value⟩
  have hform := (Bool.and_eq_true_iff.mp h).2
  cases value with
  | bool b =>
      cases b with
      | true => exact ⟨_, _, .on rfl⟩
      | false =>
          rcases Option.isSome_iff_exists.mp hform with ⟨flag, hflag⟩
          exact ⟨flag, _, .off rfl hflag⟩
  | int _ | float _ | str _ | null | list _ | dict _ => exact ⟨_, _, .value rfl⟩

omit [PyRuntime F] in
theorem isPosted_value (hvalue : isOnOff e.2 = false) : isPosted engine e = isPublished e.1 := by
  rcases e with ⟨key, value⟩
  cases value with
  | bool b => cases hvalue
  | int _ | float _ | str _ | null | list _ | dict _ => exact Bool.and_true _

theorem Posted.argItem_eq (harg : IsArgValue e.2) (h : Posted engine e text p) :
    argItem engine e.1 e.2 = some text := by
  rcases e with ⟨key, value⟩
  cases h with
  | on hvalue =>
      cases hvalue
      rfl
  | off hvalue hflag =>
      cases hvalue
      exact hflag
  | value hvalue =>
      cases value with
      | bool b => cases hvalue
      | int n => rfl
      | float x => rfl
      | str s =>
          have hne : s ≠ "" := harg
          simp [argItem, hne]
      | null => exact harg.elim
      | list items => exact harg.elim
      | dict entries => exact harg.elim

theorem Posted.readAs_eq (hpublished : isPublished e.1 = true) (h : Posted engine e text p) :
    readAs engine e = some p := by
  rcases e with ⟨key, value⟩
  unfold readAs
  rw [if_pos hpublished]
  cases h with
  | on hvalue =>
      cases hvalue
      rfl
  | off hvalue hflag =>
      cases hvalue
      dsimp only at hflag ⊢
      rw [hflag, Option.map_some]
  | value hvalue =>
      cases value with
      | bool b => cases hvalue
      | int _ | float _ | str _ | null | list _ | dict _ => rfl

/-- An argument that is not posted has no item, and nothing is to be read. -/
theorem not_posted (h : isPosted engine e = false) :
    readAs engine e = none ∧ (isPublished e.1 = true → argItem engine e.1 e.2 = none) := by
  rcases e with ⟨key, value⟩
  unfold isPosted at h
  unfold readAs
  cases hpublished : isPublished key with
  | false => exact ⟨by simp, fun h => by cases h⟩
  | true =>
      rw [hpublished, Bool.true_and] at h
      cases value with
      | bool b =>
          cases b with
          | true => cases h
          | false =>
              have hnone : negatedFlag engine key = none := by simpa using h
              exact ⟨by simp [hnone], fun _ => hnone⟩
      | int _ | float _ | str _ | null | list _ | dict _ => cases h

theorem Posted.startsWith (h : Posted engine e text p) : startsWith text "--" = true := by
  cases h with
  | on _ => exact renderFlag_startsWith engine e.1
  | off _ hflag =>
      rw [negatedFlag_eq hflag]
      exact startsWith_append (by decide) _
  | value _ =>
      rw [String.append_assoc]
      exact startsWith_append (renderFlag_startsWith engine e.1) _

/-- No flag of an item holds an underscore, whatever its text. -/
theorem Posted.noLine (h : Posted engine e text p) : hasChar (itemParts text).1 '_' = false := by
  have hcut : ∀ (c : Char) (s : String), hasChar s '_' = false → hasChar (partitionAt c s).1 '_' = false := by
    intro c s hs
    rw [Bool.eq_false_iff]
    intro hline
    exact absurd ((hasChar_partitionAt hline).symm.trans hs) (by decide)
  have hbare : ∀ flag : String, hasChar flag '_' = false → hasChar (itemParts flag).1 '_' = false := by
    intro flag hflag
    unfold itemParts
    split
    · exact hcut '=' flag hflag
    · split
      · exact hcut ' ' flag hflag
      · exact hflag
  cases h with
  | on _ => exact hbare _ (renderFlag_noLine engine e.1)
  | off _ hflag => exact hbare _ (negatedFlag_noLine hflag)
  | value _ =>
      have hjoined : hasChar (renderFlag engine e.1 ++ "=" ++ fmtValue e.2) '=' = true := by
        simp [hasChar_append, hasChar_iff]
      have hparts : (itemParts (renderFlag engine e.1 ++ "=" ++ fmtValue e.2)).1 =
          (partitionAt '=' (renderFlag engine e.1 ++ "=" ++ fmtValue e.2)).1 := by simp [itemParts, hjoined]
      have hfirst : (partitionAt '=' (renderFlag engine e.1 ++ "=" ++ fmtValue e.2)).1 =
          (partitionAt '=' (renderFlag engine e.1)).1 := partitionAt_first '=' _ _
      rw [hparts, hfirst]
      exact hcut '=' _ (renderFlag_noLine engine e.1)

/-- The key an argument is to be read back under. -/
theorem Posted.key (h : Posted engine e text p) :
    underOwnKey engine e = true ∧ p.1 = e.1 ∨
      underOwnKey engine e = false ∧ p = ("no_" ++ writtenKey engine e.1, .bool true) := by
  rcases e with ⟨key, value⟩
  cases h with
  | on hvalue =>
      cases hvalue
      exact Or.inl ⟨rfl, rfl⟩
  | off hvalue _ =>
      cases hvalue
      cases hswitch : isSwitch engine key with
      | true => exact Or.inl ⟨hswitch, by simp⟩
      | false => exact Or.inr ⟨hswitch, by simp⟩
  | value hvalue =>
      left
      cases value with
      | bool b => cases hvalue
      | int _ | float _ | str _ | null | list _ | dict _ => exact ⟨rfl, rfl⟩

/-- On or off is read as on or off. -/
theorem Posted.isOnOff (h : Posted engine e text p) (hvalue : isOnOff e.2 = true) : ∃ b, p.2 = .bool b := by
  cases h with
  | on _ => exact ⟨true, rfl⟩
  | off _ _ =>
      split
      · exact ⟨false, rfl⟩
      · exact ⟨true, rfl⟩
  | value hno =>
      rw [hno] at hvalue
      cases hvalue

/-- A separator in a key is one in the key it is to be read back under. -/
theorem Posted.hasChar {c : Char} (hc : IsSeparator c) (h : Posted engine e text p) (hkey : hasChar e.1 c = true) :
    hasChar p.1 c = true := by
  rcases h.key with ⟨-, hname⟩ | ⟨-, hnamed⟩
  · rw [hname, hkey]
  · have hunlisted : dictGet (aliasMap engine) e.1 = none := by
      cases hget : dictGet (aliasMap engine) e.1 with
      | none => rfl
      | some listed =>
          have hplain := (aliasMap_noSeparator hc engine _ (mem_of_dictGet hget)).1
          exact absurd (hkey.symm.trans hplain) (by decide)
    have hwritten : writtenKey engine e.1 = flagKey (kebab e.1) := by
      simp [writtenKey, renderFlag, specOf, hunlisted, flagKey, flagToKey]
    rw [hnamed, hasChar_append, hwritten, hasChar_flagKey hc, hasChar_kebab hc, hkey, Bool.or_true]

/-! ### In the spelling of the reader -/

variable (hengine : engine = "sglang" ∨ engine = "vllm") (hnormal : IsNormal engine e) (hspelled : IsSpelled engine e)

include hengine hnormal hspelled

omit [PyRuntime F] in
/-- An argument in the spelling of the reader is read under its own key. -/
theorem canonicalKey_writtenKey (hown : underOwnKey engine e = true) :
    canonicalKey engine (writtenKey engine e.1) = e.1 := by
  cases hget : dictGet (aliasMap engine) e.1 with
  | some listed =>
      have hlisted : listed = e.1 := by simpa [canonicalKey, hget] using hnormal.canonical
      rcases listed_of_alias hengine hget with ⟨spec, hspec, hkey⟩
      have h := (writtenKey_listed hengine hspec).2.2
      rwa [hkey, hlisted] at h
  | none =>
      have hrender : renderFlag engine e.1 = kebab e.1 := by simp [renderFlag, specOf, hget]
      have hwritten : writtenKey engine e.1 = e.1 := by
        rw [writtenKey, hrender]
        exact hspelled.spelled hown
      rw [hwritten, hnormal.canonical]

/-- A switch that is on is read as one. -/
theorem read_on (hvalue : e.2 = .bool true) :
    readParts engine (itemParts (renderFlag engine e.1)) = (e.1, Json.bool (F := F) true) := by
  have hown : underOwnKey engine e = true := by simp [underOwnKey, hvalue]
  have hbare : ∀ c, IsSeparator c → hasChar e.1 c = false → hasChar (renderFlag engine e.1) c = false := by
    intro c hc hplain
    rw [Bool.eq_false_iff]
    exact fun h => absurd ((hasChar_of_renderFlag hc h).symm.trans hplain) (by decide)
  have hblank := hspelled.oneWord (by simp [isOnOff, hvalue])
  have hkey : canonicalKey engine (flagKey (renderFlag engine e.1)) = e.1 :=
    canonicalKey_writtenKey hengine hnormal hspelled hown
  rw [readParts_bare engine (hbare '=' (Or.inl rfl) hspelled.joined) (hbare ' ' (Or.inr rfl) hblank),
    normalized_true, hkey, hnormal.notNegated hvalue, if_neg Bool.false_ne_true]

/-- A switch that is off is read as one where it is known, and under its negated name where it is not. -/
theorem read_off (hvalue : e.2 = .bool false) {flag : String} (hflag : negatedFlag engine e.1 = some flag) :
    readParts engine (itemParts flag) = if isSwitch engine e.1 then (e.1, Json.bool (F := F) false)
      else ("no_" ++ writtenKey engine e.1, .bool true) := by
  have hbare : ∀ c, IsSeparator c → hasChar e.1 c = false → hasChar flag c = false := by
    intro c hc hplain
    rw [Bool.eq_false_iff]
    exact fun h => absurd ((hasChar_of_negatedFlag hc hflag h).symm.trans hplain) (by decide)
  have hblank := hspelled.oneWord (by simp [isOnOff, hvalue])
  rw [readParts_bare engine (hbare '=' (Or.inl rfl) hspelled.joined) (hbare ' ' (Or.inr rfl) hblank),
    normalized_true, flagKey_negated hflag, canonicalKey_no hengine, startsWith_no, dropText_no, Bool.true_and]
  cases hswitch : isSwitch engine e.1 with
  | true =>
      have hkey := canonicalKey_writtenKey hengine hnormal hspelled (by simp [underOwnKey, hvalue, hswitch])
      rw [hkey, hswitch, if_pos rfl]
  | false =>
      have hunknown := hspelled.unknown (by simp [underOwnKey, hvalue, hswitch])
      rw [hunknown, if_neg Bool.false_ne_true, if_neg Bool.false_ne_true]

/-- A value is read under its key, as a listed switch or as a text. -/
theorem read_value (hvalue : isOnOff e.2 = false) :
    readParts (F := F) engine (itemParts (renderFlag engine e.1 ++ "=" ++ fmtValue e.2)) =
      (e.1, coerced (textUnder engine e.1 (fmtValue e.2))) := by
  have hown : underOwnKey engine e = true := by
    unfold underOwnKey
    cases hv : e.2 with
    | bool b => simp [isOnOff, hv] at hvalue
    | int _ | float _ | str _ | null | list _ | dict _ => rfl
  have heq : hasChar (renderFlag engine e.1) '=' = false := by
    rw [Bool.eq_false_iff]
    exact fun h => absurd ((hasChar_of_renderFlag (Or.inl rfl) h).symm.trans hspelled.joined) (by decide)
  have hkey : canonicalKey engine (flagKey (renderFlag engine e.1)) = e.1 :=
    canonicalKey_writtenKey hengine hnormal hspelled hown
  rw [readParts_joined engine heq, hkey]

/-- An argument in the spelling of the reader is read under the key it is to be read back under. -/
theorem Posted.readKey (h : Posted engine e text p) : (readParts (F := F) engine (itemParts text)).1 = p.1 := by
  cases h with
  | on hvalue => rw [read_on hengine hnormal hspelled hvalue]
  | off hvalue hflag => rw [read_off hengine hnormal hspelled hvalue hflag]
  | value hvalue => rw [read_value hengine hnormal hspelled hvalue]

/-- Where its text is no word for on or off, it is read back as it was measured. -/
theorem Posted.reads (htext : ReadsAsText engine e) (h : Posted engine e text p) :
    readParts engine (itemParts text) = p := by
  cases h with
  | on hvalue => exact read_on hengine hnormal hspelled hvalue
  | off hvalue hflag => exact read_off hengine hnormal hspelled hvalue hflag
  | value hvalue =>
      rw [read_value hengine hnormal hspelled hvalue]
      cases hswitch : isSwitch engine e.1 with
      | false => simp [textUnder, hswitch, coerced]
      | true =>
          rcases htext hswitch hvalue with ⟨hon, hoff⟩
          simp [textUnder, hswitch, hon, hoff, coerced]

end OneArgument

/-! ## A whole config -/

section Config

variable {engine : String} {args : JsonDict F}

/-- What is to be read back is that of the posted arguments. -/
theorem readAs_eq_some {e : String × Json F} {p : String × Json F} :
    readAs engine e = some p ↔ isPosted engine e = true ∧ ∃ text, Posted engine e text p := by
  constructor
  · intro h
    cases hposted : isPosted engine e with
    | false =>
        rw [(not_posted hposted).1] at h
        cases h
    | true =>
        rcases exists_posted hposted with ⟨text, asked, hp⟩
        have hsame := (hp.readAs_eq (Bool.and_eq_true_iff.mp hposted).1).symm.trans h
        exact ⟨rfl, text, Option.some.inj hsame ▸ hp⟩
  · rintro ⟨hposted, text, hp⟩
    exact hp.readAs_eq (Bool.and_eq_true_iff.mp hposted).1

/-- Two arguments to be read back under one key are to be read back as the same. -/
theorem readAs_apart (hengine : engine = "sglang" ∨ engine = "vllm") (hnd : (args.map Prod.fst).Nodup)
    (hpub : Publishable engine args) {e e' : String × Json F} (he : e ∈ args) (he' : e' ∈ args)
    {p p' : String × Json F} (h : readAs engine e = some p) (h' : readAs engine e' = some p') (hkey : p.1 = p'.1) :
    p = p' := by
  rcases readAs_eq_some.mp h with ⟨hposted, text, hp⟩
  rcases readAs_eq_some.mp h' with ⟨hposted', text', hp'⟩
  -- an unknown switch that is off, next to the argument under its negated name
  have hnegated : ∀ {e e' : String × Json F} {p p' : String × Json F} {text : String}, e ∈ args → e' ∈ args →
      isPosted engine e = true → underOwnKey engine e = false → p = ("no_" ++ writtenKey engine e.1, .bool true) →
        Posted engine e' text p' → underOwnKey engine e' = true → p'.1 = e'.1 → p.1 = p'.1 → p = p' := by
    intro e e' p p' text he he' hposted hother hp hp' hown hname hkey
    have hno : e'.1 = "no_" ++ writtenKey engine e.1 := by rw [← hname, ← hkey, hp]
    have honOff := hpub.negated e he hposted hother e' he' hno
    cases hp' with
    | on _ => rw [hp, hno]
    | off hvalue _ =>
        have hswitch : isSwitch engine e'.1 = true := by simpa [underOwnKey, hvalue] using hown
        have hstart := (isSwitch_listed hengine hswitch).2
        rw [hno, startsWith_no] at hstart
        cases hstart
    | value hvalue =>
        rw [hvalue] at honOff
        cases honOff
  rcases hp.key with ⟨hown, hname⟩ | ⟨hother, hnamed⟩
  · rcases hp'.key with ⟨hown', hname'⟩ | ⟨hother', hnamed'⟩
    · have hsame : e = e' := List.inj_on_of_nodup_map hnd he he' (hname.symm.trans (hkey.trans hname'))
      rw [hsame] at h
      exact Option.some.inj (h.symm.trans h')
    · exact (hnegated he' he hposted' hother' hnamed' hp hown hname hkey.symm).symm
  · rcases hp'.key with ⟨hown', hname'⟩ | ⟨hother', hnamed'⟩
    · exact hnegated he he' hposted hother hnamed hp' hown' hname' hkey
    · rw [hnamed, hnamed'] at hkey ⊢
      exact Prod.ext hkey rfl

variable (harg : ∀ e ∈ args, IsArgValue e.2)

include harg

theorem mem_extraArgs_items {text : String} : text ∈ (extraArgs engine args).items ↔
    ∃ e ∈ args, isPosted engine e = true ∧ ∃ p, Posted engine e text p := by
  rw [extraArgs_items, List.mem_flatMap]
  constructor
  · rintro ⟨e, he, htext⟩
    rcases List.mem_filter.mp he with ⟨hin, hpublished⟩
    have hin := mem_sortEntries.mp hin
    have hitem : argItem engine e.1 e.2 = some text := Option.mem_toList.mp htext
    cases hposted : isPosted engine e with
    | false =>
        rw [(not_posted hposted).2 hpublished] at hitem
        cases hitem
    | true =>
        rcases exists_posted hposted with ⟨text', p, hp⟩
        have hsame := (hp.argItem_eq (harg e hin)).symm.trans hitem
        exact ⟨e, hin, hposted, p, Option.some.inj hsame ▸ hp⟩
  · rintro ⟨e, hin, hposted, p, hp⟩
    have hpublished := (Bool.and_eq_true_iff.mp hposted).1
    exact ⟨e, List.mem_filter.mpr ⟨mem_sortEntries.mpr hin, hpublished⟩,
      Option.mem_toList.mpr (hp.argItem_eq (harg e hin))⟩

/-- The list is read item by item. -/
theorem argFlags_extraArgs : argFlags engine ((extraArgs engine args).items.map (Json.str (F := F))) =
    filled ((extraArgs engine args).items.map fun t => readParts engine (itemParts t)) := by
  refine argFlags_items (fun t ht => ?_) engine
  rcases (mem_extraArgs_items harg).mp ht with ⟨e, -, -, p, hp⟩
  exact hp.startsWith

/-- What is read is what some item reads as. -/
theorem read_of_mem {p : String × Json F}
    (h : p ∈ argFlags engine ((extraArgs engine args).items.map (Json.str (F := F)))) :
    ∃ e ∈ args, isPosted engine e = true ∧ ∃ text asked, Posted engine e text asked ∧
      readParts engine (itemParts text) = p := by
  rw [argFlags_extraArgs harg] at h
  rcases List.mem_map.mp (mem_of_filled h) with ⟨text, htext, hread⟩
  rcases (mem_extraArgs_items harg).mp htext with ⟨e, he, hposted, asked, hp⟩
  exact ⟨e, he, hposted, text, asked, hp, hread⟩

/-! ### Both ways -/

variable (hnormal : ∀ e ∈ args, IsNormal engine e) (hengine : engine = "sglang" ∨ engine = "vllm")

include hnormal hengine

/-- Arguments that can be read back are read back, and nothing else is. -/
theorem Publishable.mem_argFlags (hnd : (args.map Prod.fst).Nodup) (hpub : Publishable engine args)
    (p : String × Json F) :
    p ∈ argFlags engine ((extraArgs engine args).items.map (Json.str (F := F))) ↔
      ∃ e ∈ args, readAs engine e = some p := by
  have hread : ∀ p, (p ∈ (extraArgs engine args).items.map fun t => readParts engine (itemParts t)) ↔
      ∃ e ∈ args, readAs engine e = some p := by
    intro p
    rw [List.mem_map]
    constructor
    · rintro ⟨text, htext, rfl⟩
      rcases (mem_extraArgs_items harg).mp htext with ⟨e, he, hposted, asked, hp⟩
      have hasked := hp.reads hengine (hnormal e he) (hpub.spelled e he hposted) (hpub.asText e he hposted)
      exact ⟨e, he, readAs_eq_some.mpr ⟨hposted, text, hasked ▸ hp⟩⟩
    · rintro ⟨e, he, hasked⟩
      rcases readAs_eq_some.mp hasked with ⟨hposted, text, hp⟩
      exact ⟨text, (mem_extraArgs_items harg).mpr ⟨e, he, hposted, p, hp⟩,
        hp.reads hengine (hnormal e he) (hpub.spelled e he hposted) (hpub.asText e he hposted)⟩
  rw [argFlags_extraArgs harg, mem_filled, hread]
  intro p hp p' hp' hkey
  rcases (hread p).mp hp with ⟨e, he, h⟩
  rcases (hread p').mp hp' with ⟨e', he', h'⟩
  exact readAs_apart hengine hnd hpub he he' h h' hkey

omit hnormal hengine in
/-- What is to be read back is read from some item. -/
theorem ReadsBackAs.read (h : ReadsBackAs engine args) {e : String × Json F} (he : e ∈ args) {p : String × Json F}
    (hasked : readAs engine e = some p) :
    ∃ e' ∈ args, isPosted engine e' = true ∧ ∃ text asked, Posted engine e' text asked ∧
      readParts engine (itemParts text) = p :=
  read_of_mem harg ((h.flags p).mpr ⟨e, he, hasked⟩)

omit hnormal in
/-- What is read back is spelled as the reader spells keys. -/
theorem ReadsBackAs.isSpelled (h : ReadsBackAs engine args) {e : String × Json F} (he : e ∈ args)
    (hposted : isPosted engine e = true) : IsSpelled engine e := by
  rcases exists_posted hposted with ⟨text, p, hp⟩
  have hasked := readAs_eq_some.mpr ⟨hposted, text, hp⟩
  rcases h.read harg he hasked with ⟨e', he', -, text', asked', hp', hread⟩
  refine
    { spelled := fun hown => ?_
      joined := ?_
      oneWord := fun hvalue => ?_
      unknown := fun hother => ?_ }
  · have hname : p.1 = e.1 := hp.key.elim And.right fun hother => absurd (hown.symm.trans hother.1) (by decide)
    rcases readKey_listed (F := F) hengine (itemParts text') with hself | hsnake
    · rw [← hname, ← hread, hself, flagKey_kebab_flagKey hp'.noLine]
    · rw [hread, hname] at hsnake
      exact flagToKey_kebab hsnake
  · rw [Bool.eq_false_iff]
    intro heq
    have hnoEq := readKey_noEquals (F := F) hengine text'
    rw [hread, hp.hasChar (Or.inl rfl) heq] at hnoEq
    cases hnoEq
  · rw [Bool.eq_false_iff]
    intro hblank
    rcases hp.isOnOff hvalue with ⟨b, hb⟩
    have hreadBlank : hasChar (readParts (F := F) engine (itemParts text')).1 ' ' = true := by
      rw [hread, hp.hasChar (Or.inr rfl) hblank]
    have hread' := readKey_blank hengine hreadBlank b
    rw [hread] at hread'
    exact hread' hb
  · have hnamed := hp.key.resolve_left fun hown => absurd (hown.1.symm.trans hother) (by decide)
    exact readKey_negated hengine (hread.trans hnamed.2)

/-- What is read back is no word for on or off. -/
theorem ReadsBackAs.readsAsText (hnd : (args.map Prod.fst).Nodup) (h : ReadsBackAs engine args)
    {e : String × Json F} (he : e ∈ args) (hposted : isPosted engine e = true) : ReadsAsText engine e := by
  intro hswitch hvalue
  have hp : Posted engine e _ _ := .value hvalue
  rcases h.read harg he (readAs_eq_some.mpr ⟨hposted, _, hp⟩) with ⟨e', he', hposted', text', asked', hp', hread⟩
  have hkey : asked'.1 = e.1 := by
    rw [← hp'.readKey hengine (hnormal e' he') (h.isSpelled harg hengine he' hposted'), hread]
  rcases hp'.key with ⟨-, hname⟩ | ⟨-, hnamed⟩
  · -- the item is its own
    have hsame : e' = e := List.inj_on_of_nodup_map hnd he' he (hname.symm.trans hkey)
    rw [hsame] at hp'
    have htext := Option.some.inj ((hp'.argItem_eq (harg e he)).symm.trans (hp.argItem_eq (harg e he)))
    rw [htext, read_value hengine (hnormal e he) (h.isSpelled harg hengine he hposted) hvalue] at hread
    have hsame := (Prod.ext_iff.mp hread).2
    dsimp only at hsame
    constructor
    · intro hon
      simp only [textUnder, hswitch, hon, if_true, coerced] at hsame
      exact coerceText_notBool _ true hsame.symm
    · intro hoff
      by_cases hon : lowerAscii (strip (fmtValue e.2)) ∈ trueWords
      · simp only [textUnder, hswitch, hon, if_true, coerced] at hsame
        exact coerceText_notBool _ true hsame.symm
      · simp only [textUnder, hswitch, hon, hoff, if_true, if_false, coerced] at hsame
        exact coerceText_notBool _ false hsame.symm
  · -- a switch has no negated name
    rw [hnamed] at hkey
    have hstart := (isSwitch_listed hengine hswitch).2
    rw [← hkey, startsWith_no] at hstart
    cases hstart

omit hnormal hengine in
/-- An unknown switch that is off is not read back next to its negated name with a value. -/
theorem ReadsBackAs.negated (h : ReadsBackAs engine args) {e : String × Json F} (he : e ∈ args)
    (hposted : isPosted engine e = true) (hother : underOwnKey engine e = false) {e' : String × Json F}
    (he' : e' ∈ args) (hname : e'.1 = "no_" ++ writtenKey engine e.1) : isOnOff e'.2 = true := by
  rw [← Bool.not_eq_false]
  intro hvalue
  rcases exists_posted hposted with ⟨text, p, hp⟩
  have hnamed := (hp.key.resolve_left fun hown => absurd (hown.1.symm.trans hother) (by decide)).2
  have hp' : Posted engine e' _ _ := .value hvalue
  have hposted' : isPosted engine e' = true := by
    rw [isPosted_value hvalue, hname]
    exact isPublished_no _
  have hin := (h.flags _).mpr ⟨e, he, readAs_eq_some.mpr ⟨hposted, text, hp⟩⟩
  have hin' := (h.flags _).mpr ⟨e', he', readAs_eq_some.mpr ⟨hposted', _, hp'⟩⟩
  rw [argFlags_extraArgs harg] at hin hin'
  have hsame := List.inj_on_of_nodup_map (filled_nodup _) hin hin' (by rw [hnamed, hname])
  rw [hnamed, Prod.mk.injEq] at hsame
  exact coerceText_notBool (fmtValue e'.2) true hsame.2.symm

omit harg hnormal hengine in
/-- The context length is that of one of the context keys. -/
theorem extraArgs_context_mem {e : String × Json F} (he : e ∈ args) (hkey : e.1 ∈ contextKeys) :
    ∃ e' ∈ args, e'.1 ∈ contextKeys ∧ (extraArgs engine args).context = fmtValue e'.2 := by
  have hin : e ∈ (sortEntries args).filter fun e => contextKeys.contains e.1 :=
    List.mem_filter.mpr ⟨mem_sortEntries.mpr he, by simpa using hkey⟩
  rcases List.getLast?_isSome.mpr (List.ne_nil_of_mem hin) |> Option.isSome_iff_exists.mp with ⟨last, hlast⟩
  rcases List.mem_filter.mp (List.mem_of_getLast? hlast) with ⟨hin', hkey'⟩
  exact ⟨last, mem_sortEntries.mp hin', by simpa using hkey', by rw [extraArgs_context, hlast]; rfl⟩

omit harg hnormal hengine in
theorem extraArgs_noContext (h : ∀ e ∈ args, e.1 ∉ contextKeys) : (extraArgs engine args).context = "" := by
  have hnone : ((sortEntries args).filter fun e => contextKeys.contains e.1) = [] := by
    rw [List.filter_eq_nil_iff]
    intro e he
    simpa using h e (mem_sortEntries.mp he)
  rw [extraArgs_context, hnone]
  rfl

end Config

/-- A normalised config of booleans, numbers and texts reads back from what is published of it as it was
measured exactly where each argument can be read back and none is in the way of another. -/
theorem published_reads_back_iff {engine : String} (hengine : engine = "sglang" ∨ engine = "vllm")
    (raw : JsonDict F) (harg : ∀ e ∈ (normalizeArgs engine raw).1, IsArgValue e.2) :
    ReadsBackAs engine (normalizeArgs engine raw).1 ↔ Publishable engine (normalizeArgs engine raw).1 := by
  have hnd := normalizeArgs_nodup engine raw
  have hnormal : ∀ e ∈ (normalizeArgs engine raw).1, IsNormal engine e := fun e he => isNormal_of_mem he
  constructor
  · intro h
    exact
      { spelled := fun e he hposted => h.isSpelled harg hengine he hposted
        asText := fun e he hposted => h.readsAsText harg hnormal hengine hnd he hposted
        negated := fun e he hposted hother e' he' hname => h.negated harg he hposted hother he' hname
        oneContext := fun e he e' he' hkey hkey' =>
          (h.context e.1 hkey e.2 he).symm.trans (h.context e'.1 hkey' e'.2 he') }
  · intro hpub
    exact
      { flags := hpub.mem_argFlags harg hnormal hengine hnd
        context := fun key hkey value hin => by
          have hlast : ∃ e' ∈ (normalizeArgs engine raw).1, e'.1 ∈ contextKeys ∧
              (extraArgs engine (normalizeArgs engine raw).1).context = fmtValue e'.2 :=
            extraArgs_context_mem hin hkey
          rcases hlast with ⟨e', he', hkey', hcontext⟩
          exact hcontext.trans (hpub.oneContext e' he' (key, value) hin hkey' hkey)
        noContext := extraArgs_noContext }

/-- Switches on and off, known and not, a text that looks like flags, and what the chart sets itself. -/
def measuredArgs : JsonDict Empty :=
  [("tensor_parallel_size", .int 4), ("no_enable_lora", .bool true), ("a_new_switch", .bool false),
    ("trust_remote_code", .bool true), ("speculative_config", .str "a=b --c"), ("max_model_len", .int 8192),
    ("port", .int 8000)]

theorem measuredArgs_publishable : Publishable "vllm" (normalizeArgs "vllm" measuredArgs).1 where
  spelled e he hposted := by
    have hspelled : ∀ e ∈ (normalizeArgs "vllm" measuredArgs).1, flagKey (kebab e.1) = e.1 ∧
        hasChar e.1 '=' = false ∧ hasChar e.1 ' ' = false ∧
          (underOwnKey "vllm" e = false → isSwitch "vllm" (canonicalKey "vllm" (writtenKey "vllm" e.1)) = false) := by
      decide
    rcases hspelled e he with ⟨hself, heq, hblank, hunknown⟩
    exact ⟨fun _ => hself, heq, fun _ => hblank, hunknown⟩
  asText e he hposted := by
    have hnone : ∀ e ∈ (normalizeArgs "vllm" measuredArgs).1, isSwitch "vllm" e.1 = true → isOnOff e.2 = true := by
      decide
    intro hswitch hvalue
    rw [hnone e he hswitch] at hvalue
    cases hvalue
  negated := by decide
  oneContext := by decide

theorem measuredArgs_readBack : ReadsBackAs "vllm" (normalizeArgs "vllm" measuredArgs).1 :=
  (published_reads_back_iff (Or.inr rfl) measuredArgs (by decide)).mpr measuredArgs_publishable

/-- The number 1 on a known switch is published as `--enable-lora=1` and read as on. -/
theorem numberOnSwitch_turnedOn : ¬ ∀ (engine : String) (raw : JsonDict Empty), engine = "sglang" ∨ engine = "vllm" →
    (∀ e ∈ (normalizeArgs engine raw).1, IsArgValue e.2) → ReadsBackAs engine (normalizeArgs engine raw).1 := by
  intro h
  have hback := h "vllm" [("enable_lora", .int 1)] (Or.inr rfl) (by decide)
  have hnormal : (normalizeArgs "vllm" [("enable_lora", Json.int (F := Empty) 1)]).1 = [("enable_lora", .int 1)] := by
    rfl
  have hread : argFlags "vllm" ((extraArgs "vllm" [("enable_lora", Json.int (F := Empty) 1)]).items.map Json.str) =
      [("enable_lora", Json.bool (F := Empty) true)] := by rfl
  rw [hnormal] at hback
  have hin := (hback.flags ("enable_lora", coerceText "1")).mpr ⟨_, List.mem_singleton_self _, by rfl⟩
  rw [hread] at hin
  exact coerceText_notBool "1" true (Prod.ext_iff.mp (List.mem_singleton.mp hin)).2

end Published

end AutoTune
