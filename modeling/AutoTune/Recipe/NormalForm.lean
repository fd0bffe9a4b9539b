import AutoTune.Recipe.EditFlag

/-!
# The normal form of arguments

`normalize_args` settles each entry alone and then assigns it. An entry it has settled it leaves as it is, so
a second pass moves nothing; and since a pass only assigns, the pass over two dictionaries in a row is the
second one's over the first one's.
-/

namespace AutoTune

open Lib

/-! ## Canonical keys -/

/-- An engine without a catalogue lists no flag. -/
theorem specsOf_unknown {engine : String} (h : ¬(engine = "sglang" ∨ engine = "vllm")) : specsOf engine = [] := by
  rw [not_or] at h
  unfold specsOf
  rw [if_neg h.1, if_neg h.2]

theorem canonicalKey_unknown {engine : String} (h : ¬(engine = "sglang" ∨ engine = "vllm")) (key : String) :
    canonicalKey engine key = key := by
  simp [canonicalKey, aliasMap, specsOf_unknown h]

/-- The key a spelling stands for stands for itself, on every engine. -/
theorem canonicalKey_again (engine key : String) :
    canonicalKey engine (canonicalKey engine key) = canonicalKey engine key := by
  by_cases hengine : engine = "sglang" ∨ engine = "vllm"
  · exact canonicalKey_canonical hengine key
  · rw [canonicalKey_unknown hengine, canonicalKey_unknown hengine]

/-- No switch has a negated name. -/
theorem isSwitch_notNegated {engine key : String} (h : isSwitch engine key = true) :
    startsWith key "no_" = false := by
  by_cases hengine : engine = "sglang" ∨ engine = "vllm"
  · exact (isSwitch_listed hengine h).2
  · simp [isSwitch, specMap, specsOf_unknown hengine] at h

/-! ## Normal entries -/

section Normal

variable {F : Type}

/-- What `normalize_args` leaves of an entry: its key is canonical and no negated name of a known switch that
is on, and a known switch has none of the words for on and off. -/
structure IsNormal (engine : String) (e : String × Json F) : Prop where
  canonical : canonicalKey engine e.1 = e.1
  notNegated : e.2 = .bool true →
    (startsWith e.1 "no_" && isSwitch engine (canonicalKey engine (dropText 3 e.1))) = false
  noWord : ∀ s, e.2 = .str s → isSwitch engine e.1 = true →
    lowerAscii (strip s) ∉ trueWords ∧ lowerAscii (strip s) ∉ falseWords

variable {engine : String}

/-- A value under a canonical key that is neither on nor a text is normal. -/
theorem isNormal_plain (key : String) {value : Json F} (htrue : value ≠ .bool true) (hstr : ∀ s, value ≠ .str s) :
    IsNormal engine (canonicalKey engine key, value) where
  canonical := canonicalKey_again engine key
  notNegated h := absurd h htrue
  noWord s h := absurd h (hstr s)

theorem isNormal_normalized (e : String × Json F) : IsNormal engine (normalized engine e) := by
  rcases e with ⟨key, value⟩
  by_cases htrue : value = .bool true
  · rw [htrue, normalized_true]
    split
    · exact isNormal_plain _ (by simp) (by simp)
    · rename_i hno
      exact
        { canonical := canonicalKey_again engine key
          notNegated := fun _ => Bool.eq_false_iff.mpr hno
          noWord := fun s h => by cases h }
  by_cases hstr : ∃ s, value = .str s
  · rcases hstr with ⟨s, rfl⟩
    rw [normalized_text]
    refine ⟨canonicalKey_again engine key, fun hon => ?_, fun s' hs' hswitch => ?_⟩
    · -- only a switch is on, and no switch has a negated name
      dsimp only at hon ⊢
      cases hswitch : isSwitch engine (canonicalKey engine key) with
      | false => simp [textUnder, hswitch] at hon
      | true => rw [isSwitch_notNegated hswitch, Bool.false_and]
    · dsimp only at hs' hswitch
      simp only [textUnder, hswitch, if_true] at hs'
      split at hs'
      · cases hs'
      · split at hs'
        · cases hs'
        · rename_i hon hoff
          cases hs'
          exact ⟨hon, hoff⟩
  · have hplain : ∀ s, value ≠ .str s := fun s hs => hstr ⟨s, hs⟩
    rw [normalized_plain engine key htrue hplain]
    exact isNormal_plain key htrue hplain

/-- A normal entry stays as it is, and nothing is noted of it. -/
theorem IsNormal.stays {e : String × Json F} (h : IsNormal engine e) :
    normalizeEntry engine e.1 e.2 = (e.1, e.2, []) := by
  rcases e with ⟨key, value⟩
  rcases h with ⟨hkey, hnegated, hword⟩
  dsimp only at hkey hnegated hword ⊢
  unfold canonicalKey at hkey
  unfold normalizeEntry
  dsimp only
  rw [hkey, if_pos rfl]
  cases value with
  | bool b =>
      cases b with
      | false => rfl
      | true =>
          have hoff := hnegated rfl
          unfold isSwitch canonicalKey at hoff
          cases hno : startsWith key "no_" with
          | false => rfl
          | true =>
              rw [hno, Bool.true_and] at hoff
              simp only [hoff]
              rfl
  | str s =>
      dsimp only
      by_cases hswitch : isSwitch engine key = true
      · rcases hword s rfl hswitch with ⟨hon, hoff⟩
        rw [if_neg hon, if_neg hoff, ite_self]
      · unfold isSwitch at hswitch
        rw [if_neg hswitch]
  | null => rfl
  | int n => rfl
  | float x => rfl
  | list items => rfl
  | dict entries => rfl

/-! ## Normal dictionaries -/

theorem normalizeArgs_nodup (engine : String) (raw : JsonDict F) :
    ((normalizeArgs engine raw).1.map Prod.fst).Nodup := by
  rw [normalizeArgs_fst, ← List.nodup_reverse, ← List.map_reverse, reverse_foldl_dictSet, keys_spellings]
  exact List.nodup_dedup _

theorem isNormal_of_mem {raw : JsonDict F} {e : String × Json F} (h : e ∈ (normalizeArgs engine raw).1) :
    IsNormal engine e := by
  rw [normalizeArgs_fst] at h
  have hin : e ∈ spellings (raw.map (normalized engine)) := by
    rw [← reverse_foldl_dictSet]
    exact List.mem_reverse.mpr h
  rcases List.mem_map.mp (mem_of_mem_spellings hin) with ⟨e', -, rfl⟩
  exact isNormal_normalized e'

/-- A dictionary of normal entries stays as it is. -/
theorem normalizeArgs_normal {args : JsonDict F} (hnd : (args.map Prod.fst).Nodup)
    (h : ∀ e ∈ args, IsNormal engine e) : normalizeArgs engine args = (args, []) := by
  suffices hloop : ∀ out : JsonDict F × List String, ((out.1 ++ args).map Prod.fst).Nodup →
      args.foldl (normalizeTurn engine) out = (out.1 ++ args, out.2) from hloop ([], []) hnd
  clear hnd
  induction args with
  | nil =>
      intro out _
      rw [List.foldl_nil, List.append_nil]
  | cons e args ih =>
      intro out hout
      rcases List.forall_mem_cons.mp h with ⟨he, hargs⟩
      have hfresh : e.1 ∉ out.1.map Prod.fst := by
        rw [List.map_append, List.nodup_append] at hout
        exact fun hmem => hout.2.2 _ hmem _ List.mem_cons_self rfl
      have hsplit : out.1 ++ e :: args = (out.1 ++ [e]) ++ args := List.append_cons out.1 e args
      have hturn : normalizeTurn engine out e = (out.1 ++ [e], out.2) := by
        have hnew : dictHas out.1 e.1 = false := by
          rw [dictHas_eq, ← Bool.not_eq_true, dictGet_isSome]
          exact hfresh
        simp [normalizeTurn, normalized, he.stays, hnew, dictSet_of_notMem e.2 hfresh]
      rw [List.foldl_cons, hturn, ih hargs _ (hsplit ▸ hout), hsplit]

/-- A pass over two dictionaries in a row is the second one's pass over the first one's. -/
theorem normalizeArgs_append (engine : String) (a b : JsonDict F) :
    (normalizeArgs engine (a ++ b)).1 =
      (normalizeArgs engine b).1.foldl (fun d e => dictSet d e.1 e.2) (normalizeArgs engine a).1 := by
  have hnil : (([] : JsonDict F).map Prod.fst).Nodup := List.nodup_nil
  rw [normalizeArgs_fst, normalizeArgs_fst, normalizeArgs_fst, List.map_append, List.foldl_append,
    foldl_dictSet_assoc _ hnil, List.foldl_nil]

/-- Normalising twice is normalising once, without a note; normalising one dictionary after another is
overwriting the one's normal form with the other's, in order and key by key. -/
theorem normalizeArgs_laws (engine : String) :
    (∀ args : JsonDict F,
      normalizeArgs engine (normalizeArgs engine args).1 = ((normalizeArgs engine args).1, [])) ∧
    ∀ a b : JsonDict F,
      (normalizeArgs engine (a ++ b)).1 =
          (normalizeArgs engine b).1.foldl (fun d e => dictSet d e.1 e.2) (normalizeArgs engine a).1 ∧
        ∀ key, dictGet (normalizeArgs engine (a ++ b)).1 key =
          (dictGet (normalizeArgs engine b).1 key).or (dictGet (normalizeArgs engine a).1 key) := by
  refine ⟨fun args => ?_, fun a b => ⟨normalizeArgs_append engine a b, fun key => ?_⟩⟩
  · exact normalizeArgs_normal (normalizeArgs_nodup engine args) fun e he => isNormal_of_mem he
  · rw [normalizeArgs_append]
    exact dictGet_assignAll (normalizeArgs_nodup engine b) _ key

end Normal

end AutoTune
