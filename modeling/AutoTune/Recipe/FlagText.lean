import AutoTune.Lib.Numerals
import AutoTune.Recipe.CommandLine
import Mathlib.Data.List.TakeWhile

/-!
# Flags as text

A rendered flag is a snake_case key in kebab case: reading it gives the key back, and it is taken for
nothing else.
-/

namespace AutoTune

open Lib

/-! ## Characters of a flag -/

/-- A letter or digit of a key. -/
def isKeyChar (c : Char) : Bool := ('a' ≤ c && c ≤ 'z') || ('0' ≤ c && c ≤ '9')

/-- A snake_case key begins with a letter or digit and goes on with them and underscores. -/
theorem isSnake_cons {key : String} (h : isSnake key = true) :
    ∃ c cs, key.toList = c :: cs ∧ isKeyChar c = true ∧ ∀ d ∈ cs, isKeyChar d = true ∨ d = '_' := by
  unfold isSnake at h
  cases hkey : key.toList with
  | nil =>
      rw [hkey] at h
      cases h
  | cons c cs =>
      rw [hkey] at h
      rcases Bool.and_eq_true_iff.mp h with ⟨hc, hcs⟩
      refine ⟨c, cs, rfl, hc, fun d hd => ?_⟩
      have hd := List.all_eq_true.mp hcs d hd
      rcases Bool.or_eq_true_iff.mp hd with hd | hd
      · exact Or.inl hd
      · exact Or.inr (of_decide_eq_true hd)

theorem isSnake_chars {key : String} (h : isSnake key = true) :
    ∀ d ∈ key.toList, isKeyChar d = true ∨ d = '_' := by
  rcases isSnake_cons h with ⟨c, cs, hkey, hc, hcs⟩
  intro d hd
  rw [hkey] at hd
  rcases List.mem_cons.mp hd with rfl | hd
  · exact Or.inl hc
  · exact hcs d hd

theorem isKeyChar_toNat {c : Char} (h : isKeyChar c = true) :
    (97 ≤ c.toNat ∧ c.toNat ≤ 122) ∨ (48 ≤ c.toNat ∧ c.toNat ≤ 57) := by
  unfold isKeyChar at h
  simp only [Bool.or_eq_true, Bool.and_eq_true, decide_eq_true_eq, Char.le_def] at h
  rcases h with ⟨h, h'⟩ | ⟨h, h'⟩
  · exact Or.inl ⟨h, h'⟩
  · exact Or.inr ⟨h, h'⟩

theorem isKeyChar_ne {c d : Char} (h : isKeyChar c = true) (hd : isKeyChar d = false) : c ≠ d := by
  rintro rfl
  rw [h] at hd
  cases hd

theorem isKeyChar_notSpace {c : Char} (h : isKeyChar c = true) : isSpace c = false := by
  have hnat := isKeyChar_toNat h
  unfold isSpace
  simp only [Bool.or_eq_false_iff, Bool.and_eq_false_iff, decide_eq_false_iff_not, beq_eq_false_iff_ne]
  omega

/-- `_kebab` as a list of characters. -/
theorem toList_kebab (key : String) :
    (kebab key).toList = '-' :: '-' :: key.toList.map fun c => if c = '_' then '-' else c := by
  have happend : (kebab key).toList = "--".toList ++ (replaceChar '_' '-' key).toList := String.toList_append
  rw [happend, replaceChar, String.toList_ofList, String.toList_ofList]
  rfl

theorem kebab_chars {key : String} (h : isSnake key = true) :
    ∀ c ∈ (kebab key).toList, isKeyChar c = true ∨ c = '-' := by
  intro c hc
  rw [toList_kebab] at hc
  rcases List.mem_cons.mp hc with rfl | hc
  · exact Or.inr rfl
  rcases List.mem_cons.mp hc with rfl | hc
  · exact Or.inr rfl
  rcases List.mem_map.mp hc with ⟨d, hd, rfl⟩
  rcases isSnake_chars h d hd with hplain | rfl
  · rw [if_neg (isKeyChar_ne hplain (by decide))]
    exact Or.inl hplain
  · exact Or.inr (if_pos rfl)

theorem kebab_startsWith (key : String) : startsWith (kebab key) "--" = true := by
  unfold startsWith
  rw [toList_kebab]
  rfl

theorem kebab_ne_empty (key : String) : kebab key ≠ "" := by
  intro h
  have hlist := congrArg String.toList h
  rw [toList_kebab] at hlist
  cases hlist

theorem kebab_noEquals {key : String} (h : isSnake key = true) : hasChar (kebab key) '=' = false := by
  unfold hasChar
  rw [List.contains_eq_mem, decide_eq_false_iff_not]
  intro hmem
  rcases kebab_chars h _ hmem with hc | hc
  · exact absurd hc (by decide)
  · exact absurd hc (by decide)

/-- Reading a flag gives the key it was written from. -/
theorem flagToKey_kebab {key : String} (h : isSnake key = true) : flagToKey (kebab key) = key := by
  rcases isSnake_cons h with ⟨c, cs, hkey, hc, hcs⟩
  have hdash : ¬ c = '_' := isKeyChar_ne hc (by decide)
  have hhyphen : ¬ (c == '-') = true := by
    rw [beq_iff_eq]
    exact isKeyChar_ne hc (by decide)
  have hback : ∀ d ∈ c :: cs, (if (if d = '_' then '-' else d) = '-' then '_' else
      (if d = '_' then '-' else d)) = d := by
    intro d hd
    by_cases hd' : d = '_'
    · rw [if_pos hd', if_pos rfl, hd']
    · rw [if_neg hd']
      have hplain : isKeyChar d = true := by
        rcases List.mem_cons.mp hd with rfl | hd
        · exact hc
        · exact (hcs d hd).resolve_right hd'
      exact if_neg (isKeyChar_ne hplain (by decide))
  apply String.toList_injective
  unfold flagToKey lstripChar replaceChar
  rw [String.toList_ofList, String.toList_ofList, toList_kebab, hkey, List.map_cons, if_neg hdash]
  rw [List.dropWhile_cons_of_pos (by decide), List.dropWhile_cons_of_pos (by decide),
    List.dropWhile_cons_of_neg (p := fun d => d == '-') hhyphen]
  calc
    List.map (fun c => if c = '-' then '_' else c) (c :: List.map (fun c => if c = '_' then '-' else c) cs)
        = List.map (fun c => if c = '-' then '_' else c)
            (List.map (fun c => if c = '_' then '-' else c) (c :: cs)) := by
          rw [List.map_cons (l := cs), if_neg hdash]
    _ = List.map (fun d => if (if d = '_' then '-' else d) = '-' then '_' else
          (if d = '_' then '-' else d)) (c :: cs) := by
          rw [List.map_map]
          rfl
    _ = c :: cs := by
          rw [List.map_congr_left hback, List.map_id']

theorem strip_kebab {key : String} (h : isSnake key = true) : strip (kebab key) = kebab key := by
  refine strip_of_noSpace fun c hc => ?_
  rcases kebab_chars h c hc with hc | rfl
  · exact isKeyChar_notSpace hc
  · decide

/-- A text one of whose characters a word lacks does not end in the word. -/
theorem endsWith_false {s p : String} {c : Char} (hp : c ∈ p.toList) (hs : c ∉ s.toList) :
    endsWith s p = false := by
  unfold endsWith
  rw [Bool.eq_false_iff, Ne, List.isSuffixOf_iff_suffix]
  intro h
  exact hs (h.subset hp)

/-- A flag is no launcher. -/
theorem isLauncher_kebab {key : String} (h : isSnake key = true) (prev : Option String) :
    isLauncher prev (kebab key) = false := by
  have hunder : '_' ∉ (kebab key).toList := by
    intro hmem
    rcases kebab_chars h _ hmem with hc | hc
    · exact absurd hc (by decide)
    · exact absurd hc (by decide)
  have hserve : ¬ kebab key = "serve" := by
    intro heq
    have hlist := congrArg String.toList heq
    rw [toList_kebab] at hlist
    cases hlist
  unfold isLauncher
  rw [endsWith_false (c := '_') (by decide) hunder, endsWith_false (c := '_') (by decide) hunder,
    decide_eq_false hserve]
  rfl

/-- A flag is not the program `sglang`. -/
theorem lastSegment_kebab {key : String} (h : isSnake key = true) : lastSegment (kebab key) = kebab key := by
  have hall : ∀ c ∈ (kebab key).toList.reverse, (c != '/') = true := by
    intro c hc
    rw [bne_iff_ne]
    rcases kebab_chars h c (List.mem_reverse.mp hc) with hc | rfl
    · exact isKeyChar_ne hc (by decide)
    · decide
  unfold lastSegment
  rw [List.takeWhile_eq_self_iff.mpr hall, List.reverse_reverse, String.ofList_toList]

/-! ## Texts of values -/

/-- A text that can stand as a value on a command line. -/
structure IsValueText (s : String) : Prop where
  notBlank : strip s ≠ ""
  stripped : strip s = s
  notFlag : startsWith s "--" = false
  notLaunchServer : endsWith s "launch_server" = false
  notApiServer : endsWith s "api_server" = false

theorem isLauncher_value {s key : String} (h : IsValueText s) (hkey : isSnake key = true) :
    isLauncher (some (kebab key)) s = false := by
  have hprogram : ¬ kebab key = "sglang" := by
    intro heq
    have hlist := congrArg String.toList heq
    rw [toList_kebab] at hlist
    cases hlist
  unfold isLauncher
  rw [h.notLaunchServer, h.notApiServer, Option.any_some, lastSegment_kebab hkey,
    decide_eq_false hprogram, Bool.and_false]
  rfl

/-- A whole number can stand as a value. -/
theorem isValueText_int (n : Int) : IsValueText (toString n) := by
  rcases intText_chars n with ⟨cs, hcs, hne, htext⟩
  have hchars : ∀ c ∈ (toString n).toList, c.isDigit = true ∨ c = '-' := by
    intro c hc
    rcases htext with htext | htext
    · rw [htext] at hc
      exact Or.inl (hcs c hc)
    · rw [htext] at hc
      rcases List.mem_cons.mp hc with rfl | hc
      · exact Or.inr rfl
      · exact Or.inl (hcs c hc)
  have hr : 'r' ∉ (toString n).toList := by
    intro hmem
    rcases hchars _ hmem with h | h
    · exact absurd h (by decide)
    · exact absurd h (by decide)
  have hstripped := strip_of_noSpace (intText_notSpace n)
  refine
    { notBlank := ?_, stripped := hstripped, notFlag := ?_
      notLaunchServer := endsWith_false (c := 'r') (by decide) hr
      notApiServer := endsWith_false (c := 'r') (by decide) hr }
  · rw [hstripped]
    intro hempty
    rw [hempty] at htext
    rcases htext with htext | htext
    · exact hne htext.symm
    · cases htext
  · -- a second minus would be a digit
    unfold startsWith
    rw [Bool.eq_false_iff, Ne, List.isPrefixOf_iff_prefix]
    rintro ⟨rest, hrest⟩
    rcases htext with htext | htext
    · rw [htext] at hrest
      have hdash := hcs '-' (by rw [← hrest]; exact List.mem_cons_self)
      exact absurd hdash (by decide)
    · rw [htext] at hrest
      have hcs' : '-' :: rest = cs := (List.cons.inj hrest).2
      have hdash := hcs '-' (by rw [← hcs']; exact List.mem_cons_self)
      exact absurd hdash (by decide)

theorem isSnake_notEnv {key : String} (h : isSnake key = true) : isEnvKey key = false := by
  unfold isEnvKey startsWith
  rw [Bool.eq_false_iff, Ne, List.isPrefixOf_iff_prefix]
  intro hprefix
  have hdot : '.' ∈ key.toList := hprefix.subset (by decide)
  rcases isSnake_chars h _ hdot with hc | hc
  · exact absurd hc (by decide)
  · exact absurd hc (by decide)

end AutoTune
