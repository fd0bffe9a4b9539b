import AutoTune.Lib.Shlex
import AutoTune.Recipe.LaunchCommand

/-!
# A launch command as one text

A deployment is pasted as it stands in a script: line continuations, quotes and all. `tokenize` joins the
lines, splits the text as a shell does and drops what is blank; `parseLaunchText` compiles the tokens. A text
of quoted words is read word by word.
-/

namespace AutoTune

open Lib

/-! ## Tokens -/

/-- How far a line continuation goes behind its backslash: blanks, then the end of the line. -/
def continuation (cs : List Char) : Option Nat :=
  let blanks := (cs.takeWhile fun c => c = ' ' || c = '\t').length
  match cs.drop blanks with
  | '\n' :: _ => some (blanks + 1)
  | '\r' :: '\n' :: _ => some (blanks + 2)
  | _ => none

/-- `_LINE_CONTINUATION.sub(" ", text)`. The first characters, so many as said, are part of a continuation that
is replaced already. -/
def joinLines : Nat → List Char → List Char
  | _, [] => []
  | skipped + 1, _ :: cs => joinLines skipped cs
  | 0, c :: cs =>
      match if c = '\\' then continuation cs else none with
      | some n => ' ' :: joinLines n cs
      | none => c :: joinLines 0 cs

/-- `_tokenize`. -/
def tokenize (text : String) : Except Shlex.SplitError (List String) :=
  (Shlex.split (joinLines 0 (strip text).toList)).map fun tokens =>
    (tokens.map fun token => strip (String.ofList token)).filter fun t => t ≠ ""

/-- Does a text name an engine? -/
def Names (text engine : String) : Prop := engine.toList <:+: (lowerAscii text).toList

instance (text engine : String) : Decidable (Names text engine) :=
  inferInstanceAs (Decidable (engine.toList <:+: (lowerAscii text).toList))

/-- `engine_of_command` of a text. -/
def engineOfText (command : String) : String :=
  if Names command "sglang" then "sglang"
  else if Names command "vllm" then "vllm"
  else ""

/-- `parse_launch_command` of a text that is no JSON list. -/
def parseLaunchText (F : Type) [PyRuntime F] (command : String) : Except Shlex.SplitError (LaunchCommand F) :=
  (tokenize command).map fun tokens =>
    let parts := dockerPart F tokens
    compileLaunch (engineOfText command) parts.1 parts.2

/-! ## Quoted words -/

/-- `_q`: the words of a command as one text. -/
def shellJoin (words : List String) : String := String.ofList (Shlex.join (words.map String.toList))

/-- A text that is read as it stands: not blank at its ends, not empty, and on one line. -/
structure IsToken (s : String) : Prop where
  stripped : strip s = s
  nonempty : s ≠ ""
  oneLine : '\n' ∉ s.toList

instance (s : String) : Decidable (IsToken s) :=
  decidable_of_iff (strip s = s ∧ s ≠ "" ∧ '\n' ∉ s.toList)
    ⟨fun h => ⟨h.1, h.2.1, h.2.2⟩, fun h => ⟨h.stripped, h.nonempty, h.oneLine⟩⟩

theorem continuation_oneLine {cs : List Char} (h : '\n' ∉ cs) : continuation cs = none := by
  have hdrop : ∀ n, '\n' ∉ cs.drop n := fun n hmem => h (List.mem_of_mem_drop hmem)
  unfold continuation
  dsimp only
  split
  · rename_i rest heq
    exact absurd (heq ▸ List.mem_cons_self) (hdrop _)
  · rename_i rest heq
    exact absurd (heq ▸ List.mem_cons_of_mem _ List.mem_cons_self) (hdrop _)
  · rfl

/-- A text on one line holds no continuation. -/
theorem joinLines_oneLine {cs : List Char} (h : '\n' ∉ cs) : joinLines 0 cs = cs := by
  induction cs with
  | nil => rfl
  | cons c cs ih =>
      have hrest : '\n' ∉ cs := fun hmem => h (List.mem_cons_of_mem c hmem)
      by_cases hc : c = '\\'
      · simp [joinLines, hc, continuation_oneLine hrest, ih hrest]
      · simp [joinLines, hc, ih hrest]

/-- A text that neither begins nor ends with a blank is stripped already. -/
theorem strip_ends {cs : List Char} {first last : Char} {behind before : List Char} (hfront : cs = first :: behind)
    (hfirst : isSpace first = false) (hback : cs = before ++ [last]) (hlast : isSpace last = false) :
    strip (String.ofList cs) = String.ofList cs := by
  have hkept : cs.dropWhile isSpace = cs := by simp [hfront, hfirst]
  have hrev : cs.reverse.dropWhile isSpace = cs.reverse := by simp [hback, hlast]
  unfold strip
  rw [String.toList_ofList, hkept, hrev, List.reverse_reverse]

theorem isSafe_notSpace {c : Char} (h : Shlex.isSafe c = true) : isSpace c = false := by
  have hrange : c.toNat < 128 ∧ 33 ≤ c.toNat := by
    unfold Shlex.isSafe at h
    simp only [Bool.or_eq_true, Bool.and_eq_true, decide_eq_true_eq, Char.le_def] at h
    have hval : ∀ d : Char, d.val ≤ c.val → d.toNat ≤ c.toNat := fun d hd => hd
    have hval' : ∀ d : Char, c.val ≤ d.val → c.toNat ≤ d.toNat := fun d hd => hd
    rcases h with (((⟨h1, h2⟩ | ⟨h1, h2⟩) | ⟨h1, h2⟩) | rfl) | h
    · have hlow : 97 ≤ c.toNat := hval 'a' h1
      have hhigh : c.toNat ≤ 122 := hval' 'z' h2
      omega
    · have hlow : 65 ≤ c.toNat := hval 'A' h1
      have hhigh : c.toNat ≤ 90 := hval' 'Z' h2
      omega
    · have hlow : 48 ≤ c.toNat := hval '0' h1
      have hhigh : c.toNat ≤ 57 := hval' '9' h2
      omega
    · decide
    · have hall : ∀ d ∈ ['@', '%', '+', '=', ':', ',', '.', '/', '-'], d.toNat < 128 ∧ 33 ≤ d.toNat := by simp
      exact hall c (by simpa using h)
  unfold isSpace
  simp only [Bool.or_eq_false_iff, Bool.and_eq_false_iff, decide_eq_false_iff_not, beq_eq_false_iff_ne]
  omega

/-- A command names the engine that a plain word of it names. -/
theorem names_of_word {words : List String} {word engine : String} (hmem : word ∈ words) (hne : word ≠ "")
    (hsafe : word.toList.all Shlex.isSafe = true) (h : Names word engine) : Names (shellJoin words) engine := by
  have hplain : Shlex.quote word.toList = word.toList := by simp [Shlex.quote, hne, hsafe]
  have hinfix : word.toList <:+: Shlex.join (words.map String.toList) :=
    hplain ▸ Shlex.quote_infix_join (List.mem_map.mpr ⟨word, hmem, rfl⟩)
  have hlower : (lowerAscii word).toList <:+: (lowerAscii (shellJoin words)).toList := by
    simpa [lowerAscii, shellJoin] using hinfix.map _
  exact h.trans hlower

/-- The words of a command are read back from its text. -/
theorem tokenize_shellJoin {words : List String} (h : ∀ word ∈ words, IsToken word) :
    tokenize (shellJoin words) = .ok words := by
  have hwords : ∀ ws : List String, (ws.map String.toList).map String.ofList = ws := by
    intro ws
    simp
  have hstrip : strip (shellJoin words) = shellJoin words := by
    cases words with
    | nil => rfl
    | cons word words =>
        have hne : (word :: words).map String.toList ≠ [] := by simp
        obtain ⟨⟨first, behind, hfront, hfirst⟩, before, last, hback, hlast⟩ :=
          Shlex.join_ends hne isSpace (by decide) fun c => isSafe_notSpace
        exact strip_ends hfront hfirst hback hlast
  have honeLine : '\n' ∉ Shlex.join (words.map String.toList) := by
    intro hmem
    rcases Shlex.mem_join hmem with ⟨cs, hcs, hlf⟩ | hlf | hlf | hlf
    · obtain ⟨word, hword, rfl⟩ := List.mem_map.mp hcs
      exact (h word hword).oneLine hlf
    · exact absurd hlf (by decide)
    · exact absurd hlf (by decide)
    · exact absurd hlf (by decide)
  have hkept : ((words.map String.toList).map fun token => strip (String.ofList token)) = words := by
    calc
      ((words.map String.toList).map fun token => strip (String.ofList token))
          = words.map strip := by simp [Function.comp_def]
      _ = words.map id := List.map_congr_left fun word hword => (h word hword).stripped
      _ = words := List.map_id words
  have hfull : words.filter (fun t => t ≠ "") = words :=
    List.filter_eq_self.mpr fun word hword => decide_eq_true (h word hword).nonempty
  unfold tokenize
  rw [hstrip]
  simp only [shellJoin, String.toList_ofList, joinLines_oneLine honeLine, Shlex.split_join, Except.map, hkept, hfull]

end AutoTune
