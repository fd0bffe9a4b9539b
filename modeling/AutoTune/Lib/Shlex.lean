import Mathlib.Data.List.Basic

/-!
# Words of a command line

`quote` writes a word so that a POSIX shell reads it as one, and `split` reads a line of words. Whatever the
words are, splitting the line they are joined to gives them back.
-/

namespace AutoTune.Lib.Shlex

/-! ## Quoting -/

/-- What `quote` leaves as it is: an ASCII word character, or one of nine marks no shell gives a meaning. -/
def isSafe (c : Char) : Bool :=
  ('a' ≤ c && c ≤ 'z') || ('A' ≤ c && c ≤ 'Z') || ('0' ≤ c && c ≤ '9') || c = '_' ||
    ['@', '%', '+', '=', ':', ',', '.', '/', '-'].contains c

/-- A quote is put between double quotes of its own. -/
def escapeQuote (c : Char) : List Char := if c = '\'' then ['\'', '"', '\'', '"', '\''] else [c]

/-- `shlex.quote`. -/
def quote (word : List Char) : List Char :=
  if word = [] then ['\'', '\'']
  else if word.all isSafe then word
  else '\'' :: word.flatMap escapeQuote ++ ['\'']

/-- `shlex.join`, and the driver's `_q`. -/
def join : List (List Char) → List Char
  | [] => []
  | [word] => quote word
  | word :: words => quote word ++ ' ' :: join words

/-! ## Splitting -/

/-- What `split` raises. -/
inductive SplitError where
  | noClosingQuotation
  | noEscapedCharacter
deriving DecidableEq, Repr

/-- Where the reader stands: between words, in a word, between quotes, or behind a backslash. -/
inductive Reading where
  | between
  | word
  | single
  | double
  | escaped
  | escapedInDouble
deriving DecidableEq, Repr

/-- The whitespace of a command line. -/
def isBlank (c : Char) : Bool := c = ' ' || c = '\t' || c = '\r' || c = '\n'

/-- Where a character outside quotes leads, and what of it goes into the word. -/
def outside (c : Char) : Reading × List Char :=
  if c = '\\' then (.escaped, [])
  else if c = '\'' then (.single, [])
  else if c = '"' then (.double, [])
  else (.word, [c])

/-- The words of a line: `token` is what was read of the word at hand, `quoted` says whether a part of it stood
between quotes. -/
def splitFrom : Reading → List Char → Bool → List Char → Except SplitError (List (List Char))
  | .between, token, quoted, [] => .ok (if token = [] ∧ quoted = false then [] else [token])
  | .word, token, quoted, [] => .ok (if token = [] ∧ quoted = false then [] else [token])
  | .single, _, _, [] => .error .noClosingQuotation
  | .double, _, _, [] => .error .noClosingQuotation
  | .escaped, _, _, [] => .error .noEscapedCharacter
  | .escapedInDouble, _, _, [] => .error .noEscapedCharacter
  | .between, token, quoted, c :: cs =>
      if isBlank c then
        if token = [] ∧ quoted = false then splitFrom .between token quoted cs
        else (splitFrom .between [] false cs).map (List.cons token)
      else splitFrom (outside c).1 (token ++ (outside c).2) quoted cs
  | .word, token, quoted, c :: cs =>
      if isBlank c then
        if token = [] ∧ quoted = false then splitFrom .between token quoted cs
        else (splitFrom .between [] false cs).map (List.cons token)
      else splitFrom (outside c).1 (token ++ (outside c).2) quoted cs
  | .single, token, _, c :: cs =>
      if c = '\'' then splitFrom .word token true cs else splitFrom .single (token ++ [c]) true cs
  | .double, token, _, c :: cs =>
      if c = '"' then splitFrom .word token true cs
      else if c = '\\' then splitFrom .escapedInDouble token true cs
      else splitFrom .double (token ++ [c]) true cs
  | .escaped, token, quoted, c :: cs => splitFrom .word (token ++ [c]) quoted cs
  -- between double quotes a backslash escapes only a double quote and itself
  | .escapedInDouble, token, quoted, c :: cs =>
      splitFrom .double (token ++ (if c = '\\' ∨ c = '"' then [c] else ['\\', c])) quoted cs

/-- `shlex.split`. -/
def split (line : List Char) : Except SplitError (List (List Char)) := splitFrom .between [] false line

/-! ## A quoted word is read as it was -/

theorem isSafe_plain {c : Char} (h : isSafe c = true) : isBlank c = false ∧ outside c = (.word, [c]) := by
  have hne : ∀ d : Char, isSafe d = false → c ≠ d := by
    rintro d hd rfl
    exact absurd h (by simp [hd])
  have hspace := hne ' ' (by decide)
  have htab := hne '\t' (by decide)
  have hcr := hne '\r' (by decide)
  have hlf := hne '\n' (by decide)
  have hback := hne '\\' (by decide)
  have hsingle := hne '\'' (by decide)
  have hdouble := hne '"' (by decide)
  simp [isBlank, outside, hspace, htab, hcr, hlf, hback, hsingle, hdouble]

/-- A safe text is read character by character. -/
theorem splitFrom_safe {word : List Char} (h : word.all isSafe = true) (token rest : List Char) (quoted : Bool) :
    splitFrom .word token quoted (word ++ rest) = splitFrom .word (token ++ word) quoted rest := by
  induction word generalizing token with
  | nil => simp
  | cons c word ih =>
      have hc : isSafe c = true ∧ word.all isSafe = true := by simpa using h
      have hplain := isSafe_plain hc.1
      have hstep : splitFrom .word token quoted (c :: (word ++ rest)) =
          splitFrom .word (token ++ [c]) quoted (word ++ rest) := by
        simp [splitFrom, hplain.1, hplain.2]
      calc
        splitFrom .word token quoted (c :: word ++ rest)
            = splitFrom .word (token ++ [c]) quoted (word ++ rest) := hstep
        _ = splitFrom .word (token ++ [c] ++ word) quoted rest := ih hc.2 (token ++ [c])
        _ = splitFrom .word (token ++ c :: word) quoted rest := by simp

/-- What stands between single quotes is read character by character, its own quotes included. -/
theorem splitFrom_single (word token rest : List Char) :
    splitFrom .single token true (word.flatMap escapeQuote ++ rest) = splitFrom .single (token ++ word) true rest := by
  induction word generalizing token with
  | nil => simp
  | cons c word ih =>
      have hstep : splitFrom .single token true (escapeQuote c ++ (word.flatMap escapeQuote ++ rest)) =
          splitFrom .single (token ++ [c]) true (word.flatMap escapeQuote ++ rest) := by
        by_cases hc : c = '\''
        · -- the quotes are closed, the quote stands between double ones, and they are opened again
          subst hc
          simp [escapeQuote, splitFrom, isBlank, outside]
        · simp [escapeQuote, splitFrom, hc]
      calc
        splitFrom .single token true ((c :: word).flatMap escapeQuote ++ rest)
            = splitFrom .single token true (escapeQuote c ++ (word.flatMap escapeQuote ++ rest)) := by simp
        _ = splitFrom .single (token ++ [c]) true (word.flatMap escapeQuote ++ rest) := hstep
        _ = splitFrom .single (token ++ [c] ++ word) true rest := ih (token ++ [c])
        _ = splitFrom .single (token ++ c :: word) true rest := by simp

/-- A quoted word brings the reader into a word that can be emitted. -/
theorem splitFrom_quote (word rest : List Char) :
    ∃ quoted, (word = [] → quoted = true) ∧
      splitFrom .between [] false (quote word ++ rest) = splitFrom .word word quoted rest := by
  by_cases hnil : word = []
  · subst hnil
    exact ⟨true, fun _ => rfl, by simp [quote, splitFrom, isBlank, outside]⟩
  by_cases hsafe : word.all isSafe = true
  · obtain ⟨c, cs, rfl⟩ := List.exists_cons_of_ne_nil hnil
    have hc : isSafe c = true ∧ cs.all isSafe = true := by simpa using hsafe
    have hplain := isSafe_plain hc.1
    refine ⟨false, fun h => absurd h hnil, ?_⟩
    have hfirst : splitFrom .between [] false (c :: (cs ++ rest)) = splitFrom .word [c] false (cs ++ rest) := by
      simp [splitFrom, hplain.1, hplain.2]
    calc
      splitFrom .between [] false (quote (c :: cs) ++ rest)
          = splitFrom .between [] false (c :: (cs ++ rest)) := by
            unfold quote
            simp only [hnil, hsafe, if_true, if_false, List.cons_append]
      _ = splitFrom .word [c] false (cs ++ rest) := hfirst
      _ = splitFrom .word (c :: cs) false rest := by simpa using splitFrom_safe hc.2 [c] rest false
  · refine ⟨true, fun _ => rfl, ?_⟩
    have hopen : ∀ cs, splitFrom .between [] false ('\'' :: cs) = splitFrom .single [] false cs := by
      intro cs
      simp [splitFrom, isBlank, outside]
    have hshut : splitFrom .single word true ('\'' :: rest) = splitFrom .word word true rest := by
      simp [splitFrom]
    -- the first character tells the reader that it is between quotes
    have hquoted : splitFrom .single [] false (word.flatMap escapeQuote ++ '\'' :: rest) =
        splitFrom .single [] true (word.flatMap escapeQuote ++ '\'' :: rest) := by
      obtain ⟨c, cs, rfl⟩ := List.exists_cons_of_ne_nil hnil
      by_cases hc : c = '\''
      · subst hc
        simp [escapeQuote, splitFrom]
      · simp [escapeQuote, splitFrom, hc]
    calc
      splitFrom .between [] false (quote word ++ rest)
          = splitFrom .between [] false ('\'' :: (word.flatMap escapeQuote ++ '\'' :: rest)) := by
            simp [quote, hnil, hsafe]
      _ = splitFrom .single [] false (word.flatMap escapeQuote ++ '\'' :: rest) := hopen _
      _ = splitFrom .single [] true (word.flatMap escapeQuote ++ '\'' :: rest) := hquoted
      _ = splitFrom .single word true ('\'' :: rest) := by simpa using splitFrom_single word [] ('\'' :: rest)
      _ = splitFrom .word word true rest := hshut

/-- Splitting a line of quoted words gives the words. -/
theorem split_join (words : List (List Char)) : split (join words) = .ok words := by
  unfold split
  have hemit : ∀ {word : List Char} {quoted : Bool}, (word = [] → quoted = true) →
      ¬ (word = [] ∧ quoted = false) := by
    rintro word quoted h ⟨hnil, hquoted⟩
    simp [h hnil] at hquoted
  induction words with
  | nil => simp [join, splitFrom]
  | cons word words ih =>
      cases words with
      | nil =>
          obtain ⟨quoted, hword, hread⟩ := splitFrom_quote word []
          have hline : splitFrom .between [] false (quote word) = splitFrom .word word quoted [] := by
            simpa using hread
          simp [join, hline, splitFrom, hemit hword]
      | cons next words =>
          obtain ⟨quoted, hword, hread⟩ := splitFrom_quote word (' ' :: join (next :: words))
          have hblank : isBlank ' ' = true := by decide
          calc
            splitFrom .between [] false (join (word :: next :: words))
                = splitFrom .word word quoted (' ' :: join (next :: words)) := hread
            _ = (splitFrom .between [] false (join (next :: words))).map (List.cons word) := by
                  simp [splitFrom, hblank, hemit hword]
            _ = .ok (word :: next :: words) := by rw [ih]; rfl

/-! ## The characters of a line -/

/-- Nothing but quotes is put around a word. -/
theorem mem_quote {word : List Char} {c : Char} (h : c ∈ quote word) : c ∈ word ∨ c = '\'' ∨ c = '"' := by
  have hescape : ∀ d, c ∈ escapeQuote d → c = d ∨ c = '\'' ∨ c = '"' := by
    intro d hd
    by_cases hquote : d = '\''
    · subst hquote
      simp only [escapeQuote, if_true, List.mem_cons, List.not_mem_nil, or_false] at hd
      tauto
    · exact Or.inl (by simpa [escapeQuote, hquote] using hd)
  unfold quote at h
  split at h
  · simp at h
    exact Or.inr (Or.inl h)
  · split at h
    · exact Or.inl h
    · have hcases : c = '\'' ∨ (∃ d ∈ word, c ∈ escapeQuote d) ∨ c = '\'' := by simpa [or_assoc] using h
      rcases hcases with hc | ⟨d, hd, hc⟩ | hc
      · exact Or.inr (Or.inl hc)
      · rcases hescape d hc with rfl | hother
        · exact Or.inl hd
        · exact Or.inr hother
      · exact Or.inr (Or.inl hc)

/-- Nothing but blanks and quotes is put around words. -/
theorem mem_join {words : List (List Char)} {c : Char} (h : c ∈ join words) :
    (∃ word ∈ words, c ∈ word) ∨ c = ' ' ∨ c = '\'' ∨ c = '"' := by
  induction words with
  | nil => simp [join] at h
  | cons word words ih =>
      have hfirst : c ∈ quote word → (∃ w ∈ word :: words, c ∈ w) ∨ c = ' ' ∨ c = '\'' ∨ c = '"' := by
        intro hc
        rcases mem_quote hc with hc | hother
        · exact Or.inl ⟨word, List.mem_cons_self, hc⟩
        · exact Or.inr (Or.inr hother)
      cases words with
      | nil => exact hfirst h
      | cons next words =>
          have hsplit : c ∈ quote word ∨ c = ' ' ∨ c ∈ join (next :: words) := by
            simpa [join] using h
          rcases hsplit with hc | hc | hc
          · exact hfirst hc
          · exact Or.inr (Or.inl hc)
          · rcases ih hc with ⟨w, hw, hcw⟩ | hother
            · exact Or.inl ⟨w, List.mem_cons_of_mem word hw, hcw⟩
            · exact Or.inr hother

/-- Every quoted word stands in the line. -/
theorem quote_infix_join {words : List (List Char)} {word : List Char} (h : word ∈ words) :
    quote word <:+: join words := by
  induction words with
  | nil => exact absurd h List.not_mem_nil
  | cons first words ih =>
      cases words with
      | nil =>
          have heq : word = first := by simpa using h
          subst heq
          exact List.infix_rfl
      | cons next words =>
          rcases List.mem_cons.mp h with rfl | h
          · exact ⟨[], ' ' :: join (next :: words), by simp [join]⟩
          · obtain ⟨before, behind, hline⟩ := ih h
            exact ⟨quote first ++ ' ' :: before, behind, by simp [join, ← hline]⟩

/-- A quoted word begins and ends with no blank. -/
theorem quote_ends (word : List Char) (blank : Char → Bool) (hquote : blank '\'' = false)
    (hsafe : ∀ c, isSafe c = true → blank c = false) :
    (∃ c cs, quote word = c :: cs ∧ blank c = false) ∧ ∃ cs c, quote word = cs ++ [c] ∧ blank c = false := by
  by_cases hnil : word = []
  · subst hnil
    exact ⟨⟨'\'', ['\''], rfl, hquote⟩, ['\''], '\'', rfl, hquote⟩
  by_cases hall : word.all isSafe = true
  · have hplain : quote word = word := by simp [quote, hnil, hall]
    have hmem : ∀ c ∈ word, blank c = false := fun c hc => hsafe c (List.all_eq_true.mp hall c hc)
    obtain ⟨c, cs, hcons⟩ := List.exists_cons_of_ne_nil hnil
    have hlast := List.dropLast_append_getLast hnil
    exact ⟨⟨c, cs, hplain.trans hcons, hmem c (by simp [hcons])⟩, word.dropLast, word.getLast hnil,
      hplain.trans hlast.symm, hmem _ (List.getLast_mem hnil)⟩
  · have hquoted : quote word = '\'' :: word.flatMap escapeQuote ++ ['\''] := by simp [quote, hnil, hall]
    exact ⟨⟨'\'', word.flatMap escapeQuote ++ ['\''], by simpa using hquoted, hquote⟩, _, '\'', hquoted, hquote⟩

/-- A line of words begins and ends with no blank. -/
theorem join_ends {words : List (List Char)} (hne : words ≠ []) (blank : Char → Bool) (hquote : blank '\'' = false)
    (hsafe : ∀ c, isSafe c = true → blank c = false) :
    (∃ c cs, join words = c :: cs ∧ blank c = false) ∧ ∃ cs c, join words = cs ++ [c] ∧ blank c = false := by
  induction words with
  | nil => exact absurd rfl hne
  | cons word words ih =>
      obtain ⟨⟨c, cs, hfront, hc⟩, hback⟩ := quote_ends word blank hquote hsafe
      cases words with
      | nil => exact ⟨⟨c, cs, hfront, hc⟩, hback⟩
      | cons next words =>
          obtain ⟨-, ds, d, hend, hd⟩ := ih (List.cons_ne_nil next words)
          refine ⟨⟨c, cs ++ ' ' :: join (next :: words), by simp [join, hfront], hc⟩,
            quote word ++ ' ' :: ds, d, ?_, hd⟩
          simp [join, hend]

example : join ["-e".toList, "A=x y".toList, [], "it's".toList] = "-e 'A=x y' '' 'it'\"'\"'s'".toList := by decide

end AutoTune.Lib.Shlex
