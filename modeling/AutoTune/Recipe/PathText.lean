import AutoTune.Lib.Fallible
import AutoTune.Lib.Scan
import AutoTune.Recipe.Address

/-!
# Value paths, printed and read back

`format_path` writes a path of chart values as the text an address carries, and `parse_path` reads it. The
printer puts a backslash before every quote and nothing before a backslash, while the reader drops any
backslash and keeps what follows it. So a path comes back exactly if no segment of it has a backslash, and a
text that was read keeps its path exactly if it writes none into a segment.
-/

namespace AutoTune

open Lib

/-! ## The printer -/

/-- `[A-Za-z0-9_-]`. -/
def isPlainChar (c : Char) : Bool :=
  ('A' ≤ c && c ≤ 'Z') || ('a' ≤ c && c ≤ 'z') || ('0' ≤ c && c ≤ '9') || c == '_' || c == '-'

/-- `re.fullmatch(r"[A-Za-z0-9_-]+", segment)`. -/
def isPlainSegment (segment : String) : Bool := !segment.toList.isEmpty && segment.toList.all isPlainChar

/-- `replace('"', '\\"')`: a backslash before every quote. -/
def escapeQuotes : List Char → List Char
  | [] => []
  | c :: cs => if c = '"' then '\\' :: '"' :: escapeQuotes cs else c :: escapeQuotes cs

/-- `["<segment>"]`. -/
def bracketed (segment : String) : List Char := '[' :: '"' :: (escapeQuotes segment.toList ++ ['"', ']'])

/-- The loop of `format_path`: a dot stands before a plain segment unless it is the first. -/
def formatFrom : Bool → List String → List Char
  | _, [] => []
  | first, segment :: path =>
      (if isPlainSegment segment then (if first then [] else ['.']) ++ segment.toList
        else bracketed segment) ++ formatFrom false path

/-- `format_path`. -/
def formatPath (path : List String) : String := String.ofList (formatFrom true path)

/-- `value_key`. -/
def valueKey (path : List String) : String := "values." ++ formatPath path

/-! ## What the reader keeps -/

/-- A path without a backslash. -/
def NoBackslash (path : List String) : Prop := ∀ segment ∈ path, '\\' ∉ segment.toList

instance (path : List String) : Decidable (NoBackslash path) :=
  inferInstanceAs (Decidable (∀ segment ∈ path, '\\' ∉ segment.toList))

/-- Does a text write a backslash into a segment: one outside of quotes, or one that is escaped inside of
them? `quoted` says whether the text begins inside. -/
def writesBackslash : Bool → List Char → Bool
  | _, [] => false
  | false, '[' :: '"' :: cs => writesBackslash true cs
  | false, c :: cs => c == '\\' || writesBackslash false cs
  | true, '"' :: ']' :: cs => writesBackslash false cs
  | true, '\\' :: c :: cs => c == '\\' || writesBackslash true cs
  | true, _ :: cs => writesBackslash true cs

/-! ## Quoted segments -/

section Printed

attribute [local simp] escapeQuotes readQuoted

/-- Between the quotes, a segment without a backslash is read as it is. -/
theorem readQuoted_printed {segment : List Char} (h : '\\' ∉ segment) (rest : List Char) :
    readQuoted (escapeQuotes segment ++ '"' :: ']' :: rest) = some (segment, rest) := by
  induction segment with
  | nil => rfl
  | cons c segment ih =>
      have hc : c ≠ '\\' := fun hc => h (hc ▸ List.mem_cons_self)
      have ih := ih fun hmem => h (List.mem_cons_of_mem c hmem)
      by_cases hquote : c = '"'
      · subst hquote
        simp [ih]
      · simp [hquote, hc, ih]

end Printed

/-- A backslash that is read first was written escaped. -/
theorem readQuoted_backslash {cs s tail : List Char} (h : readQuoted cs = some ('\\' :: s, tail)) :
    ∃ rest, cs = '\\' :: '\\' :: rest ∧ readQuoted rest = some (s, tail) := by
  cases cs with
  | nil => simp [readQuoted] at h
  | cons c cs =>
      by_cases hc : c = '\\'
      · subst hc
        cases cs with
        | nil => simp [readQuoted] at h
        | cons d cs =>
            by_cases hd : d = '\n'
            · simp [readQuoted, hd] at h
            · have hread : ∃ s', readQuoted cs = some (s', tail) ∧ d :: s' = '\\' :: s := by
                simpa [readQuoted, hd] using h
              rcases hread with ⟨s', hs', heq⟩
              rcases List.cons.inj heq with ⟨rfl, rfl⟩
              exact ⟨cs, rfl, hs'⟩
      · by_cases hquote : c = '"'
        · subst hquote
          cases cs with
          | nil => simp [readQuoted] at h
          | cons d cs => by_cases hd : d = ']' <;> simp [readQuoted, hd] at h
        · simp [readQuoted, hquote, hc] at h

theorem replicate_append_cons (k : Nat) (c : Char) (cs : List Char) :
    List.replicate k c ++ c :: cs = List.replicate (k + 1) c ++ cs := by
  rw [List.replicate_succ', List.append_assoc]
  rfl

/-- Nothing that is printed is read with backslashes put before it, not even with none where it begins with
one itself: a backslash that is read consumes two that were written, so the reader falls behind the segment
and never catches up. -/
theorem readQuoted_behind (segment rest tail : List Char) (k : Nat)
    (h : readQuoted (escapeQuotes segment ++ '"' :: ']' :: rest) =
      some (List.replicate k '\\' ++ segment, tail)) :
    (List.replicate k '\\' ++ segment).head? ≠ some '\\' := by
  intro hhead
  rcases List.head?_eq_some_iff.mp hhead with ⟨s, hs⟩
  rw [hs] at h
  rcases readQuoted_backslash h with ⟨after, hwritten, hafter⟩
  match segment with
  | [] => simp [escapeQuotes] at hwritten
  | c :: segment =>
      by_cases hquote : c = '"'
      · simp [escapeQuotes, hquote] at hwritten
      · have hsplit : c = '\\' ∧ escapeQuotes segment ++ '"' :: ']' :: rest = '\\' :: after := by
          simpa [escapeQuotes, hquote] using hwritten
        rcases hsplit with ⟨rfl, hnext⟩
        have hread : s = List.replicate k '\\' ++ segment := by
          rw [replicate_append_cons, List.replicate_succ] at hs
          exact (List.cons.inj hs).2.symm
        match segment with
        | [] => simp [escapeQuotes] at hnext
        | d :: segment =>
            by_cases hd : d = '"'
            · -- the second backslash is the one before a quote, so the reader is at a bare quote
              have hend : after = '"' :: (escapeQuotes segment ++ '"' :: ']' :: rest) := by
                simpa [escapeQuotes, hd] using hnext.symm
              have hempty : s = [] := by
                cases hlist : escapeQuotes segment ++ '"' :: ']' :: rest with
                | nil => simp at hlist
                | cons e more =>
                    rw [hend, hlist] at hafter
                    by_cases he : e = ']'
                    · have hread : s = [] ∧ tail = more := by simpa [readQuoted, he] using hafter.symm
                      exact hread.1
                    · simp [readQuoted, he] at hafter
              simp [hread] at hempty
            · have hboth : d = '\\' ∧ escapeQuotes segment ++ '"' :: ']' :: rest = after := by
                simpa [escapeQuotes, hd] using hnext
              rcases hboth with ⟨rfl, hsame⟩
              rw [← hsame, hread, replicate_append_cons] at hafter
              have hih := readQuoted_behind segment rest tail (k + 1) hafter
              exact hih (by simp [List.replicate_succ])

/-- A segment comes back from between its quotes only without a backslash. -/
theorem noBackslash_of_readQuoted {segment rest tail : List Char}
    (h : readQuoted (escapeQuotes segment ++ '"' :: ']' :: rest) = some (segment, tail)) :
    '\\' ∉ segment := by
  induction segment with
  | nil => simp
  | cons c segment ih =>
      by_cases hc : c = '\\'
      · subst hc
        exact absurd rfl (readQuoted_behind _ rest tail 0 h)
      · have hrest : readQuoted (escapeQuotes segment ++ '"' :: ']' :: rest) = some (segment, tail) := by
          by_cases hquote : c = '"'
          · simpa [escapeQuotes, hquote, readQuoted] using h
          · simpa [escapeQuotes, hquote, readQuoted, hc] using h
        simpa [Ne.symm hc] using ih hrest

/-! ## One segment -/

theorem isPlainChar_bare {c : Char} (h : isPlainChar c = true) : isBare c = true := by
  unfold isBare
  have hne : c ≠ '.' ∧ c ≠ '[' ∧ c ≠ ']' := by
    refine ⟨?_, ?_, ?_⟩ <;> rintro rfl <;> revert h <;> decide
  simp [hne]

theorem isPlainSegment_noBackslash {segment : String} (h : isPlainSegment segment = true) :
    '\\' ∉ segment.toList := by
  intro hmem
  have hall : segment.toList.all isPlainChar = true := (Bool.and_eq_true_iff.mp h).2
  have hplain := List.all_eq_true.mp hall '\\' hmem
  revert hplain
  decide

/-- What is printed behind a segment cannot be read as a part of it. -/
theorem stops_formatFrom (path : List String) : Stops isBare (formatFrom false path) := by
  cases path with
  | nil => exact stops_nil isBare
  | cons segment path =>
      by_cases hplain : isPlainSegment segment = true
      · simpa [formatFrom, hplain] using stops_cons (p := isBare) (c := '.') (by decide) _
      · simpa [formatFrom, hplain, bracketed] using stops_cons (p := isBare) (c := '[') (by decide) _

/-- A plain segment is read as it is. -/
theorem readSegment_plain {segment : String} (h : isPlainSegment segment = true) {rest : List Char}
    (hrest : Stops isBare rest) :
    readSegment (segment.toList ++ rest) = some (segment.toList, rest) ∧
      ∃ c cs, segment.toList = c :: cs ∧ isBare c = true := by
  have hparts := Bool.and_eq_true_iff.mp h
  have hbare : segment.toList.all isBare = true := by
    rw [List.all_eq_true]
    exact fun c hc => isPlainChar_bare (List.all_eq_true.mp hparts.2 c hc)
  cases hchars : segment.toList with
  | nil => simp [hchars] at hparts
  | cons c cs =>
      rw [hchars] at hbare
      have hfirst : isBare c = true ∧ cs.all isBare = true := by simpa using hbare
      have hopen : c ≠ '[' := by
        rintro rfl
        exact absurd hfirst.1 (by decide)
      refine ⟨?_, c, cs, rfl, hfirst.1⟩
      have hrun := takeWhile_run hfirst.2 hrest
      have hdrop := dropWhile_run hfirst.2 hrest
      simp [readSegment, hopen, hfirst.1, hrun, hdrop]

/-! ## The whole path -/

/-- A round of the reader that reads a segment. -/
theorem readPath_segment {c : Char} {cs segment rest : List Char} (hdot : c ≠ '.')
    (h : readSegment (c :: cs) = some (segment, rest)) (fuel : Nat) :
    readPath (fuel + 1) (c :: cs) = (readPath fuel rest).map fun path => String.ofList segment :: path := by
  simp [readPath, hdot, h]

theorem map_cons_eq_ok {x : Except (List Char) (List String)} {segment segment' : String}
    {path : List String} :
    (x.map fun path => segment' :: path) = .ok (segment :: path) ↔ segment' = segment ∧ x = .ok path := by
  cases x with
  | error e => simp [Except.map]
  | ok read => simp [Except.map]

/-- Reading what was printed gives the path exactly if no segment of it has a backslash. -/
theorem readPath_printed (path : List String) (first : Bool) (fuel : Nat)
    (hfuel : (formatFrom first path).length ≤ fuel) :
    readPath fuel (formatFrom first path) = .ok path ↔ NoBackslash path := by
  induction path generalizing first fuel with
  | nil => simp [formatFrom, readPath, NoBackslash]
  | cons segment path ih =>
      have hsplit : NoBackslash (segment :: path) ↔ '\\' ∉ segment.toList ∧ NoBackslash path :=
        List.forall_mem_cons
      by_cases hplain : isPlainSegment segment = true
      · have hread := readSegment_plain hplain (stops_formatFrom path)
        rcases hread.2 with ⟨c, cs, hchars, hbare⟩
        have hdot : c ≠ '.' := by
          rintro rfl
          exact absurd hbare (by decide)
        -- the round that reads the segment; a dot before it only takes a round of its own
        have hround : ∀ fuel, (segment.toList ++ formatFrom false path).length ≤ fuel →
            (readPath fuel (segment.toList ++ formatFrom false path) = .ok (segment :: path) ↔
              NoBackslash path) := by
          intro fuel hfuel
          rw [hchars, List.cons_append] at hread hfuel ⊢
          cases fuel with
          | zero => simp at hfuel
          | succ fuel =>
              rw [readPath_segment hdot hread.1, map_cons_eq_ok, ← hchars, String.ofList_toList]
              have hrest : (formatFrom false path).length ≤ fuel := by
                simp only [List.length_cons, List.length_append] at hfuel
                omega
              simpa using ih false fuel hrest
        have hnone := isPlainSegment_noBackslash hplain
        rw [hsplit]
        cases first with
        | true =>
            have htext : formatFrom true (segment :: path) = segment.toList ++ formatFrom false path := by
              simp [formatFrom, hplain]
            rw [htext] at hfuel ⊢
            simpa [hnone] using hround fuel hfuel
        | false =>
            have htext : formatFrom false (segment :: path) =
                '.' :: (segment.toList ++ formatFrom false path) := by
              simp [formatFrom, hplain]
            rw [htext] at hfuel ⊢
            cases fuel with
            | zero => simp at hfuel
            | succ fuel =>
                have hless : (segment.toList ++ formatFrom false path).length ≤ fuel := by simpa using hfuel
                simpa [readPath, hnone] using hround fuel hless
      · have htext : formatFrom first (segment :: path) =
            '[' :: '"' :: (escapeQuotes segment.toList ++ '"' :: ']' :: formatFrom false path) := by
          simp [formatFrom, hplain, bracketed]
        rw [htext] at hfuel ⊢
        rw [hsplit]
        cases fuel with
        | zero => simp at hfuel
        | succ fuel =>
            have hless : (formatFrom false path).length ≤ fuel := by
              simp only [List.length_cons, List.length_append] at hfuel
              omega
            have hih := ih false fuel hless
            cases hquoted : readQuoted (escapeQuotes segment.toList ++ '"' :: ']' :: formatFrom false path) with
            | none =>
                have hback : '\\' ∈ segment.toList := by
                  by_contra hno
                  rw [readQuoted_printed hno] at hquoted
                  cases hquoted
                simp [readPath, readSegment, hquoted, hback]
            | some read =>
                rcases read with ⟨chars, rest⟩
                rw [readPath_segment (by decide) (by simpa [readSegment] using hquoted), map_cons_eq_ok]
                constructor
                · rintro ⟨hsame, hrest⟩
                  have hchars : chars = segment.toList := by rw [← hsame, String.toList_ofList]
                  subst hchars
                  have hno := noBackslash_of_readQuoted hquoted
                  have hprinted := readQuoted_printed hno (formatFrom false path)
                  rw [hquoted] at hprinted
                  rcases Prod.mk.inj (Option.some.inj hprinted) with ⟨-, rfl⟩
                  exact ⟨hno, hih.mp hrest⟩
                · rintro ⟨hno, hrest⟩
                  have hprinted := readQuoted_printed hno (formatFrom false path)
                  rw [hquoted] at hprinted
                  rcases Prod.mk.inj (Option.some.inj hprinted) with ⟨rfl, rfl⟩
                  exact ⟨String.ofList_toList, hih.mpr hrest⟩

/-! ## Texts that were read -/

section Bare

attribute [local simp] writesBackslash

/-- Outside of quotes every backslash is part of a segment. -/
theorem writesBackslash_bare {run : List Char} (h : run.all isBare = true) (rest : List Char) :
    writesBackslash false (run ++ rest) = true ↔ '\\' ∈ run ∨ writesBackslash false rest = true := by
  induction run with
  | nil => simp
  | cons c run ih =>
      have hparts : isBare c = true ∧ run.all isBare = true := by simpa using h
      have hopen : c ≠ '[' := by
        rintro rfl
        exact absurd hparts.1 (by decide)
      have hswap : c = '\\' ↔ '\\' = c := eq_comm
      simp [hopen, ih hparts.2, hswap, or_assoc]

end Bare

/-- What is read between quotes has a backslash exactly if one was escaped there. -/
theorem writesBackslash_quoted {cs s rest : List Char} (h : readQuoted cs = some (s, rest)) :
    writesBackslash true cs = true ↔ '\\' ∈ s ∨ writesBackslash false rest = true := by
  induction cs using readQuoted.induct generalizing s with
  | case1 after =>
      have hread : [] = s ∧ after = rest := by simpa [readQuoted] using h
      rcases hread with ⟨rfl, rfl⟩
      simp [writesBackslash]
  | case2 after hno =>
      cases after with
      | nil => simp [readQuoted] at h
      | cons d after =>
          have hd : d ≠ ']' := fun hd => hno after (by rw [hd])
          simp [readQuoted] at h
  | case3 after => simp [readQuoted] at h
  | case4 c after hc ih =>
      have hread : ∃ s', readQuoted after = some (s', rest) ∧ c :: s' = s := by
        simpa [readQuoted, hc] using h
      rcases hread with ⟨s', hs', rfl⟩
      have hswap : c = '\\' ↔ '\\' = c := eq_comm
      simp [writesBackslash, ih hs', hswap, or_assoc]
  | case5 => simp [readQuoted] at h
  | case6 c after _ hquote hpair hlast ih =>
      have hback : c ≠ '\\' := by
        intro hc
        cases after with
        | nil => exact hlast hc rfl
        | cons d after => exact hpair d after hc rfl
      have hread : ∃ s', readQuoted after = some (s', rest) ∧ c :: s' = s := by
        simpa [readQuoted, hback, hquote] using h
      rcases hread with ⟨s', hs', rfl⟩
      have hfirst : ¬ '\\' = c := fun hc => hback hc.symm
      have hwritten : writesBackslash true (c :: after) = writesBackslash true after := by
        simp [writesBackslash]
      rw [hwritten, ih hs', List.mem_cons, or_iff_right hfirst]
  | case7 => simp [readQuoted] at h

theorem writesBackslash_segment {cs segment rest : List Char} (h : readSegment cs = some (segment, rest)) :
    writesBackslash false cs = true ↔ '\\' ∈ segment ∨ writesBackslash false rest = true := by
  unfold readSegment at h
  split at h
  · simpa [writesBackslash] using writesBackslash_quoted h
  · rename_i c cs hopen
    split at h
    · rename_i hbare
      rcases Prod.mk.inj (Option.some.inj h) with ⟨rfl, rfl⟩
      have hall : (c :: cs.takeWhile isBare).all isBare = true := by simp [hbare]
      have hrun := writesBackslash_bare hall (cs.dropWhile isBare)
      simpa [List.takeWhile_append_dropWhile] using hrun
    · cases h
  · cases h

/-- The segments a text is read as have a backslash exactly if the text writes one. -/
theorem writesBackslash_read {fuel : Nat} {cs : List Char} {path : List String}
    (h : readPath fuel cs = .ok path) : writesBackslash false cs = false ↔ NoBackslash path := by
  induction fuel generalizing cs path with
  | zero =>
      cases cs with
      | nil =>
          have hpath : path = [] := by simpa [readPath] using h.symm
          simp [hpath, writesBackslash, NoBackslash]
      | cons c cs => simp [readPath] at h
  | succ fuel ih =>
      cases cs with
      | nil =>
          have hpath : path = [] := by simpa [readPath] using h.symm
          simp [hpath, writesBackslash, NoBackslash]
      | cons c cs =>
          by_cases hdot : c = '.'
          · subst hdot
            have hrest : readPath fuel cs = .ok path := by simpa [readPath] using h
            simpa [writesBackslash] using ih hrest
          · cases hread : readSegment (c :: cs) with
            | none => simp [readPath, hdot, hread] at h
            | some read =>
                rcases read with ⟨segment, rest⟩
                rw [readPath_segment hdot hread] at h
                rcases map_eq_ok.mp h with ⟨path', hpath', rfl⟩
                have hwritten : writesBackslash false (c :: cs) = true ↔
                    '\\' ∈ segment ∨ writesBackslash false rest = true := writesBackslash_segment hread
                have hih := ih hpath'
                have hsplit : NoBackslash (String.ofList segment :: path') ↔
                    '\\' ∉ segment ∧ NoBackslash path' := by
                  simp [NoBackslash]
                rw [hsplit, ← hih, ← Bool.not_eq_true, hwritten, not_or, Bool.not_eq_true]

/-! ## The two round trips -/

section RoundTrip

variable (F : Type) [PyRuntime F]

theorem parsePath_eq_ok {text : String} {path : List String} :
    parsePath F text = .ok path ↔ readPath text.toList.length text.toList = .ok path ∧ path ≠ [] := by
  unfold parsePath
  cases readPath text.toList.length text.toList with
  | error e => simp
  | ok read =>
      cases read with
      | nil =>
          constructor
          · intro h
            cases h
          · rintro ⟨h, hne⟩
            cases h
            exact absurd rfl hne
      | cons segment read =>
          constructor
          · intro h
            cases h
            exact ⟨rfl, List.cons_ne_nil _ _⟩
          · rintro ⟨h, -⟩
            cases h
            rfl

theorem parsePath_printed {path : List String} (hne : path ≠ []) :
    parsePath F (formatPath path) = .ok path ↔ NoBackslash path := by
  have hprinted := readPath_printed path true (formatFrom true path).length le_rfl
  simpa [parsePath_eq_ok, formatPath, hne] using hprinted

/-- A path comes back from its text exactly if it has no backslash, a text that is read keeps its path exactly
if it writes no backslash into a segment, and two paths without one never share a text that is read alike. -/
theorem value_paths_round_trip :
    (∀ path : List String, path ≠ [] →
      (parsePath F (formatPath path) = .ok path ↔ NoBackslash path)) ∧
    (∀ (text : String) (path : List String), parsePath F text = .ok path →
      (parsePath F (formatPath path) = .ok path ↔ writesBackslash false text.toList = false)) ∧
    ∀ path path' : List String, path ≠ [] → path' ≠ [] → NoBackslash path → NoBackslash path' →
      parsePath F (formatPath path) = parsePath F (formatPath path') → path = path' := by
  refine ⟨fun path hne => parsePath_printed F hne, ?_, ?_⟩
  · intro text path h
    rcases (parsePath_eq_ok F).mp h with ⟨hread, hne⟩
    rw [parsePath_printed F hne, writesBackslash_read hread]
  · intro path path' hne hne' hplain hplain' hsame
    have hpath := (parsePath_printed F hne).mpr hplain
    have hpath' := (parsePath_printed F hne').mpr hplain'
    rw [hpath, hpath'] at hsame
    exact Except.ok.inj hsame

end RoundTrip

/-- A segment `a\b` is printed as a text that reads as `ab`: two paths, one place. -/
theorem backslash_read_away :
    parsePath Empty (formatPath ["a\\b"]) ≠ .ok ["a\\b"] ∧
      parsePath Empty (formatPath ["a\\b"]) = parsePath Empty (formatPath ["ab"]) := by
  decide

end AutoTune
