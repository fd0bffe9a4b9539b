import AutoTune.Lib.Trace
import AutoTune.Supervisor.ContainerLogs

/-!
# The start of a saved log

A log only grows, and each read returns its last lines. What is saved should begin with the first lines that were
ever read and end with the latest read. Whether a read still holds the whole log is told by the text of one line, so
a blank or a repeated first line lets the start go, and a read that only overlaps it is marked as if lines were
missing.
-/

namespace AutoTune

open Lib

/-! ## Reading a log again and again -/

/-- The text of lines. -/
def textOf (lines : List String) : List Char := lines.flatMap fun line => line.toList ++ ['\n']

/-- What was known of the start of a log: where the first read that is not blank began, the lines kept of it, and how
many lines the last read that began there had. -/
structure LogStart where
  begins : Nat
  head : List String
  known : Nat
deriving DecidableEq

/-- A log and what is saved of it. -/
structure LogReads where
  log : List String := []
  saved : String := ""
  start : Option LogStart := none

/-- The text of a read: the last lines so far. -/
def latestOf (logLines : Nat) (log : List String) : List Char := textOf (lastOf logLines log)

/-- What is known of the start after a read. -/
def startAfter (logLines : Nat) (log : List String) : Option LogStart → Option LogStart
  | none =>
      if (strip (String.ofList (latestOf logLines log))).isEmpty then none
      else some
        { begins := log.length - logLines
          head := (lastOf logLines log).take headLines
          known := (lastOf logLines log).length }
  | some start =>
      if log.length - logLines = start.begins then some { start with known := (lastOf logLines log).length }
      else some start

/-- The log grows by `lines`, is read, and the read is folded into what is saved. -/
def readAgain (logLines : Nat) (st : LogReads) (lines : List String) : LogReads where
  log := st.log ++ lines
  saved := withHead st.saved (String.ofList (latestOf logLines (st.log ++ lines))) headLines
  start := startAfter logLines (st.log ++ lines) st.start

/-- Lines lie between the known start and a read that begins at a line. -/
def LogStart.Missing (start : LogStart) (begins : Nat) : Prop := start.begins + min headLines start.known < begins

/-- A mark stands between the start and the latest read. -/
def MarkBetween (head latest saved : List Char) : Prop := ∃ x y, saved = head ++ x ++ gapMark ++ y ++ latest

/-- What is saved begins with the first lines that were read, ends with the latest read, and has the mark between them
exactly when lines are missing there. -/
def KeepsStart (logLines : Nat) (st : LogReads) : Prop :=
  match st.start with
  | none => st.saved.toList = latestOf logLines st.log
  | some start =>
      textOf start.head <+: st.saved.toList ∧ latestOf logLines st.log <:+ st.saved.toList ∧
        (MarkBetween (textOf start.head) (latestOf logLines st.log) st.saved.toList ↔
          start.Missing (st.log.length - logLines))

/-! ## When the start is kept -/

/-- Is a read kept as it is? -/
def isTaken (saved latest : String) : Bool :=
  (strip saved).isEmpty ||
    match keptHead saved headLines with
    | [] => true
    | first :: _ => takenWhole first latest

/-- A line with no other line end and no mark in it. -/
structure PlainLine (line : String) : Prop where
  whole : ∀ c ∈ line.toList, isLineEnd c = false
  unmarked : beforeMark (line.toList ++ ['\n']) = line.toList ++ ['\n']

/-- A read that is kept as it is still begins with the start and nothing is missing; one that is put behind the mark has
lines missing before it, and the start is read back line by line. -/
def StartKnown (logLines : Nat) (st : LogReads) (lines : List String) : Prop :=
  ∀ start ∈ st.start, ∀ after ∈ startAfter logLines (st.log ++ lines) st.start,
    if isTaken st.saved (String.ofList (latestOf logLines (st.log ++ lines))) then
      textOf start.head <+: latestOf logLines (st.log ++ lines) ∧
        ¬ after.Missing ((st.log ++ lines).length - logLines)
    else (∀ line ∈ start.head, PlainLine line) ∧ after.Missing ((st.log ++ lines).length - logLines)

/-! ## The start read back -/

theorem gapMark_prefix {xs : List Char} (h : '\n' ∈ xs) (ys : List Char) :
    gapMark.isPrefixOf (xs ++ ys) = gapMark.isPrefixOf xs := by
  rw [Bool.eq_iff_iff, List.isPrefixOf_iff_prefix, List.isPrefixOf_iff_prefix]
  constructor
  · intro hprefix
    rcases List.prefix_or_prefix_of_prefix hprefix (List.prefix_append xs ys) with hin | hover
    · exact hin
    · -- the mark has no newline
      exact absurd (hover.mem h) (by decide)
  · intro hprefix
    exact hprefix.trans (List.prefix_append xs ys)

/-- A mark begins and ends on one side of the end of a line. -/
theorem beforeMark_append {xs : List Char} (h : xs = [] ∨ xs.getLast? = some '\n') (hxs : beforeMark xs = xs)
    (ys : List Char) : beforeMark (xs ++ ys) = xs ++ beforeMark ys := by
  induction xs with
  | nil => rfl
  | cons c cs ih =>
      have hin : '\n' ∈ c :: cs := List.mem_of_getLast? (h.resolve_left (List.cons_ne_nil c cs))
      rw [beforeMark] at hxs
      split_ifs at hxs with hmark
      have hcs : cs = [] ∨ cs.getLast? = some '\n' := by
        cases cs with
        | nil => exact Or.inl rfl
        | cons d ds =>
            right
            have hlast := h.resolve_left (List.cons_ne_nil c (d :: ds))
            rwa [List.getLast?_cons_cons] at hlast
      have hsame := gapMark_prefix hin ys
      rw [List.cons_append] at hsame ⊢
      rw [beforeMark, if_neg (by rwa [hsame]), ih hcs (List.cons.inj hxs).2, List.cons_append]

theorem textOf_cons (line : String) (rest : List String) :
    textOf (line :: rest) = (line.toList ++ ['\n']) ++ textOf rest := List.flatMap_cons

theorem textOf_append (lines lines' : List String) : textOf (lines ++ lines') = textOf lines ++ textOf lines' :=
  List.flatMap_append

theorem beforeMark_textOf {lines : List String} (h : ∀ line ∈ lines, PlainLine line) (ys : List Char) :
    beforeMark (textOf lines ++ ys) = textOf lines ++ beforeMark ys := by
  induction lines with
  | nil => rfl
  | cons line rest ih =>
      have hline := (h line List.mem_cons_self).unmarked
      have hends : line.toList ++ ['\n'] = [] ∨ (line.toList ++ ['\n']).getLast? = some '\n' :=
        Or.inr List.getLast?_concat
      rw [textOf_cons, List.append_assoc, beforeMark_append hends hline,
        ih fun other hin => h other (List.mem_cons_of_mem line hin), ← List.append_assoc]

theorem linesFrom_plain {cs : List Char} (h : ∀ c ∈ cs, isLineEnd c = false) (line rest : List Char) :
    linesFrom line (cs ++ '\n' :: rest) = String.ofList (line.reverse ++ cs ++ ['\n']) :: linesFrom [] rest := by
  induction cs generalizing line with
  | nil =>
      rw [List.nil_append, linesFrom, if_pos (by decide), List.reverse_cons, List.append_nil]
      intro cs heq
      exact absurd heq (by decide)
  | cons c cs ih =>
      have hc := h c List.mem_cons_self
      rw [List.cons_append, linesFrom, if_neg (by rw [hc]; exact Bool.false_ne_true),
        ih (fun d hd => h d (List.mem_cons_of_mem c hd)), List.reverse_cons, List.append_assoc _ [c], List.singleton_append]
      intro ds heq
      cases heq
      exact absurd hc (by decide)

theorem lineBody_plain {cs : List Char} (h : ∀ c ∈ cs, isLineEnd c = false) :
    lineBody (String.ofList (cs ++ ['\n'])) = String.ofList cs := by
  unfold lineBody
  rw [String.toList_ofList, List.reverse_append, List.reverse_singleton, List.singleton_append]
  split
  · rename_i rest heq
    have hreturn : '\r' ∈ cs := by
      rw [← List.mem_reverse, (List.cons.inj heq).2]
      exact List.mem_cons_self
    exact absurd (h '\r' hreturn) (by decide)
  · rename_i c rest hnot heq
    rw [← (List.cons.inj heq).1, ← (List.cons.inj heq).2, if_pos (by decide), List.reverse_reverse]
  · rename_i heq
    cases heq

/-- Plain lines are read back as they are. -/
theorem lineBodies_textOf {lines : List String} (h : ∀ line ∈ lines, PlainLine line) (ys : List Char) :
    lineBodies (String.ofList (textOf lines ++ ys)) = lines ++ lineBodies (String.ofList ys) := by
  induction lines with
  | nil => rfl
  | cons line rest ih =>
      have hwhole := (h line List.mem_cons_self).whole
      have hrest := ih fun other hin => h other (List.mem_cons_of_mem line hin)
      unfold lineBodies splitLines at hrest ⊢
      rw [String.toList_ofList] at hrest ⊢
      rw [textOf_cons, List.append_assoc, List.append_assoc, List.singleton_append, linesFrom_plain hwhole,
        List.map_cons, hrest, List.reverse_nil, List.nil_append, lineBody_plain hwhole, String.ofList_toList]
      rfl

theorem joinNewline_textOf {lines : List String} (h : lines ≠ []) : joinNewline lines ++ ['\n'] = textOf lines := by
  induction lines with
  | nil => exact absurd rfl h
  | cons line rest ih =>
      cases rest with
      | nil => rw [joinNewline, textOf_cons, textOf, List.flatMap_nil, List.append_nil]
      | cons next rest =>
          rw [textOf_cons, ← ih (List.cons_ne_nil next rest), joinNewline, List.append_assoc, List.cons_append,
            List.append_assoc, List.singleton_append]
          exact fun heq => absurd heq (List.cons_ne_nil next rest)

/-- The lines that are kept of a text begin with the plain lines it begins with. -/
theorem keptHead_textOf {saved : String} {head : List String} {count : Nat} (hplain : ∀ line ∈ head, PlainLine line)
    (hlen : head.length ≤ count) (h : textOf head <+: saved.toList) : ∃ more, keptHead saved count = head ++ more := by
  rcases h with ⟨rest, hrest⟩
  refine ⟨(lineBodies (String.ofList (beforeMark rest))).take (count - head.length), ?_⟩
  rw [keptHead, ← hrest, beforeMark_textOf hplain, lineBodies_textOf hplain, List.take_append,
    List.take_of_length_le hlen]

/-! ## What one read does -/

theorem withHead_taken {saved latest : String} (h : isTaken saved latest = true) :
    withHead saved latest headLines = latest := by
  unfold isTaken at h
  unfold withHead
  split_ifs with hblank
  · rfl
  · split
    · rfl
    · rename_i first rest hkept
      have htaken : takenWhole first latest = true := by simpa [hblank, hkept] using h
      rw [if_pos htaken]

theorem withHead_marked {saved latest : String} (h : isTaken saved latest = false) :
    (withHead saved latest headLines).toList =
      textOf (keptHead saved headLines) ++ gapMark ++ '\n' :: latest.toList := by
  unfold isTaken at h
  unfold withHead
  rw [Bool.or_eq_false_iff] at h
  rw [if_neg (by rw [h.1]; exact Bool.false_ne_true)]
  cases hkept : keptHead saved headLines with
  | nil =>
      rw [hkept] at h
      exact absurd h.2.symm Bool.false_ne_true
  | cons first rest =>
      rw [hkept] at h
      have htaken : ¬ takenWhole first latest = true := by simpa using h.2
      dsimp only
      rw [if_neg htaken, String.toList_ofList, ← joinNewline_textOf (List.cons_ne_nil first rest), List.append_assoc,
        List.append_assoc, List.append_assoc, List.singleton_append]
      rfl

/-- The latest read alone has no mark before it. -/
theorem not_markBetween (head latest : List Char) : ¬ MarkBetween head latest latest := by
  rintro ⟨x, y, h⟩
  have hlen := congrArg List.length h
  have hmark : gapMark.length = 57 := by decide
  simp only [List.length_append, hmark] at hlen
  omega

theorem textOf_take (lines : List String) (n : Nat) : textOf (lines.take n) <+: textOf lines := by
  have hsplit : textOf lines = textOf (lines.take n) ++ textOf (lines.drop n) := by
    rw [← textOf_append, List.take_append_drop]
  rw [hsplit]
  exact List.prefix_append _ _

/-- Before the first read that is not blank nothing is saved that is not blank, and no more lines than are kept are
known. -/
structure Known (st : LogReads) : Prop where
  blank : st.start = none → (strip st.saved).isEmpty = true
  head : ∀ start ∈ st.start, start.head.length ≤ headLines

theorem startAfter_some (logLines : Nat) (log : List String) (start : LogStart) :
    ∃ known, startAfter logLines log (some start) = some { start with known := known } := by
  unfold startAfter
  dsimp only
  split_ifs
  · exact ⟨_, rfl⟩
  · exact ⟨start.known, rfl⟩

theorem Known.readAgain {st : LogReads} (h : Known st) (logLines : Nat) (lines : List String) :
    Known (readAgain logLines st lines) := by
  cases hstart : st.start with
  | none =>
      have htaken : withHead st.saved (String.ofList (latestOf logLines (st.log ++ lines))) headLines =
          String.ofList (latestOf logLines (st.log ++ lines)) :=
        withHead_taken (by rw [isTaken, h.blank hstart, Bool.true_or])
      simp only [AutoTune.readAgain, hstart, htaken, startAfter]
      split_ifs with hblank
      · exact ⟨fun _ => hblank, fun _ hin => absurd hin.symm (Option.some_ne_none _)⟩
      · refine ⟨fun hnone => absurd hnone (Option.some_ne_none _), fun start hin => ?_⟩
        cases hin
        exact List.length_take_le _ _
  | some start =>
      rcases startAfter_some logLines (st.log ++ lines) start with ⟨known, hafter⟩
      simp only [AutoTune.readAgain, hstart, hafter]
      refine ⟨fun hnone => absurd hnone (Option.some_ne_none _), fun after hin => ?_⟩
      cases hin
      exact h.head start hstart

theorem startAfter_blank {logLines : Nat} {log : List String}
    (h : (strip (String.ofList (latestOf logLines log))).isEmpty = true) : startAfter logLines log none = none := by
  rw [startAfter, if_pos h]

theorem startAfter_first {logLines : Nat} {log : List String}
    (h : ¬ (strip (String.ofList (latestOf logLines log))).isEmpty = true) :
    startAfter logLines log none = some
      { begins := log.length - logLines, head := (lastOf logLines log).take headLines
        known := (lastOf logLines log).length } := by
  rw [startAfter, if_neg h]

/-- The first read that is not blank is saved as it is. -/
theorem keepsStart_first {st : LogReads} (h : Known st) (hstart : st.start = none) (logLines : Nat)
    (lines : List String) : KeepsStart logLines (readAgain logLines st lines) := by
  have htaken : withHead st.saved (String.ofList (latestOf logLines (st.log ++ lines))) headLines =
      String.ofList (latestOf logLines (st.log ++ lines)) :=
    withHead_taken (by rw [isTaken, h.blank hstart, Bool.true_or])
  have hfirst : textOf ((lastOf logLines (st.log ++ lines)).take headLines) <+: latestOf logLines (st.log ++ lines) :=
    textOf_take (lastOf logLines (st.log ++ lines)) headLines
  rcases Classical.em ((strip (String.ofList (latestOf logLines (st.log ++ lines)))).isEmpty = true) with hblank | hblank
  · simp only [readAgain, KeepsStart, hstart, startAfter_blank hblank, htaken, String.toList_ofList]
  · simp only [readAgain, KeepsStart, hstart, startAfter_first hblank, htaken, String.toList_ofList]
    refine ⟨hfirst, List.suffix_refl _, fun hmark => absurd hmark (not_markBetween _ _), fun hmissing => ?_⟩
    unfold LogStart.Missing at hmissing
    dsimp only at hmissing
    omega

theorem keepsStart_readAgain {logLines : Nat} {st : LogReads} {lines : List String} (h : Known st)
    (hkeeps : KeepsStart logLines st) (hknown : StartKnown logLines st lines) :
    KeepsStart logLines (readAgain logLines st lines) := by
  cases hstart : st.start with
  | none => exact keepsStart_first h hstart logLines lines
  | some start =>
      rcases startAfter_some logLines (st.log ++ lines) start with ⟨known, hafter⟩
      have hstep := hknown start hstart { start with known := known } (by rw [hstart]; exact hafter)
      simp only [KeepsStart, hstart] at hkeeps
      simp only [readAgain, KeepsStart, hstart, hafter]
      split_ifs at hstep with htaken
      · -- the read is kept as it is
        rw [withHead_taken htaken, String.toList_ofList]
        exact ⟨hstep.1, List.suffix_refl _, fun hmark => absurd hmark (not_markBetween _ _),
          fun hmissing => absurd hmissing hstep.2⟩
      · rcases keptHead_textOf hstep.1 (h.head start hstart) hkeeps.1 with ⟨more, hmore⟩
        rw [withHead_marked (by simpa using htaken), hmore, textOf_append, String.toList_ofList]
        refine ⟨?_, ?_, fun _ => hstep.2, fun _ => ⟨textOf more, ['\n'], ?_⟩⟩
        · rw [List.append_assoc, List.append_assoc]
          exact List.prefix_append _ _
        · rw [List.append_cons]
          exact List.suffix_append _ _
        · rw [List.append_assoc _ ['\n'], List.singleton_append]

/-- Of plain lines the start is kept only where it is known. -/
theorem startKnown_of_keepsStart {logLines : Nat} {st : LogReads} {lines : List String} (h : Known st)
    (hplain : ∀ start ∈ st.start, ∀ line ∈ start.head, PlainLine line) (hkeeps : KeepsStart logLines st)
    (hafter : KeepsStart logLines (readAgain logLines st lines)) : StartKnown logLines st lines := by
  intro start hstart after hin
  rw [hstart] at hin
  simp only [KeepsStart, Option.mem_def.mp hstart] at hkeeps
  rcases startAfter_some logLines (st.log ++ lines) start with ⟨known, hsome⟩
  have hsame := Option.some.inj (hsome.symm.trans hin)
  simp only [readAgain, KeepsStart, Option.mem_def.mp hstart, hsome] at hafter
  subst hsame
  split_ifs with htaken
  · rw [withHead_taken htaken, String.toList_ofList] at hafter
    exact ⟨hafter.1, fun hmissing => not_markBetween _ _ (hafter.2.2.mpr hmissing)⟩
  · refine ⟨hplain start hstart, hafter.2.2.mp ?_⟩
    rcases keptHead_textOf (hplain start hstart) (h.head start hstart) hkeeps.1 with ⟨more, hmore⟩
    rw [withHead_marked (by simpa using htaken), hmore, textOf_append, String.toList_ofList]
    exact ⟨textOf more, ['\n'], by rw [List.append_assoc _ ['\n'], List.singleton_append]⟩

/-! ## Any number of reads -/

/-- The start is kept after every read. -/
def KeepsStarts (logLines : Nat) (reads : List (List String)) : Prop :=
  ∀ before after, reads = before ++ after → KeepsStart logLines (runFrom (readAgain logLines) {} before)

/-- The log and what is known of its start are plain lines. -/
structure PlainLog (st : LogReads) : Prop where
  log : ∀ line ∈ st.log, PlainLine line
  head : ∀ start ∈ st.start, ∀ line ∈ start.head, PlainLine line

theorem PlainLog.readAgain {st : LogReads} (h : PlainLog st) (logLines : Nat) {lines : List String}
    (hlines : ∀ line ∈ lines, PlainLine line) : PlainLog (readAgain logLines st lines) := by
  have hlog : ∀ line ∈ st.log ++ lines, PlainLine line := by
    intro line hline
    rcases List.mem_append.mp hline with hline | hline
    · exact h.log line hline
    · exact hlines line hline
  refine ⟨hlog, fun start hin => ?_⟩
  simp only [AutoTune.readAgain] at hin
  cases hstart : st.start with
  | none =>
      rw [hstart] at hin
      rcases Classical.em ((strip (String.ofList (latestOf logLines (st.log ++ lines)))).isEmpty = true) with
        hblank | hblank
      · rw [startAfter_blank hblank] at hin
        exact absurd (Option.mem_def.mp hin).symm (Option.some_ne_none _)
      · rw [startAfter_first hblank] at hin
        rw [← Option.some.inj hin]
        exact fun line hline => hlog line (List.mem_of_mem_drop (List.mem_of_mem_take hline))
  | some known =>
      rcases startAfter_some logLines (st.log ++ lines) known with ⟨count, hsome⟩
      rw [hstart, hsome] at hin
      rw [← Option.some.inj hin]
      exact h.head known hstart

theorem known_start : Known {} := ⟨fun _ => by decide, fun _ hin => absurd hin.symm (Option.some_ne_none _)⟩

theorem plainLog_start : PlainLog {} :=
  ⟨fun _ hin => absurd hin List.not_mem_nil, fun _ hin => absurd hin.symm (Option.some_ne_none _)⟩

theorem keepsStart_start (logLines : Nat) : KeepsStart logLines {} := by
  have hnone : lastOf logLines ([] : List String) = [] := List.drop_nil
  simp only [KeepsStart, latestOf, hnone]
  rfl

/-- Where the start is known at every read it is kept; of plain lines it is kept nowhere else. -/
theorem saved_starts (logLines : Nat) (reads : List (List String)) :
    (Along (readAgain logLines) (StartKnown logLines) {} reads → KeepsStarts logLines reads) ∧
      ((∀ lines ∈ reads, ∀ line ∈ lines, PlainLine line) →
        (KeepsStarts logLines reads ↔ Along (readAgain logLines) (StartKnown logLines) {} reads)) := by
  have hforward : Along (readAgain logLines) (StartKnown logLines) {} reads → KeepsStarts logLines reads := by
    intro h before after hsplit
    rw [hsplit] at h
    have hinvariant := invariant_runFrom (I := fun st => Known st ∧ KeepsStart logLines st)
      (fun st lines hst hknown => ⟨hst.1.readAgain logLines lines, keepsStart_readAgain hst.1 hst.2 hknown⟩)
      ⟨known_start, keepsStart_start logLines⟩ (along_append.mp h).1
    exact hinvariant.2
  refine ⟨hforward, fun hplain => ⟨fun hkeeps => ?_, hforward⟩⟩
  -- what follows a read whose start is kept is kept only where it is known
  have hfrom : ∀ (l : List (List String)) (st : LogReads), Known st → PlainLog st →
      (∀ lines ∈ l, ∀ line ∈ lines, PlainLine line) →
      (∀ before after, l = before ++ after → KeepsStart logLines (runFrom (readAgain logLines) st before)) →
      Along (readAgain logLines) (StartKnown logLines) st l := by
    intro l
    induction l with
    | nil =>
        intro st _ _ _ _
        trivial
    | cons lines l ih =>
        intro st hst hlog hlines hall
        refine ⟨startKnown_of_keepsStart hst hlog.head (hall [] (lines :: l) rfl) (hall [lines] l rfl), ?_⟩
        refine ih _ (hst.readAgain logLines lines) (hlog.readAgain logLines (hlines lines List.mem_cons_self))
          (fun other hin => hlines other (List.mem_cons_of_mem lines hin)) fun before after hsplit => ?_
        exact hall (lines :: before) after (by rw [hsplit, List.cons_append])
  exact hfrom reads {} known_start plainLog_start hplain hkeeps

theorem plainLine_of_all {line : String} (hwhole : (line.toList.all fun c => !isLineEnd c) = true)
    (hunmarked : beforeMark (line.toList ++ ['\n']) = line.toList ++ ['\n']) : PlainLine line where
  whole := by
    intro c hc
    simpa using List.all_eq_true.mp hwhole c hc
  unmarked := hunmarked

/-- A log of which two lines are read at a time. -/
def configThenBatches : List (List String) := [["config", "ready"], ["batch 1", "batch 2", "batch 3"]]

theorem configThenBatches_keepsStarts : KeepsStarts 2 configThenBatches := by
  refine (saved_starts 2 configThenBatches).1 ⟨fun start hin => absurd hin.symm (Option.some_ne_none _), ?_, trivial⟩
  intro start hstart after hafter
  have hstart' : (readAgain 2 {} ["config", "ready"]).start = some ⟨0, ["config", "ready"], 2⟩ := by decide
  rw [hstart'] at hstart hafter
  cases hstart
  have htaken : isTaken (readAgain 2 {} ["config", "ready"]).saved
      (String.ofList (latestOf 2 ((readAgain 2 {} ["config", "ready"]).log ++ ["batch 1", "batch 2", "batch 3"]))) =
        false := by decide
  rw [if_neg (by rw [htaken]; exact Bool.false_ne_true)]
  refine ⟨?_, ?_⟩
  · intro line hline
    rcases List.mem_pair.mp hline with rfl | rfl
    · exact plainLine_of_all (by decide) (by decide)
    · exact plainLine_of_all (by decide) (by decide)
  · cases hafter
    unfold LogStart.Missing
    decide

/-- A log that begins with a blank line. -/
def blankThenConfig : List (List String) := [["", "config"], ["batch 1", "batch 2", "batch 3"]]

/-- The second read is taken for the whole log, and the start is gone. -/
theorem blankThenConfig_losesStart : ¬ KeepsStarts 2 blankThenConfig := by
  intro h
  have hlast := h blankThenConfig [] (List.append_nil _).symm
  have hstart : (runFrom (readAgain 2) {} blankThenConfig).start = some ⟨0, ["", "config"], 2⟩ := by decide
  have hsaved : (runFrom (readAgain 2) {} blankThenConfig).saved = "batch 2\nbatch 3\n" := by decide
  simp only [KeepsStart, hstart, hsaved] at hlast
  exact absurd hlast.1 (by decide)

end AutoTune
