import AutoTune.Supervisor.ContainerLogs
import Mathlib.Algebra.BigOperators.Group.List.Basic
import Mathlib.Algebra.Group.Action.Defs
import Mathlib.Algebra.Order.BigOperators.Group.List
import Mathlib.Algebra.Order.Group.Nat
import Mathlib.Data.List.Forall2
import Mathlib.Data.List.TakeDrop
import Mathlib.Data.List.TakeWhile

/-!
# Bounded logs

The room for a log is divided before the mark and the headers are added. A clipped log is in its bound when its start
and the mark fit, the tail of several sections when what is shown of them fits together; either way every header
survives and what follows it is an end of what was logged.
-/

namespace AutoTune

open Lib

/-! ## Clipped logs -/

/-- The log fits, or its first quarter and the mark do. -/
def ClipFits (text : List Char) (maxBytes : Int) : Prop :=
  (utf8 text).length ≤ maxBytes ∨ (utf8 (clipHead (utf8 text) maxBytes)).length + gapMark.length + 1 ≤ maxBytes

theorem length_lastOf_le {α : Type} (n : Nat) (l : List α) : (lastOf n l).length ≤ n := by
  unfold lastOf
  rw [List.length_drop]
  omega

theorem fromNextLine_suffix (last : List Char) : fromNextLine last <:+ last := by
  unfold fromNextLine
  split
  · split
    · exact List.drop_suffix _ _
    · exact List.suffix_refl _
  · exact List.suffix_refl _

theorem utf8_suffix {cs ds : List Char} (h : cs <:+ ds) : (utf8 cs).length ≤ (utf8 ds).length := by
  rcases h with ⟨before, rfl⟩
  rw [utf8_length_append]
  omega

theorem utf8_gapMark : (utf8 gapMark).length = gapMark.length := by decide

theorem clip_bytes_iff {text : List Char} {maxBytes : Int} (h : 0 < maxBytes) :
    (utf8 (clip text maxBytes)).length ≤ maxBytes ↔ ClipFits text maxBytes := by
  unfold clip ClipFits
  dsimp only
  rcases le_or_gt ((utf8 text).length : Int) maxBytes with hfits | hlong
  · rw [if_pos (Or.inr hfits)]
    exact ⟨Or.inl, fun _ => hfits⟩
  · rw [if_neg (by omega)]
    have hnewline : (utf8 ['\n']).length = 1 := by decide
    -- the end takes at most the room that is left for it
    have hlast : ∀ room : Int, (utf8 (fromNextLine (if 0 < room then decodeIgnore (lastOf room.toNat (utf8 text))
        else []))).length ≤ room.toNat := by
      intro room
      refine (utf8_suffix (fromNextLine_suffix _)).trans ?_
      split_ifs with hroom
      · exact (utf8_decodeIgnore _).trans (length_lastOf_le _ _)
      · exact Nat.zero_le _
    have hend := hlast (maxBytes - (utf8 (clipHead (utf8 text) maxBytes)).length - gapMark.length - 2)
    rw [List.append_cons, utf8_length_append, utf8_length_append, utf8_length_append, utf8_gapMark, hnewline]
    omega

/-! ## Lines and sections -/

/-- All lines but the last end in a newline. -/
def Terminated : List (List Char) → Prop
  | [] | [_] => True
  | line :: rest => '\n' ∈ line ∧ Terminated rest

theorem Terminated.tail {line : List Char} {rest : List (List Char)} (h : Terminated (line :: rest)) :
    Terminated rest := by
  cases rest with
  | nil => trivial
  | cons next rest => exact h.2

theorem terminated_newlineSplit (text : List Char) : Terminated (newlineSplit text) := by
  fun_induction newlineSplit text with
  | case1 => trivial
  | case2 cs ih =>
      cases hrest : newlineSplit cs with
      | nil => trivial
      | cons line rest => exact ⟨List.mem_cons_self, hrest ▸ ih⟩
  | case3 c cs hc hnone ih => trivial
  | case4 c cs hc line rest hsome ih =>
      rw [hsome] at ih
      cases rest with
      | nil => trivial
      | cons next rest => exact ⟨List.mem_cons_of_mem c ih.1, ih.2⟩

theorem flatten_newlineSplit (text : List Char) : (newlineSplit text).flatten = text := by
  fun_induction newlineSplit text with
  | case1 => rfl
  | case2 cs ih => rw [List.flatten_cons, ih, List.singleton_append]
  | case3 c cs hc hnone ih =>
      rw [hnone] at ih
      rw [← ih]
      rfl
  | case4 c cs hc line rest hsome ih =>
      rw [hsome, List.flatten_cons] at ih
      rw [List.flatten_cons, List.cons_append, ih]

theorem flatten_cutSections (lines : List (List Char)) :
    (cutSections lines).1 ++ (cutSections lines).2.flatten = lines.flatten := by
  induction lines with
  | nil => rfl
  | cons line rest ih =>
      rw [List.flatten_cons, ← ih, cutSections]
      split_ifs
      · rw [List.nil_append, List.flatten_cons, List.append_assoc]
      · rw [List.append_assoc]

/-- The sections make the text. -/
theorem flatten_allSections (text : List Char) : (allSections text).flatten = text := by
  have hcut := flatten_cutSections (newlineSplit text)
  rw [flatten_newlineSplit] at hcut
  unfold allSections
  dsimp only
  split
  · rename_i hempty
    rw [List.isEmpty_iff.mp hempty, List.nil_append] at hcut
    exact hcut
  · rw [List.flatten_cons]
    exact hcut

/-- A section begins with its header line. -/
theorem header_of_mem {lines : List (List Char)} (h : Terminated lines) :
    ∀ s ∈ (cutSections lines).2, isSection (partitionLine s).1 = true := by
  induction lines with
  | nil =>
      intro s hs
      cases hs
  | cons line rest ih =>
      intro s hs
      rw [cutSections] at hs
      split_ifs at hs with hline
      · rcases List.mem_cons.mp hs with rfl | hs
        · have hsame : (partitionLine (line ++ (cutSections rest).1)).1 = (partitionLine line).1 := by
            cases rest with
            | nil => rw [cutSections, List.append_nil]
            | cons next rest =>
                -- the line ends before what is appended to it
                have hstop : ¬ ∀ c ∈ line, (c != '\n') = true := fun hall =>
                  absurd (hall '\n' h.1) (by decide)
                rw [partitionLine, partitionLine, List.takeWhile_append, if_neg]
                intro hlen
                refine hstop fun c hc => ?_
                have hwhole := (List.takeWhile_prefix (fun c => c != '\n') (l := line)).eq_of_length hlen
                rw [← hwhole] at hc
                exact List.mem_takeWhile_imp (p := fun c => c != '\n') hc
          rw [hsame]
          exact hline
        · exact ih h.tail s hs
      · exact ih h.tail s hs

/-! ## Trailing newlines -/

/-- How many newlines a text ends in. -/
def trailingNewlines (cs : List Char) : Nat := (cs.reverse.takeWhile fun c => c == '\n').length

theorem length_rstripNewlines (cs : List Char) : (rstripNewlines cs).length + trailingNewlines cs = cs.length := by
  have hsplit := congrArg List.length (List.takeWhile_append_dropWhile (p := fun c => c == '\n') (l := cs.reverse))
  rw [List.length_append, List.length_reverse] at hsplit
  rw [rstripNewlines, trailingNewlines, List.length_reverse]
  omega

theorem reverse_takeWhile_length {ys : List Char} (h : ∃ c ∈ ys, c ≠ '\n') :
    ¬ (ys.reverse.takeWhile fun c => c == '\n').length = ys.reverse.length := by
  intro hlen
  rcases h with ⟨c, hc, hne⟩
  have hwhole := (List.takeWhile_prefix (fun c => c == '\n') (l := ys.reverse)).eq_of_length hlen
  have hin : c ∈ ys.reverse.takeWhile fun c => c == '\n' := by
    rw [hwhole]
    exact List.mem_reverse.mpr hc
  exact hne (by simpa using List.mem_takeWhile_imp hin)

theorem trailingNewlines_append {ys : List Char} (xs : List Char) (h : ∃ c ∈ ys, c ≠ '\n') :
    trailingNewlines (xs ++ ys) = trailingNewlines ys := by
  rw [trailingNewlines, List.reverse_append, List.takeWhile_append, if_neg (reverse_takeWhile_length h), trailingNewlines]

theorem rstripNewlines_append {ys : List Char} (xs : List Char) (h : ∃ c ∈ ys, c ≠ '\n') :
    rstripNewlines (xs ++ ys) = xs ++ rstripNewlines ys := by
  have hrest : ¬ (ys.reverse.dropWhile fun c => c == '\n').isEmpty = true := by
    intro hempty
    have hsplit := congrArg List.length (List.takeWhile_append_dropWhile (p := fun c => c == '\n') (l := ys.reverse))
    rw [List.isEmpty_iff.mp hempty, List.append_nil] at hsplit
    exact reverse_takeWhile_length h hsplit
  rw [rstripNewlines, List.reverse_append, List.dropWhile_append, if_neg hrest, List.reverse_append, List.reverse_reverse,
    rstripNewlines]

theorem rstripNewlines_prefix (cs : List Char) : rstripNewlines cs <+: cs := by
  have hsuffix := List.dropWhile_suffix (fun c => c == '\n') (l := cs.reverse)
  have hprefix := List.reverse_prefix.mpr hsuffix
  rwa [List.reverse_reverse] at hprefix

/-! ## What is shown of a section -/

/-- What is shown of a section, with the end of its line. -/
def shownPart (share : Nat) (s : List Char) : List Char := endLine (keepSection share s)

/-- The log fits, or it has no two sections, or what is shown of its sections fits together. Newlines at the very
end are not shown. -/
def TailFits (text : List Char) (maxChars : Nat) : Prop :=
  text.length ≤ maxChars ∨ (cutSections (newlineSplit text)).2.length < 2 ∨
    ((allSections text).map fun s => (shownPart (shareOf maxChars (allSections text).length) s).length).sum ≤
      maxChars + (((allSections text).getLast?.map fun s =>
        trailingNewlines (shownPart (shareOf maxChars (allSections text).length) s)).getD 0)

theorem exists_shown (share : Nat) {s : List Char} (h : ∃ c ∈ s, c ≠ '\n') : ∃ c ∈ shownPart share s, c ≠ '\n' := by
  have hkept : ∃ c ∈ keepSection share s, c ≠ '\n' := by
    unfold keepSection
    split_ifs
    · exact h
    · refine ⟨'[', ?_, by decide⟩
      exact List.mem_append_left _ (List.mem_append_right _ (by decide))
  rcases hkept with ⟨c, hc, hne⟩
  refine ⟨c, ?_, hne⟩
  unfold shownPart endLine
  split_ifs
  · exact hc
  · exact List.mem_append_left _ hc

theorem isSection_length {header : List Char} (h : isSection header = true) : 3 ≤ header.length := by
  unfold isSection at h
  split at h
  · rename_i rest
    split at h
    · rename_i name hname
      have hlen := congrArg List.length hname
      rw [List.length_reverse, List.length_cons] at hlen
      rw [Bool.and_eq_true] at h
      have hpos : 0 < name.length := List.length_pos_iff.mpr (by simpa using h.1)
      rw [List.length_cons]
      omega
    · cases h
  · cases h

theorem splitHeader_of_isSection {s : List Char} (h : isSection (partitionLine s).1 = true) :
    splitHeader s = partitionLine s := by
  unfold splitHeader
  rw [if_pos h]

theorem header_ne_newline {s : List Char} : ∀ c ∈ (partitionLine s).1, c ≠ '\n' := by
  intro c hc
  simpa using List.mem_takeWhile_imp hc

theorem exists_of_isSection {s : List Char} (h : isSection (partitionLine s).1 = true) : ∃ c ∈ s, c ≠ '\n' := by
  have hpos : 0 < (partitionLine s).1.length := by
    have := isSection_length h
    omega
  rcases List.exists_mem_of_length_pos hpos with ⟨c, hc⟩
  exact ⟨c, (List.takeWhile_prefix _).mem hc, header_ne_newline c hc⟩

theorem mem_allSections {text s : List Char} (h : s ∈ (cutSections (newlineSplit text)).2) : s ∈ allSections text := by
  unfold allSections
  dsimp only
  split_ifs
  · exact h
  · exact List.mem_cons_of_mem _ h

/-- With two sections the last one begins with a header. -/
theorem getLast_allSections {text : List Char} (h : 2 ≤ (cutSections (newlineSplit text)).2.length) :
    ∃ init s, allSections text = init ++ [s] ∧ s ∈ (cutSections (newlineSplit text)).2 := by
  have hne : (cutSections (newlineSplit text)).2 ≠ [] := List.length_pos_iff.mp (by omega)
  have hlast := List.dropLast_append_getLast hne
  have hin := List.getLast_mem hne
  unfold allSections
  dsimp only
  split_ifs
  · exact ⟨_, _, hlast.symm, hin⟩
  · refine ⟨(cutSections (newlineSplit text)).1 :: (cutSections (newlineSplit text)).2.dropLast, _, ?_, hin⟩
    rw [List.cons_append, hlast]

theorem tail_chars_iff (text : List Char) {maxChars : Nat} (h : 0 < maxChars) :
    (tailBySection text maxChars).length ≤ maxChars ↔ TailFits text maxChars := by
  unfold tailBySection TailFits
  rcases Nat.lt_or_ge maxChars text.length with hlong | hfits
  · rw [if_neg (by omega)]
    rcases Nat.lt_or_ge (cutSections (newlineSplit text)).2.length 2 with hfew | htwo
    · rw [if_pos hfew]
      rw [plainTail, if_neg (by omega)]
      exact ⟨fun _ => Or.inr (Or.inl hfew), fun _ => length_lastOf_le _ _⟩
    · rw [if_neg (by omega)]
      dsimp only
      rcases getLast_allSections htwo with ⟨init, s, hall, hin⟩
      generalize shareOf maxChars (allSections text).length = share
      have hsome := exists_shown share (exists_of_isSection (header_of_mem (terminated_newlineSplit text) s hin))
      have hlen := length_rstripNewlines (((allSections text).map (keepSection share)).flatMap endLine)
      have htrailing : trailingNewlines (((allSections text).map (keepSection share)).flatMap endLine) =
          trailingNewlines (shownPart share s) := by
        rw [hall, List.map_append, List.flatMap_append, List.map_singleton, List.flatMap_singleton]
        exact trailingNewlines_append _ hsome
      have hsum : (((allSections text).map (keepSection share)).flatMap endLine).length =
          ((allSections text).map fun s => (shownPart share s).length).sum := by
        rw [List.length_flatMap, List.map_map]
        rfl
      have hlast : ((allSections text).getLast?.map fun s => trailingNewlines (shownPart share s)).getD 0 =
          trailingNewlines (shownPart share s) := by
        rw [hall, List.getLast?_concat]
        rfl
      rw [hlast, ← hsum]
      omega
  · rw [if_pos hfits]
    exact ⟨fun _ => Or.inl hfits, fun _ => hfits⟩

/-! ## What survives -/

/-- A text stands on a line of its own in another one. -/
def OnOwnLine (line text : List Char) : Prop :=
  ∃ before after, text = before ++ line ++ after ∧ (before = [] ∨ before.getLast? = some '\n') ∧
    (after = [] ∨ after.head? = some '\n')

/-- A section whole, or its header and behind the mark an end of its own text. -/
def KeptOf (s part : List Char) : Prop :=
  part = s ∨ ∃ last, last <:+ (splitHeader s).2 ∧ part = headerLine (splitHeader s).1 ++ gapMark ++ '\n' :: last

/-- Of each section something is kept, and its header is still there. -/
structure SectionsKept (text out : List Char) : Prop where
  headers : out = text ∨ ∀ s ∈ (cutSections (newlineSplit text)).2, OnOwnLine (splitHeader s).1 out
  parts : ∃ parts, List.Forall₂ KeptOf (allSections text) parts ∧
    (out = parts.flatten ∨ out = rstripNewlines (parts.flatMap endLine))

/-- Both bounds, and what survives of the sections where there are two. -/
structure LogsBounded (text : List Char) (maxBytes : Int) (maxChars : Nat) : Prop where
  clipped : (utf8 (clip text maxBytes)).length ≤ maxBytes
  tail : (tailBySection text maxChars).length ≤ maxChars
  kept : 2 ≤ (cutSections (newlineSplit text)).2.length → SectionsKept text (tailBySection text maxChars)

theorem rstripNewlines_cons {c : Char} (h : c ≠ '\n') (ys : List Char) :
    rstripNewlines (c :: ys) = c :: rstripNewlines ys := by
  rw [rstripNewlines, List.reverse_cons, List.dropWhile_append, rstripNewlines]
  split_ifs with hempty
  · have hc : ([c].dropWhile fun c => c == '\n') = [c] := List.dropWhile_cons_of_neg (by simpa using h)
    rw [hc, List.isEmpty_iff.mp hempty]
    rfl
  · rw [List.reverse_append]
    rfl

/-- What ends in no newline stays. -/
theorem rstripNewlines_behind {xs : List Char} (h : ∀ c ∈ xs, c ≠ '\n') (before ys : List Char) (hne : xs ≠ []) :
    rstripNewlines (before ++ xs ++ ys) = before ++ xs ++ rstripNewlines ys := by
  have hlast := List.dropLast_append_getLast hne
  have hc := h _ (List.getLast_mem hne)
  have hone : rstripNewlines (xs.getLast hne :: ys) = xs.getLast hne :: rstripNewlines ys := rstripNewlines_cons hc ys
  rw [← hlast, ← List.append_assoc, List.append_assoc, List.singleton_append,
    rstripNewlines_append _ ⟨_, List.mem_cons_self, hc⟩, hone]
  simp only [List.append_assoc, List.singleton_append]

theorem shownPart_ends (share : Nat) (s : List Char) : (shownPart share s).getLast? = some '\n' := by
  unfold shownPart endLine
  split_ifs with h
  · exact h
  · exact List.getLast?_concat

/-- A section is its header and what follows it from the end of that line on. -/
theorem partitionLine_split (s : List Char) :
    s = (partitionLine s).1 ∨ ∃ rest, s = (partitionLine s).1 ++ '\n' :: rest := by
  have hsplit := List.takeWhile_append_dropWhile (p := fun c => c != '\n') (l := s)
  cases hrest : s.dropWhile fun c => c != '\n' with
  | nil =>
      rw [hrest, List.append_nil] at hsplit
      exact Or.inl hsplit.symm
  | cons c rest =>
      have hc : c = '\n' := by
        have hhead := List.head_dropWhile_not (fun c => c != '\n') (by rw [hrest]; exact List.cons_ne_nil _ _)
        simpa [hrest] using hhead
      rw [hrest, hc] at hsplit
      exact Or.inr ⟨rest, hsplit.symm⟩

/-- What is shown of a section begins with its header line. -/
theorem shownPart_header {s : List Char} (share : Nat) (h : isSection (partitionLine s).1 = true) :
    ∃ rest, shownPart share s = (partitionLine s).1 ++ '\n' :: rest := by
  have hne : (partitionLine s).1 ≠ [] := by
    intro hnil
    rw [hnil] at h
    cases h
  unfold shownPart keepSection
  dsimp only
  split_ifs
  · unfold endLine
    split_ifs with hends
    · rcases partitionLine_split s with hs | hs
      · -- a header alone ends in no newline
        rw [hs] at hends
        exact absurd rfl (header_ne_newline _ (List.mem_of_getLast? hends))
      · exact hs
    · rcases partitionLine_split s with hs | ⟨rest, hs⟩
      · exact ⟨[], by rw [← hs]⟩
      · refine ⟨rest ++ ['\n'], ?_⟩
        rw [← List.cons_append, ← List.append_assoc, ← hs]
  · have hline : headerLine (partitionLine s).1 = (partitionLine s).1 ++ ['\n'] := by
      unfold headerLine
      rw [if_neg (by simpa using hne)]
    have hkept : ∀ last, (partitionLine s).1 ++ ['\n'] ++ gapMark ++ '\n' :: last =
        (partitionLine s).1 ++ '\n' :: (gapMark ++ '\n' :: last) := by
      intro last
      simp only [List.append_assoc, List.cons_append, List.nil_append]
    rw [splitHeader_of_isSection h, hline, hkept]
    unfold endLine
    split_ifs
    · exact ⟨_, rfl⟩
    · exact ⟨_, by rw [List.append_assoc, List.cons_append]⟩

theorem flatMap_shown_ends (share : Nat) (sections : List (List Char)) :
    sections.flatMap (shownPart share) = [] ∨ (sections.flatMap (shownPart share)).getLast? = some '\n' := by
  rcases List.eq_nil_or_concat sections with rfl | ⟨init, s, rfl⟩
  · exact Or.inl rfl
  · right
    rw [List.concat_eq_append, List.flatMap_append, List.flatMap_singleton, List.getLast?_append, shownPart_ends]
    rfl

/-- A header survives in what is shown of all sections together. -/
theorem header_survives {sections : List (List Char)} {s : List Char} (share : Nat) (hin : s ∈ sections)
    (h : isSection (partitionLine s).1 = true) :
    OnOwnLine (partitionLine s).1 (rstripNewlines (sections.flatMap (shownPart share))) := by
  rcases List.append_of_mem hin with ⟨first, rest, rfl⟩
  rcases shownPart_header share h with ⟨body, hbody⟩
  have hne : (partitionLine s).1 ≠ [] := by
    intro hnil
    rw [hnil] at h
    cases h
  refine ⟨first.flatMap (shownPart share), rstripNewlines ('\n' :: (body ++ rest.flatMap (shownPart share))), ?_,
    flatMap_shown_ends share first, ?_⟩
  · rw [← rstripNewlines_behind header_ne_newline _ _ hne, List.flatMap_append, List.flatMap_cons, hbody]
    simp only [List.append_assoc, List.cons_append]
  · rcases rstripNewlines_prefix ('\n' :: (body ++ rest.flatMap (shownPart share))) with ⟨tail, htail⟩
    cases hstrip : rstripNewlines ('\n' :: (body ++ rest.flatMap (shownPart share))) with
    | nil => exact Or.inl rfl
    | cons c cs =>
        rw [hstrip] at htail
        right
        rw [(List.cons.inj htail).1]
        rfl

theorem keepSection_kept (share : Nat) (s : List Char) : KeptOf s (keepSection share s) := by
  unfold keepSection
  dsimp only
  split_ifs
  · exact Or.inl rfl
  · refine Or.inr ⟨_, ?_, rfl⟩
    refine (fromNextLine_suffix _).trans ?_
    split_ifs
    · exact List.drop_suffix _ _
    · exact List.nil_suffix

theorem sectionsKept_tail {text : List Char} {maxChars : Nat} (h : 2 ≤ (cutSections (newlineSplit text)).2.length) :
    SectionsKept text (tailBySection text maxChars) := by
  unfold tailBySection
  split_ifs with hfits hfew
  · refine ⟨Or.inl rfl, allSections text, ?_, Or.inl (flatten_allSections text).symm⟩
    exact List.forall₂_same.mpr fun s _ => Or.inl rfl
  · omega
  · dsimp only
    refine ⟨Or.inr fun s hs => ?_, (allSections text).map (keepSection (shareOf maxChars (allSections text).length)), ?_,
      Or.inr rfl⟩
    · have hsection := header_of_mem (terminated_newlineSplit text) s hs
      have hsurvives := header_survives (shareOf maxChars (allSections text).length) (mem_allSections hs) hsection
      rw [splitHeader_of_isSection hsection, List.flatMap_map]
      exact hsurvives
    · exact List.forall₂_map_right_iff.mpr (List.forall₂_same.mpr fun s _ => keepSection_kept _ s)

theorem clipHead_bytes (data : List UInt8) (maxBytes : Int) :
    (utf8 (clipHead data maxBytes)).length ≤ (maxBytes / 4).toNat := by
  have hquarter : (utf8 (decodeIgnore (data.take (maxBytes / 4).toNat))).length ≤ (maxBytes / 4).toNat :=
    (utf8_decodeIgnore _).trans (List.length_take_le _ _)
  unfold clipHead
  dsimp only
  split
  · split_ifs
    · exact (utf8_length_take _ _).trans hquarter
    · exact hquarter
  · exact hquarter

/-- From 77 bytes on a clipped log is in its bound. -/
theorem clipFits_of_room {maxBytes : Int} (text : List Char) (h : 77 ≤ maxBytes) : ClipFits text maxBytes := by
  have hhead := clipHead_bytes (utf8 text) maxBytes
  have hmark : gapMark.length = 57 := by decide
  right
  rw [hmark]
  omega

theorem length_endLine_le (part : List Char) : (endLine part).length ≤ part.length + 1 := by
  unfold endLine
  split_ifs
  · omega
  · rw [List.length_append, List.length_singleton]

/-- A section is shown in its part of the limit if it fits its share or its header does. -/
theorem shownPart_le {share : Nat} {s : List Char}
    (h : s.length ≤ share ∨ (splitHeader s).1.length ≤ share) :
    (shownPart share s).length ≤ share + gapMark.length + 2 := by
  unfold shownPart keepSection
  dsimp only
  split_ifs with hfits
  · have := length_endLine_le s
    omega
  · have hheader := h.resolve_left hfits
    generalize (splitHeader s).2 = body
    have hline : (headerLine (splitHeader s).1).length ≤ (splitHeader s).1.length + 1 := by
      unfold headerLine
      split_ifs
      · exact Nat.zero_le _
      · rw [List.length_append, List.length_singleton]
    rcases Nat.eq_zero_or_pos (share - (splitHeader s).1.length - 1) with hroom | hroom
    · -- with no room left the mark ends the part
      have hnone : lastLines (share - (splitHeader s).1.length - 1) body = [] := by
        rw [hroom]
        rfl
      rw [hnone, endLine, if_pos List.getLast?_concat]
      simp only [List.length_append, List.length_singleton]
      omega
    · have hlast : (lastLines (share - (splitHeader s).1.length - 1) body).length ≤
          share - (splitHeader s).1.length - 1 := by
        unfold lastLines
        rw [if_pos hroom]
        exact (fromNextLine_suffix _).length_le.trans (length_lastOf_le _ _)
      refine (length_endLine_le _).trans ?_
      simp only [List.length_append, List.length_cons]
      omega

/-- With a share for each section and no header longer than it, the tail is in its bound. -/
theorem tailFits_of_headers {text : List Char} {maxChars : Nat}
    (hshare : 0 < shareOf maxChars (allSections text).length)
    (h : ∀ s ∈ allSections text, s.length ≤ shareOf maxChars (allSections text).length ∨
      (splitHeader s).1.length ≤ shareOf maxChars (allSections text).length) : TailFits text maxChars := by
  right
  right
  have hpart : shareOf maxChars (allSections text).length + gapMark.length + 2 =
      maxChars / (allSections text).length := by
    unfold shareOf at hshare ⊢
    omega
  calc
    ((allSections text).map fun s => (shownPart (shareOf maxChars (allSections text).length) s).length).sum
        ≤ ((allSections text).map fun _ => maxChars / (allSections text).length).sum := by
          refine List.sum_le_sum fun s hs => ?_
          rw [← hpart]
          exact shownPart_le (h s hs)
    _ = (allSections text).length * (maxChars / (allSections text).length) := by
          rw [List.map_const', List.sum_replicate, smul_eq_mul]
    _ ≤ maxChars := Nat.mul_div_le _ _
    _ ≤ _ := Nat.le_add_right _ _

/-- Two pods' logs, and a limit that leaves each of them forty-one characters. -/
def twoPods : List Char :=
  "[p0]\n".toList ++ (List.replicate 40 "load\n".toList).flatten ++ "[p1]\n".toList ++
    (List.replicate 40 "wait\n".toList).flatten

end AutoTune
