import AutoTune.Catalog.TopLevel
import Mathlib.Algebra.Order.BigOperators.Group.List
import Mathlib.Algebra.Order.Group.Nat
import Mathlib.Data.List.Nodup
import Mathlib.Data.List.Pairwise
import Mathlib.Data.List.TakeWhile

/-!
# What an edit of a published file keeps

The keys cut the lines into spans that follow each other without a gap. The parts of an edited file are read
off span by span: they stand in order and are the lines and entries they should be, so only what lies inside
the span of a changed key is lost.
-/

namespace AutoTune

open Lib

/-! ## Spans -/

theorem trimComments_le (lines : List String) (start stop : Nat) : trimComments lines start stop ≤ stop := by
  induction stop with
  | zero => exact le_rfl
  | succ last ih =>
      unfold trimComments
      split
      · omega
      · exact le_rfl

/-- The key's own line is never given away. -/
theorem lt_trimComments (lines : List String) {start stop : Nat} (h : start < stop) :
    start < trimComments lines start stop := by
  induction stop with
  | zero => omega
  | succ last ih =>
      unfold trimComments
      split
      · rename_i hcomment
        simp only [Bool.and_eq_true, decide_eq_true_eq] at hcomment
        exact ih hcomment.1
      · exact h

/-- The lines are cut: up to the first key, and then key by key. -/
structure Cut (n first : Nat) (spans : List KeySpan) : Prop where
  first_le : first ≤ n
  inside : ∀ span ∈ spans, first ≤ span.start ∧ span.start < span.stop ∧ span.stop ≤ span.next ∧ span.next ≤ n
  ordered : spans.Pairwise fun a b => a.next ≤ b.start
  covers : ∀ i, first ≤ i → i < n → ∃ span ∈ spans, span.start ≤ i ∧ i < span.next

theorem keySpans_cut (lines : List String) {keys : List (Nat × String)}
    (hsorted : (keys.map Prod.fst).Pairwise (· < ·)) (hin : ∀ k ∈ keys, k.1 < lines.length) :
    Cut lines.length ((keys.head?.map Prod.fst).getD lines.length) (keySpans lines keys) := by
  induction keys with
  | nil => exact ⟨le_rfl, fun _ h => absurd h List.not_mem_nil, List.Pairwise.nil, fun i h h' => absurd h' (by simpa using h)⟩
  | cons key rest ih =>
      rcases key with ⟨start, key⟩
      rw [List.map_cons, List.pairwise_cons] at hsorted
      have hrest := ih hsorted.2 fun k hk => hin k (List.mem_cons_of_mem _ hk)
      have hstart : start < lines.length := hin _ List.mem_cons_self
      have hnext : start < (rest.head?.map Prod.fst).getD lines.length := by
        cases rest with
        | nil => exact hstart
        | cons next rest => exact hsorted.1 next.1 List.mem_cons_self
      have hle := trimComments_le lines start ((rest.head?.map Prod.fst).getD lines.length)
      have hlt := lt_trimComments lines hnext
      refine ⟨hstart.le, ?_, ?_, ?_⟩
      · intro span hspan
        rcases List.mem_cons.mp hspan with rfl | hspan
        · exact ⟨le_rfl, hlt, hle, hrest.first_le⟩
        · have hspanIn := hrest.inside span hspan
          exact ⟨hnext.le.trans hspanIn.1, hspanIn.2⟩
      · exact List.pairwise_cons.mpr ⟨fun span hspan => (hrest.inside span hspan).1, hrest.ordered⟩
      · intro i hi hlast
        by_cases hown : i < (rest.head?.map Prod.fst).getD lines.length
        · exact ⟨_, List.mem_cons_self, hi, hown⟩
        · rcases hrest.covers i (not_lt.mp hown) hlast with ⟨span, hspan, hcover⟩
          exact ⟨span, List.mem_cons_of_mem _ hspan, hcover⟩

theorem keySpans_keys (lines : List String) (keys : List (Nat × String)) :
    (keySpans lines keys).map KeySpan.key = keys.map Prod.snd := by
  induction keys with
  | nil => rfl
  | cons key rest ih => rw [keySpans, List.map_cons, List.map_cons, ih]

/-- Two spans that share a line are one. -/
theorem Cut.unique {n first : Nat} {spans : List KeySpan} (h : Cut n first spans) {a b : KeySpan} (ha : a ∈ spans)
    (hb : b ∈ spans) {i : Nat} (hia : a.start ≤ i ∧ i < a.next) (hib : b.start ≤ i ∧ i < b.next) : a = b := by
  by_contra hne
  have hdisjoint : spans.Pairwise fun a b => ¬ (a.start ≤ i ∧ i < a.next ∧ b.start ≤ i ∧ i < b.next) :=
    h.ordered.imp fun hle hboth => by omega
  have hsymm : Std.Symm fun a b : KeySpan => ¬ (a.start ≤ i ∧ i < a.next ∧ b.start ≤ i ∧ i < b.next) :=
    ⟨fun a b hab hba => hab ⟨hba.2.2.1, hba.2.2.2, hba.1, hba.2.1⟩⟩
  exact hdisjoint.forall ha hb hne ⟨hia.1, hia.2, hib.1, hib.2⟩

section Edit

variable {V : Type} (yaml : YamlTools V)

theorem keyLines_sorted (lines : List String) : ((yaml.keyLines lines).map Prod.fst).Pairwise (· < ·) := by
  have hnumbers : ((yaml.keyLines lines).map Prod.fst).Sublist (List.range lines.length) := by
    have hzip : lines.zipIdx.map Prod.snd = List.range lines.length := by
      rw [List.zipIdx_map_snd, List.range_eq_range']
    rw [← hzip]
    unfold YamlTools.keyLines
    generalize lines.zipIdx = l
    induction l with
    | nil => exact List.Sublist.refl _
    | cons e l ih =>
        cases hkey : yaml.topKey e.1 with
        | none =>
            rw [List.filterMap_cons_none (by rw [hkey]; rfl), List.map_cons]
            exact ih.cons _
        | some key =>
            rw [List.filterMap_cons_some (by rw [hkey]; rfl), List.map_cons, List.map_cons]
            exact ih.cons_cons _
  exact List.pairwise_lt_range.sublist hnumbers

theorem keyLines_in {lines : List String} {k : Nat × String} (h : k ∈ yaml.keyLines lines) :
    k.1 < lines.length ∧ k.2 ≠ "" := by
  rcases List.mem_filterMap.mp h with ⟨e, he, hkey⟩
  rcases Option.map_eq_some_iff.mp hkey with ⟨key, htop, rfl⟩
  refine ⟨?_, ?_⟩
  · have hmem := List.mem_zipIdx (x := e.1) (i := e.2) he
    omega
  · unfold YamlTools.topKey at htop
    split at htop
    · cases htop
    · split at htop
      · dsimp only at htop
        split at htop
        · split at htop
          · cases htop
            intro hempty
            have hnil := congrArg String.toList hempty
            simp at hnil
          · cases htop
        · cases htop
      · cases htop

theorem keyLines_cut (lines : List String) : Cut lines.length
    (((yaml.keyLines lines).head?.map Prod.fst).getD lines.length) (keySpans lines (yaml.keyLines lines)) :=
  keySpans_cut lines (keyLines_sorted yaml lines) fun _ hk => (keyLines_in yaml hk).1

/-! ## The parts of the result -/

variable (lines : List String) (old document : Dict V)

/-- The keys of the document that are new and follow this one. -/
def newKeys (a : Option String) : List String :=
  document.keys.filter fun k => !old.has k && decide (follows old document k = a)

def insertPieces (a : Option String) : List Piece := (newKeys old document a).map Piece.entry

def lineRange (a b : Nat) : List Piece := (List.range' a (b - a)).map Piece.line

/-- The key is left as it is. -/
def YamlTools.keeps (key : String) : Bool :=
  match old.get? key, document.get? key with
  | some v, some w => yaml.same w v
  | some _, none => false
  | none, _ => true

/-- The parts of a key: its lines, or its new entry, or nothing. -/
def YamlTools.chunkPieces (span : KeySpan) : List Piece :=
  if yaml.keeps old document span.key then lineRange span.start span.stop
  else if document.has span.key then [.entry span.key]
  else []

def YamlTools.spanPieces (span : KeySpan) : List Piece :=
  yaml.chunkPieces old document span ++ insertPieces old document (some span.key) ++ lineRange span.stop span.next

def YamlTools.editPieces (first : Nat) (spans : List KeySpan) : List Piece :=
  lineRange 0 first ++ insertPieces old document none ++ spans.flatMap (yaml.spanPieces old document)

/-! ### Their text -/

theorem lineSlice_eq {a b : Nat} (h : b ≤ lines.length) :
    lineSlice lines a b = (lineRange a b).map (yaml.render lines document) := by
  have hget : ∀ i, (lineSlice lines a b)[i]? = if i < b - a then lines[a + i]? else none := by
    intro i
    unfold lineSlice
    rw [List.getElem?_drop, List.getElem?_take]
    by_cases hi : i < b - a
    · rw [if_pos hi, if_pos (by omega)]
    · rw [if_neg hi, if_neg (by omega)]
  refine List.ext_getElem? fun i => ?_
  rw [hget]
  unfold lineRange
  rw [List.map_map, List.getElem?_map]
  by_cases hi : i < b - a
  · have hin : a + i < lines.length := by omega
    rw [if_pos hi, List.getElem?_range' hi]
    simp [YamlTools.render, List.getElem?_eq_getElem hin]
  · rw [if_neg hi, List.getElem?_eq_none (by rw [List.length_range']; omega)]
    rfl

/-- The new entries of the document, each with the key that was met last. -/
def newEntries (old : Dict V) : String → List (String × V) → List (String × String × V)
  | _, [] => []
  | after, e :: l => if old.has e.1 then newEntries old e.1 l else (after, e) :: newEntries old after l

theorem newEntries_cons (after : String) (e : String × V) (l : List (String × V)) :
    newEntries old after (e :: l) =
      if old.has e.1 then newEntries old e.1 l else (after, e) :: newEntries old after l := rfl

theorem insertKey_foldl (l : List (String × V)) (state : String × List (String × List String)) (a : String) :
    (dictGet (l.foldl (yaml.insertKey old) state).2 a).getD [] = (dictGet state.2 a).getD [] ++
      ((newEntries old state.1 l).filter fun e => e.1 = a).flatMap fun e => splitLines (yaml.dump e.2.1 e.2.2) := by
  induction l generalizing state with
  | nil => simp [newEntries]
  | cons e l ih =>
      rw [List.foldl_cons, ih]
      rw [newEntries_cons]
      unfold YamlTools.insertKey
      by_cases hold : old.has e.1 = true
      · simp [hold]
      · by_cases ha : state.1 = a
        · simp [hold, ha, dictGet_set]
        · simp [hold, dictGet_set, Ne.symm ha, eq_comm]

/-- The key that was met last is the one a new entry follows. -/
theorem newEntries_eq (before l : List (String × V)) (hsplit : document.entries = before ++ l) :
    newEntries old ((((before.map Prod.fst).filter old.has).getLast?).getD "") l =
      (l.filter fun e => !old.has e.1).map fun e => ((follows old document e.1).getD "", e) := by
  induction l generalizing before with
  | nil => rfl
  | cons e l ih =>
      have hnext := ih (before ++ [e]) (by simpa using hsplit)
      have hfollows : follows old document e.1 = ((before.map Prod.fst).filter old.has).getLast? := by
        have hfresh : ∀ k ∈ before.map Prod.fst, (k != e.1) = true := by
          have hnodup := document.nodup
          rw [hsplit, List.map_append, List.map_cons, List.nodup_append] at hnodup
          exact fun k hk => bne_iff_ne.mpr (hnodup.2.2 k hk e.1 List.mem_cons_self)
        have hkeys : document.keys = before.map Prod.fst ++ e.1 :: l.map Prod.fst := by
          unfold Dict.keys
          rw [hsplit]
          simp
        unfold follows
        rw [hkeys, List.takeWhile_append_of_pos hfresh]
        simp
      rw [newEntries_cons]
      by_cases hold : old.has e.1 = true
      · have hlast : ((((before ++ [e]).map Prod.fst).filter old.has).getLast?).getD "" = e.1 := by
          simp [List.filter_append, hold]
        rw [hlast] at hnext
        rw [if_pos hold, hnext, List.filter_cons_of_neg (by simp [hold])]
      · have hlast : (((before ++ [e]).map Prod.fst).filter old.has).getLast? =
            ((before.map Prod.fst).filter old.has).getLast? := by
          simp [List.filter_append, hold]
        rw [hlast] at hnext
        rw [if_neg hold, hnext, List.filter_cons_of_pos (by simp [hold]), List.map_cons, hfollows]

theorem follows_old {k a : String} (h : follows old document k = some a) : old.has a = true :=
  (List.mem_filter.mp (List.mem_of_getLast? h)).2

/-- What is inserted after a key are the entries that follow it. -/
theorem insertedAfter_text (hkeys : ∀ k, old.has k = true → k ≠ "") (a : Option String) (ha : a ≠ some "") :
    joinLines (yaml.insertedAfter old document (a.getD "")) =
      joinLines ((insertPieces old document a).map (yaml.render lines document)) := by
  have hfold := insertKey_foldl yaml old document.entries ("", []) (a.getD "")
  have hnew := newEntries_eq old document [] document.entries rfl
  simp only [List.map_nil, List.filter_nil, List.getLast?_nil, Option.getD_none] at hnew
  rw [hnew] at hfold
  unfold YamlTools.insertedAfter
  rw [hfold]
  -- the empty key stands for none
  have hsame : ∀ e : String × V, ((follows old document e.1).getD "" = a.getD "") ↔ follows old document e.1 = a := by
    intro e
    constructor
    · intro h
      cases hf : follows old document e.1 with
      | none =>
          cases a with
          | none => rfl
          | some a =>
              rw [hf] at h
              exact absurd (congrArg some h.symm) ha
      | some k =>
          rw [hf] at h
          cases a with
          | none => exact absurd h (hkeys k (follows_old old document hf))
          | some a => exact congrArg some h
    · intro h
      rw [h]
  have hentries : (((document.entries.filter fun e => !old.has e.1).map
      fun e => ((follows old document e.1).getD "", e)).filter fun e => e.1 = a.getD "") =
      (document.entries.filter fun e => !old.has e.1 && decide (follows old document e.1 = a)).map
        fun e => ((follows old document e.1).getD "", e) := by
    rw [List.filter_map, List.filter_filter]
    congr 1
    refine List.filter_congr fun e _ => ?_
    simp [hsame e, Bool.and_comm]
  have hpieces : (insertPieces old document a).map (yaml.render lines document) =
      (document.entries.filter fun e => !old.has e.1 && decide (follows old document e.1 = a)).map
        fun e => yaml.dump e.1 e.2 := by
    unfold insertPieces newKeys Dict.keys
    rw [List.filter_map, List.map_map, List.map_map]
    refine List.map_congr_left fun e he => ?_
    have hget : document.get? e.1 = some e.2 := Dict.mem_entries.mp (List.mem_filter.mp he).1
    simp [YamlTools.render, hget]
  rw [hentries, hpieces, List.flatMap_map]
  generalize document.entries.filter (fun e => !old.has e.1 && decide (follows old document e.1 = a)) = l
  change joinLines ((dictGet ([] : List (String × List String)) (a.getD "")).getD [] ++ _) = _
  rw [dictGet_nil, Option.getD_none, List.nil_append]
  induction l with
  | nil => rfl
  | cons e l ih =>
      rw [List.flatMap_cons, joinLines_append, joinLines_splitLines, ih, List.map_cons,
        ← List.singleton_append, joinLines_append]
      simp [joinLines]

theorem chunk_text {span : KeySpan} (hspan : span.stop ≤ lines.length) :
    joinLines (yaml.chunk lines old document span) =
      joinLines ((yaml.chunkPieces old document span).map (yaml.render lines document)) := by
  unfold YamlTools.chunk YamlTools.chunkPieces YamlTools.keeps
  cases hold : old.get? span.key with
  | none => simp only [if_true]; rw [lineSlice_eq yaml lines document hspan]
  | some v =>
      cases hnew : document.get? span.key with
      | none => simp [Dict.has, hnew]
      | some w =>
          have hhas : document.has span.key = true := Dict.has_iff.mpr ⟨w, hnew⟩
          by_cases hsame : yaml.same w v = true
          · simp only [if_pos hsame]
            rw [lineSlice_eq yaml lines document hspan]
          · simp only [if_neg hsame, if_pos hhas]
            rw [joinLines_splitLines]
            simp [joinLines, YamlTools.render, hnew]

/-- The parts make the result. -/
theorem edited_text {keys : List (Nat × String)} (hkeys : ∀ k, old.has k = true → k ≠ "")
    (hspans : ∀ k ∈ keys, k.2 ≠ "")
    (hcut : Cut lines.length ((keys.head?.map Prod.fst).getD lines.length) (keySpans lines keys)) :
    joinLines (yaml.edited lines keys old document) =
      joinLines ((yaml.editPieces old document ((keys.head?.map Prod.fst).getD lines.length)
        (keySpans lines keys)).map (yaml.render lines document)) := by
  have hspanKeys : ∀ span ∈ keySpans lines keys, span.key ≠ "" := by
    intro span hspan
    have hmem : span.key ∈ keys.map Prod.snd := keySpans_keys lines keys ▸ List.mem_map_of_mem hspan
    rcases List.mem_map.mp hmem with ⟨k, hk, hkey⟩
    exact hkey ▸ hspans k hk
  -- span by span: its own chunk, the entries that follow it, and the lines up to the next
  have hloop : ∀ spans : List KeySpan, (∀ span ∈ spans, span ∈ keySpans lines keys) →
      joinLines (spans.flatMap fun span => yaml.chunk lines old document span ++
        yaml.insertedAfter old document span.key ++ lineSlice lines span.stop span.next) =
      joinLines ((spans.flatMap (yaml.spanPieces old document)).map (yaml.render lines document)) := by
    intro spans hin
    induction spans with
    | nil => rfl
    | cons span spans ih =>
        have hspan := hin span List.mem_cons_self
        have hlines := hcut.inside span hspan
        have hinsert := insertedAfter_text yaml lines old document hkeys (some span.key)
          fun h => hspanKeys span hspan (Option.some.inj h)
        rw [List.flatMap_cons, joinLines_append, ih fun s hs => hin s (List.mem_cons_of_mem _ hs),
          joinLines_append, joinLines_append, chunk_text yaml lines old document (by omega)]
        rw [Option.getD_some] at hinsert
        rw [hinsert, lineSlice_eq yaml lines document hlines.2.2.2, List.flatMap_cons, List.map_append,
          joinLines_append]
        unfold YamlTools.spanPieces
        rw [List.map_append, List.map_append, joinLines_append, joinLines_append]
  -- what stands before the first key
  have htake := lineSlice_eq yaml lines document (a := 0) hcut.first_le
  have hinsert := insertedAfter_text yaml lines old document hkeys none (by simp)
  rw [Option.getD_none] at hinsert
  unfold lineSlice at htake
  rw [List.drop_zero] at htake
  unfold YamlTools.edited YamlTools.editPieces
  rw [joinLines_append, joinLines_append, hloop _ fun _ h => h, htake, hinsert, List.map_append, List.map_append,
    joinLines_append, joinLines_append]

/-! ### Which they are -/

variable {lines old document}

theorem mem_lineRange {a b : Nat} {p : Piece} : p ∈ lineRange a b ↔ ∃ i, p = .line i ∧ a ≤ i ∧ i < b := by
  unfold lineRange
  rw [List.mem_map]
  constructor
  · rintro ⟨i, hi, rfl⟩
    rw [List.mem_range'_1] at hi
    exact ⟨i, rfl, by omega, by omega⟩
  · rintro ⟨i, rfl, ha, hb⟩
    exact ⟨i, List.mem_range'_1.mpr (by omega), rfl⟩

theorem mem_insertPieces {a : Option String} {p : Piece} : p ∈ insertPieces old document a ↔
    ∃ k, p = .entry k ∧ document.has k = true ∧ old.has k = false ∧ follows old document k = a := by
  unfold insertPieces newKeys
  rw [List.mem_map]
  constructor
  · rintro ⟨k, hk, rfl⟩
    rw [List.mem_filter, Dict.mem_keys] at hk
    simp only [Bool.and_eq_true, Bool.not_eq_true', decide_eq_true_eq] at hk
    exact ⟨k, rfl, hk.1, hk.2.1, hk.2.2⟩
  · rintro ⟨k, rfl, hk, hnew, hfollows⟩
    refine ⟨k, List.mem_filter.mpr ⟨Dict.mem_keys.mpr hk, ?_⟩, rfl⟩
    simp [hnew, hfollows]

theorem keeps_iff {k : String} : yaml.keeps old document k = false ↔ yaml.Changed old document k := by
  unfold YamlTools.keeps YamlTools.Changed
  cases old.get? k with
  | none => simp
  | some v => cases document.get? k <;> simp

theorem mem_chunkPieces {span : KeySpan} {p : Piece} : p ∈ yaml.chunkPieces old document span ↔
    (∃ i, p = .line i ∧ span.start ≤ i ∧ i < span.stop ∧ ¬ yaml.Changed old document span.key) ∨
      p = .entry span.key ∧ document.has span.key = true ∧ yaml.Changed old document span.key := by
  unfold YamlTools.chunkPieces
  by_cases hkeeps : yaml.keeps old document span.key = true
  · have hnot : ¬ yaml.Changed old document span.key := by
      rw [← keeps_iff, hkeeps]
      decide
    rw [if_pos hkeeps, mem_lineRange]
    simp [hnot]
  · have hchanged : yaml.Changed old document span.key := by
      rw [← keeps_iff]
      simpa using hkeeps
    rw [if_neg hkeeps]
    split
    · rename_i hhas
      simp [hchanged, hhas]
    · rename_i hhas
      simp [hchanged, hhas]

theorem mem_spanPieces {span : KeySpan} {p : Piece} : p ∈ yaml.spanPieces old document span ↔
    (p ∈ yaml.chunkPieces old document span ∨ p ∈ insertPieces old document (some span.key)) ∨
      p ∈ lineRange span.stop span.next := by
  unfold YamlTools.spanPieces
  rw [List.mem_append, List.mem_append]

theorem mem_editPieces {first : Nat} {spans : List KeySpan} {p : Piece} :
    p ∈ yaml.editPieces old document first spans ↔
      (p ∈ lineRange 0 first ∨ p ∈ insertPieces old document none) ∨
        ∃ span ∈ spans, p ∈ yaml.spanPieces old document span := by
  unfold YamlTools.editPieces
  rw [List.mem_append, List.mem_append, List.mem_flatMap]

theorem line_mem_spanPieces {span : KeySpan} (hspan : span.stop ≤ span.next) (hlt : span.start < span.stop) {i : Nat} :
    .line i ∈ yaml.spanPieces old document span ↔ span.start ≤ i ∧ i < span.next ∧
      (yaml.Changed old document span.key → ¬ i < span.stop) := by
  rw [mem_spanPieces, mem_chunkPieces, mem_insertPieces, mem_lineRange]
  constructor
  · rintro (((⟨j, hj, hstart, hstop, hkept⟩ | ⟨hp, -⟩) | ⟨k, hk, -⟩) | ⟨j, hj, hstop, hnext⟩)
    · cases hj
      exact ⟨hstart, by omega, fun hchanged => absurd hchanged hkept⟩
    · cases hp
    · cases hk
    · cases hj
      exact ⟨by omega, hnext, fun _ => by omega⟩
  · rintro ⟨hstart, hnext, hkept⟩
    by_cases hstop : i < span.stop
    · exact Or.inl (Or.inl (Or.inl ⟨i, rfl, hstart, hstop, fun hchanged => hkept hchanged hstop⟩))
    · exact Or.inr ⟨i, rfl, by omega, hnext⟩

/-- The lines are those outside the changed keys. -/
theorem line_mem_editPieces {n first : Nat} {spans : List KeySpan} (hcut : Cut n first spans) (i : Nat) :
    .line i ∈ yaml.editPieces old document first spans ↔ i < n ∧
      ∀ span ∈ spans, yaml.Changed old document span.key → ¬ (span.start ≤ i ∧ i < span.stop) := by
  rw [mem_editPieces, mem_lineRange, mem_insertPieces]
  constructor
  · rintro ((⟨j, hj, -, hfirst⟩ | ⟨k, hk, -⟩) | ⟨span, hspan, hp⟩)
    · cases hj
      refine ⟨lt_of_lt_of_le hfirst hcut.first_le, fun span hspan _ hin => ?_⟩
      have habove := (hcut.inside span hspan).1
      omega
    · cases hk
    · have hinside := hcut.inside span hspan
      rw [line_mem_spanPieces yaml hinside.2.2.1 hinside.2.1] at hp
      refine ⟨by omega, fun other hother hchanged hin => ?_⟩
      have hotherIn := hcut.inside other hother
      have hsame := hcut.unique hspan hother (i := i) ⟨hp.1, hp.2.1⟩ ⟨hin.1, by omega⟩
      subst hsame
      exact hp.2.2 hchanged hin.2
  · rintro ⟨hn, hkept⟩
    by_cases hfirst : i < first
    · exact Or.inl (Or.inl ⟨i, rfl, Nat.zero_le i, hfirst⟩)
    · rcases hcut.covers i (not_lt.mp hfirst) hn with ⟨span, hspan, hstart, hnext⟩
      have hinside := hcut.inside span hspan
      refine Or.inr ⟨span, hspan, (line_mem_spanPieces yaml hinside.2.2.1 hinside.2.1).mpr ?_⟩
      exact ⟨hstart, hnext, fun hchanged hstop => hkept span hspan hchanged ⟨hstart, hstop⟩⟩

/-- The entries are those that are written. -/
theorem entry_mem_editPieces {first : Nat} {spans : List KeySpan}
    (hold : ∀ k, old.has k = true ↔ ∃ span ∈ spans, span.key = k) (k : String) :
    .entry k ∈ yaml.editPieces old document first spans ↔ yaml.Written old document k := by
  have hwritten : yaml.Written old document k ↔
      document.has k = true ∧ (old.has k = false ∨ yaml.Changed old document k) := by
    unfold YamlTools.Written YamlTools.Changed Dict.has
    cases old.get? k with
    | none => cases document.get? k <;> simp
    | some v => cases document.get? k <;> simp
  rw [hwritten, mem_editPieces, mem_lineRange, mem_insertPieces]
  constructor
  -- an entry stands among the inserted ones or in the place of its span
  · rintro ((⟨j, hj, -⟩ | ⟨k', hk, hhas, hnew, -⟩) | ⟨span, hspan, hp⟩)
    · cases hj
    · cases hk
      exact ⟨hhas, Or.inl hnew⟩
    · rw [mem_spanPieces, mem_chunkPieces, mem_insertPieces, mem_lineRange] at hp
      rcases hp with ((⟨j, hj, -⟩ | ⟨hp, hhas, hchanged⟩) | ⟨k', hk, hhas, hnew, -⟩) | ⟨j, hj, -⟩
      · cases hj
      · cases hp
        exact ⟨hhas, Or.inr hchanged⟩
      · cases hk
        exact ⟨hhas, Or.inl hnew⟩
      · cases hj
  · rintro ⟨hhas, hnew | hchanged⟩
    -- a new entry stands behind the key it follows, or in front where it follows none
    · cases hfollows : follows old document k with
      | none => exact Or.inl (Or.inr ⟨k, rfl, hhas, hnew, hfollows⟩)
      | some a =>
          rcases (hold a).mp (follows_old old document hfollows) with ⟨span, hspan, rfl⟩
          exact Or.inr ⟨span, hspan, mem_spanPieces yaml |>.mpr
            (Or.inl (Or.inr (mem_insertPieces.mpr ⟨k, rfl, hhas, hnew, hfollows⟩)))⟩
    -- a changed entry stands where its span was
    · have hin : old.has k = true := by
        rcases hchanged with ⟨v, hv, -⟩
        exact Dict.has_iff.mpr ⟨v, hv⟩
      rcases (hold k).mp hin with ⟨span, hspan, rfl⟩
      exact Or.inr ⟨span, hspan, mem_spanPieces yaml |>.mpr
        (Or.inl (Or.inl (mem_chunkPieces yaml |>.mpr (Or.inr ⟨rfl, hhas, hchanged⟩))))⟩

/-! ### How they stand -/

theorem find_span {spans : List KeySpan} (hnodup : (spans.map KeySpan.key).Nodup) {span : KeySpan}
    (h : span ∈ spans) : (spans.find? fun s => s.key = span.key) = some span := by
  induction spans with
  | nil => cases h
  | cons s spans ih =>
      rw [List.map_cons, List.nodup_cons] at hnodup
      rcases List.mem_cons.mp h with rfl | h
      · exact List.find?_cons_of_pos (by simp)
      · have hne : s.key ≠ span.key := fun heq => hnodup.1 (heq ▸ List.mem_map_of_mem h)
        rw [List.find?_cons_of_neg (by simpa using hne)]
        exact ih hnodup.2 h

theorem lineRange_ordered (first : Nat) (spans : List KeySpan) (a b : Nat) :
    (lineRange a b).Pairwise fun p q =>
      Before (place first spans old document p) (place first spans old document q) := by
  unfold lineRange
  rw [List.pairwise_map]
  refine (List.pairwise_lt_range' 1).imp fun hlt => Or.inl ?_
  change 2 * _ + 1 < 2 * _ + 1
  omega

theorem idxOf_ordered {l : List String} (h : l.Nodup) : l.Pairwise fun a b => l.idxOf a < l.idxOf b := by
  rw [List.pairwise_iff_getElem]
  intro i j hi hj hlt
  rw [List.Nodup.idxOf_getElem h i hi, List.Nodup.idxOf_getElem h j hj]
  exact hlt

/-- Where the entries that follow a key stand: behind its lines. -/
def slotOf (first : Nat) (spans : List KeySpan) (a : Option String) : Nat :=
  ((a.bind fun a => spans.find? fun span => span.key = a).map KeySpan.stop).getD first

theorem place_insert (first : Nat) {spans : List KeySpan} (hold : ∀ k, old.has k = true ↔ ∃ span ∈ spans, span.key = k)
    {a : Option String} {p : Piece} (h : p ∈ insertPieces old document a) : ∃ k, p = .entry k ∧
      place first spans old document p = (2 * slotOf first spans a, document.keys.idxOf k + 1) := by
  rcases mem_insertPieces.mp h with ⟨k, rfl, -, hnew, hfollows⟩
  have hnone : (spans.find? fun span => span.key = k) = none := by
    rw [List.find?_eq_none]
    intro span hspan hkey
    have hhas := (hold k).mpr ⟨span, hspan, of_decide_eq_true hkey⟩
    rw [hnew] at hhas
    cases hhas
  refine ⟨k, rfl, ?_⟩
  unfold place slotOf
  dsimp only
  rw [hnone, hfollows]

theorem insertPieces_ordered {first : Nat} {spans : List KeySpan}
    (hold : ∀ k, old.has k = true ↔ ∃ span ∈ spans, span.key = k) (a : Option String) :
    (insertPieces old document a).Pairwise fun p q =>
      Before (place first spans old document p) (place first spans old document q) := by
  have hsorted := (idxOf_ordered document.nodup).sublist
    (List.filter_sublist (p := fun k => !old.has k && decide (follows old document k = a)))
  have hmap : (insertPieces old document a).Pairwise fun p q => ∀ k k', p = .entry k → q = .entry k' →
      document.keys.idxOf k < document.keys.idxOf k' := by
    unfold insertPieces
    rw [List.pairwise_map]
    refine hsorted.imp fun hlt k k' hk hk' => ?_
    cases hk
    cases hk'
    exact hlt
  refine hmap.imp_of_mem fun hp hq hlt => Or.inr ?_
  rcases place_insert first hold hp with ⟨k, rfl, hplace⟩
  rcases place_insert first hold hq with ⟨k', rfl, hplace'⟩
  rw [hplace, hplace']
  exact ⟨rfl, Nat.succ_lt_succ (hlt k k' rfl rfl)⟩

section Order

variable {n first : Nat} {spans : List KeySpan} (hcut : Cut n first spans)
  (hnodup : (spans.map KeySpan.key).Nodup) (hold : ∀ k, old.has k = true ↔ ∃ span ∈ spans, span.key = k)

include hcut hnodup

theorem place_chunk {span : KeySpan} (hspan : span ∈ spans) {p : Piece}
    (h : p ∈ yaml.chunkPieces old document span) :
    2 * span.start < (place first spans old document p).1 ∧ (place first spans old document p).1 < 2 * span.stop := by
  have hinside := hcut.inside span hspan
  rcases (mem_chunkPieces yaml).mp h with ⟨i, rfl, hstart, hstop, -⟩ | ⟨rfl, -⟩
  · change 2 * span.start < 2 * i + 1 ∧ 2 * i + 1 < 2 * span.stop
    omega
  · unfold place
    dsimp only
    rw [find_span hnodup hspan]
    dsimp only
    omega

include hold

theorem place_span {span : KeySpan} (hspan : span ∈ spans) {p : Piece} (h : p ∈ yaml.spanPieces old document span) :
    2 * span.start < (place first spans old document p).1 ∧ (place first spans old document p).1 ≤ 2 * span.next := by
  have hinside := hcut.inside span hspan
  rcases (mem_spanPieces yaml).mp h with (hchunk | hinsert) | hline
  · have hplace := place_chunk yaml hcut hnodup hspan hchunk
    omega
  · rcases place_insert first hold hinsert with ⟨k, -, hplace⟩
    have hslot : slotOf first spans (some span.key) = span.stop := by
      unfold slotOf
      rw [Option.bind_some, find_span hnodup hspan]
      rfl
    rw [hplace, hslot]
    dsimp only
    omega
  · rcases mem_lineRange.mp hline with ⟨i, rfl, hstop, hnext⟩
    change 2 * span.start < 2 * i + 1 ∧ 2 * i + 1 ≤ 2 * span.next
    omega

theorem spanPieces_ordered {span : KeySpan} (hspan : span ∈ spans) :
    (yaml.spanPieces old document span).Pairwise fun p q =>
      Before (place first spans old document p) (place first spans old document q) := by
  have hslot : slotOf first spans (some span.key) = span.stop := by
    unfold slotOf
    rw [Option.bind_some, find_span hnodup hspan]
    rfl
  have hchunk : (yaml.chunkPieces old document span).Pairwise fun p q =>
      Before (place first spans old document p) (place first spans old document q) := by
    unfold YamlTools.chunkPieces
    split
    · exact lineRange_ordered first spans _ _
    · split
      · exact List.pairwise_singleton _ _
      · exact List.Pairwise.nil
  unfold YamlTools.spanPieces
  refine List.pairwise_append.mpr ⟨List.pairwise_append.mpr ⟨hchunk, insertPieces_ordered hold _, ?_⟩,
    lineRange_ordered first spans _ _, ?_⟩
  · intro p hp q hq
    rcases place_insert first hold hq with ⟨k, -, hplace⟩
    refine Or.inl ?_
    rw [hplace, hslot]
    exact (place_chunk yaml hcut hnodup hspan hp).2
  · intro p hp q hq
    rcases mem_lineRange.mp hq with ⟨i, rfl, hstop, -⟩
    refine Or.inl ?_
    change _ < 2 * i + 1
    rcases List.mem_append.mp hp with hp | hp
    · have hplace := (place_chunk yaml hcut hnodup hspan hp).2
      omega
    · rcases place_insert first hold hp with ⟨k, -, hplace⟩
      rw [hplace, hslot]
      dsimp only
      omega

theorem editPieces_ordered : (yaml.editPieces old document first spans).Pairwise fun p q =>
    Before (place first spans old document p) (place first spans old document q) := by
  have hhead : ∀ p ∈ lineRange 0 first ++ insertPieces old document none,
      (place first spans old document p).1 ≤ 2 * first := by
    intro p hp
    rcases List.mem_append.mp hp with hp | hp
    · rcases mem_lineRange.mp hp with ⟨i, rfl, -, hi⟩
      change 2 * i + 1 ≤ 2 * first
      omega
    · rcases place_insert first hold hp with ⟨k, -, hplace⟩
      rw [hplace]
      exact le_rfl
  unfold YamlTools.editPieces
  refine List.pairwise_append.mpr ⟨List.pairwise_append.mpr ⟨lineRange_ordered first spans _ _,
    insertPieces_ordered hold _, ?_⟩, List.pairwise_flatMap.mpr ⟨?_, ?_⟩, ?_⟩
  · intro p hp q hq
    rcases mem_lineRange.mp hp with ⟨i, rfl, -, hi⟩
    rcases place_insert first hold hq with ⟨k, -, hplace⟩
    refine Or.inl ?_
    rw [hplace]
    change 2 * i + 1 < 2 * first
    omega
  · exact fun span hspan => spanPieces_ordered yaml hcut hnodup hold hspan
  · refine hcut.ordered.imp_of_mem fun ha hb hle p hp q hq => Or.inl ?_
    have hplace := place_span yaml hcut hnodup hold ha hp
    have hplace' := place_span yaml hcut hnodup hold hb hq
    omega
  · intro p hp q hq
    rcases List.mem_flatMap.mp hq with ⟨span, hspan, hq⟩
    have hplace := place_span yaml hcut hnodup hold hspan hq
    have habove := (hcut.inside span hspan).1
    have hbelow := hhead p hp
    exact Or.inl (by omega)

end Order

/-! ## The completed line -/

/-- Only a last line without a newline is completed. -/
theorem completed_cases (lines : List String) :
    completed lines = lines ∧ (∀ last, lines.getLast? = some last → last.toList.getLast? = some '\n') ∨
      ∃ init last, lines = init ++ [last] ∧ last.toList.getLast? ≠ some '\n' ∧
        completed lines = init ++ [last ++ "\n"] := by
  rcases List.eq_nil_or_concat lines with rfl | ⟨init, last, hsplit⟩
  · exact Or.inl ⟨rfl, fun last h => absurd h (by simp)⟩
  · rw [List.concat_eq_append] at hsplit
    have hlast : lines.getLast? = some last := by rw [hsplit, List.getLast?_append, List.getLast?_singleton]; rfl
    unfold completed
    rw [hlast]
    dsimp only
    split
    · rename_i hend
      refine Or.inl ⟨rfl, fun last' h => ?_⟩
      cases h
      exact hend
    · rename_i hend
      exact Or.inr ⟨init, last, hsplit, hend, by rw [hsplit, List.dropLast_concat]⟩

theorem completed_length (lines : List String) : (completed lines).length = lines.length := by
  rcases completed_cases lines with ⟨h, -⟩ | ⟨init, last, rfl, -, h⟩
  · rw [h]
  · rw [h]
    simp

/-! ## Edits -/

theorem editTopLevel_eq_some {text : String} {old document : Dict V} {result : String}
    (hload : yaml.load text = some (some old)) (h : yaml.editTopLevel text document = some result) :
    (yaml.keyLines (completed (splitLines text))).map Prod.snd = old.keys ∧
      result = joinLines (yaml.edited (completed (splitLines text))
        (yaml.keyLines (completed (splitLines text))) old document) := by
  unfold YamlTools.editTopLevel at h
  rw [hload] at h
  dsimp only at h
  split at h
  · rename_i hkeys
    split at h
    · split at h
      · exact ⟨hkeys, (Option.some.inj h).symm⟩
      · cases h
    · cases h
  · cases h

/-- Parts in order are known by which they are. -/
theorem pieces_unique {places : Piece → Nat × Nat} {l l' : List Piece}
    (h : l.Pairwise fun p q => Before (places p) (places q)) (h' : l'.Pairwise fun p q => Before (places p) (places q))
    (hmem : ∀ p, p ∈ l ↔ p ∈ l') : l = l' := by
  have hirrefl : ∀ p q : Piece, Before (places p) (places q) → p ≠ q := by
    rintro p q hbefore rfl
    rcases hbefore with hlt | ⟨-, hlt⟩
    · exact lt_irrefl _ hlt
    · exact lt_irrefl _ hlt
  have hperm : l.Perm l' := (List.perm_ext_iff_of_nodup (h.imp fun hb => hirrefl _ _ hb)
    (h'.imp fun hb => hirrefl _ _ hb)).mpr hmem
  refine hperm.eq_of_pairwise (fun p q _ _ hpq hqp => ?_) h h'
  unfold Before at hpq hqp
  omega

theorem joinLines_length (l : List String) :
    (joinLines l).toList.length = (l.map fun line => line.toList.length).sum := by
  unfold joinLines
  rw [String.toList_ofList, List.length_flatMap]

theorem render_line (lines : List String) (document : Dict V) (i : Nat) :
    yaml.render lines document (.line i) = (lines[i]?).getD "" := rfl

/-- A text that YAML reads is edited as it should be exactly if no changed key has a comment among its lines and
the text is complete, or ends with a line that goes. -/
theorem edits_only_iff {text : String} {old document : Dict V} {result : String}
    (hload : yaml.load text = some (some old)) (h : yaml.editTopLevel text document = some result) :
    yaml.EditsOnly text old document result ↔ yaml.CommentsApart text old document := by
  rcases editTopLevel_eq_some yaml hload h with ⟨hkeys, hresult⟩
  have hcut := keyLines_cut yaml (completed (splitLines text))
  have hlength := completed_length (splitLines text)
  have hspanKeys := keySpans_keys (completed (splitLines text)) (yaml.keyLines (completed (splitLines text)))
  rw [hkeys] at hspanKeys
  have hnodup : ((keySpans (completed (splitLines text))
      (yaml.keyLines (completed (splitLines text)))).map KeySpan.key).Nodup := hspanKeys ▸ old.nodup
  -- the spans are the keys of the document that was read
  have hold : ∀ k, old.has k = true ↔ ∃ span ∈ keySpans (completed (splitLines text))
      (yaml.keyLines (completed (splitLines text))), span.key = k := by
    intro k
    rw [← Dict.mem_keys, ← hspanKeys, List.mem_map]
  have htext := @edited_text V yaml (completed (splitLines text)) old document
    (yaml.keyLines (completed (splitLines text))) (fun k hk => by
      rcases List.mem_map.mp (hkeys ▸ Dict.mem_keys.mpr hk) with ⟨e, he, rfl⟩
      exact (keyLines_in yaml he).2) (fun k hk => (keyLines_in yaml hk).2) hcut
  rw [← hresult] at htext
  have hordered := @editPieces_ordered V yaml old document _ _ _ hcut hnodup hold
  have hlines := @line_mem_editPieces V yaml old document _ _ _ hcut
  have hentries := @entry_mem_editPieces V yaml old document
    (((yaml.keyLines (completed (splitLines text))).head?.map Prod.fst).getD
      (completed (splitLines text)).length) _ hold
  rw [hlength] at hcut htext hordered hlines hentries
  -- from here on only what these facts say of the spans and of the pieces is used
  generalize hspans : keySpans (completed (splitLines text)) (yaml.keyLines (completed (splitLines text))) = spans
    at hcut htext hordered hlines hentries hold
  generalize hpieces : yaml.editPieces old document (((yaml.keyLines (completed (splitLines text))).head?.map
    Prod.fst).getD (splitLines text).length) spans = pieces at htext hordered hlines hentries
  constructor
  · rintro ⟨given, hgiven⟩
    dsimp only at hgiven
    rw [hspans] at hgiven
    rcases hgiven with ⟨horder, hline, hentry, hcomments, hjoin⟩
    -- order and content leave one list of pieces only
    have hsame : given = pieces := by
      refine pieces_unique horder hordered fun p => ?_
      cases p with
      | line i => rw [hline, hlines]
      | entry k => rw [hentry, hentries]
    subst hsame
    refine ⟨fun span hspan hchanged i hstart hstop line hget => ?_, fun last hlast => ?_⟩
    · rw [hspans] at hspan
      by_contra hcomment
      have hin := hcomments i line hget (by simpa using hcomment)
      exact ((hline i).mp hin).2 span hspan hchanged ⟨hstart, hstop⟩
    · rw [hspans]
      by_contra hnot
      rw [not_or] at hnot
      rcases completed_cases (splitLines text) with ⟨-, hends⟩ | ⟨init, last', hsplit, -, hcompleted⟩
      · exact hnot.1 (hends last hlast)
      · -- the last line is kept, and the result has a newline more
        have hkept : Piece.line init.length ∈ given := by
          refine (hline _).mpr ⟨by rw [hsplit]; simp, fun span hspan hchanged hin => ?_⟩
          have hinside := hcut.inside span hspan
          have hn : (splitLines text).length = init.length + 1 := by rw [hsplit]; simp
          exact hnot.2 ⟨span, hspan, hchanged, by omega⟩
        have hle : ∀ p ∈ given, (yaml.render (splitLines text) document p).toList.length ≤
            (yaml.render (completed (splitLines text)) document p).toList.length := by
          intro p _
          cases p with
          | entry k => exact le_rfl
          | line i =>
              rw [render_line, render_line, hcompleted, hsplit]
              rcases lt_trichotomy i init.length with hlt | rfl | hgt
              · rw [List.getElem?_append_left hlt, List.getElem?_append_left hlt]
              · simp [String.toList_append]
              · rw [List.getElem?_eq_none (by simp; omega), List.getElem?_eq_none (by simp; omega)]
        have hlt : (yaml.render (splitLines text) document (.line init.length)).toList.length <
            (yaml.render (completed (splitLines text)) document (.line init.length)).toList.length := by
          rw [render_line, render_line, hcompleted, hsplit]
          simp [String.toList_append]
        -- a text of that length is not the result
        have hless := List.sum_lt_sum _ _ hle ⟨_, hkept, hlt⟩
        have hequal := congrArg (fun s : String => s.toList.length) (hjoin.symm.trans htext)
        simp only [joinLines_length, List.map_map] at hequal
        exact absurd hequal hless.ne
  · intro hapart
    refine ⟨pieces, ?_⟩
    dsimp only
    rw [hspans]
    refine ⟨hordered, hlines, hentries, fun i line hget hcomment => ?_, ?_⟩
    · have hi : i < (splitLines text).length := (List.getElem?_eq_some_iff.mp hget).1
      refine (hlines i).mpr ⟨hi, fun span hspan hchanged hin => ?_⟩
      have hno := hapart.comments span (hspans ▸ hspan) hchanged i hin.1 hin.2 line hget
      rw [hcomment] at hno
      cases hno
    · rw [htext]
      congr 1
      -- the pieces are printed from the completed lines, which differ in the last one at most
      refine List.map_congr_left fun p hp => ?_
      rcases completed_cases (splitLines text) with ⟨hcomplete, -⟩ | ⟨init, last, hsplit, hend, hcompleted⟩
      · rw [hcomplete]
      · cases p with
        | entry k => rfl
        | line i =>
            have hin := (hlines i).mp hp
            have hn : (splitLines text).length = init.length + 1 := by rw [hsplit]; simp
            by_cases hlast : i = init.length
            · rcases hapart.ending last (by rw [hsplit]; simp) with hnewline | ⟨span, hspan, hchanged, hstop⟩
              · exact absurd hnewline hend
              · rw [hspans] at hspan
                have hinside := hcut.inside span hspan
                exact absurd ⟨by omega, by omega⟩ (hin.2 span hspan hchanged)
            · have hlt : i < init.length := by omega
              rw [render_line, render_line, hcompleted, hsplit, List.getElem?_append_left hlt,
                List.getElem?_append_left hlt]

end Edit

/-! ## A comment before an empty line -/

/-- YAML on keys with plain words. -/
def plainYaml : YamlTools String where
  load text := some (some (Dict.ofEntries ((splitLines text).filterMap fun line =>
    if isComment line || strip line = "" then none
    else some ((partitionAt ':' line).1, strip (partitionAt ':' line).2))))
  dump key value := key ++ ": " ++ value ++ "\n"
  same v w := v = w
  isWord c := c.isAlphanum || c == '_'

/-- A comment that belongs to the next key stays, and a new key comes before it. -/
theorem leading_comment_stays : plainYaml.EditsOnly "name: m\n# what it is for\ntags: a\n"
    (.ofEntries [("name", "m"), ("tags", "a")]) (.ofEntries [("name", "n"), ("family", "f"), ("tags", "a")])
    "name: n\nfamily: f\n# what it is for\ntags: a\n" := by
  have hload : plainYaml.load "name: m\n# what it is for\ntags: a\n" =
      some (some (.ofEntries [("name", "m"), ("tags", "a")])) := by
    with_unfolding_all rfl
  have hspans : keySpans (completed (splitLines "name: m\n# what it is for\ntags: a\n"))
      (plainYaml.keyLines (completed (splitLines "name: m\n# what it is for\ntags: a\n"))) =
      [⟨"name", 0, 1, 2⟩, ⟨"tags", 2, 3, 3⟩] := by
    decide
  have hlines : splitLines "name: m\n# what it is for\ntags: a\n" =
      ["name: m\n", "# what it is for\n", "tags: a\n"] := by
    decide
  refine (edits_only_iff plainYaml hload (by with_unfolding_all rfl)).mpr ⟨?_, ?_⟩
  · rw [hspans, hlines]
    intro span hspan _ i hstart hstop line hget
    rcases List.mem_cons.mp hspan with rfl | hspan
    · have hzero : i = 0 := by simpa using hstop
      subst hzero
      cases hget
      decide
    · rcases List.mem_singleton.mp hspan with rfl
      have htwo : i = 2 := by
        dsimp only at hstart hstop
        omega
      subst htwo
      cases hget
      decide
  · rw [hlines]
    intro last hlast
    cases hlast
    exact Or.inl (by decide)

/-- A comment with an empty line behind it goes with the key before it. -/
theorem lone_comment_lost : plainYaml.editTopLevel "name: m\n# measured twice\n\ntags: a\n"
      (.ofEntries [("name", "n"), ("tags", "a")]) = some "name: n\ntags: a\n" ∧
    plainYaml.load "name: m\n# measured twice\n\ntags: a\n" =
      some (some (.ofEntries [("name", "m"), ("tags", "a")])) ∧
    ¬ plainYaml.EditsOnly "name: m\n# measured twice\n\ntags: a\n" (.ofEntries [("name", "m"), ("tags", "a")])
      (.ofEntries [("name", "n"), ("tags", "a")]) "name: n\ntags: a\n" := by
  refine ⟨by with_unfolding_all rfl, by with_unfolding_all rfl, ?_⟩
  rintro ⟨pieces, hpieces⟩
  dsimp only at hpieces
  have hspans : keySpans (completed (splitLines "name: m\n# measured twice\n\ntags: a\n"))
      (plainYaml.keyLines (completed (splitLines "name: m\n# measured twice\n\ntags: a\n"))) =
      [⟨"name", 0, 3, 3⟩, ⟨"tags", 3, 4, 4⟩] := by
    decide
  have hlines : splitLines "name: m\n# measured twice\n\ntags: a\n" =
      ["name: m\n", "# measured twice\n", "\n", "tags: a\n"] := by
    decide
  rw [hspans] at hpieces
  rcases hpieces with ⟨-, hkept, -, hcomments, -⟩
  have hin := hcomments 1 "# measured twice\n" (by rw [hlines]; rfl) (by decide)
  have hchanged : plainYaml.Changed (.ofEntries [("name", "m"), ("tags", "a")])
      (.ofEntries [("name", "n"), ("tags", "a")]) "name" :=
    ⟨"m", rfl, fun w hw => by cases hw; decide⟩
  exact ((hkept 1).mp hin).2 ⟨"name", 0, 3, 3⟩ List.mem_cons_self hchanged ⟨by decide, by decide⟩

end AutoTune
