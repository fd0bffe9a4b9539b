import AutoTune.Lib.Dict
import AutoTune.Lib.Numerals
import Mathlib.Data.List.Sort
import Mathlib.Data.String.Basic

/-!
# JSON text

What `json.dumps` prints with sorted keys and no blanks. The text of a value ends where a reader that
counts brackets and skips strings says it does, so two dictionaries with the same keys print the same
text only if they print the same text under every key.
-/

namespace AutoTune.Lib

/-! ## Printing -/

/-- A digit of `'\x7b0:04x\x7d'`. -/
def hexDigit (n : Nat) : Char := if n < 10 then Char.ofNat (48 + n) else Char.ofNat (87 + n)

/-- `\uXXXX`. -/
def unicodeEscape (n : Nat) : List Char :=
  ['\\', 'u', hexDigit (n / 4096 % 16), hexDigit (n / 256 % 16), hexDigit (n / 16 % 16),
    hexDigit (n % 16)]

/-- One character of a JSON string, in ASCII. -/
def escapeChar (c : Char) : List Char :=
  if c = '"' then ['\\', '"']
  else if c = '\\' then ['\\', '\\']
  else if c = '\n' then ['\\', 'n']
  else if c = '\r' then ['\\', 'r']
  else if c = '\t' then ['\\', 't']
  else if c.toNat = 8 then ['\\', 'b']
  else if c.toNat = 12 then ['\\', 'f']
  else if 32 ≤ c.toNat ∧ c.toNat ≤ 126 then [c]
  else if c.toNat < 0x10000 then unicodeEscape c.toNat
  else
    -- a surrogate pair
    unicodeEscape (0xd800 + (c.toNat - 0x10000) / 1024) ++
      unicodeEscape (0xdc00 + (c.toNat - 0x10000) % 1024)

def quoted (s : String) : List Char := '"' :: s.toList.flatMap escapeChar ++ ['"']

/-- `,` between the pieces. -/
def commaJoin : List (List Char) → List Char
  | [] => []
  | [t] => t
  | t :: ts => t ++ ',' :: commaJoin ts

/-- Entries by key. -/
def sortEntries {α : Type} (l : List (String × α)) : List (String × α) :=
  l.insertionSort fun a b => a.1 ≤ b.1

/-- The entries of an object whose values are printed already. -/
def entriesText (l : List (String × List Char)) : List Char :=
  commaJoin (l.map fun e => quoted e.1 ++ ':' :: e.2)

section Dump

variable {F : Type} [PyRuntime F]

mutual

def Json.dump : Json F → List Char
  | .null => "null".toList
  | .bool b => if b then "true".toList else "false".toList
  | .int n => (toString n).toList
  | .float x => (PyRuntime.text x).toList
  | .str s => quoted s
  | .list items => '[' :: commaJoin (Json.dumpItems items) ++ [']']
  | .dict entries => '\x7b' :: entriesText (sortEntries (Json.dumpEntries entries)) ++ ['\x7d']

def Json.dumpItems : List (Json F) → List (List Char)
  | [] => []
  | v :: items => v.dump :: Json.dumpItems items

def Json.dumpEntries : List (String × Json F) → List (String × List Char)
  | [] => []
  | (k, v) :: entries => (k, v.dump) :: Json.dumpEntries entries

end

/-- `json.dumps(value, sort_keys=True, separators=(",", ":"))`. -/
def Json.dumps (v : Json F) : String := String.ofList v.dump

theorem Json.dumpEntries_eq (d : List (String × Json F)) :
    Json.dumpEntries d = d.map fun e => (e.1, e.2.dump) := by
  induction d with
  | nil => rfl
  | cons e d ih =>
      rw [List.map_cons, ← ih]
      rfl

end Dump

/-! ## Where a value ends -/

/-- Where a reader of JSON text stands. -/
inductive ReaderMode where
  | between
  | inText
  | escaped
deriving DecidableEq, Repr

/-- What is left when a value has been read; `depth` counts open brackets. -/
def afterValue : Nat → ReaderMode → List Char → List Char
  | _, _, [] => []
  | depth, .escaped, _ :: s => afterValue depth .inText s
  | depth, .inText, c :: s =>
      if c = '\\' then afterValue depth .escaped s
      else if c = '"' then afterValue depth .between s
      else afterValue depth .inText s
  | depth, .between, c :: s =>
      if c = '"' then afterValue depth .inText s
      else if c = '[' ∨ c = '\x7b' then afterValue (depth + 1) .between s
      else if c = ']' ∨ c = '\x7d' then
        if depth = 0 then c :: s else afterValue (depth - 1) .between s
      else if c = ',' ∧ depth = 0 then c :: s
      else afterValue depth .between s

/-- A character with no meaning between values. -/
def plainChar (c : Char) : Bool :=
  !(c = '"' || c = '[' || c = '\x7b' || c = ']' || c = '\x7d' || c = ',')

/-- A piece of text that a reader passes over, brackets closed and strings ended. -/
def Neutral (t : List Char) : Prop :=
  ∀ depth s, afterValue depth .between (t ++ s) = afterValue depth .between s

theorem neutral_nil : Neutral [] := fun _ _ => rfl

theorem Neutral.append {t u : List Char} (ht : Neutral t) (hu : Neutral u) : Neutral (t ++ u) := by
  intro depth s
  rw [List.append_assoc, ht, hu]

theorem neutral_plain {t : List Char} (h : ∀ c ∈ t, plainChar c = true) : Neutral t := by
  induction t with
  | nil => exact neutral_nil
  | cons c t ih =>
      intro depth s
      have hc : plainChar c = true := h c List.mem_cons_self
      have htail := ih (fun d hd => h d (List.mem_cons_of_mem c hd)) depth s
      simp only [plainChar, Bool.not_eq_true', Bool.or_eq_false_iff, decide_eq_false_iff_not] at hc
      rw [List.cons_append, afterValue]
      simp [hc, htail]

theorem neutral_of_all {t : List Char} (h : t.all plainChar = true) : Neutral t :=
  neutral_plain (List.all_eq_true.mp h)

/-! ### Strings -/

theorem hexDigit_plain (n : Nat) (hn : n < 16) : hexDigit n ≠ '\\' ∧ hexDigit n ≠ '"' := by
  revert n
  decide

/-- Four digits inside a string. -/
theorem afterValue_unicodeEscape (n depth : Nat) (s : List Char) :
    afterValue depth .inText (unicodeEscape n ++ s) = afterValue depth .inText s := by
  have hdigit : ∀ m, hexDigit (m % 16) ≠ '\\' ∧ hexDigit (m % 16) ≠ '"' :=
    fun m => hexDigit_plain (m % 16) (Nat.mod_lt m (by decide))
  simp [unicodeEscape, afterValue, hdigit]

/-- Inside a string an escaped character is passed over as a whole. -/
theorem afterValue_escapeChar (c : Char) (depth : Nat) (s : List Char) :
    afterValue depth .inText (escapeChar c ++ s) = afterValue depth .inText s := by
  unfold escapeChar
  split
  · simp [afterValue]
  split
  · simp [afterValue]
  · rename_i hquote hslash
    split_ifs
    · simp [afterValue]
    · simp [afterValue]
    · simp [afterValue]
    · simp [afterValue]
    · simp [afterValue]
    · simp [afterValue, hquote, hslash]
    · exact afterValue_unicodeEscape _ depth s
    · rw [List.append_assoc, afterValue_unicodeEscape, afterValue_unicodeEscape]

theorem neutral_quoted (text : String) : Neutral (quoted text) := by
  have hbody : ∀ (l : List Char) (depth : Nat) (s : List Char),
      afterValue depth .inText (l.flatMap escapeChar ++ '"' :: s) = afterValue depth .between s := by
    intro l
    induction l with
    | nil =>
        intro depth s
        simp [afterValue]
    | cons c l ih =>
        intro depth s
        rw [List.flatMap_cons, List.append_assoc, afterValue_escapeChar, ih]
  intro depth s
  have hopen : quoted text ++ s = '"' :: (text.toList.flatMap escapeChar ++ '"' :: s) := by
    simp [quoted]
  rw [hopen, afterValue]
  simpa using hbody text.toList depth s

/-! ### Values -/

theorem neutral_bracketed {t : List Char} (ht : ∀ depth s, afterValue (depth + 1) .between (t ++ s) =
    afterValue (depth + 1) .between s) (a b : Char) (ha : a = '[' ∨ a = '\x7b')
    (hb : b = ']' ∨ b = '\x7d') : Neutral (a :: t ++ [b]) := by
  intro depth s
  have hquote : a ≠ '"' := by rcases ha with rfl | rfl <;> decide
  have hopen : ¬ (b = '"') ∧ ¬ (b = '[' ∨ b = '\x7b') := by rcases hb with rfl | rfl <;> decide
  have hclose : afterValue (depth + 1) .between (b :: s) = afterValue depth .between s := by
    rw [afterValue]
    simp [hopen, hb]
  calc
    afterValue depth .between (a :: t ++ [b] ++ s)
        = afterValue depth .between (a :: (t ++ b :: s)) := by simp
    _ = afterValue (depth + 1) .between (t ++ b :: s) := by
          rw [afterValue]
          simp [hquote, ha]
    _ = afterValue (depth + 1) .between (b :: s) := ht depth (b :: s)
    _ = afterValue depth .between s := hclose

/-- Inside brackets commas are passed over. -/
theorem commaJoin_passes {ts : List (List Char)} (h : ∀ t ∈ ts, Neutral t) (depth : Nat)
    (s : List Char) :
    afterValue (depth + 1) .between (commaJoin ts ++ s) = afterValue (depth + 1) .between s := by
  induction ts with
  | nil => rfl
  | cons t ts ih =>
      have ht := h t List.mem_cons_self
      have hts := ih fun u hu => h u (List.mem_cons_of_mem t hu)
      cases ts with
      | nil => exact ht (depth + 1) s
      | cons u ts =>
          have hcomma : afterValue (depth + 1) .between (',' :: (commaJoin (u :: ts) ++ s)) =
              afterValue (depth + 1) .between (commaJoin (u :: ts) ++ s) := by
            rw [afterValue]
            simp
          rw [commaJoin, List.append_assoc, ht, List.cons_append, hcomma, hts]
          simp

theorem intText_plain (n : Int) : ∀ c ∈ (toString n).toList, plainChar c = true := by
  have hdigit : ∀ c : Char, c.isDigit = true → plainChar c = true := by
    intro c hc
    simp only [plainChar, Bool.not_eq_true', Bool.or_eq_false_iff, decide_eq_false_iff_not]
    refine ⟨⟨⟨⟨⟨?_, ?_⟩, ?_⟩, ?_⟩, ?_⟩, ?_⟩ <;> (rintro rfl; exact absurd hc (by decide))
  rcases intText_chars n with ⟨cs, hcs, -, htext⟩
  intro c hc
  rcases htext with htext | htext
  · rw [htext] at hc
    exact hdigit c (hcs c hc)
  · rw [htext] at hc
    rcases List.mem_cons.mp hc with rfl | hc
    · decide
    · exact hdigit c (hcs c hc)

theorem entriesText_passes {l : List (String × List Char)} (h : ∀ e ∈ l, Neutral e.2) (depth : Nat)
    (s : List Char) :
    afterValue (depth + 1) .between (entriesText l ++ s) = afterValue (depth + 1) .between s := by
  refine commaJoin_passes ?_ depth s
  intro t ht
  rcases List.mem_map.mp ht with ⟨e, he, rfl⟩
  have hcolon : Neutral [':'] := neutral_of_all (by decide)
  simpa using ((neutral_quoted e.1).append hcolon).append (h e he)

/-- A float prints without quotes, brackets and commas. -/
def PlainFloats (F : Type) [PyRuntime F] : Prop :=
  ∀ x : F, ∀ c ∈ (PyRuntime.text x).toList, plainChar c = true

section Dump

variable {F : Type} [PyRuntime F]

mutual

/-- The text of a value is passed over. -/
theorem Json.neutral_dump (hplain : PlainFloats F) : ∀ v : Json F, Neutral v.dump
  | .null => neutral_of_all (t := "null".toList) (by decide)
  | .bool true => neutral_of_all (t := "true".toList) (by decide)
  | .bool false => neutral_of_all (t := "false".toList) (by decide)
  | .int n => neutral_plain (intText_plain n)
  | .float x => neutral_plain (hplain x)
  | .str s => neutral_quoted s
  | .list items =>
      neutral_bracketed (commaJoin_passes (Json.neutral_dumpItems hplain items)) '[' ']' (Or.inl rfl)
        (Or.inl rfl)
  | .dict entries => by
      refine neutral_bracketed (entriesText_passes ?_) '\x7b' '\x7d' (Or.inr rfl) (Or.inr rfl)
      intro e he
      exact Json.neutral_dumpEntries hplain entries e (List.mem_insertionSort _ |>.mp he)

theorem Json.neutral_dumpItems (hplain : PlainFloats F) :
    ∀ items : List (Json F), ∀ t ∈ Json.dumpItems items, Neutral t
  | [], _, ht => by simp [Json.dumpItems] at ht
  | v :: items, t, ht => by
      rcases List.mem_cons.mp ht with rfl | ht
      · exact Json.neutral_dump hplain v
      · exact Json.neutral_dumpItems hplain items t ht

theorem Json.neutral_dumpEntries (hplain : PlainFloats F) :
    ∀ entries : List (String × Json F), ∀ e ∈ Json.dumpEntries entries, Neutral e.2
  | [], _, he => by simp [Json.dumpEntries] at he
  | (k, v) :: entries, e, he => by
      rcases List.mem_cons.mp he with rfl | he
      · exact Json.neutral_dump hplain v
      · exact Json.neutral_dumpEntries hplain entries e he

end

end Dump

/-! ## Two dictionaries with one text -/

/-- What may follow a value. -/
def EndsValue (s : List Char) : Prop := afterValue 0 .between s = s

theorem endsValue_comma (s : List Char) : EndsValue (',' :: s) := by
  simp [EndsValue, afterValue]

theorem endsValue_brace (s : List Char) : EndsValue ('\x7d' :: s) := by
  simp [EndsValue, afterValue]

/-- Two neutral texts that begin one text, with a value's end after each, are the same. -/
theorem Neutral.append_inj {t u s s' : List Char} (ht : Neutral t) (hu : Neutral u) (hs : EndsValue s)
    (hs' : EndsValue s') (h : t ++ s = u ++ s') : t = u ∧ s = s' := by
  have hrest : s = s' := by
    calc
      s = afterValue 0 .between s := hs.symm
      _ = afterValue 0 .between (t ++ s) := (ht 0 s).symm
      _ = afterValue 0 .between (u ++ s') := by rw [h]
      _ = afterValue 0 .between s' := hu 0 s'
      _ = s' := hs'
  subst hrest
  exact ⟨List.append_cancel_right h, rfl⟩

/-- Entries with the same keys in the same order and one text have the same values' texts. -/
theorem entriesText_inj {l l' : List (String × List Char)} (hkeys : l.map Prod.fst = l'.map Prod.fst)
    (hl : ∀ e ∈ l, Neutral e.2) (hl' : ∀ e ∈ l', Neutral e.2)
    (h : entriesText l ++ ['\x7d'] = entriesText l' ++ ['\x7d']) : l = l' := by
  induction l generalizing l' with
  | nil => exact (List.map_eq_nil_iff.mp hkeys.symm).symm
  | cons e l ih =>
      cases l' with
      | nil => simp at hkeys
      | cons e' l' =>
          rw [List.map_cons, List.map_cons, List.cons.injEq] at hkeys
          have he := hl e List.mem_cons_self
          have he' := hl' e' List.mem_cons_self
          have htail := fun x hx => hl x (List.mem_cons_of_mem e hx)
          have htail' := fun x hx => hl' x (List.mem_cons_of_mem e' hx)
          cases l with
          | nil =>
              have hnil : l' = [] := List.map_eq_nil_iff.mp hkeys.2.symm
              subst hnil
              have hvalue : e.2 ++ ['\x7d'] = e'.2 ++ ['\x7d'] := by
                simpa [entriesText, commaJoin, hkeys.1] using h
              have htext := List.append_cancel_right hvalue
              rw [Prod.ext hkeys.1 htext]
          | cons f l =>
              cases l' with
              | nil => simp at hkeys
              | cons f' l' =>
                  have hsplit : e.2 ++ ',' :: (entriesText (f :: l) ++ ['\x7d']) =
                      e'.2 ++ ',' :: (entriesText (f' :: l') ++ ['\x7d']) := by
                    simpa [entriesText, commaJoin, hkeys.1] using h
                  rcases he.append_inj he' (endsValue_comma _) (endsValue_comma _) hsplit with
                    ⟨htext, hrest⟩
                  rw [Prod.ext hkeys.1 htext]
                  congr 1
                  exact ih hkeys.2 htail htail' (List.cons.inj hrest).2

/-- Dictionaries with the same keys print them in the same order. -/
theorem Dict.sorted_keys_eq {α : Type} {d e : Dict α} (h : ∀ k, d.has k = e.has k) :
    d.keys.insertionSort (· ≤ ·) = e.keys.insertionSort (· ≤ ·) := by
  have hperm : d.keys.Perm e.keys := by
    refine (List.perm_ext_iff_of_nodup d.nodup e.nodup).mpr fun k => ?_
    change k ∈ d.keys ↔ k ∈ e.keys
    rw [Dict.mem_keys, Dict.mem_keys, h k]
  have hsorted : (d.keys.insertionSort (· ≤ ·)).Perm (e.keys.insertionSort (· ≤ ·)) :=
    (List.perm_insertionSort _ _).trans (hperm.trans (List.perm_insertionSort _ _).symm)
  exact hsorted.eq_of_sortedLE List.sortedLE_insertionSort List.sortedLE_insertionSort

/-! ### Sorted entries -/

section Sorted

variable {α : Type}

theorem pairwise_sortEntries (l : List (String × α)) :
    (sortEntries l).Pairwise fun a b => a.1 ≤ b.1 := by
  have : Std.Total fun a b : String × α => a.1 ≤ b.1 := ⟨fun a b => le_total a.1 b.1⟩
  have : IsTrans (String × α) fun a b => a.1 ≤ b.1 := ⟨fun _ _ _ => le_trans⟩
  exact List.pairwise_insertionSort _ l

theorem perm_sortEntries (l : List (String × α)) : (sortEntries l).Perm l := List.perm_insertionSort _ l

theorem mem_sortEntries {l : List (String × α)} {e : String × α} : e ∈ sortEntries l ↔ e ∈ l :=
  (perm_sortEntries l).mem_iff

/-- Entries with distinct keys are in one order only. -/
theorem eq_sortEntries {l l' : List (String × α)} (hnd : (l.map Prod.fst).Nodup) (hperm : l'.Perm l)
    (hsorted : l'.Pairwise fun a b => a.1 ≤ b.1) : l' = sortEntries l := by
  refine (hperm.trans (perm_sortEntries l).symm).eq_of_pairwise ?_ hsorted (pairwise_sortEntries l)
  intro a b ha hb hab hba
  exact List.inj_on_of_nodup_map hnd (hperm.mem_iff.mp ha) (mem_sortEntries.mp hb) (le_antisymm hab hba)

theorem sortEntries_filter {l : List (String × α)} (hnd : (l.map Prod.fst).Nodup)
    (p : String × α → Bool) : (sortEntries l).filter p = sortEntries (l.filter p) :=
  eq_sortEntries (hnd.sublist (List.filter_sublist.map Prod.fst)) ((perm_sortEntries l).filter p)
    ((pairwise_sortEntries l).filter p)

/-- Dictionaries that hold the same sort alike. -/
theorem Dict.Same.sortEntries {d e : Dict α} (h : d.Same e) :
    sortEntries d.entries = sortEntries e.entries :=
  eq_sortEntries e.nodup ((perm_sortEntries d.entries).trans h.perm) (pairwise_sortEntries d.entries)

end Sorted

section Dumps

variable {F : Type} [PyRuntime F]

/-- A dictionary as a JSON value. -/
def Dict.toJson (d : Dict (Json F)) : Json F := .dict d.entries

/-- The entries of a dictionary as they are printed. -/
def Dict.printed (d : Dict (Json F)) : List (String × List Char) :=
  sortEntries (Json.dumpEntries d.entries)

theorem Dict.mem_printed {d : Dict (Json F)} {k : String} {t : List Char} :
    (k, t) ∈ d.printed ↔ (d.get? k).map Json.dump = some t := by
  unfold Dict.printed sortEntries
  rw [List.mem_insertionSort, Json.dumpEntries_eq, List.mem_map, Option.map_eq_some_iff]
  constructor
  · rintro ⟨⟨k', v⟩, hmem, heq⟩
    cases heq
    exact ⟨v, Dict.mem_entries.mp hmem, rfl⟩
  · rintro ⟨v, hget, rfl⟩
    exact ⟨(k, v), Dict.mem_entries.mpr hget, rfl⟩

theorem Dict.printed_keys (d : Dict (Json F)) :
    d.printed.map Prod.fst = d.keys.insertionSort (· ≤ ·) := by
  unfold Dict.printed sortEntries Dict.keys
  rw [List.map_insertionSort _ (· ≤ ·) Prod.fst _ fun _ _ _ _ => Iff.rfl, Json.dumpEntries_eq,
    List.map_map]
  rfl

/-- What is printed is known from the keys and from what the dictionary answers. -/
theorem Dict.printed_eq (d : Dict (Json F)) :
    d.printed = (d.keys.insertionSort (· ≤ ·)).map fun k =>
      (k, ((d.get? k).map Json.dump).getD []) := by
  rw [← Dict.printed_keys, List.map_map]
  refine (List.map_id _).symm.trans (List.map_congr_left ?_)
  rintro ⟨k, t⟩ hmem
  rw [Function.comp_apply, Dict.mem_printed.mp hmem]
  rfl

theorem Dict.dumps_eq_iff_printed (hplain : PlainFloats F) {d e : Dict (Json F)}
    (hkeys : ∀ k, d.has k = e.has k) : d.toJson.dumps = e.toJson.dumps ↔ d.printed = e.printed := by
  have htext : ∀ d : Dict (Json F), d.toJson.dump = '\x7b' :: (entriesText d.printed ++ ['\x7d']) := by
    intro d
    simp [Dict.toJson, Json.dump, Dict.printed]
  have hneutral : ∀ d : Dict (Json F), ∀ x ∈ d.printed, Neutral x.2 := by
    intro d x hx
    exact Json.neutral_dumpEntries hplain d.entries x (List.mem_insertionSort _ |>.mp hx)
  constructor
  · intro h
    have hchars : d.toJson.dump = e.toJson.dump := String.ofList_injective h
    rw [htext, htext] at hchars
    have hsame : d.printed.map Prod.fst = e.printed.map Prod.fst := by
      rw [Dict.printed_keys, Dict.printed_keys, Dict.sorted_keys_eq hkeys]
    exact entriesText_inj hsame (hneutral d) (hneutral e) (List.cons.inj hchars).2
  · intro h
    have hchars : d.toJson.dump = e.toJson.dump := by rw [htext, htext, h]
    exact congrArg String.ofList hchars

/-- Two dictionaries with the same keys print the same exactly if they print the same everywhere. -/
theorem Dict.dumps_eq_iff (hplain : PlainFloats F) {d e : Dict (Json F)}
    (hkeys : ∀ k, d.has k = e.has k) :
    d.toJson.dumps = e.toJson.dumps ↔
      ∀ k, (d.get? k).map Json.dump = (e.get? k).map Json.dump := by
  rw [Dict.dumps_eq_iff_printed hplain hkeys]
  constructor
  · intro h k
    refine Option.ext fun t => ?_
    rw [← Dict.mem_printed, ← Dict.mem_printed, h]
  · intro h
    rw [Dict.printed_eq, Dict.printed_eq, Dict.sorted_keys_eq hkeys]
    exact List.map_congr_left fun k _ => by rw [h k]

/-- What holds the same prints the same. -/
theorem Dict.Same.dumps {d e : Dict (Json F)} (h : d.Same e) : d.toJson.dumps = e.toJson.dumps := by
  have hprinted : d.printed = e.printed := by
    rw [Dict.printed_eq, Dict.printed_eq, Dict.sorted_keys_eq h.has]
    exact List.map_congr_left fun k _ => by rw [h k]
  have hchars : d.toJson.dump = e.toJson.dump := by
    unfold Dict.printed at hprinted
    simp [Dict.toJson, Json.dump, hprinted]
  exact congrArg String.ofList hchars

end Dumps

end AutoTune.Lib
