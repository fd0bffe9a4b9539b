import AutoTune.Lib.JsonText

/-!
# Reading JSON text back

A printed string is read back one character at a time, so the text of an object tells its keys and the
texts under them. Two dictionaries print the same exactly if they print the same under every key.
-/

namespace AutoTune.Lib

/-! ## Characters -/

/-- What a hexadecimal digit stands for. -/
def hexValue (c : Char) : Nat := if c.toNat < 58 then c.toNat - 48 else c.toNat - 87

theorem hexValue_hexDigit (n : Nat) (h : n < 16) : hexValue (hexDigit n) = n := by
  revert n
  decide

/-- Four hexadecimal digits, and what is behind them. -/
def readUnicode : List Char → Option (Nat × List Char)
  | a :: b :: c :: d :: s => some (((hexValue a * 16 + hexValue b) * 16 + hexValue c) * 16 + hexValue d, s)
  | _ => none

/-- The second half of a surrogate pair, and what is behind it. -/
def readLowHalf : List Char → Option (Nat × List Char)
  | '\\' :: 'u' :: s => readUnicode s
  | _ => none

/-- The character behind a backslash that is not `u`. -/
def shortEscape (e : Char) : Char :=
  if e = 'n' then '\n'
  else if e = 'r' then '\r'
  else if e = 't' then '\t'
  else if e = 'b' then Char.ofNat 8
  else if e = 'f' then Char.ofNat 12
  else e

/-- What four digits behind `\u` say, with the four of the next escape where the two make a pair. -/
def readCodePoint (high : Nat × List Char) : Option (Char × List Char) :=
  if 0xd800 ≤ high.1 ∧ high.1 < 0xdc00 then
    (readLowHalf high.2).map fun low =>
      (Char.ofNat (0x10000 + (high.1 - 0xd800) * 1024 + (low.1 - 0xdc00)), low.2)
  else some (Char.ofNat high.1, high.2)

/-- The first character inside a string, and what is behind it. -/
def unescape : List Char → Option (Char × List Char)
  | [] => none
  | ['\\'] => none
  | '\\' :: e :: s => if e = 'u' then (readUnicode s).bind readCodePoint else some (shortEscape e, s)
  | c :: s => some (c, s)

theorem readUnicode_digits (n : Nat) (h : n < 0x10000) (s : List Char) :
    readUnicode (hexDigit (n / 4096 % 16) :: hexDigit (n / 256 % 16) :: hexDigit (n / 16 % 16) ::
      hexDigit (n % 16) :: s) = some (n, s) := by
  have hdigit : ∀ m, hexValue (hexDigit (m % 16)) = m % 16 := fun m =>
    hexValue_hexDigit (m % 16) (Nat.mod_lt m (by decide))
  have hvalue : ((n / 4096 % 16 * 16 + n / 256 % 16) * 16 + n / 16 % 16) * 16 + n % 16 = n := by omega
  simp only [readUnicode, hdigit, hvalue]

theorem unescape_unicodeEscape (n : Nat) (h : n < 0x10000) (s : List Char) :
    unescape (unicodeEscape n ++ s) = readCodePoint (n, s) := by
  change (readUnicode (hexDigit (n / 4096 % 16) :: hexDigit (n / 256 % 16) :: hexDigit (n / 16 % 16) ::
      hexDigit (n % 16) :: s)).bind readCodePoint = readCodePoint (n, s)
  rw [readUnicode_digits n h, Option.bind_some]

/-- Every character is read back, whatever is behind it. -/
theorem unescape_escapeChar (c : Char) (s : List Char) : unescape (escapeChar c ++ s) = some (c, s) := by
  unfold escapeChar
  -- the seven characters with an escape of their own
  split
  · rename_i h
    rw [h]
    rfl
  split
  · rename_i h
    rw [h]
    rfl
  split
  · rename_i h
    rw [h]
    rfl
  split
  · rename_i h
    rw [h]
    rfl
  split
  · rename_i h
    rw [h]
    rfl
  split
  · rename_i h
    have hc : c = Char.ofNat 8 := by rw [← h, Char.ofNat_toNat]
    rw [hc]
    rfl
  split
  · rename_i h
    have hc : c = Char.ofNat 12 := by rw [← h, Char.ofNat_toNat]
    rw [hc]
    rfl
  rename_i hquote hslash _ _ _ _ _
  have hvalid : c.toNat < 0xd800 ∨ 0xdfff < c.toNat ∧ c.toNat < 0x110000 := c.valid
  split
  · -- a character that is printed as it is
    rw [List.cons_append, List.nil_append]
    unfold unescape
    split
    · rename_i heq
      cases heq
    · rename_i heq
      exact absurd (List.cons.inj heq).1 hslash
    · rename_i heq
      exact absurd (List.cons.inj heq).1 hslash
    · rename_i heq
      rw [(List.cons.inj heq).1, (List.cons.inj heq).2]
  split
  · rename_i hsmall
    rw [unescape_unicodeEscape _ hsmall]
    unfold readCodePoint
    rw [if_neg (by omega), Char.ofNat_toNat]
  · -- a surrogate pair is read as a whole
    have hhigh : 0xd800 + (c.toNat - 0x10000) / 1024 < 0x10000 := by omega
    have hlow : 0xdc00 + (c.toNat - 0x10000) % 1024 < 0x10000 := by omega
    rw [List.append_assoc, unescape_unicodeEscape _ hhigh]
    unfold readCodePoint
    have hnext : readLowHalf (unicodeEscape (0xdc00 + (c.toNat - 0x10000) % 1024) ++ s) =
        some (0xdc00 + (c.toNat - 0x10000) % 1024, s) := readUnicode_digits _ hlow s
    rw [if_pos (by dsimp only; omega), hnext, Option.map_some]
    dsimp only
    have hnat : 0x10000 + (0xd800 + (c.toNat - 0x10000) / 1024 - 0xd800) * 1024 +
        (0xdc00 + (c.toNat - 0x10000) % 1024 - 0xdc00) = c.toNat := by omega
    rw [hnat, Char.ofNat_toNat]

/-! ## Strings -/

/-- No character is printed with a quote first. -/
theorem escapeChar_head (c : Char) (s t : List Char) : escapeChar c ++ s ≠ '"' :: t := by
  intro h
  have hread := unescape_escapeChar c s
  rw [h] at hread
  have hquote : unescape ('"' :: t) = some ('"', t) := rfl
  rw [hquote] at hread
  have hc : c = '"' := (Prod.mk.inj (Option.some.inj hread)).1.symm
  rw [hc] at h
  exact absurd (List.cons.inj h).1 (by decide)

theorem escaped_append_inj {l l' s s' : List Char}
    (h : l.flatMap escapeChar ++ '"' :: s = l'.flatMap escapeChar ++ '"' :: s') : l = l' ∧ s = s' := by
  induction l generalizing l' with
  | nil =>
      cases l' with
      | nil => exact ⟨rfl, (List.cons.inj h).2⟩
      | cons c' l' =>
          rw [List.flatMap_cons, List.append_assoc] at h
          exact absurd h.symm (escapeChar_head c' _ s)
  | cons c l ih =>
      rw [List.flatMap_cons, List.append_assoc] at h
      cases l' with
      | nil => exact absurd h (escapeChar_head c _ s')
      | cons c' l' =>
          rw [List.flatMap_cons, List.append_assoc] at h
          have hread := congrArg unescape h
          rw [unescape_escapeChar, unescape_escapeChar] at hread
          rcases Prod.mk.inj (Option.some.inj hread) with ⟨rfl, hrest⟩
          rcases ih hrest with ⟨rfl, hs⟩
          exact ⟨rfl, hs⟩

/-- A printed string tells where it ends. -/
theorem quoted_append_inj {t t' : String} {s s' : List Char} (h : quoted t ++ s = quoted t' ++ s') :
    t = t' ∧ s = s' := by
  have hopen : ∀ (t : String) (s : List Char), quoted t ++ s = '"' :: (t.toList.flatMap escapeChar ++ '"' :: s) := by
    intro t s
    simp [quoted]
  rw [hopen, hopen] at h
  rcases escaped_append_inj (List.cons.inj h).2 with ⟨hchars, hs⟩
  exact ⟨String.toList_injective hchars, hs⟩

theorem quoted_injective : Function.Injective quoted := by
  intro t t' h
  have hsame : quoted t ++ [] = quoted t' ++ [] := congrArg (· ++ []) h
  exact (quoted_append_inj hsame).1

/-! ## Objects -/

/-- The first entry of an object and what is behind its value. -/
theorem entriesText_cons (e : String × List Char) (l : List (String × List Char)) :
    entriesText (e :: l) ++ ['\x7d'] =
      quoted e.1 ++ ':' :: (e.2 ++ if l.isEmpty then ['\x7d'] else ',' :: (entriesText l ++ ['\x7d'])) := by
  cases l with
  | nil => simp [entriesText, commaJoin]
  | cons f l => simp [entriesText, commaJoin]

theorem endsValue_rest (l : List (String × List Char)) :
    EndsValue (if l.isEmpty then ['\x7d'] else ',' :: (entriesText l ++ ['\x7d'])) := by
  split
  · exact endsValue_brace []
  · exact endsValue_comma _

/-- The text of an object tells its keys and the texts under them. -/
theorem entriesText_injective {l l' : List (String × List Char)} (hl : ∀ e ∈ l, Neutral e.2)
    (hl' : ∀ e ∈ l', Neutral e.2) (h : entriesText l ++ ['\x7d'] = entriesText l' ++ ['\x7d']) : l = l' := by
  -- an object that begins with a key is not the empty one
  have hbrace : ∀ (t : String) (s : List Char), quoted t ++ s ≠ entriesText [] ++ ['\x7d'] := by
    intro t s heq
    exact absurd (List.cons.inj heq).1 (by decide)
  induction l generalizing l' with
  | nil =>
      cases l' with
      | nil => rfl
      | cons e' l' =>
          rw [entriesText_cons e' l'] at h
          exact absurd h.symm (hbrace _ _)
  | cons e l ih =>
      rw [entriesText_cons e l] at h
      cases l' with
      | nil => exact absurd h (hbrace _ _)
      | cons e' l' =>
          rw [entriesText_cons e' l'] at h
          -- a key ends where its quotes do, and its value where an entry or the object does
          rcases quoted_append_inj h with ⟨hkey, hvalue⟩
          have he := hl e List.mem_cons_self
          have he' := hl' e' List.mem_cons_self
          rcases he.append_inj he' (endsValue_rest l) (endsValue_rest l') (List.cons.inj hvalue).2 with
            ⟨htext, hrest⟩
          have htail : l = l' := by
            cases l with
            | nil =>
                cases l' with
                | nil => rfl
                | cons f' l' => exact absurd (List.cons.inj hrest).1 (by decide)
            | cons f l =>
                cases l' with
                | nil => exact absurd (List.cons.inj hrest).1 (by decide)
                | cons f' l' =>
                    exact ih (fun x hx => hl x (List.mem_cons_of_mem e hx))
                      (fun x hx => hl' x (List.mem_cons_of_mem e' hx)) (List.cons.inj hrest).2
          rw [Prod.ext hkey htext, htail]

section Values

variable {F : Type} [PyRuntime F]

/-- Dictionaries print the same exactly if they print the same under every key. -/
theorem Json.dump_dict_iff (hplain : PlainFloats F) {d e : JsonDict F} (hd : (d.map Prod.fst).Nodup)
    (he : (e.map Prod.fst).Nodup) : (Json.dict d).dump = (Json.dict e).dump ↔
      ∀ k, (dictGet d k).map Json.dump = (dictGet e k).map Json.dump := by
  let d' : Dict (Json F) := ⟨d, hd⟩
  let e' : Dict (Json F) := ⟨e, he⟩
  have hneutral : ∀ d : Dict (Json F), ∀ x ∈ d.printed, Neutral x.2 := by
    intro d x hx
    exact Json.neutral_dumpEntries hplain d.entries x (List.mem_insertionSort _ |>.mp hx)
  constructor
  · intro h k
    have hprinted : d'.printed = e'.printed :=
      entriesText_injective (hneutral d') (hneutral e') (List.cons.inj h).2
    refine Option.ext fun t => ?_
    change (d'.get? k).map Json.dump = some t ↔ (e'.get? k).map Json.dump = some t
    rw [← Dict.mem_printed, ← Dict.mem_printed, hprinted]
  · intro h
    have hkeys : ∀ k, d'.has k = e'.has k := by
      intro k
      have hsome := congrArg Option.isSome (h k)
      rwa [Option.isSome_map, Option.isSome_map] at hsome
    exact String.ofList_injective ((Dict.dumps_eq_iff hplain hkeys).mpr h)

/-- Only a string prints as a string. -/
theorem Json.dump_eq_str (hplain : PlainFloats F) {v : Json F} {s : String} :
    v.dump = (Json.str s : Json F).dump ↔ v = .str s := by
  refine ⟨fun h => ?_, fun h => by rw [h]⟩
  have hquote : '"' ∈ v.dump := by
    rw [h]
    exact List.mem_cons_self
  cases v with
  | null => exact absurd hquote (by decide : '"' ∉ "null".toList)
  | bool b =>
      cases b with
      | true => exact absurd hquote (by decide : '"' ∉ "true".toList)
      | false => exact absurd hquote (by decide : '"' ∉ "false".toList)
  | int n => exact absurd (intText_plain n _ hquote) (by decide)
  | float x => exact absurd (hplain x _ hquote) (by decide)
  | str t => rw [quoted_injective h]
  | list items => exact absurd (List.cons.inj h).1 (by decide)
  | dict entries => exact absurd (List.cons.inj h).1 (by decide)

/-- Only a dictionary prints as an object. -/
theorem Json.dump_eq_dict (hplain : PlainFloats F) {v : Json F} {d : JsonDict F} (h : v.dump = (Json.dict d).dump) :
    ∃ e, v = .dict e := by
  have hbrace : '\x7b' ∈ v.dump := by
    rw [h]
    exact List.mem_cons_self
  cases v with
  | null => exact absurd hbrace (by decide : '\x7b' ∉ "null".toList)
  | bool b =>
      cases b with
      | true => exact absurd hbrace (by decide : '\x7b' ∉ "true".toList)
      | false => exact absurd hbrace (by decide : '\x7b' ∉ "false".toList)
  | int n => exact absurd (intText_plain n _ hbrace) (by decide)
  | float x => exact absurd (hplain x _ hbrace) (by decide)
  | str t => exact absurd (List.cons.inj h).1 (by decide)
  | list items => exact absurd (List.cons.inj h).1 (by decide)
  | dict entries => exact ⟨entries, rfl⟩

/-- Only a number prints as a whole number. -/
theorem Json.dump_eq_int {v : Json F} {n : Int} (h : v.dump = (Json.int n : Json F).dump) :
    v = .int n ∨ ∃ x, v = .float x := by
  have hhead : ∀ d t, v.dump = d :: t → d = '-' ∨ d.isDigit = true := by
    intro d t heq
    have htext : (toString n).toList = d :: t := h.symm.trans heq
    rcases intText_chars n with ⟨cs, hcs, -, hchars⟩
    rcases hchars with hchars | hchars
    · exact Or.inr (hcs d (by rw [← hchars, htext]; exact List.mem_cons_self))
    · rw [htext] at hchars
      exact Or.inl (List.cons.inj hchars).1
  cases v with
  | null => exact absurd (hhead 'n' _ rfl) (by decide)
  | bool b =>
      cases b with
      | true => exact absurd (hhead 't' _ rfl) (by decide)
      | false => exact absurd (hhead 'f' _ rfl) (by decide)
  | int m => exact Or.inl (by rw [toString_int_injective (String.toList_injective h)])
  | float x => exact Or.inr ⟨x, rfl⟩
  | str s => exact absurd (hhead '"' _ rfl) (by decide)
  | list items => exact absurd (hhead '[' _ rfl) (by decide)
  | dict entries => exact absurd (hhead '\x7b' _ rfl) (by decide)

end Values

/-! ## Keys once each -/

section KeyedOnce

variable {F : Type}

mutual

/-- Every dictionary in the value has each key once. -/
def Json.KeyedOnce : Json F → Prop
  | .list items => Json.ItemsKeyedOnce items
  | .dict entries => (entries.map Prod.fst).Nodup ∧ Json.EntriesKeyedOnce entries
  | _ => True

def Json.ItemsKeyedOnce : List (Json F) → Prop
  | [] => True
  | v :: items => v.KeyedOnce ∧ Json.ItemsKeyedOnce items

def Json.EntriesKeyedOnce : List (String × Json F) → Prop
  | [] => True
  | (_, v) :: entries => v.KeyedOnce ∧ Json.EntriesKeyedOnce entries

end

/-- What a dictionary holds is keyed once as well. -/
theorem Json.KeyedOnce.get {d : JsonDict F} (h : (Json.dict d).KeyedOnce) {k : String} {v : Json F}
    (hget : dictGet d k = some v) : v.KeyedOnce := by
  have hentries : ∀ d : JsonDict F, Json.EntriesKeyedOnce d → ∀ e ∈ d, e.2.KeyedOnce := by
    intro d
    induction d with
    | nil => exact fun _ e he => absurd he List.not_mem_nil
    | cons e d ih =>
        intro h e' he'
        rcases List.mem_cons.mp he' with rfl | he'
        · exact h.1
        · exact ih h.2 e' he'
  exact hentries d h.2 _ (mem_of_dictGet hget)

end KeyedOnce

end AutoTune.Lib
