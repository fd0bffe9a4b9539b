import AutoTune.Lib.Rounding
import Mathlib.Data.List.TakeWhile

/-!
# What JavaScript makes of a JSON value

The text of a value, the number a text is, `toFixed` and the order of the keys of an object. Numbers are exact.
A text that both languages read as a number is the same number to both: what is left of it without the blanks
either of them skips is what it has besides blanks.
-/

namespace AutoTune.Lib

/-! ## Text -/

/-- The digits a positive number is written with, at most 17 of them, and how many stand before the point. -/
def significant (x : ℚ) : List Char × Int :=
  let power := leadingPower x
  let digits := roundHalfEven (shiftTen x (16 - power))
  let (digits, power) := if digits = 10 ^ 17 then (10 ^ 16, power + 1) else (digits, power)
  (((toString digits).toList.reverse.dropWhile fun c => c == '0').reverse, power + 1)

/-- `String(x)` of a number. -/
def numberText (x : ℚ) : String :=
  if x = 0 then "0"
  else
    let (digits, n) := significant |x|
    let k := digits.length
    String.ofList ((if x < 0 then ['-'] else []) ++
      if k ≤ n ∧ n ≤ 21 then digits ++ List.replicate (n - k).toNat '0'
      else if 0 < n ∧ n ≤ 21 then digits.take n.toNat ++ '.' :: digits.drop n.toNat
      else if -6 < n ∧ n ≤ 0 then '0' :: '.' :: List.replicate (-n).toNat '0' ++ digits
      else
        digits.take 1 ++ (if k = 1 then [] else '.' :: digits.drop 1) ++ 'e' ::
          (if n - 1 < 0 then '-' else '+') :: (toString (n - 1).natAbs).toList)

mutual

/-- `String(value)`. -/
def Json.scriptText : Json ℚ → String
  | .null => "null"
  | .bool b => if b then "true" else "false"
  | .int n => numberText n
  | .float x => numberText x
  | .str s => s
  | .list items => ",".intercalate (Json.scriptItems items)
  | .dict _ => "[object Object]"

/-- The pieces `Array.prototype.join` joins. -/
def Json.scriptItems : List (Json ℚ) → List String
  | [] => []
  | .null :: items => "" :: Json.scriptItems items
  | v :: items => v.scriptText :: Json.scriptItems items

end

/-! ## Numbers -/

/-- The white space and line ends that `trim` removes. -/
def scriptBlank (c : Char) : Bool :=
  let n := c.toNat
  (9 ≤ n && n ≤ 13) || n == 32 || n == 0xa0 || n == 0x1680 || (0x2000 ≤ n && n ≤ 0x200a) ||
    n == 0x2028 || n == 0x2029 || n == 0x202f || n == 0x205f || n == 0x3000 || n == 0xfeff

/-- A text without the blanks around it. -/
def trimChars (blank : Char → Bool) (cs : List Char) : List Char :=
  ((cs.dropWhile blank).reverse.dropWhile blank).reverse

/-- A digit of a base up to 16. -/
def radixDigit (c : Char) : Option Nat :=
  if '0' ≤ c ∧ c ≤ '9' then some (c.toNat - '0'.toNat)
  else if 'a' ≤ c ∧ c ≤ 'f' then some (c.toNat - 'a'.toNat + 10)
  else if 'A' ≤ c ∧ c ≤ 'F' then some (c.toNat - 'A'.toNat + 10)
  else none

def radixNumber (base : Nat) (cs : List Char) : Option ℚ :=
  if cs.isEmpty then none
  else
    (cs.foldlM (fun n c => (radixDigit c).bind fun d => if d < base then some (base * n + d) else none) 0).map
      fun n : Nat => (n : ℚ)

/-- A decimal with a sign. -/
def signedRat : List Char → Option ℚ
  | '-' :: cs => (unsignedRat cs).map fun x => -x
  | '+' :: cs => unsignedRat cs
  | cs => unsignedRat cs

def isAsciiDecimal (c : Char) : Bool :=
  c.isDigit || c == '.' || c == 'e' || c == 'E' || c == '+' || c == '-'

/-- `Number(text)`, `none` if that is not a finite number. -/
def numberOfText (s : String) : Option ℚ :=
  match trimChars scriptBlank s.toList with
  | [] => some 0
  | '0' :: 'x' :: cs => radixNumber 16 cs
  | '0' :: 'X' :: cs => radixNumber 16 cs
  | '0' :: 'o' :: cs => radixNumber 8 cs
  | '0' :: 'O' :: cs => radixNumber 8 cs
  | '0' :: 'b' :: cs => radixNumber 2 cs
  | '0' :: 'B' :: cs => radixNumber 2 cs
  | cs => if cs.all isAsciiDecimal then signedRat cs else none

/-- `Number(value)`, `none` if that is not a finite number. -/
def Json.scriptNumber : Json ℚ → Option ℚ
  | .null => some 0
  | .bool b => some (if b then 1 else 0)
  | .int n => some n
  | .float x => some x
  | v => numberOfText v.scriptText

/-- `Number(x.toFixed(decimals))`, `none` for a RangeError. -/
def toFixed (decimals : Nat) (x : ℚ) : Option ℚ :=
  if 100 < decimals then none
  else if 10 ^ 21 ≤ |x| then some x
  else some (fixedTo decimals x)

/-! ## Keys -/

/-- An array index: its keys come first, in their order as numbers. -/
def isIndex (key : String) : Bool :=
  (key == "0" || (key.toList.all Char.isDigit && key.toList.head?.any (· != '0'))) &&
    Nat.ofDigitChars 10 key.toList 0 < 2 ^ 32 - 1

/-- `Object.entries` of an object whose keys were written in this order. -/
def objectEntries {α : Type} (l : List (String × α)) : List (String × α) :=
  ((l.filter fun e => isIndex e.1).insertionSort fun a b =>
      Nat.ofDigitChars 10 a.1.toList 0 ≤ Nat.ofDigitChars 10 b.1.toList 0) ++
    l.filter fun e => !isIndex e.1

theorem objectEntries_perm {α : Type} (l : List (String × α)) : (objectEntries l).Perm l :=
  ((List.perm_insertionSort _ _).append_right _).trans (List.filter_append_perm _ l)

theorem mem_objectEntries {α : Type} {l : List (String × α)} {e : String × α} :
    e ∈ objectEntries l ↔ e ∈ l :=
  (objectEntries_perm l).mem_iff

/-! ## The characters of a number -/

/-- A character that can stand in a number Python reads. -/
def numberChar (c : Char) : Bool :=
  (digitValue c).isSome || c == '_' || c == '.' || c == 'e' || c == 'E' || c == '+' || c == '-'

theorem readDigits_chars {cs : List Char} {acc : Nat} {digit : Bool} {n : Nat}
    (h : readDigits acc digit cs = some n) : ∀ c ∈ cs, numberChar c = true := by
  induction cs generalizing acc digit with
  | nil => simp
  | cons c cs ih =>
      rw [readDigits] at h
      split at h
      · rename_i hunder
        split at h
        · exact List.forall_mem_cons.mpr ⟨by simp [numberChar, hunder], ih h⟩
        · cases h
      · split at h
        · rename_i d hd
          exact List.forall_mem_cons.mpr ⟨by simp [numberChar, hd], ih h⟩
        · cases h

theorem digitsOrZero_chars {cs : List Char} {n : Nat} (h : digitsOrZero cs = some n) :
    ∀ c ∈ cs, numberChar c = true := by
  unfold digitsOrZero at h
  split at h
  · rename_i hempty
    rw [List.isEmpty_iff.mp hempty]
    simp
  · exact readDigits_chars h

/-- What stands before the first character of a kind, that character and the rest. -/
theorem chars_of_split {p : Char → Bool} {cs rest : List Char} {c : Char}
    (hrest : (cs.dropWhile fun c => !p c) = c :: rest) {good : Char → Bool}
    (hp : ∀ c, p c = true → good c = true) (hbefore : ∀ c ∈ cs.takeWhile fun c => !p c, good c = true)
    (hafter : ∀ c ∈ rest, good c = true) : ∀ c ∈ cs, good c = true := by
  have hat : p c = true := by
    have hhead := List.head?_dropWhile_not (fun c => !p c) cs
    rw [hrest] at hhead
    simpa using hhead
  intro d hd
  rw [← List.takeWhile_append_dropWhile (p := fun c => !p c) (l := cs), hrest] at hd
  rcases List.mem_append.mp hd with hd | hd
  · exact hbefore d hd
  · rcases List.mem_cons.mp hd with rfl | hd
    · exact hp _ hat
    · exact hafter d hd

theorem mantissa_chars {cs : List Char} {x : ℚ} (h : mantissa cs = some x) : ∀ c ∈ cs, numberChar c = true := by
  unfold mantissa at h
  dsimp only at h
  split at h
  · rename_i hnone
    rcases Option.map_eq_some_iff.mp h with ⟨n, hn, -⟩
    have hwhole := List.takeWhile_append_dropWhile (p := fun c : Char => c != '.') (l := cs)
    rw [hnone, List.append_nil] at hwhole
    rcases Option.bind_eq_some_iff.mp hn with ⟨m, hm, -⟩
    rw [hwhole] at hm
    exact readDigits_chars hm
  · rename_i hrest
    split at h
    · cases h
    · rcases Option.bind_eq_some_iff.mp h with ⟨n, hn, hfraction⟩
      rcases Option.map_eq_some_iff.mp hfraction with ⟨f, hf, -⟩
      rcases Option.bind_eq_some_iff.mp hf with ⟨m, hm, -⟩
      refine chars_of_split (p := fun c => c == '.') hrest (fun c hc => ?_) (digitsOrZero_chars hn)
        (digitsOrZero_chars hm)
      rw [beq_iff_eq.mp hc]
      decide

theorem scaled_chars {cs : List Char} {x y : ℚ} (h : scaled x cs = some y) : ∀ c ∈ cs, numberChar c = true := by
  unfold scaled at h
  split at h
  all_goals
    rcases Option.map_eq_some_iff.mp h with ⟨n, hn, -⟩
    have hdigits := readDigits_chars hn
  · exact List.forall_mem_cons.mpr ⟨by decide, hdigits⟩
  · exact List.forall_mem_cons.mpr ⟨by decide, hdigits⟩
  · exact hdigits

theorem unsignedRat_chars {cs : List Char} {x : ℚ} (h : unsignedRat cs = some x) :
    ∀ c ∈ cs, numberChar c = true := by
  unfold unsignedRat at h
  dsimp only at h
  split at h
  · exact mantissa_chars h
  · rename_i hrest
    rcases Option.bind_eq_some_iff.mp h with ⟨y, hy, hscaled⟩
    refine chars_of_split (p := fun c => c = 'e' || c = 'E') hrest (fun c hc => ?_) (mantissa_chars hy)
      (scaled_chars hscaled)
    rcases Bool.or_eq_true_iff.mp hc with hc | hc
    all_goals
      rw [of_decide_eq_true hc]
      decide

theorem signedRat_chars {cs : List Char} {x : ℚ} (h : signedRat cs = some x) :
    ∀ c ∈ cs, numberChar c = true := by
  unfold signedRat at h
  split at h
  · rcases Option.map_eq_some_iff.mp h with ⟨y, hy, -⟩
    exact List.forall_mem_cons.mpr ⟨by decide, unsignedRat_chars hy⟩
  · exact List.forall_mem_cons.mpr ⟨by decide, unsignedRat_chars h⟩
  · exact unsignedRat_chars h

/-! ## One number in two languages -/

/-- A character of a number is a blank in neither language. -/
theorem numberChar_notBlank {c : Char} (h : numberChar c = true) :
    isSpace c = false ∧ scriptBlank c = false := by
  have hdigits : ∀ z ∈ decimalZeros, ∀ i < 10, isSpace (Char.ofNat (z + i)) = false ∧
      scriptBlank (Char.ofNat (z + i)) = false := by decide
  unfold numberChar at h
  simp only [Bool.or_eq_true, beq_iff_eq] at h
  rcases h with (((((h | rfl) | rfl) | rfl) | rfl) | rfl) | rfl
  · unfold digitValue at h
    rw [Option.isSome_map] at h
    rcases Option.isSome_iff_exists.mp h with ⟨z, hz⟩
    have hin := List.find?_some hz
    rw [Bool.and_eq_true, decide_eq_true_eq, decide_eq_true_eq] at hin
    have hc : c = Char.ofNat (z + (c.toNat - z)) := by
      rw [Nat.add_sub_cancel' hin.1, Char.ofNat_toNat]
    rw [hc]
    exact hdigits z (List.mem_of_find?_eq_some hz) _ (by omega)
  all_goals decide

/-- Blanks are all that is lost around a text, so what it keeps is what it has of any kind that is no blank. -/
theorem trimChars_eq_filter {blank good : Char → Bool} (hapart : ∀ c, good c = true → blank c = false)
    {cs : List Char} (hkept : ∀ c ∈ trimChars blank cs, good c = true) :
    trimChars blank cs = cs.filter good := by
  have hlost : ∀ l : List Char, (l.takeWhile blank).filter good = [] := by
    intro l
    rw [List.filter_eq_nil_iff]
    intro c hc hgood
    have hblank := List.mem_takeWhile_imp hc
    rw [hapart c hgood] at hblank
    cases hblank
  have hdrop : ∀ l : List Char, l.filter good = (l.dropWhile blank).filter good := by
    intro l
    calc l.filter good = (l.takeWhile blank ++ l.dropWhile blank).filter good := by
          rw [List.takeWhile_append_dropWhile]
      _ = (l.dropWhile blank).filter good := by rw [List.filter_append, hlost, List.nil_append]
  calc trimChars blank cs = (trimChars blank cs).filter good := (List.filter_eq_self.mpr hkept).symm
    _ = (((cs.dropWhile blank).reverse.dropWhile blank).filter good).reverse :=
          List.filter_reverse
    _ = ((cs.dropWhile blank).reverse.filter good).reverse := by rw [← hdrop]
    _ = (cs.dropWhile blank).filter good := by rw [List.filter_reverse, List.reverse_reverse]
    _ = cs.filter good := (hdrop cs).symm

theorem ratOfText_eq (s : String) : ratOfText s = signedRat (trimChars isSpace s.toList) := by
  unfold ratOfText strip
  rw [String.toList_ofList]
  rfl

/-- A character of a text that is no blank of Python is in the number Python reads. -/
theorem mem_trimChars {blank : Char → Bool} {cs : List Char} {c : Char} (hc : c ∈ cs)
    (hblank : blank c = false) : c ∈ trimChars blank cs := by
  have hdrop : ∀ l : List Char, c ∈ l → c ∈ l.dropWhile blank := by
    intro l hl
    rw [← List.takeWhile_append_dropWhile (p := blank) (l := l)] at hl
    rcases List.mem_append.mp hl with hl | hl
    · rw [List.mem_takeWhile_imp hl] at hblank
      cases hblank
    · exact hl
  exact List.mem_reverse.mpr (hdrop _ (List.mem_reverse.mpr (hdrop _ hc)))

theorem trimChars_subset {blank : Char → Bool} {cs : List Char} {c : Char} (hc : c ∈ trimChars blank cs) :
    c ∈ cs :=
  List.dropWhile_subset _ (List.mem_reverse.mp (List.dropWhile_subset _ (List.mem_reverse.mp hc)))

/-- A text that both languages read as a number is the same number to both. -/
theorem numberOfText_agrees {s : String} {x y : ℚ} (h : ratOfText s = some x) (h' : numberOfText s = some y) :
    x = y := by
  rw [ratOfText_eq] at h
  have hchars := signedRat_chars h
  have hpython := trimChars_eq_filter (fun c hc => (numberChar_notBlank hc).1) hchars
  -- a character of no number would have stopped Python
  have hall : ∀ c ∈ s.toList, isSpace c = false → numberChar c = true :=
    fun c hc hblank => hchars c (mem_trimChars hc hblank)
  have hletter : ∀ c : Char, isSpace c = false → numberChar c = false → c ∉ trimChars scriptBlank s.toList := by
    intro c hblank hnumber hc
    rw [hall c (trimChars_subset hc) hblank] at hnumber
    cases hnumber
  have hradix : ∀ (c : Char) (cs : List Char), trimChars scriptBlank s.toList = '0' :: c :: cs →
      isSpace c = false → numberChar c = false → False := by
    intro c cs heq hblank hnumber
    exact hletter c hblank hnumber (by simp [heq])
  unfold numberOfText at h'
  split at h'
  · rename_i hempty
    have hnone : s.toList.filter numberChar = [] := by
      rw [List.filter_eq_nil_iff]
      intro c hc hnumber
      have hin := mem_trimChars hc (numberChar_notBlank hnumber).2
      rw [hempty] at hin
      cases hin
    rw [hpython, hnone] at h
    cases h
  · rename_i heq
    exact (hradix _ _ heq (by decide) (by decide)).elim
  · rename_i heq
    exact (hradix _ _ heq (by decide) (by decide)).elim
  · rename_i heq
    exact (hradix _ _ heq (by decide) (by decide)).elim
  · rename_i heq
    exact (hradix _ _ heq (by decide) (by decide)).elim
  · rename_i heq
    exact (hradix _ _ heq (by decide) (by decide)).elim
  · rename_i heq
    exact (hradix _ _ heq (by decide) (by decide)).elim
  · split at h'
    · have hscript := trimChars_eq_filter (fun c hc => (numberChar_notBlank hc).2) (signedRat_chars h')
      rw [hpython, ← hscript, h'] at h
      exact (Option.some.inj h).symm
    · cases h'

end AutoTune.Lib
