import AutoTune.Lib.Python
import Mathlib.Tactic.Common

/-!
# Whole numbers as text

A whole number is printed in digits, after a sign if it is negative, and `int` reads it back.
-/

namespace AutoTune.Lib

/-! ## Digits -/

theorem isDigit_toNat {c : Char} (h : c.isDigit = true) : 48 ≤ c.toNat ∧ c.toNat ≤ 57 := by
  unfold Char.isDigit at h
  simp only [ge_iff_le, Bool.and_eq_true, decide_eq_true_eq] at h
  exact h

theorem isDigit_notSpace {c : Char} (h : c.isDigit = true) : isSpace c = false := by
  have hnat := isDigit_toNat h
  unfold isSpace
  simp only [Bool.or_eq_false_iff, Bool.and_eq_false_iff, decide_eq_false_iff_not, beq_eq_false_iff_ne]
  omega

theorem digitValue_digit {c : Char} (h : c.isDigit = true) : digitValue c = some (c.toNat - 48) := by
  have hnat := isDigit_toNat h
  have hfind : (decimalZeros.find? fun z => z ≤ c.toNat && c.toNat < z + 10) = some 0x30 := by
    unfold decimalZeros
    refine List.find?_cons_of_pos ?_
    rw [Bool.and_eq_true, decide_eq_true_eq, decide_eq_true_eq]
    omega
  unfold digitValue
  rw [hfind]
  rfl

theorem natText_digits (n : Nat) : ∀ c ∈ (toString n).toList, c.isDigit = true := by
  intro c hc
  change c ∈ n.repr.toList at hc
  rw [Nat.toList_repr] at hc
  exact Nat.isDigit_of_mem_toDigits (by decide) (by decide) hc

theorem natText_ne_nil (n : Nat) : (toString n).toList ≠ [] := by
  change n.repr.toList ≠ []
  rw [Nat.toList_repr]
  exact Nat.toDigits_ne_nil

theorem ofDigitChars_natText (n : Nat) : Nat.ofDigitChars 10 (toString n).toList 0 = n := by
  change Nat.ofDigitChars 10 n.repr.toList 0 = n
  rw [Nat.toList_repr, Nat.ofDigitChars_ten_toDigits]

theorem toString_nat_injective : Function.Injective (toString : Nat → String) := by
  intro m n h
  rw [← ofDigitChars_natText m, h, ofDigitChars_natText]

/-! ## Signs -/

/-- The characters of a whole number: digits, after a sign if it is negative. -/
theorem intText_chars (n : Int) : ∃ cs, (∀ c ∈ cs, c.isDigit = true) ∧ cs ≠ [] ∧
    ((toString n).toList = cs ∨ (toString n).toList = '-' :: cs) := by
  cases n with
  | ofNat m => exact ⟨(toString m).toList, natText_digits m, natText_ne_nil m, Or.inl rfl⟩
  | negSucc m =>
      refine ⟨(toString (m + 1)).toList, natText_digits (m + 1), natText_ne_nil (m + 1), Or.inr ?_⟩
      have happend : ("-" ++ (m + 1).repr).toList = '-' :: (m + 1).repr.toList := String.toList_append
      exact happend

theorem intText_notSpace (n : Int) : ∀ c ∈ (toString n).toList, isSpace c = false := by
  rcases intText_chars n with ⟨cs, hcs, -, htext⟩
  intro c hc
  rcases htext with htext | htext
  · rw [htext] at hc
    exact isDigit_notSpace (hcs c hc)
  · rw [htext] at hc
    rcases List.mem_cons.mp hc with rfl | hc
    · decide
    · exact isDigit_notSpace (hcs c hc)

/-! ## Reading -/

/-- `\d+`. -/
def readNumber (cs : List Char) : Option Nat :=
  if cs.isEmpty then none else cs.foldlM (fun n c => (digitValue c).map fun d => 10 * n + d) 0

/-- A text without the newline it may end in: `$` stands before it. -/
def withoutNewline (cs : List Char) : List Char :=
  match cs.reverse with
  | '\n' :: rest => rest.reverse
  | _ => cs

/-- A text without blanks is its own strip. -/
theorem strip_of_noSpace {s : String} (h : ∀ c ∈ s.toList, isSpace c = false) : strip s = s := by
  have hdrop : ∀ l : List Char, (∀ c ∈ l, isSpace c = false) → l.dropWhile isSpace = l := by
    intro l hl
    cases l with
    | nil => rfl
    | cons c cs => exact List.dropWhile_cons_of_neg (by rw [hl c List.mem_cons_self]; decide)
  unfold strip
  rw [hdrop _ h, hdrop _ fun c hc => h c (List.mem_reverse.mp hc), List.reverse_reverse,
    String.ofList_toList]

theorem readDigits_digits {cs : List Char} (h : ∀ c ∈ cs, c.isDigit = true) (acc : Nat) (digit : Bool)
    (hdigit : digit = true ∨ cs ≠ []) : readDigits acc digit cs = some (Nat.ofDigitChars 10 cs acc) := by
  induction cs generalizing acc digit with
  | nil =>
      rcases hdigit with rfl | hne
      · rfl
      · exact absurd rfl hne
  | cons c cs ih =>
      have hc := h c List.mem_cons_self
      have hunder : ¬ c = '_' := by
        rintro rfl
        exact absurd hc (by decide)
      rw [readDigits, if_neg hunder, digitValue_digit hc, Nat.ofDigitChars_cons]
      exact ih (fun d hd => h d (List.mem_cons_of_mem c hd)) _ true (Or.inl rfl)

/-- Digits are read to the end. -/
theorem readDigits_natText (n : Nat) : readDigits 0 false (toString n).toList = some n := by
  rw [readDigits_digits (natText_digits n) 0 false (Or.inr (natText_ne_nil n)), ofDigitChars_natText]

/-- `int(str(n))`. -/
theorem intOfText_toString (n : Int) : intOfText (toString n) = some n := by
  unfold intOfText
  rw [strip_of_noSpace (intText_notSpace n)]
  cases n with
  | ofNat m =>
      have htext : (toString (Int.ofNat m)).toList = (toString m).toList := rfl
      have hsign : ∀ c cs, (toString m).toList = c :: cs → c.isDigit = true := fun c cs heq =>
        natText_digits m c (by rw [heq]; exact List.mem_cons_self)
      rw [htext]
      split
      · rename_i heq
        exact absurd (hsign _ _ heq) (by decide)
      · rename_i heq
        exact absurd (hsign _ _ heq) (by decide)
      · rw [readDigits_natText]
        rfl
  | negSucc m =>
      have htext : (toString (Int.negSucc m)).toList = '-' :: (toString (m + 1)).toList := by
        have happend : ("-" ++ (m + 1).repr).toList = '-' :: (m + 1).repr.toList := String.toList_append
        exact happend
      rw [htext]
      change ((readDigits 0 false (toString (m + 1)).toList).bind fun n => some (n : Int)).map (fun n => -n) = _
      rw [readDigits_natText]
      rfl

theorem toString_int_injective : Function.Injective (toString : Int → String) := by
  intro m n h
  have hread := congrArg intOfText h
  rw [intOfText_toString, intOfText_toString] at hread
  exact Option.some.inj hread

end AutoTune.Lib
