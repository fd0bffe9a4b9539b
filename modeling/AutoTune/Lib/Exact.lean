import AutoTune.Lib.JsonText
import Mathlib.Data.Rat.Defs
import Mathlib.Algebra.Order.Ring.Rat

/-!
# Exact floats

Floats as exact rationals: the built-ins that read and print them, without rounding, without
infinities and without a largest number. A float that a decimal writes out prints as that decimal.
-/

namespace AutoTune.Lib

/-! ## Printing -/

/-- How many digits after the point write `x` out, if 17 do. -/
def decimalDigits (x : ℚ) : Option Nat := (List.range 18).find? fun d => (x * 10 ^ d).den = 1

/-- `n` with at least `k` digits. -/
def padDigits (k n : Nat) : List Char := List.leftpad k '0' (toString n).toList

/-- `repr(x)`. -/
def ratText (x : ℚ) : String :=
  String.ofList ((if x < 0 then ['-'] else []) ++
    match decimalDigits x with
    | some d =>
        let n := (x * 10 ^ max d 1).num.natAbs
        (toString (n / 10 ^ max d 1)).toList ++ '.' :: padDigits (max d 1) (n % 10 ^ max d 1)
    | none => (toString x.num.natAbs).toList ++ '/' :: (toString x.den).toList)

/-- `repr(x)` is in exponent form. -/
def reprExponent (x : ℚ) : Bool := x ≠ 0 && (|x| < 1 / 10 ^ 4 || 10 ^ 16 ≤ |x|)

/-- `repr(s)`, in the quotes the text leaves free. -/
def quoteText (s : String) : String :=
  let quote := if hasChar s '\'' && !hasChar s '"' then '"' else '\''
  String.ofList (quote :: (s.toList.flatMap fun c =>
    if c = '\\' then ['\\', '\\']
    else if c = quote then ['\\', c]
    else if c = '\n' then ['\\', 'n']
    else if c = '\r' then ['\\', 'r']
    else if c = '\t' then ['\\', 't']
    else [c]) ++ [quote])

/-! ## Reading -/

/-- Digits, 0 if there are none. -/
def digitsOrZero (cs : List Char) : Option Nat := if cs.isEmpty then some 0 else readDigits 0 false cs

/-- Digits with or without a point. -/
def mantissa (cs : List Char) : Option ℚ :=
  let whole := cs.takeWhile fun c => c != '.'
  match cs.dropWhile fun c => c != '.' with
  | [] => (readDigits 0 false whole).map fun n => (n : ℚ)
  | _ :: fraction =>
      if whole.isEmpty && fraction.isEmpty then none
      else
        (digitsOrZero whole).bind fun n =>
          (digitsOrZero fraction).map fun f =>
            (n : ℚ) + f / 10 ^ (fraction.filter fun c => c != '_').length

/-- `x * 10 ** k` for the exponent `k` that is written. -/
def scaled (x : ℚ) : List Char → Option ℚ
  | '-' :: cs => (readDigits 0 false cs).map fun k => x / 10 ^ k
  | '+' :: cs => (readDigits 0 false cs).map fun k => x * 10 ^ k
  | cs => (readDigits 0 false cs).map fun k => x * 10 ^ k

def unsignedRat (cs : List Char) : Option ℚ :=
  let isLetter := fun c : Char => c = 'e' || c = 'E'
  match cs.dropWhile fun c => !isLetter c with
  | [] => mantissa cs
  | _ :: exponent => (mantissa (cs.takeWhile fun c => !isLetter c)).bind fun x => scaled x exponent

/-- `float(text)`; an infinity and what is not a number have no exact value. -/
def ratOfText (s : String) : Option ℚ :=
  match (strip s).toList with
  | '-' :: cs => (unsignedRat cs).map fun x => -x
  | '+' :: cs => unsignedRat cs
  | cs => unsignedRat cs

instance : PyRuntime ℚ where
  isZero x := x = 0
  text := ratText
  trunc x := .ok (if x < 0 then -(-x).floor else x.floor)
  whole x := if x.den = 1 then some x.num else none
  ofText := ratOfText
  ofInt n := some n
  le a b := a ≤ b
  quote := quoteText

/-! ## Rounding -/

/-- `round(x)`: to the nearest whole number, halves to the even one. -/
def roundHalfEven (x : ℚ) : Int :=
  let below := x.floor
  if x - below < 1 / 2 then below
  else if 1 / 2 < x - below then below + 1
  else if below % 2 = 0 then below
  else below + 1

/-- `round(x, decimals)`. -/
def roundTo (decimals : Nat) (x : ℚ) : ℚ := roundHalfEven (x * 10 ^ decimals) / 10 ^ decimals

/-! ## Formats -/

/-- `x * 10 ** k`. -/
def shiftTen (x : ℚ) (k : Int) : ℚ := if 0 ≤ k then x * 10 ^ k.toNat else x / 10 ^ (-k).toNat

/-- The power of ten `x` begins with, for a positive `x`. -/
def leadingPower (x : ℚ) : Int :=
  let guess : Int := (toString x.num.natAbs).length - (toString x.den).length
  if shiftTen 1 guess ≤ x then guess else guess - 1

/-- Digits without the zeros they end in, behind a point if any are left. -/
def fractionText (digits : List Char) : List Char :=
  match (digits.reverse.dropWhile fun c => c == '0').reverse with
  | [] => []
  | kept => '.' :: kept

/-- `format(x, "g")`: six digits, the exponent written out below -4 and from 6 on. -/
def formatG (x : ℚ) : String :=
  if x = 0 then "0"
  else
    let power := leadingPower |x|
    let six := roundHalfEven (shiftTen |x| (5 - power))
    let (digits, power) := if six = 10 ^ 6 then (10 ^ 5, power + 1) else (six, power)
    let text := (toString digits).toList
    let sign := if x < 0 then ['-'] else []
    String.ofList (sign ++
      if -4 ≤ power ∧ power < 0 then
        '0' :: fractionText (List.replicate (-power - 1).toNat '0' ++ text)
      else if 0 ≤ power ∧ power < 6 then
        text.take (power + 1).toNat ++ fractionText (text.drop (power + 1).toNat)
      else
        text.take 1 ++ fractionText (text.drop 1) ++ 'e' :: (if power < 0 then '-' else '+') ::
          padDigits 2 power.natAbs)

/-- Digits from the right in groups of three. -/
def groupThree : List Char → List Char
  | a :: b :: c :: d :: rest => a :: b :: c :: ',' :: groupThree (d :: rest)
  | rest => rest

/-- `format(n, ",")`. -/
def formatComma (n : Nat) : String := String.ofList (groupThree (toString n).toList.reverse).reverse

/-- An exact float prints digits, a sign, a point or a stroke. -/
theorem plainFloats_rat : PlainFloats ℚ := by
  have hnat : ∀ n : Nat, ∀ c ∈ (toString n).toList, plainChar c = true := fun n => intText_plain n
  have hpad : ∀ k n : Nat, ∀ c ∈ padDigits k n, plainChar c = true := by
    intro k n c hc
    unfold padDigits List.leftpad at hc
    rcases List.mem_append.mp hc with hc | hc
    · rw [(List.mem_replicate.mp hc).2]
      decide
    · exact hnat n c hc
  intro x c hc
  change c ∈ (ratText x).toList at hc
  unfold ratText at hc
  rw [String.toList_ofList, List.mem_append] at hc
  rcases hc with hc | hc
  · split at hc
    · rw [List.mem_singleton.mp hc]
      decide
    · simp at hc
  · split at hc
    · rcases List.mem_append.mp hc with hc | hc
      · exact hnat _ c hc
      · rcases List.mem_cons.mp hc with rfl | hc
        · decide
        · exact hpad _ _ c hc
    · rcases List.mem_append.mp hc with hc | hc
      · exact hnat _ c hc
      · rcases List.mem_cons.mp hc with rfl | hc
        · decide
        · exact hnat _ c hc

end AutoTune.Lib
