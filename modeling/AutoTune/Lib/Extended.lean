import AutoTune.Lib.Exact

/-!
# Floats that need not be finite

The exact floats with the two infinities and what is not a number.
-/

namespace AutoTune.Lib

/-- A float. -/
inductive Extended where
  | finite (x : ℚ)
  | infinite (negative : Bool)
  | nan
deriving DecidableEq, Repr

namespace Extended

/-- `math.inf`. -/
def inf : Extended := infinite false

/-- `-x`. -/
def neg : Extended → Extended
  | finite x => finite (-x)
  | infinite s => infinite !s
  | nan => nan

/-- `x - y`. -/
def sub : Extended → Extended → Extended
  | finite x, finite y => finite (x - y)
  | infinite s, finite _ => infinite s
  | finite _, infinite s => infinite !s
  | infinite s, infinite t => if s = t then nan else infinite s
  | _, _ => nan

/-- `x <= 0`. -/
def nonpos : Extended → Bool
  | finite x => x ≤ 0
  | infinite s => s
  | nan => false

/-- `x`, if `math.isfinite(x)`. -/
def finite? : Extended → Option ℚ
  | finite x => some x
  | _ => none

end Extended

/-- `float(text)` of an unsigned text. -/
def unsignedExtended (s : String) : Option Extended :=
  if lowerAscii s = "inf" ∨ lowerAscii s = "infinity" then some Extended.inf
  else if lowerAscii s = "nan" then some .nan
  else none

/-- `float(text)`, `none` for a ValueError. -/
def extendedOfText (s : String) : Option Extended :=
  match ratOfText s with
  | some x => some (.finite x)
  | none =>
      match (strip s).toList with
      | '-' :: cs => (unsignedExtended (String.ofList cs)).map Extended.neg
      | '+' :: cs => unsignedExtended (String.ofList cs)
      | cs => unsignedExtended (String.ofList cs)

end AutoTune.Lib
