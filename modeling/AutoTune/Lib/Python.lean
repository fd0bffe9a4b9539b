import Mathlib.Algebra.Ring.Int.Defs
import Mathlib.Algebra.Ring.Nat
import Mathlib.Data.List.Basic

/-!
# Python values

The values a JSON column holds once Python has read it, and the built-ins that read them: `bool`,
`str`, `repr`, `int`, `strip`, and the dictionary operations. A dictionary is its entries in insertion
order. Floats stay a type of their own, known by what the built-ins make of them.
-/

namespace AutoTune.Lib

/-- The exceptions a built-in raises on a value it cannot take. -/
inductive PyError where
  | attributeError
  | typeError
  | valueError (message : String)
  | overflowError
deriving DecidableEq, Repr

/-! ## Dictionaries -/

section Dict

variable {κ α : Type} [DecidableEq κ]

/-- `d.get(k)`. -/
def dictGet (d : List (κ × α)) (k : κ) : Option α := (d.find? fun e => e.1 = k).map Prod.snd

/-- `d[k] = v`: an existing key keeps its place. -/
def dictSet : List (κ × α) → κ → α → List (κ × α)
  | [], k, v => [(k, v)]
  | e :: d, k, v => if e.1 = k then (k, v) :: d else e :: dictSet d k v

/-- `d.pop(k, None)`. -/
def dictPop (d : List (κ × α)) (k : κ) : List (κ × α) := d.filter fun e => e.1 ≠ k

/-- `k in d`. -/
def dictHas (d : List (κ × α)) (k : κ) : Bool := d.any fun e => e.1 = k

end Dict

/-! ## Text -/

/-- `str.isspace` of one character. -/
def isSpace (c : Char) : Bool :=
  let n := c.toNat
  (9 ≤ n && n ≤ 13) || (28 ≤ n && n ≤ 32) || n == 0x85 || n == 0xa0 || n == 0x1680 ||
    (0x2000 ≤ n && n ≤ 0x200a) || n == 0x2028 || n == 0x2029 || n == 0x202f || n == 0x205f ||
    n == 0x3000

/-- `s.strip()`. -/
def strip (s : String) : String :=
  String.ofList ((s.toList.dropWhile isSpace).reverse.dropWhile isSpace).reverse

/-- `s.startswith(p)`. -/
def startsWith (s p : String) : Bool := p.toList.isPrefixOf s.toList

/-- `s[n:]`. -/
def dropText (n : Nat) (s : String) : String := String.ofList (s.toList.drop n)

/-- `s[:n]`. -/
def takeText (n : Nat) (s : String) : String := String.ofList (s.toList.take n)

/-- `s.lstrip(c)` for one character. -/
def lstripChar (c : Char) (s : String) : String := String.ofList (s.toList.dropWhile fun d => d == c)

/-- `s.replace(a, b)` for single characters. -/
def replaceChar (a b : Char) (s : String) : String :=
  String.ofList (s.toList.map fun c => if c = a then b else c)

/-- `s.partition(sep)` for one character: what stands before it and after it. -/
def partitionAt (sep : Char) (s : String) : String × String :=
  (String.ofList (s.toList.takeWhile fun c => c != sep),
    String.ofList ((s.toList.dropWhile fun c => c != sep).drop 1))

/-- `c in s` for one character. -/
def hasChar (s : String) (c : Char) : Bool := s.toList.contains c

/-- `s.lower()` on ASCII letters. -/
def lowerAscii (s : String) : String :=
  String.ofList (s.toList.map fun c =>
    if 'A'.toNat ≤ c.toNat ∧ c.toNat ≤ 'Z'.toNat then Char.ofNat (c.toNat + 32) else c)

/-- The code points of the decimal zeros; the nine digits follow each. -/
def decimalZeros : List Nat :=
  [0x30, 0x660, 0x6f0, 0x7c0, 0x966, 0x9e6, 0xa66, 0xae6, 0xb66, 0xbe6, 0xc66, 0xce6, 0xd66, 0xde6,
    0xe50, 0xed0, 0xf20, 0x1040, 0x1090, 0x17e0, 0x1810, 0x1946, 0x19d0, 0x1a80, 0x1a90, 0x1b50,
    0x1bb0, 0x1c40, 0x1c50, 0xa620, 0xa8d0, 0xa900, 0xa9d0, 0xa9f0, 0xaa50, 0xabf0, 0xff10, 0x104a0,
    0x10d30, 0x11066, 0x110f0, 0x11136, 0x111d0, 0x112f0, 0x11450, 0x114d0, 0x11650, 0x116c0, 0x11730,
    0x118e0, 0x11950, 0x11c50, 0x11d50, 0x11da0, 0x11f50, 0x16a60, 0x16ac0, 0x16b50, 0x1d7ce, 0x1d7d8,
    0x1d7e2, 0x1d7ec, 0x1d7f6, 0x1e140, 0x1e2f0, 0x1e4d0, 0x1e950, 0x1fbf0]

/-- The digit a character stands for, in any script. -/
def digitValue (c : Char) : Option Nat :=
  (decimalZeros.find? fun z => z ≤ c.toNat && c.toNat < z + 10).map fun z => c.toNat - z

/-- Digits, with single underscores allowed between them. `digit` says whether one was just read. -/
def readDigits : Nat → Bool → List Char → Option Nat
  | acc, digit, [] => if digit then some acc else none
  | acc, digit, c :: cs =>
      if c = '_' then
        if digit then readDigits acc false cs else none
      else
        match digitValue c with
        | some d => readDigits (10 * acc + d) true cs
        | none => none

/-- `int(text)`, `none` for a ValueError. -/
def intOfText (s : String) : Option Int :=
  match (strip s).toList with
  | '-' :: cs => (readDigits 0 false cs).map fun n => -(n : Int)
  | '+' :: cs => (readDigits 0 false cs).map Int.ofNat
  | cs => (readDigits 0 false cs).map Int.ofNat

/-! ## Values -/

/-- A JSON tree over a type of floats. -/
inductive Json (F : Type) where
  | null
  | bool (b : Bool)
  | int (n : Int)
  | float (x : F)
  | str (s : String)
  | list (items : List (Json F))
  | dict (entries : List (String × Json F))
deriving Repr

/-- A dictionary of JSON values. -/
abbrev JsonDict (F : Type) := List (String × Json F)

/-- What the built-ins make of a float, and how `repr` quotes a string. -/
class PyRuntime (F : Type) where
  /-- `x == 0` -/
  isZero : F → Bool
  /-- `str(x)` -/
  text : F → String
  /-- `int(x)` -/
  trunc : F → Except PyError Int
  /-- the whole number `x` is, if `x.is_integer()` -/
  whole : F → Option Int
  /-- `float(text)` -/
  ofText : String → Option F
  /-- `float(n)` -/
  ofInt : Int → Option F
  /-- `x <= y` -/
  le : F → F → Bool
  /-- `repr(s)` -/
  quote : String → String

/-- A runtime for trees without floats. -/
instance : PyRuntime Empty where
  isZero := Empty.elim
  text := Empty.elim
  trunc := Empty.elim
  whole := Empty.elim
  ofText _ := none
  ofInt _ := none
  le := Empty.elim
  quote s := "'" ++ s ++ "'"

section Values

variable {F : Type} [PyRuntime F]

/-- `bool(value)`. -/
def Json.truthy : Json F → Bool
  | .null => false
  | .bool b => b
  | .int n => n != 0
  | .float x => !PyRuntime.isZero x
  | .str s => s != ""
  | .list items => !items.isEmpty
  | .dict entries => !entries.isEmpty

mutual

/-- `repr(value)`. -/
def Json.repr : Json F → String
  | .null => "None"
  | .bool b => if b then "True" else "False"
  | .int n => toString n
  | .float x => PyRuntime.text x
  | .str s => PyRuntime.quote F s
  | .list items => "[" ++ ", ".intercalate (Json.reprItems items) ++ "]"
  | .dict entries => "\x7b" ++ ", ".intercalate (Json.reprEntries entries) ++ "\x7d"

def Json.reprItems : List (Json F) → List String
  | [] => []
  | v :: items => v.repr :: Json.reprItems items

def Json.reprEntries : List (String × Json F) → List String
  | [] => []
  | (k, v) :: entries => (PyRuntime.quote F k ++ ": " ++ v.repr) :: Json.reprEntries entries

end

/-- `str(value)`: a string is itself. -/
def Json.text : Json F → String
  | .str s => s
  | v => v.repr

/-- `d.get(k) or {}`, where something else than a dictionary has no `get` of its own. -/
def Json.orEmpty : Option (Json F) → Except PyError (JsonDict F)
  | some (.dict d) => .ok d
  | some v => if v.truthy then .error .attributeError else .ok []
  | none => .ok []

/-- `d.get(k) or {}` of a dictionary. -/
def subDict (d : JsonDict F) (k : String) : Except PyError (JsonDict F) := Json.orEmpty (dictGet d k)

/-- `list(value or [])`: a string gives its characters, a dictionary its keys. -/
def Json.items : Option (Json F) → Except PyError (List (Json F))
  | none => .ok []
  | some (.list items) => .ok items
  | some (.str s) => .ok (s.toList.map fun c => .str (String.singleton c))
  | some (.dict d) => .ok (d.map fun e => .str e.1)
  | some v => if v.truthy then .error .typeError else .ok []

end Values

end AutoTune.Lib
