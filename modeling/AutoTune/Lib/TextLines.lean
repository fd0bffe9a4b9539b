import AutoTune.Lib.Python

/-!
# Lines of a text

`splitlines(keepends=True)` cuts a text into its lines, and the lines together are the text.
-/

namespace AutoTune.Lib

/-- A character that ends a line. -/
def isLineEnd (c : Char) : Bool :=
  let n := c.toNat
  (10 ≤ n && n ≤ 13) || (0x1c ≤ n && n ≤ 0x1e) || n == 0x85 || n == 0x2028 || n == 0x2029

/-- The lines of what is left, where `line` has been read of the first one, in reverse. -/
def linesFrom : List Char → List Char → List String
  | line, [] => if line.isEmpty then [] else [String.ofList line.reverse]
  | line, '\r' :: '\n' :: cs => String.ofList ('\n' :: '\r' :: line).reverse :: linesFrom [] cs
  | line, c :: cs =>
      if isLineEnd c then String.ofList (c :: line).reverse :: linesFrom [] cs
      else linesFrom (c :: line) cs

/-- `text.splitlines(keepends=True)`. -/
def splitLines (text : String) : List String := linesFrom [] text.toList

/-- A line without what ends it. -/
def lineBody (line : String) : String :=
  match line.toList.reverse with
  | '\n' :: '\r' :: cs => String.ofList cs.reverse
  | c :: cs => if isLineEnd c then String.ofList cs.reverse else line
  | [] => line

/-- `text.splitlines()`. -/
def lineBodies (text : String) : List String := (splitLines text).map lineBody

/-- `l[-n:]` for a positive `n`. -/
def lastOf {α : Type} (n : Nat) (l : List α) : List α := l.drop (l.length - n)

/-- `"".join(lines)`. -/
def joinLines (lines : List String) : String := String.ofList (lines.flatMap String.toList)

theorem joinLines_append (l l' : List String) : joinLines (l ++ l') = joinLines l ++ joinLines l' := by
  apply String.toList_injective
  simp [joinLines, String.toList_append]

theorem linesFrom_chars (line cs : List Char) :
    (linesFrom line cs).flatMap String.toList = line.reverse ++ cs := by
  fun_induction linesFrom line cs with
  | case1 line hempty =>
      rw [List.isEmpty_iff.mp hempty]
      rfl
  | case2 line hempty => simp
  | case3 line cs ih => simp [ih]
  | case4 line c cs _ hend ih => simp [ih]
  | case5 line c cs _ hend ih => simp [ih]

/-- The lines of a text make the text. -/
theorem joinLines_splitLines (text : String) : joinLines (splitLines text) = text := by
  unfold joinLines splitLines
  rw [linesFrom_chars]
  simp

end AutoTune.Lib
