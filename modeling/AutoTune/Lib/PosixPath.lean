import AutoTune.Lib.Python

/-!
# Slashed names

The pieces of a path or of a repository name, as Python's text methods and `PurePosixPath` cut them.
-/

namespace AutoTune.Lib

/-- `s.rstrip(c)` for one character. -/
def rstripChar (c : Char) (s : String) : String :=
  String.ofList (s.toList.reverse.dropWhile fun d => d == c).reverse

/-- `s.rsplit(c, 1)[-1]`. -/
def lastPiece (c : Char) (s : String) : String :=
  String.ofList (s.toList.reverse.takeWhile fun d => d != c).reverse

/-- `s.split("/")`. -/
def slashPieces (s : String) : List String := (s.toList.splitOn '/').map String.ofList

/-- `PurePosixPath(s).name`: empty pieces and single dots are no parts of a path. -/
def pathName (s : String) : String :=
  ((slashPieces s).filter fun piece => piece ≠ "" && piece ≠ ".").getLast?.getD ""

end AutoTune.Lib
