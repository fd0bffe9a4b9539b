import AutoTune.Lib.TextLines
import AutoTune.Lib.Utf8

/-!
# Container logs

What is kept of a log that is read again and again: its start and its end with a mark between them, in a bounded
number of bytes, and of a log of several pods the end of each one's section.
-/

namespace AutoTune

open Lib

/-- `GAP_MARK`. -/
def gapMark : List Char := "[... later lines dropped; the end of the log follows ...]".toList

/-- `HEAD_LINES`. -/
def headLines : Nat := 800

/-- A cut end without the line it begins in, unless it has no other. -/
def fromNextLine (last : List Char) : List Char :=
  match last.idxOf? '\n' with
  | some newline => if newline + 1 < last.length then last.drop (newline + 1) else last
  | none => last

/-- `cs.rfind("\n")`. -/
def lastNewline (cs : List Char) : Option Nat := (cs.reverse.idxOf? '\n').map fun i => cs.length - 1 - i

/-- The first quarter, cut on a line. -/
def clipHead (data : List UInt8) (maxBytes : Int) : List Char :=
  let head := decodeIgnore (data.take (maxBytes / 4).toNat)
  match lastNewline head with
  | some cut => if 0 < cut then head.take (cut + 1) else head
  | none => head

/-- `clip`. -/
def clip (text : List Char) (maxBytes : Int) : List Char :=
  let data := utf8 text
  if maxBytes ≤ 0 ∨ data.length ≤ maxBytes then text
  else
    let head := clipHead data maxBytes
    let room := maxBytes - (utf8 head).length - gapMark.length - 2
    let last := if 0 < room then decodeIgnore (lastOf room.toNat data) else []
    head ++ gapMark ++ '\n' :: fromNextLine last

/-! ## Sections -/

/-- `_SECTION.fullmatch`. -/
def isSection : List Char → Bool
  | '[' :: rest =>
      match rest.reverse with
      | ']' :: name => !name.isEmpty && name.all fun c => c != ']' && c != '\n'
      | _ => false
  | _ => false

/-- `text.partition("\n")`, without the separator. -/
def partitionLine (cs : List Char) : List Char × List Char :=
  (cs.takeWhile fun c => c != '\n', (cs.dropWhile fun c => c != '\n').drop 1)

/-- The lines of a text, each with its newline. -/
def newlineSplit : List Char → List (List Char)
  | [] => []
  | c :: cs =>
      if c = '\n' then [c] :: newlineSplit cs
      else
        match newlineSplit cs with
        | [] => [[c]]
        | line :: rest => (c :: line) :: rest

/-- What stands before the first header line, and the sections from one header line to the next. -/
def cutSections : List (List Char) → List Char × List (List Char)
  | [] => ([], [])
  | line :: rest =>
      let cut := cutSections rest
      if isSection (partitionLine line).1 then ([], (line ++ cut.1) :: cut.2) else (line ++ cut.1, cut.2)

/-- The sections, with what stands before the first of them. -/
def allSections (text : List Char) : List (List Char) :=
  let cut := cutSections (newlineSplit text)
  if cut.1.isEmpty then cut.2 else cut.1 :: cut.2

/-- A section's header and what is logged under it; what stands before the first section has none. -/
def splitHeader (text : List Char) : List Char × List Char :=
  let parts := partitionLine text
  if isSection parts.1 then parts else ([], text)

/-- What a section may take. -/
def shareOf (maxChars count : Nat) : Nat := maxChars / count - gapMark.length - 2

/-- The end of what is logged, in the room that is left. -/
def lastLines (room : Nat) (body : List Char) : List Char :=
  fromNextLine (if 0 < room then lastOf room body else [])

/-- A header on its line, if there is one. -/
def headerLine (header : List Char) : List Char := if header.isEmpty then [] else header ++ ['\n']

/-- What is kept of a section. -/
def keepSection (share : Nat) (text : List Char) : List Char :=
  if text.length ≤ share then text
  else
    let parts := splitHeader text
    headerLine parts.1 ++ gapMark ++ '\n' :: lastLines (share - parts.1.length - 1) parts.2

/-- A part that ends its line. -/
def endLine (part : List Char) : List Char := if part.getLast? = some '\n' then part else part ++ ['\n']

/-- `text.rstrip("\n")`. -/
def rstripNewlines (cs : List Char) : List Char := (cs.reverse.dropWhile fun c => c == '\n').reverse

/-- `text[-n:]`, which is the whole text for no `n`. -/
def plainTail (n : Nat) (text : List Char) : List Char := if n = 0 then text else lastOf n text

/-- `tail_by_section`. -/
def tailBySection (text : List Char) (maxChars : Nat) : List Char :=
  if text.length ≤ maxChars then text
  else if (cutSections (newlineSplit text)).2.length < 2 then plainTail maxChars text
  else
    let sections := allSections text
    rstripNewlines ((sections.map (keepSection (shareOf maxChars sections.length))).flatMap endLine)

/-! ## A log read again -/

/-- What stands before the first mark, if there is one. -/
def beforeMark : List Char → List Char
  | [] => []
  | c :: cs => if gapMark.isPrefixOf (c :: cs) then [] else c :: beforeMark cs

/-- The start that is kept of an earlier save. -/
def keptHead (previous : String) (count : Nat) : List String :=
  (lineBodies (String.ofList (beforeMark previous.toList))).take count

/-- Is a read taken for the whole log? -/
def takenWhole (first latest : String) : Bool := startsWith latest first || (lineBodies latest).take 1 == [first]

/-- `"\n".join(lines)`. -/
def joinNewline : List String → List Char
  | [] => []
  | [line] => line.toList
  | line :: rest => line.toList ++ '\n' :: joinNewline rest

/-- `with_head`. -/
def withHead (previous latest : String) (count : Nat) : String :=
  if (strip previous).isEmpty then latest
  else
    match keptHead previous count with
    | [] => latest
    | first :: rest =>
        if takenWhole first latest then latest
        else String.ofList (joinNewline (first :: rest) ++ '\n' :: gapMark ++ '\n' :: latest.toList)

end AutoTune
