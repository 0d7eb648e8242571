import PacketSpec.Document.Problem
import PacketSpec.Text.Basic
import PacketSpec.Text.Columns

/-! A problem shown under the line of the document that it points at. -/
namespace PacketSpec.Document

/-- A line of a text and a byte in it; lines count from one. -/
structure Spot where
  number : Nat
  line : List Char
  offset : Nat
  deriving DecidableEq, Repr

/-- The spot of a byte in the lines from `number` on. -/
def spotFrom (number offset : Nat) : List (List Char) → Spot
  | [] => ⟨number, [], offset⟩
  | [line] => ⟨number, line, offset⟩
  | line :: next :: rest =>
    let size := byteCount line + 1
    if offset < size then ⟨number, line, offset⟩
    else spotFrom (number + 1) (offset - size) (next :: rest)

def spotIn (text : String) (offset : Nat) : Spot :=
  spotFrom 1 offset (Text.split '\n' text.toList)

/-- The characters that lie whole in the first bytes of a line. -/
def wholeBefore : Nat → List Char → Nat
  | _, [] => 0
  | bytes, c :: rest => if bytes < c.utf8Size then 0 else wholeBefore (bytes - c.utf8Size) rest + 1

namespace Spot

/-- Counts characters from one. -/
def column (spot : Spot) : Nat := wholeBefore spot.offset spot.line + 1

/-- The line without the characters at its end that are not shown. -/
def shown (spot : Spot) : List Char :=
  (spot.line.reverse.dropWhile fun c => c == '\r' || c == Char.ofNat 0).reverse

end Spot

/-- A line in a terminal: a tab is as many spaces as it is wide. -/
def expandFrom (column : Nat) : List Char → List Char
  | [] => []
  | c :: rest =>
    let width := Text.columnsAt column c
    (if c == '\t' then List.replicate width ' ' else [c]) ++ expandFrom (column + width) rest

/-- Carets under the character that holds the byte `target`, and spaces before it; `byte` and
`column` are those of the first character. -/
def caretsFrom (target byte column : Nat) : List Char → List Char
  | [] => if byte == target then ['^'] else if byte < target then [' '] else []
  | c :: rest =>
    let width := Text.columnsAt column c
    let next := byte + c.utf8Size
    let here :=
      if next ≤ target then List.replicate width ' '
      else if byte ≤ target then List.replicate width '^'
      else []
    here ++ caretsFrom target next (column + width) rest

def Problem.render (file text : String) (problem : Problem) : String :=
  let spot := spotIn text problem.offset
  let number := Text.decimal spot.number
  let column := Text.decimal spot.column
  let gutter := String.ofList (List.replicate number.length ' ')
  let source := String.ofList (expandFrom 0 spot.shown)
  let carets := String.ofList (caretsFrom spot.offset 0 0 spot.shown)
  s!"error: failed to parse input file '{file}'\n" ++
    s!"{gutter} ┌─ {file}:{number}:{column}\n" ++
    s!"{gutter} │\n" ++
    s!"{number} │ {source}\n" ++
    s!"{gutter} │ {carets} {problem.label}\n\n"

end PacketSpec.Document
