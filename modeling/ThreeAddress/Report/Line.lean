import ThreeAddress.Text.Blank
import ThreeAddress.Text.Pad
import ThreeAddress.Text.Quoted

/-!
# Lines of a report

The lines of a source text as a report shows them. Every character takes a number of columns: a tab
goes on to the next multiple of four, control characters and the byte order mark take none, and
every other character takes one.
-/

namespace ThreeAddress.Report

set_option autoImplicit false

def tabWidth : Nat := 4

def width (column : Nat) (c : Char) : Nat :=
  if c = '\t' then tabWidth - column % tabWidth
  else if Text.isControl c || c = '\ufeff' then 0
  else 1

/-- A line of a source: the offset at which it starts and its characters without the line feed. -/
structure Line where
  start : Nat
  text : List Char
deriving DecidableEq, Inhabited

/-- The lines of a text that stands at `offset`; there is always a last one. -/
def splitLines (offset : Nat) : List Char → List Line
  | [] => [⟨offset, []⟩]
  | c :: rest =>
      let behind := splitLines (offset + c.utf8Size) rest
      if c = '\n' then ⟨offset, []⟩ :: behind
      else
        match behind with
        | [] => [⟨offset, [c]⟩]
        | line :: more => ⟨offset, c :: line.text⟩ :: more

/-- The part of a character cell that a report reckons with: its first byte, its bytes and its
columns. -/
structure Cell where
  offset : Nat
  size : Nat
  width : Nat
deriving DecidableEq

def cellsFrom (offset column : Nat) : List Char → List Cell
  | [] => []
  | c :: rest =>
      let columns := width column c
      ⟨offset, c.utf8Size, columns⟩ :: cellsFrom (offset + c.utf8Size) (column + columns) rest

def expandFrom (column : Nat) : List Char → List Char
  | [] => []
  | c :: rest =>
      let columns := width column c
      (if c = '\t' then List.replicate columns ' ' else [c]) ++ expandFrom (column + columns) rest

namespace Line

def isTrailing (c : Char) : Bool :=
  c = '\r' || c = '\n' || c = '\x00'

def shown (line : Line) : List Char :=
  (line.text.reverse.dropWhile isTrailing).reverse

def indentation (line : Line) : List Char :=
  line.shown.takeWhile Text.isBlank

def cells (line : Line) : List Cell :=
  cellsFrom line.start 0 line.shown

def expanded (line : Line) : String :=
  String.ofList (expandFrom 0 line.shown)

/-- The column of an offset in the line: one more than the characters that end at or before it. -/
def column (line : Line) (offset : Nat) : Nat :=
  ((cellsFrom line.start 0 line.text).takeWhile fun cell =>
    cell.offset + cell.size ≤ offset).length + 1

def widthBefore (line : Line) (offset : Nat) : Nat :=
  (line.cells.takeWhile (·.offset < offset)).foldr (fun cell width => cell.width + width) 0

end Line

end ThreeAddress.Report
