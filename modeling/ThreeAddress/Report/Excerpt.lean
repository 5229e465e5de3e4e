import ThreeAddress.Report.Line
import ThreeAddress.Source.Lines

/-!
# Excerpts

The part of a source text that a message is about, framed and underlined. A span within a line is
underlined with carets; a span over several lines is drawn as a bracket at the left, of which the
middle is left out if it is long.
-/

namespace ThreeAddress.Report

set_option autoImplicit false

structure File where
  name : String
  text : List Char
deriving DecidableEq

structure Excerpt where
  name : String
  lines : List Line
  /-- The number of the line in which the span starts. -/
  first : Nat
  /-- The number of the line in which the span ends. -/
  last : Nat
  span : Span
  message : String
deriving DecidableEq

namespace Excerpt

def ofSpan (file : File) (span : Span) (message : String) : Excerpt :=
  let lines := Lines.ofText file.text
  ⟨file.name, splitLines 0 file.text, lines.number span.start, lines.number span.stop, span,
    message⟩

def line (excerpt : Excerpt) (number : Nat) : Line :=
  excerpt.lines.getD (number - 1) default

def numberWidth (excerpt : Excerpt) : Nat :=
  (toString (max excerpt.first excerpt.last)).length

/-- The left edge of a line that shows no source line. -/
def gutter (excerpt : Excerpt) : String :=
  Text.blanks (excerpt.numberWidth + 1)

def numbered (excerpt : Excerpt) (number : Nat) : String :=
  Text.padLeft excerpt.numberWidth (toString number) ++ " │ "

def locus (excerpt : Excerpt) : String :=
  let column := (excerpt.line excerpt.first).column excerpt.span.start
  s!"{excerpt.gutter}┌─ {excerpt.name}:{excerpt.first}:{column}"

def trailer (excerpt : Excerpt) : String :=
  if excerpt.message = "" then "" else " " ++ excerpt.message

def underline (start stop : Nat) (cell : Cell) : List Char :=
  if cell.offset < stop ∧ start < cell.offset + cell.size then List.replicate cell.width '^'
  else if cell.offset < stop then List.replicate cell.width ' '
  else []

/-- The underline of a span within a line. A span at the end of a line is underlined behind it. -/
def carets (excerpt : Excerpt) : String :=
  let line := excerpt.line excerpt.first
  let start := excerpt.span.start
  let stop := max excerpt.span.stop (start + 1)
  let behind : Cell := ⟨line.start + Bytes.size line.shown, 1, 1⟩
  String.ofList ((line.cells ++ [behind]).flatMap (underline start stop))

def single (excerpt : Excerpt) : List String :=
  [excerpt.gutter ++ "│",
    excerpt.numbered excerpt.first ++ (excerpt.line excerpt.first).expanded,
    excerpt.gutter ++ "│ " ++ excerpt.carets ++ excerpt.trailer]

/-- Whether the span starts within the indentation of its first line or right behind it. -/
def startsLine (excerpt : Excerpt) : Bool :=
  let line := excerpt.line excerpt.first
  excerpt.span.start ≤ line.start + Bytes.size line.indentation

def dashes (count : Nat) : String :=
  String.ofList (List.replicate count '─')

def opening (excerpt : Excerpt) : List String :=
  let line := excerpt.line excerpt.first
  if excerpt.startsLine then [excerpt.numbered excerpt.first ++ "╭ " ++ line.expanded]
  else
    [excerpt.numbered excerpt.first ++ "  " ++ line.expanded,
      excerpt.gutter ++ "│ ╭" ++ dashes (line.widthBefore (excerpt.span.start + 1)) ++ "^"]

def further (excerpt : Excerpt) (number : Nat) : String :=
  excerpt.numbered number ++ "│ " ++ (excerpt.line number).expanded

def closing (excerpt : Excerpt) : String :=
  let line := excerpt.line excerpt.last
  excerpt.gutter ++ "│ ╰" ++ dashes (line.widthBefore excerpt.span.stop) ++ "^" ++
    excerpt.trailer

/-- How many lines a report shows at the upper end of a bracket behind the first one. -/
def leading : Nat := 3

def omission (excerpt : Excerpt) : String :=
  excerpt.gutter ++ "· │"

/-- The lines between the first and the last. Three are shown behind the first line and one before
the last; more than one line in between is left out. -/
def middle (excerpt : Excerpt) : List String :=
  let inside := (List.range (excerpt.last - excerpt.first - 1)).map (· + excerpt.first + 1)
  if leading + 2 < inside.length then
    (inside.take leading).map excerpt.further ++ [excerpt.omission] ++
      (inside.drop (inside.length - 1)).map excerpt.further
  else inside.map excerpt.further

/-- The lines between the last and the first, where the last comes before the first. A single one
is shown, and more are left out. -/
def between (excerpt : Excerpt) : List String :=
  match excerpt.first - excerpt.last - 1 with
  | 0 => []
  | 1 =>
      let number := excerpt.last + 1
      [excerpt.numbered number ++ "  " ++ (excerpt.line number).expanded]
  | _ => [excerpt.omission]

def ending (excerpt : Excerpt) : List String :=
  [excerpt.further excerpt.last, excerpt.closing]

/-- A span over several lines. Lines are shown in the order of the text, so the bracket of a span
that stops in an earlier line than it starts has its lower end above the upper one. -/
def several (excerpt : Excerpt) : List String :=
  let shown :=
    if excerpt.first < excerpt.last then excerpt.opening ++ excerpt.middle ++ excerpt.ending
    else excerpt.ending ++ excerpt.between ++ excerpt.opening
  (excerpt.gutter ++ "│  ") :: shown

def body (excerpt : Excerpt) : List String :=
  excerpt.locus :: if excerpt.first = excerpt.last then excerpt.single else excerpt.several

end Excerpt

end ThreeAddress.Report
