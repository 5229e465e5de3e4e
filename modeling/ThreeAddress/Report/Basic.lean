import ThreeAddress.Rejection
import ThreeAddress.Report.Excerpt

/-!
# Reports

A diagnostic or a rejection as it is shown to a user: a headline, the excerpt it is about or a note,
and an empty line.
-/

namespace ThreeAddress.Report

set_option autoImplicit false

/-- A text cut at its line feeds, of which the last ends a line and starts none. A carriage return
before a line feed is left out with it. -/
def noteLines (text : List Char) : List (List Char) :=
  let lines := (splitLines 0 text).map (·.text)
  let ended := lines.dropLast.map fun line =>
    if line.getLast? = some '\r' then line.dropLast else line
  match lines.getLast? with
  | none | some [] => ended
  | some rest => ended ++ [rest]

/-- A note: an equals sign before its first line, blanks before the others. -/
def note (text : String) : List String :=
  match noteLines text.toList with
  | [] => []
  | first :: others =>
      (" = " ++ String.ofList first) :: others.map fun line => "   " ++ String.ofList line

def layout (headline : String) (body : List String) : String :=
  Text.lines (headline :: body ++ [""])

def labelled (file : File) (headline : String) (span : Span) (message : String) : String :=
  layout headline (Excerpt.ofSpan file span message).body

def ofRejection (file : File) : Rejection → String
  | .lexical message place => labelled file "error: Lexer error" place.span message
  | .syntactic message place => labelled file "error: Syntax error" place.span message
  | .precondition message => layout s!"error: Precondition violated: {message}" []
  | .io message => layout s!"error: IO error: {message}" []

def ofDiagnostic (file : File) (diagnostic : Diagnostic) : String :=
  let headline := s!"error[{diagnostic.kind.code}]: {diagnostic.kind.title}"
  match diagnostic.span with
  | some span => labelled file headline span diagnostic.message
  | none =>
      layout headline (note s!"at line {diagnostic.position.text}: {diagnostic.message}")

end ThreeAddress.Report
