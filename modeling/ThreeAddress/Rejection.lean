import ThreeAddress.Diagnostic
import ThreeAddress.Source.Bytes
import ThreeAddress.Syntax.Parser
import ThreeAddress.Token.Lexer

/-!
# Rejections

Why a compilation, or a part of it, was not carried through. Bad text and wrong tokens can be told
as diagnostics; the other two have no place in the program.
-/

namespace ThreeAddress

set_option autoImplicit false

inductive Rejection where
  | lexical (message : String) (place : Place)
  | syntactic (message : String) (place : Place)
  | precondition (message : String)
  | io (message : String)
deriving DecidableEq

namespace Rejection

def ofBadText (bad : BadText) : Rejection :=
  .lexical bad.message bad.place

def ofSyntaxError (error : SyntaxError) : Rejection :=
  .syntactic error.message error.found.place

def text : Rejection → String
  | .lexical message place => s!"Lexer error at {place.position.text}: {message}"
  | .syntactic message place => s!"Parser error at {place.position.text}: {message}"
  | .precondition message => s!"Precondition violated: {message}"
  | .io message => s!"IO error: {message}"

def place? : Rejection → Option Place
  | .lexical _ place | .syntactic _ place => some place
  | .precondition _ | .io _ => none

/-- A diagnostic at a place of `source`. Its entity is the text there, or nothing if the span does
not fit the source. -/
def located (source : List Char) (kind : DiagnosticKind) (message : String) (place : Place) :
    Diagnostic :=
  ⟨kind, message, place.position,
    String.ofList ((Bytes.slice? source place.span).getD []), some place.span⟩

def diagnostic? (source : List Char) : Rejection → Option Diagnostic
  | .lexical message place => some (located source .lexical message place)
  | .syntactic message place => some (located source .syntactic message place)
  | .precondition _ | .io _ => none

end Rejection

end ThreeAddress
