import ThreeAddress.Source.Place

/-!
# Diagnostics

What a compilation has to say about a program that it rejects.
-/

namespace ThreeAddress

set_option autoImplicit false

inductive DiagnosticKind where
  | lexical
  | syntactic
  | undeclaredIdentifier
  | duplicateDeclaration
  | invalidIdentifier
  | typeMismatch
  | arrayBounds
  | constantModification
  | divisionByZero
deriving DecidableEq

namespace DiagnosticKind

def code : DiagnosticKind → String
  | .lexical => "E0001"
  | .syntactic => "E0002"
  | .undeclaredIdentifier => "E0101"
  | .duplicateDeclaration => "E0102"
  | .invalidIdentifier => "E0103"
  | .typeMismatch => "E0104"
  | .arrayBounds => "E0105"
  | .constantModification => "E0106"
  | .divisionByZero => "E0107"

def title : DiagnosticKind → String
  | .lexical => "lexical error"
  | .syntactic => "syntax error"
  | .undeclaredIdentifier => "undeclared identifier"
  | .duplicateDeclaration => "duplicate declaration"
  | .invalidIdentifier => "invalid identifier name"
  | .typeMismatch => "type mismatch"
  | .arrayBounds => "invalid array bounds"
  | .constantModification => "constant modification"
  | .divisionByZero => "division by zero"

def tag : DiagnosticKind → String
  | .lexical => "LEXICAL"
  | .syntactic => "SYNTAX"
  | .undeclaredIdentifier => "UNDECLARED_IDENTIFIER"
  | .duplicateDeclaration => "DUPLICATE_DECLARATION"
  | .invalidIdentifier => "INVALID_IDENTIFIER"
  | .typeMismatch => "TYPE_MISMATCH"
  | .arrayBounds => "ARRAY_BOUNDS"
  | .constantModification => "CONSTANT_MODIFICATION"
  | .divisionByZero => "DIVISION_BY_ZERO"

end DiagnosticKind

structure Diagnostic where
  kind : DiagnosticKind
  message : String
  position : Position
  /-- The text of the program that the message is about. -/
  entity : String
  span : Option Span
deriving DecidableEq

def Diagnostic.text (diagnostic : Diagnostic) : String :=
  s!"[{diagnostic.kind.tag}] at line {diagnostic.position.text} - " ++
    s!"{diagnostic.entity}: {diagnostic.message}"

def Diagnostic.countKind (kind : DiagnosticKind) (diagnostics : List Diagnostic) : Nat :=
  diagnostics.countP (·.kind = kind)

end ThreeAddress
