import ThreeAddress.Check.Statement
import ThreeAddress.Quad.Lowering
import ThreeAddress.Rejection
import ThreeAddress.Syntax.Dump
import ThreeAddress.Token.Dump

/-!
# Compilations

A source text is tokenized, parsed, checked and lowered. The first two can stop a compilation; the
check never does, but a program with diagnostics is not lowered.
-/

namespace ThreeAddress

set_option autoImplicit false

structure Settings where
  dumpTokens : Bool
  dumpTree : Bool
deriving DecidableEq, Inhabited

structure Compilation where
  diagnostics : List Diagnostic
  /-- The symbols, once the program has been checked. -/
  symbols : Option SymbolTable
  /-- The code, if there are no diagnostics. -/
  code : Option (List Quad)
  tokenDump : Option String
  treeDump : Option String
deriving DecidableEq

namespace Compilation

def succeeded (compilation : Compilation) : Bool :=
  compilation.diagnostics.isEmpty && compilation.code.isSome

def symbolText? (compilation : Compilation) : Option String :=
  compilation.symbols.map SymbolTable.text

def listing? (compilation : Compilation) : Option String :=
  compilation.code.map Quad.listing

end Compilation

def Source.tokens (source : List Char) : Except Rejection (List Token) :=
  (tokenize source).mapError .ofBadText

def Source.program (source : List Char) : Except Rejection Program := do
  let tokens ← Source.tokens source
  (parseTokens tokens).mapError .ofSyntaxError

/-- The code of a program that nothing has been said against. -/
def Program.code (program : Program) (diagnostics : List Diagnostic) :
    Except Rejection (List Quad) :=
  if diagnostics.isEmpty then .ok (program.lower .fresh).code
  else
    .error (.precondition
      (s!"code generation requires an error-free program ({diagnostics.length} " ++
        "diagnostic(s) recorded)"))

def Compilation.stopped (source : List Char) (rejection : Rejection)
    (tokenDump : Option String) : Compilation :=
  ⟨(rejection.diagnostic? source).toList, none, none, tokenDump, none⟩

def Compilation.ofProgram (program : Program) (tokenDump treeDump : Option String) :
    Compilation :=
  let checked := program.check
  let diagnostics := checked.faults.map Fault.diagnostic
  ⟨diagnostics, some checked.table, (program.code diagnostics).toOption, tokenDump, treeDump⟩

/-- Ends a compilation with the diagnostic for `rejection`; one without a place has none, and then
the compilation fails. -/
def Compilation.record (source : List Char) (rejection : Rejection)
    (tokenDump : Option String) : Except Rejection Compilation :=
  match rejection.diagnostic? source with
  | some _ => .ok (.stopped source rejection tokenDump)
  | none => .error rejection

/-- The compilation of a source text, unless a rejection that is no diagnostic ends it. -/
def Source.compilation (settings : Settings) (source : List Char) : Except Rejection Compilation :=
  match Source.tokens source with
  | .error rejection => Compilation.record source rejection none
  | .ok tokens =>
      let tokenDump := if settings.dumpTokens then some (Token.dumpAll tokens) else none
      match (parseTokens tokens).mapError Rejection.ofSyntaxError with
      | .error rejection => Compilation.record source rejection tokenDump
      | .ok program =>
          let treeDump := if settings.dumpTree then some program.dump else none
          .ok (.ofProgram program tokenDump treeDump)

/-- The compilation as such. A rejection that no diagnostic tells does not occur. -/
def compile (settings : Settings) (source : List Char) : Compilation :=
  match Source.compilation settings source with
  | .ok compilation => compilation
  | .error rejection => .stopped source rejection none

end ThreeAddress
