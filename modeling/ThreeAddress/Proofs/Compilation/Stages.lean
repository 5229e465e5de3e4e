import ThreeAddress.Compilation

/-!
# Where a compilation ends

A compilation ends with bad text, with a wrong token or with a program, and each of these decides
all that it gives. No rejection on the way lacks a diagnostic, so a compilation never fails.
-/

namespace ThreeAddress

set_option autoImplicit false

variable {source : List Char} {tokens : List Token} {program : Program}

def Settings.tokenDump (settings : Settings) (tokens : List Token) : Option String :=
  if settings.dumpTokens then some (Token.dumpAll tokens) else none

def Settings.treeDump (settings : Settings) (program : Program) : Option String :=
  if settings.dumpTree then some program.dump else none

namespace Source

theorem tokens_eq_ok_iff : Source.tokens source = .ok tokens ↔ tokenize source = .ok tokens := by
  rw [Source.tokens]
  cases tokenize source with
  | error bad =>
      constructor
      · intro listed
        cases listed
      · intro scanned
        cases scanned
  | ok found =>
      constructor
      · intro listed
        cases listed
        rfl
      · intro scanned
        cases scanned
        rfl

theorem tokens_of_error {bad : BadText} (failed : tokenize source = .error bad) :
    Source.tokens source = .error (.ofBadText bad) := by
  rw [Source.tokens, failed]
  rfl

theorem program_of_bad_text {bad : BadText} (failed : tokenize source = .error bad) :
    Source.program source = .error (.ofBadText bad) := by
  rw [Source.program, tokens_of_error failed]
  rfl

theorem program_of_tokens (scanned : tokenize source = .ok tokens) :
    Source.program source = (parseTokens tokens).mapError .ofSyntaxError := by
  rw [Source.program, tokens_eq_ok_iff.mpr scanned]
  rfl

theorem program_of_syntax_error {error : SyntaxError} (scanned : tokenize source = .ok tokens)
    (failed : parseTokens tokens = .error error) :
    Source.program source = .error (.ofSyntaxError error) := by
  rw [program_of_tokens scanned, failed]
  rfl

theorem program_eq_ok_iff :
    Source.program source = .ok program ↔
      ∃ tokens, tokenize source = .ok tokens ∧ parseTokens tokens = .ok program := by
  cases scanned : tokenize source with
  | error bad => simp [program_of_bad_text scanned]
  | ok found =>
      cases parsed : parseTokens found with
      | error failure => simp [program_of_syntax_error scanned parsed, parsed]
      | ok read =>
          have done : Source.program source = .ok read := by
            rw [program_of_tokens scanned, parsed]
            rfl
          simp [done, parsed]

theorem compilation_of_bad_text {bad : BadText} (failed : tokenize source = .error bad)
    (settings : Settings) :
    Source.compilation settings source = .ok (.stopped source (.ofBadText bad) none) := by
  rw [Source.compilation, tokens_of_error failed]
  rfl

theorem compilation_of_syntax_error {error : SyntaxError} (scanned : tokenize source = .ok tokens)
    (failed : parseTokens tokens = .error error) (settings : Settings) :
    Source.compilation settings source =
      .ok (.stopped source (.ofSyntaxError error) (settings.tokenDump tokens)) := by
  rw [Source.compilation, tokens_eq_ok_iff.mpr scanned]
  simp only [failed]
  rfl

theorem compilation_of_program (scanned : tokenize source = .ok tokens)
    (parsed : parseTokens tokens = .ok program) (settings : Settings) :
    Source.compilation settings source =
      .ok (.ofProgram program (settings.tokenDump tokens) (settings.treeDump program)) := by
  rw [Source.compilation, tokens_eq_ok_iff.mpr scanned]
  simp only [parsed]
  rfl

/-- A rejection of a text has a place, so a compilation never fails. -/
theorem compilation_eq (settings : Settings) (source : List Char) :
    Source.compilation settings source = .ok (compile settings source) := by
  rw [compile]
  cases scanned : tokenize source with
  | error bad => rw [compilation_of_bad_text scanned]
  | ok tokens =>
      cases parsed : parseTokens tokens with
      | error failure => rw [compilation_of_syntax_error scanned parsed]
      | ok program => rw [compilation_of_program scanned parsed]

end Source

theorem compile_of_bad_text {bad : BadText} (failed : tokenize source = .error bad)
    (settings : Settings) :
    compile settings source = .stopped source (.ofBadText bad) none := by
  rw [compile, Source.compilation_of_bad_text failed]

theorem compile_of_syntax_error {error : SyntaxError} (scanned : tokenize source = .ok tokens)
    (failed : parseTokens tokens = .error error) (settings : Settings) :
    compile settings source =
      .stopped source (.ofSyntaxError error) (settings.tokenDump tokens) := by
  rw [compile, Source.compilation_of_syntax_error scanned failed]

theorem compile_of_program (scanned : tokenize source = .ok tokens)
    (parsed : parseTokens tokens = .ok program) (settings : Settings) :
    compile settings source =
      .ofProgram program (settings.tokenDump tokens) (settings.treeDump program) := by
  rw [compile, Source.compilation_of_program scanned parsed]

end ThreeAddress
