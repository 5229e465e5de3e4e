import ThreeAddress.Proofs.Compilation.Acceptance
import ThreeAddress.Proofs.Compilation.Stages

/-!
# The gates of a compilation

A compilation passes three gates. The parser lets a program through or ends everything with one
diagnostic; the check lets a program through or ends with its faults; what passes both has code.
The settings decide about the dumps and nothing else.
-/

namespace ThreeAddress

set_option autoImplicit false

/-- The kind of a diagnostic that only a parsed program can have. -/
def DiagnosticKind.isSemantic : DiagnosticKind → Bool
  | .lexical | .syntactic => false
  | .undeclaredIdentifier | .duplicateDeclaration | .invalidIdentifier | .typeMismatch
  | .arrayBounds | .constantModification | .divisionByZero => true

inductive Ending where
  | rejected
  | faulty
  | generated
deriving DecidableEq

/-- What a compilation holds that ended so. -/
def Compilation.EndsIn (source : List Char) (compilation : Compilation) : Ending → Prop
  | .rejected => ∃ rejection diagnostic, Source.program source = .error rejection ∧
      rejection.diagnostic? source = some diagnostic ∧ compilation.diagnostics = [diagnostic] ∧
      diagnostic.kind.isSemantic = false ∧ compilation.symbols = none ∧ compilation.code = none
  | .faulty => ∃ program, Source.program source = .ok program ∧ compilation.diagnostics ≠ [] ∧
      (∀ diagnostic ∈ compilation.diagnostics, diagnostic.kind.isSemantic = true) ∧
      compilation.symbols = some program.check.table ∧ compilation.code = none
  | .generated => ∃ program, Source.program source = .ok program ∧ compilation.diagnostics = [] ∧
      compilation.symbols = some program.check.table ∧
      compilation.code = some (program.lower .fresh).code

section Endings

variable {source : List Char}

/-- No compilation ends in two ways. -/
theorem Compilation.EndsIn.unique {compilation : Compilation} {first second : Ending}
    (one : compilation.EndsIn source first) (other : compilation.EndsIn source second) :
    first = second := by
  cases first with
  | rejected =>
      obtain ⟨rejection, _, failed, _⟩ := one
      cases second with
      | rejected => rfl
      | faulty =>
          obtain ⟨program, parsed, _⟩ := other
          cases failed.symm.trans parsed
      | generated =>
          obtain ⟨program, parsed, _⟩ := other
          cases failed.symm.trans parsed
  | faulty =>
      obtain ⟨program, parsed, faults, _⟩ := one
      cases second with
      | rejected =>
          obtain ⟨rejection, _, failed, _⟩ := other
          cases failed.symm.trans parsed
      | faulty => rfl
      | generated =>
          obtain ⟨_, _, none, _⟩ := other
          exact absurd none faults
  | generated =>
      obtain ⟨program, parsed, none, _⟩ := one
      cases second with
      | rejected =>
          obtain ⟨rejection, _, failed, _⟩ := other
          cases failed.symm.trans parsed
      | faulty =>
          obtain ⟨_, _, faults, _⟩ := other
          exact absurd none faults
      | generated => rfl

theorem Fault.kind_is_semantic (fault : Fault) : fault.kind.isSemantic = true := by
  cases fault <;> rfl

/-- A parsed program has faults and no code, or code and no faults. -/
theorem Compilation.of_program_ends_in {program : Program}
    (parsed : Source.program source = .ok program) (tokenDump treeDump : Option String) :
    ∃ ending, (ofProgram program tokenDump treeDump).EndsIn source ending := by
  by_cases faultless : program.check.faults = []
  · refine ⟨.generated, program, parsed, ?_, rfl, code_of_program _ _ faultless⟩
    simp only [ofProgram, faultless, List.map_nil]
  · refine ⟨.faulty, program, parsed, ?_, ?_, rfl, ?_⟩
    · simpa only [ofProgram, ne_eq, List.map_eq_nil_iff] using faultless
    · intro diagnostic member
      obtain ⟨fault, _, rfl⟩ := List.mem_map.mp member
      exact fault.kind_is_semantic
    · simp [ofProgram, Program.code, faultless, Except.toOption]

theorem compile_ends_in (settings : Settings) (source : List Char) :
    ∃ ending, (compile settings source).EndsIn source ending := by
  cases scanned : tokenize source with
  | error bad =>
      rw [compile_of_bad_text scanned]
      exact ⟨.rejected, _, _, Source.program_of_bad_text scanned, rfl, rfl, rfl, rfl, rfl⟩
  | ok tokens =>
      cases parsed : parseTokens tokens with
      | error error =>
          rw [compile_of_syntax_error scanned parsed]
          exact ⟨.rejected, _, _, Source.program_of_syntax_error scanned parsed, rfl, rfl, rfl,
            rfl, rfl⟩
      | ok program =>
          rw [compile_of_program scanned parsed]
          exact Compilation.of_program_ends_in
            (Source.program_eq_ok_iff.mpr ⟨tokens, scanned, parsed⟩) _ _

end Endings

/-! ## Settings -/

/-- The settings do not reach what a compilation is about. -/
theorem compile_settings_free (settings variant : Settings) (source : List Char) :
    (compile settings source).diagnostics = (compile variant source).diagnostics ∧
      (compile settings source).symbols = (compile variant source).symbols ∧
      (compile settings source).code = (compile variant source).code := by
  cases scanned : tokenize source with
  | error bad =>
      rw [compile_of_bad_text scanned, compile_of_bad_text scanned]
      exact ⟨rfl, rfl, rfl⟩
  | ok tokens =>
      cases parsed : parseTokens tokens with
      | error error =>
          rw [compile_of_syntax_error scanned parsed, compile_of_syntax_error scanned parsed]
          exact ⟨rfl, rfl, rfl⟩
      | ok program =>
          rw [compile_of_program scanned parsed, compile_of_program scanned parsed]
          exact ⟨rfl, rfl, rfl⟩

/-- The tokens are dumped if that is asked for and they could be read. -/
theorem compile_token_dump_iff (settings : Settings) (source : List Char) (dump : String) :
    (compile settings source).tokenDump = some dump ↔
      settings.dumpTokens = true ∧
        ∃ tokens, Source.tokens source = .ok tokens ∧ Token.dumpAll tokens = dump := by
  cases scanned : tokenize source with
  | error bad =>
      rw [compile_of_bad_text scanned, Source.tokens_of_error scanned]
      simp [Compilation.stopped]
  | ok tokens =>
      have dumped : (compile settings source).tokenDump = settings.tokenDump tokens := by
        cases parsed : parseTokens tokens with
        | error error => rw [compile_of_syntax_error scanned parsed, Compilation.stopped]
        | ok program => rw [compile_of_program scanned parsed, Compilation.ofProgram]
      rw [dumped, Source.tokens_eq_ok_iff.mpr scanned, Settings.tokenDump]
      simp

/-- The tree is dumped if that is asked for and there is one. -/
theorem compile_tree_dump_iff (settings : Settings) (source : List Char) (dump : String) :
    (compile settings source).treeDump = some dump ↔
      settings.dumpTree = true ∧
        ∃ program, Source.program source = .ok program ∧ program.dump = dump := by
  cases scanned : tokenize source with
  | error bad =>
      rw [compile_of_bad_text scanned, Source.program_of_bad_text scanned]
      simp [Compilation.stopped]
  | ok tokens =>
      cases parsed : parseTokens tokens with
      | error error =>
          rw [compile_of_syntax_error scanned parsed, Source.program_of_syntax_error scanned parsed]
          simp [Compilation.stopped]
      | ok program =>
          rw [compile_of_program scanned parsed,
            Source.program_eq_ok_iff.mpr ⟨tokens, scanned, parsed⟩, Compilation.ofProgram,
            Settings.treeDump]
          simp

/-- A compilation never fails. It ends in exactly one way, with the same diagnostics, symbols and
code whatever the settings are, and it dumps what they ask for as far as it gets. -/
theorem compilation_gated (source : List Char) :
    ∃ diagnostics symbols code, ∀ settings : Settings, ∃ compilation,
      Source.compilation settings source = .ok compilation ∧
      compilation.diagnostics = diagnostics ∧ compilation.symbols = symbols ∧
      compilation.code = code ∧
      (∃! ending, compilation.EndsIn source ending) ∧
      (∀ dump, compilation.tokenDump = some dump ↔ settings.dumpTokens = true ∧
        ∃ tokens, Source.tokens source = .ok tokens ∧ Token.dumpAll tokens = dump) ∧
      (∀ dump, compilation.treeDump = some dump ↔ settings.dumpTree = true ∧
        ∃ program, Source.program source = .ok program ∧ program.dump = dump) := by
  refine ⟨(compile default source).diagnostics, (compile default source).symbols,
    (compile default source).code, ?_⟩
  intro settings
  obtain ⟨diagnostics, symbols, code⟩ := compile_settings_free settings default source
  obtain ⟨ending, ends⟩ := compile_ends_in settings source
  refine ⟨compile settings source, Source.compilation_eq settings source, diagnostics, symbols,
    code, ⟨ending, ends, ?_⟩, compile_token_dump_iff settings source,
    compile_tree_dump_iff settings source⟩
  intro other also
  exact also.unique ends

end ThreeAddress
