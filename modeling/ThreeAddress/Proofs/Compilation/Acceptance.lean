import ThreeAddress.Proofs.Compilation.Stages
import ThreeAddress.Proofs.Token.Spelling

/-!
# What an accepted text gives

A compilation that succeeds has read a program whose literals are spelled well, the check has found
nothing against it, and its code and its symbols are the code and the symbols of that program.
-/

namespace ThreeAddress

set_option autoImplicit false

/-- The literals of a program are spelled well, and the check finds no fault. -/
structure Program.Accepted (program : Program) : Prop where
  spelled : ∀ kind ∈ program.unparse, kind.Spelled
  faultless : program.check.faults = []

theorem parse_tokens_spelled {source : List Char} {tokens : List Token}
    (scanned : tokenize source = .ok tokens) {program : Program}
    (parsed : parseTokens tokens = .ok program) : ∀ kind ∈ program.unparse, kind.Spelled := by
  obtain ⟨spelled, closed⟩ := tokenize_spelled scanned
  obtain ⟨written, _⟩ := parse_tokens_sound closed parsed
  intro kind member
  have listed : kind ∈ Token.kinds tokens := by
    rw [written]
    exact List.mem_append_left _ member
  obtain ⟨token, present, rfl⟩ := List.mem_map.mp listed
  exact spelled token present

/-- A compilation of a program succeeds only if the program has no faults. -/
theorem Compilation.of_program_succeeded {program : Program} {tokenDump treeDump : Option String}
    (succeeded : (ofProgram program tokenDump treeDump).succeeded = true) :
    program.check.faults = [] := by
  simp only [Compilation.succeeded, ofProgram, Bool.and_eq_true, List.isEmpty_iff,
    List.map_eq_nil_iff] at succeeded
  exact succeeded.1

theorem Compilation.code_of_program {program : Program} (tokenDump treeDump : Option String)
    (faultless : program.check.faults = []) :
    (ofProgram program tokenDump treeDump).code = some (program.lower .fresh).code := by
  simp [ofProgram, Program.code, faultless, Except.toOption]

theorem compile_succeeded {settings : Settings} {source : List Char}
    (succeeded : (compile settings source).succeeded = true) :
    ∃ program, Source.program source = .ok program ∧ program.Accepted ∧
      (compile settings source).code = some (program.lower .fresh).code ∧
      (compile settings source).symbols = some program.check.table := by
  cases scanned : tokenize source with
  | error bad =>
      rw [compile_of_bad_text scanned] at succeeded
      simp [Compilation.stopped, Compilation.succeeded] at succeeded
  | ok tokens =>
      cases parsed : parseTokens tokens with
      | error failure =>
          rw [compile_of_syntax_error scanned parsed] at succeeded
          simp [Compilation.stopped, Compilation.succeeded] at succeeded
      | ok program =>
          rw [compile_of_program scanned parsed] at succeeded ⊢
          have faultless := Compilation.of_program_succeeded succeeded
          exact ⟨program, Source.program_eq_ok_iff.mpr ⟨tokens, scanned, parsed⟩,
            ⟨parse_tokens_spelled scanned parsed, faultless⟩,
            Compilation.code_of_program _ _ faultless, rfl⟩

end ThreeAddress
