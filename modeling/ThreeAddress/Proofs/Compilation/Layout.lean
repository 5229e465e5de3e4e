import ThreeAddress.Proofs.Compilation.Locations
import ThreeAddress.Proofs.Scope.Unplaced
import ThreeAddress.Proofs.Syntax.Alike

/-!
# Compilation does not depend on layout

Neither the parser nor the check nor the lowering decides anything by a place. So two texts whose
tokens are of the same kinds, however they are set, compile to the same code, have diagnostics of
the same kinds about the same entities, and declare the same symbols.
-/

namespace ThreeAddress

set_option autoImplicit false

/-! ## Lowering -/

theorem Expr.lower_unplaced (expr : Expr) (next : Nat) :
    expr.unplaced.lower next = expr.lower next := by
  induction expr generalizing next with
  | identifier name place => rfl
  | integer text place => rfl
  | float text place => rfl
  | element array index place ih => simp only [Expr.unplaced, Expr.lower, Ident.unplaced, ih]
  | paren inner place ih => exact ih next
  | negate inner place ih => simp only [Expr.unplaced, Expr.lower, ih]
  | binary op left right place first second =>
      simp only [Expr.unplaced, Expr.lower, first, second]

theorem Cond.lower_unplaced (cond : Cond) (next : Nat) :
    cond.unplaced.lower next = cond.lower next := by
  induction cond generalizing next with
  | compare op position left right place =>
      simp only [Cond.unplaced, Cond.lower, Expr.lower_unplaced]
  | and left right place first second => simp only [Cond.unplaced, Cond.lower, first, second]
  | or left right place first second => simp only [Cond.unplaced, Cond.lower, first, second]
  | not inner place ih => simp only [Cond.unplaced, Cond.lower, ih]
  | paren inner place ih => exact ih next

theorem Expr.lower_into_unplaced (target : String) (value : Expr) (supply : Supply) :
    value.unplaced.lowerInto target supply = value.lowerInto target supply := by
  simp only [Expr.lowerInto, Expr.lower_unplaced]

theorem Stmt.lower_output_unplaced (text : Option String) (names : List Ident) :
    Stmt.lowerOutput text (names.map Ident.unplaced) = Stmt.lowerOutput text names := by
  unfold Stmt.lowerOutput
  rw [List.map_map]
  rfl

mutual

theorem Stmt.lower_unplaced (supply : Supply) (stmt : Stmt) :
    stmt.unplaced.lower supply = stmt.lower supply := by
  cases stmt with
  | scalar name type place => rfl
  | array name element size position place => rfl
  | input target place => rfl
  | output text names place =>
      simp only [Stmt.unplaced, Stmt.lower, Stmt.lower_output_unplaced]
  | constant name type position value place => exact value.lower_into_unplaced name.name supply
  | assign target value place => exact value.lower_into_unplaced target.name supply
  | ifThen condition body place =>
      simp only [Stmt.unplaced, Stmt.lower, Cond.lower_unplaced, Stmt.lower_all_unplaced _ body]
  | ifElse condition body otherwise place =>
      simp only [Stmt.unplaced, Stmt.lower, Cond.lower_unplaced, Stmt.lower_all_unplaced _ body,
        Stmt.lower_all_unplaced _ otherwise]
  | doWhile body condition place =>
      simp only [Stmt.unplaced, Stmt.lower, Cond.lower_unplaced, Stmt.lower_all_unplaced _ body]
  | forLoop counter first last step body place =>
      simp only [Stmt.unplaced, Stmt.lower, Ident.unplaced, Expr.lower_into_unplaced,
        Expr.lower_unplaced, Stmt.lower_all_unplaced _ body]

theorem Stmt.lower_all_unplaced (supply : Supply) (stmts : List Stmt) :
    Stmt.lowerAll supply (Stmt.unplacedAll stmts) = Stmt.lowerAll supply stmts := by
  match stmts with
  | [] => rfl
  | first :: rest =>
      simp only [Stmt.unplacedAll, Stmt.lowerAll, first.lower_unplaced,
        Stmt.lower_all_unplaced _ rest]

end

/-! ## Compilations -/

/-- What a diagnostic says, its message and its place apart. -/
def Diagnostic.gist (diagnostic : Diagnostic) : DiagnosticKind × String :=
  (diagnostic.kind, diagnostic.entity)

/-- The two compilations differ in messages, places and dumps alone. -/
structure Compilation.Alike (first second : Compilation) : Prop where
  code : first.code = second.code
  diagnostics : first.diagnostics.map Diagnostic.gist = second.diagnostics.map Diagnostic.gist
  symbols : first.symbols.map SymbolTable.unplaced = second.symbols.map SymbolTable.unplaced

variable {program twin : Program}

theorem Program.lower_eq_of_unplaced (same : program.unplaced = twin.unplaced) (supply : Supply) :
    program.lower supply = twin.lower supply := by
  calc
    program.lower supply = program.unplaced.lower supply :=
      (Stmt.lower_all_unplaced supply program).symm
    _ = twin.unplaced.lower supply := by rw [same]
    _ = twin.lower supply := Stmt.lower_all_unplaced supply twin

theorem Program.gists_eq_of_unplaced (same : program.unplaced = twin.unplaced) :
    program.check.faults.map Fault.gist = twin.check.faults.map Fault.gist := by
  rw [← program.check_outlines.faults, ← twin.check_outlines.faults, same]

theorem Compilation.of_program_alike (same : program.unplaced = twin.unplaced)
    (tokenDump treeDump otherDump otherTree : Option String) :
    (ofProgram program tokenDump treeDump).Alike (ofProgram twin otherDump otherTree) := by
  have gists := Program.gists_eq_of_unplaced same
  constructor
  · have count : program.check.faults.length = twin.check.faults.length := by
      simpa using congrArg List.length gists
    have empty : program.check.faults.isEmpty = twin.check.faults.isEmpty := by
      simpa using congrArg List.isEmpty gists
    simp only [ofProgram, Program.code, List.isEmpty_map, List.length_map, count, empty,
      Program.lower_eq_of_unplaced same]
  · simp only [ofProgram, List.map_map]
    exact gists
  · have table : program.check.table.unplaced = twin.check.table.unplaced := by
      rw [← program.check_outlines.table, ← twin.check_outlines.table, same]
    simp only [ofProgram, Option.map_some, table]

/-- Two texts whose tokens are of the same kinds compile alike, whatever their layout. -/
theorem compile_layout_free {source other : List Char} {tokens others : List Token}
    (scanned : tokenize source = .ok tokens) (rescanned : tokenize other = .ok others)
    (same : Token.kinds tokens = Token.kinds others) (settings variant : Settings) :
    (compile settings source).Alike (compile variant other) := by
  rcases parse_tokens_alike same with
    ⟨program, twin, parsed, reparsed, alike⟩ | ⟨error, second, failed, refailed, _, kind⟩
  · rw [compile_of_program scanned parsed, compile_of_program rescanned reparsed]
    exact Compilation.of_program_alike alike _ _ _ _
  · rw [compile_of_syntax_error scanned failed, compile_of_syntax_error rescanned refailed]
    refine ⟨rfl, ?_, rfl⟩
    simp only [Compilation.stopped, Rejection.diagnostic?_of_syntax_error scanned failed,
      Rejection.diagnostic?_of_syntax_error rescanned refailed, Option.toList_some, List.map_cons,
      List.map_nil, Diagnostic.gist, kind]

def tightText : List Char :=
  "let k:Int;k:=1/0;".toList

def looseText : List Char :=
  "let k : Int; // one\n\nk := 1\n  / 0;\n".toList

theorem compile_layout_free_loose_text :
    ∃ tokens others, tokenize tightText = .ok tokens ∧ tokenize looseText = .ok others ∧
      Token.kinds tokens = Token.kinds others ∧
      (compile default tightText).Alike (compile default looseText) ∧
      (compile default looseText).diagnostics.map Diagnostic.gist = [(.divisionByZero, "/")] := by
  have same : (tokenize tightText).map Token.kinds = (tokenize looseText).map Token.kinds := by
    decide +kernel
  have scans : (tokenize tightText).isOk = true := by
    decide +kernel
  have told : (compile default looseText).diagnostics.map Diagnostic.gist =
      [(.divisionByZero, "/")] := by
    decide +kernel
  cases tight : tokenize tightText with
  | error bad =>
      rw [tight] at scans
      cases scans
  | ok tokens =>
      cases loose : tokenize looseText with
      | error bad =>
          rw [tight, loose] at same
          cases same
      | ok others =>
          rw [tight, loose] at same
          have kinds := Except.ok.inj same
          exact ⟨tokens, others, rfl, rfl, kinds,
            compile_layout_free tight loose kinds default default, told⟩

end ThreeAddress
