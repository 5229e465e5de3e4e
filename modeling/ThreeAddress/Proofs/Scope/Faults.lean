import ThreeAddress.Proofs.Scope.Isolation

/-!
# Where faults are found, and of which kinds

Each check looks for faults of a few kinds only, so what is asked about the other kinds has an
answer without a look inside. Each fault of a program is found at one of its statements, at any
depth.
-/

namespace ThreeAddress

set_option autoImplicit false

namespace Fault

/-- Each of the faults is of one of the kinds. -/
def Among (kinds : List DiagnosticKind) (faults : List Fault) : Prop :=
  ∀ fault ∈ faults, fault.kind ∈ kinds

section

variable {kinds more : List DiagnosticKind} {fault : Fault} {faults front back : List Fault}

@[simp] theorem among_nil : Among kinds [] :=
  List.forall_mem_nil _

@[simp] theorem among_singleton : Among kinds [fault] ↔ fault.kind ∈ kinds :=
  List.forall_mem_singleton

@[simp] theorem among_append : Among kinds (front ++ back) ↔ Among kinds front ∧ Among kinds back :=
  List.forall_mem_append

theorem among_ite {condition : Prop} [Decidable condition] (first : Among kinds front)
    (second : Among kinds back) : Among kinds (if condition then front else back) := by
  split
  · exact first
  · exact second

namespace Among

theorem mono (among : Among kinds faults) (within : kinds ⊆ more) : Among more faults :=
  fun fault found => within (among fault found)

theorem not_mem {kind : DiagnosticKind} (among : Among kinds faults) (named : fault.kind = kind)
    (other : kind ∉ kinds) : fault ∉ faults :=
  fun found => other (named ▸ among fault found)

/-- Nothing is left of the faults where the kinds asked for are others. -/
theorem filter_eq_nil (among : Among kinds faults) {asked : DiagnosticKind → Bool}
    (others : ∀ kind ∈ kinds, asked kind = false) :
    (faults.filter fun fault => asked fault.kind) = [] := by
  rw [List.filter_eq_nil_iff]
  intro fault found
  rw [others fault.kind (among fault found)]
  exact Bool.false_ne_true

end Among

end

def valueKinds : List DiagnosticKind :=
  [.undeclaredIdentifier, .typeMismatch, .divisionByZero]

def targetKinds : List DiagnosticKind :=
  .constantModification :: valueKinds

def declarationKinds : List DiagnosticKind :=
  [.invalidIdentifier, .duplicateDeclaration, .arrayBounds]

end Fault

open Fault

/-! ## The kinds that each check looks for -/

section Values

variable (table : SymbolTable)

theorem SymbolTable.kinds_check_name (name : Ident) :
    Among valueKinds (table.checkName name).faults := by
  unfold checkName
  split
  · simp [Fault.kind, valueKinds]
  · split <;> simp [Fault.kind, valueKinds]

theorem BinaryOp.kinds_check_operand (op : BinaryOp) (operand : Expr) (type : ValueType) :
    Among [.typeMismatch] (op.checkOperand operand type) :=
  among_ite among_nil (by simp [Fault.kind])

theorem BinaryOp.kinds_check_divisor (op : BinaryOp) (right : Expr) :
    Among [.divisionByZero] (op.checkDivisor right) :=
  among_ite (by simp [Fault.kind]) among_nil

theorem Expr.kinds_check (expr : Expr) : Among valueKinds (expr.check table).faults := by
  induction expr with
  | integer | float => exact among_nil
  | identifier name place => exact table.kinds_check_name ⟨name, place⟩
  | paren inner place ih => exact ih
  | element array index place ih =>
      unfold Expr.check
      split
      · simp [Fault.kind, valueKinds]
      · split
        · simp [Fault.kind, valueKinds]
        · exact among_append.mpr
            ⟨ih, among_ite among_nil (by simp [Fault.kind, valueKinds])⟩
  | negate inner place ih =>
      simp only [Expr.check]
      split
      · exact ih
      · exact among_append.mpr ⟨ih, by simp [Fault.kind, valueKinds]⟩
  | binary op left right place first second =>
      simp only [Expr.check, among_append]
      exact ⟨⟨⟨⟨first, second⟩, (op.kinds_check_operand left _).mono (by decide)⟩,
        (op.kinds_check_operand right _).mono (by decide)⟩,
        (op.kinds_check_divisor right).mono (by decide)⟩

theorem Cond.kinds_check (cond : Cond) : Among valueKinds (cond.check table) := by
  induction cond with
  | compare op position left right place =>
      simp only [Cond.check, among_append]
      exact ⟨⟨left.kinds_check table, right.kinds_check table⟩,
        among_ite among_nil (by simp [Fault.kind, valueKinds])⟩
  | and left right place first second | or left right place first second =>
      exact among_append.mpr ⟨first, second⟩
  | not inner place ih | paren inner place ih => exact ih

end Values

namespace SymbolTable

variable (table : SymbolTable)

theorem kinds_refusal {name : Ident} {fault : Fault} (refused : table.refusal? name = some fault) :
    Among declarationKinds [fault] := by
  unfold refusal? at refused
  split at refused
  · cases refused
    simp [Fault.kind, declarationKinds]
  · obtain ⟨symbol, _, rfl⟩ := Option.map_eq_some_iff.mp refused
    simp [Fault.kind, declarationKinds]

theorem kinds_register (name : Ident) (symbol : Symbol) :
    Among declarationKinds (table.register name symbol).faults := by
  unfold register
  split
  · exact among_nil
  · simp [Fault.kind, declarationKinds]

theorem kinds_introduce (name : Ident) (symbol : Symbol) :
    Among declarationKinds (table.introduce name symbol).faults := by
  unfold introduce
  split
  · exact table.kinds_refusal ‹_›
  · exact table.kinds_register name symbol

theorem kinds_check_array (name : Ident) (element : DataType) (size : String)
    (position : Position) :
    Among declarationKinds (table.checkArray name element size position).faults := by
  unfold checkArray
  split
  · exact table.kinds_refusal ‹_›
  · split
    · simp [Fault.kind, declarationKinds]
    · exact table.kinds_register name _

theorem kinds_check_assign (target : Ident) (value : Expr) :
    Among targetKinds (table.checkAssign target value) := by
  unfold checkAssign
  split
  · simp [Fault.kind, targetKinds, valueKinds]
  · simp only [among_append]
    exact ⟨⟨among_ite (by simp [Fault.kind, targetKinds]) among_nil,
      (value.kinds_check table).mono (List.subset_cons_self _ _)⟩,
      among_ite among_nil (by simp [Fault.kind, targetKinds, valueKinds])⟩

theorem kinds_check_counter (counter : Ident) : Among targetKinds (table.checkCounter counter) := by
  unfold checkCounter
  split
  · simp [Fault.kind, targetKinds, valueKinds]
  · exact among_append.mpr ⟨among_ite (by simp [Fault.kind, targetKinds]) among_nil,
      among_ite among_nil (by simp [Fault.kind, targetKinds, valueKinds])⟩

theorem kinds_check_bound (counter : Ident) (bound : Expr) :
    Among valueKinds (table.checkBound counter bound) :=
  among_append.mpr ⟨bound.kinds_check table,
    among_ite among_nil (by simp [Fault.kind, valueKinds])⟩

theorem kinds_check_input (target : Ident) :
    Among [.undeclaredIdentifier, .constantModification] (table.checkInput target) := by
  unfold checkInput
  split
  · simp [Fault.kind]
  · exact among_ite (by simp [Fault.kind]) among_nil

theorem kinds_check_output (names : List Ident) :
    Among [.undeclaredIdentifier] (names.flatMap table.checkOutput) := by
  intro fault found
  obtain ⟨name, _, told⟩ := List.mem_flatMap.mp found
  unfold checkOutput at told
  split at told
  · cases List.mem_singleton.mp told
    exact List.mem_singleton_self _
  · cases told

end SymbolTable

/-! ## Each fault is found at one statement -/

/-- What is found in a statement itself, not in its blocks. -/
def Stmt.ownFaults (table : SymbolTable) : Stmt → List Fault
  | .ifThen condition _ _ | .ifElse condition _ _ _ => condition.check table
  | .doWhile body condition _ => condition.check (Stmt.checkAll table.enter body).table
  | .forLoop counter first last step _ _ =>
      table.enter.checkCounter counter ++ table.enter.checkBound counter first ++
        table.enter.checkBound counter last ++ table.enter.checkBound counter step
  | stmt => (stmt.check table).faults

theorem Stmt.own_faults_subset (table : SymbolTable) (stmt : Stmt) :
    stmt.ownFaults table ⊆ (stmt.check table).faults := by
  cases stmt with
  | ifThen condition body place => exact List.subset_append_left _ _
  | ifElse condition body otherwise place =>
      exact List.subset_append_of_subset_left _ (List.subset_append_left _ _)
  | doWhile body condition place => exact List.subset_append_right _ _
  | forLoop counter first last step body place => exact List.subset_append_left _ _
  | scalar | array | constant | assign | input | output => exact List.Subset.refl _

namespace Surroundings

def behind (first : Stmt) : Surroundings → Surroundings
  | .flat before rest => .flat (first :: before) rest
  | .nested before shell block rest => .nested (first :: before) shell block rest

@[simp] theorem plug_behind (around : Surroundings) (first stmt : Stmt) :
    (around.behind first).plug stmt = first :: around.plug stmt := by
  cases around <;> rfl

@[simp] theorem entry_behind (around : Surroundings) (first : Stmt) (table : SymbolTable) :
    (around.behind first).entry table = around.entry (first.check table).table := by
  cases around <;> rfl

end Surroundings

/-- The fault is found at a statement of the list, at any depth. -/
def Fault.SitedIn (fault : Fault) (table : SymbolTable) (stmts : List Stmt) : Prop :=
  ∃ (around : Surroundings) (stmt : Stmt),
    stmts = around.plug stmt ∧ fault ∈ stmt.ownFaults (around.entry table)

mutual

theorem Stmt.sited_in_of_mem_check (stmt : Stmt) {table : SymbolTable} {fault : Fault}
    (found : fault ∈ (stmt.check table).faults) :
    fault ∈ stmt.ownFaults table ∨ ∃ (shell : Shell) (block : List Stmt),
      stmt = shell.fill block ∧ fault.SitedIn (shell.entry table) block := by
  match stmt with
  | .scalar .. | .array .. | .constant .. | .assign .. | .input .. | .output .. =>
      exact .inl found
  | .ifThen condition body place =>
      rcases List.mem_append.mp found with own | inside
      · exact .inl own
      · exact .inr ⟨.ifThen condition place, body, rfl, Stmt.sited_in_of_mem_check_all body inside⟩
  | .ifElse condition body otherwise place =>
      rcases List.mem_append.mp found with front | other
      · rcases List.mem_append.mp front with own | inside
        · exact .inl own
        · exact .inr ⟨.thenPart condition otherwise place, body, rfl,
            Stmt.sited_in_of_mem_check_all body inside⟩
      · exact .inr ⟨.elsePart condition body place, otherwise, rfl,
          Stmt.sited_in_of_mem_check_all otherwise other⟩
  | .doWhile body condition place =>
      rcases List.mem_append.mp found with inside | own
      · exact .inr ⟨.doWhile condition place, body, rfl, Stmt.sited_in_of_mem_check_all body inside⟩
      · exact .inl own
  | .forLoop counter first last step body place =>
      rcases List.mem_append.mp found with own | inside
      · exact .inl own
      · exact .inr ⟨.forLoop counter first last step place, body, rfl,
          Stmt.sited_in_of_mem_check_all body inside⟩

theorem Stmt.sited_in_of_mem_check_all (stmts : List Stmt) {table : SymbolTable} {fault : Fault}
    (found : fault ∈ (Stmt.checkAll table stmts).faults) : fault.SitedIn table stmts := by
  match stmts with
  | [] => cases found
  | first :: rest =>
      rcases List.mem_append.mp found with here | later
      · rcases Stmt.sited_in_of_mem_check first here with own | ⟨shell, block, whole, inside⟩
        · exact ⟨.flat [] rest, first, rfl, own⟩
        · obtain ⟨around, stmt, plugged, site⟩ := inside
          refine ⟨.nested [] shell around rest, stmt, ?_, site⟩
          rw [whole, plugged]
          rfl
      · obtain ⟨around, stmt, plugged, site⟩ := Stmt.sited_in_of_mem_check_all rest later
        refine ⟨around.behind first, stmt, ?_, ?_⟩
        · rw [Surroundings.plug_behind, plugged]
        · rw [Surroundings.entry_behind]
          exact site

end

/-- The faults of statements are those that are found at one of them, at any depth. -/
theorem Stmt.mem_faults_check_all_iff (stmts : List Stmt) (table : SymbolTable) (fault : Fault) :
    fault ∈ (Stmt.checkAll table stmts).faults ↔ fault.SitedIn table stmts := by
  constructor
  · exact Stmt.sited_in_of_mem_check_all stmts
  · rintro ⟨around, stmt, rfl, site⟩
    rw [around.faults_check_all_plug]
    exact List.mem_append_left _ (List.mem_append_right _ (stmt.own_faults_subset _ site))

end ThreeAddress
