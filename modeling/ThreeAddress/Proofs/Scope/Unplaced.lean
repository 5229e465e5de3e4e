import ThreeAddress.Check.Statement
import ThreeAddress.Proofs.Syntax.Unparse

/-!
# Checking does not look at places

The check of a tree without places, from a table without places, ends in the table that the check
of the tree ends in, without its places, and finds faults of the same kinds about the same
entities. So where something stands decides only where its faults are told.
-/

namespace ThreeAddress

set_option autoImplicit false

def Symbol.unplaced (symbol : Symbol) : Symbol :=
  { symbol with declaredAt := default }

def Declaration.unplaced (declaration : Declaration) : Declaration :=
  { declaration with symbol := declaration.symbol.unplaced }

def SymbolTable.unplaced (table : SymbolTable) : SymbolTable :=
  ⟨table.inner.map (List.map Symbol.unplaced), table.global.map Symbol.unplaced,
    table.log.map Declaration.unplaced⟩

/-- What a fault says, its message and its place apart. -/
def Fault.gist (fault : Fault) : DiagnosticKind × String :=
  (fault.kind, fault.entity)

namespace SymbolTable

theorem find?_unplaced_frame (frame : Frame) (name : String) :
    Frame.find? (frame.map Symbol.unplaced) name = (frame.find? name).map Symbol.unplaced := by
  unfold Frame.find?
  rw [List.find?_map]
  rfl

@[simp] theorem frames_unplaced (table : SymbolTable) :
    table.unplaced.frames = table.frames.map (List.map Symbol.unplaced) := by
  simp [frames, unplaced]

theorem top_unplaced (table : SymbolTable) :
    table.unplaced.top = table.top.map Symbol.unplaced := by
  unfold top unplaced
  cases table.inner with
  | nil => rfl
  | cons frame outer => rfl

@[simp] theorem find_here?_unplaced (table : SymbolTable) (name : String) :
    table.unplaced.findHere? name = (table.findHere? name).map Symbol.unplaced := by
  rw [findHere?, top_unplaced, find?_unplaced_frame, findHere?]

@[simp] theorem find?_unplaced (table : SymbolTable) (name : String) :
    table.unplaced.find? name = (table.find? name).map Symbol.unplaced := by
  rw [find?, frames_unplaced, List.findSome?_map, find?, List.map_findSome?]
  congr 1
  funext frame
  exact find?_unplaced_frame frame name

theorem enter_unplaced (table : SymbolTable) : table.unplaced.enter = table.enter.unplaced := rfl

theorem leave_unplaced (table : SymbolTable) : table.unplaced.leave = table.leave.unplaced := by
  simp [leave, unplaced]

theorem push_unplaced (table : SymbolTable) (symbol : Symbol) :
    table.unplaced.push symbol.unplaced = (table.push symbol).unplaced := by
  unfold push unplaced
  cases table.inner with
  | nil => rfl
  | cons frame outer => rfl

theorem declare_unplaced (table : SymbolTable) (symbol : Symbol) :
    table.unplaced.declare symbol.unplaced = (table.declare symbol).map unplaced := by
  have depth : table.unplaced.depth = table.depth := by simp [SymbolTable.depth, unplaced]
  have named : symbol.unplaced.name = symbol.name := rfl
  rw [declare, declare, named, find_here?_unplaced, push_unplaced, depth]
  cases table.findHere? symbol.name with
  | none => rfl
  | some _ => rfl

end SymbolTable

/-! ## Expressions and conditions -/

theorem Expr.is_zero_unplaced (expr : Expr) : expr.unplaced.isZero = expr.isZero := by
  cases expr <;> rfl

theorem SymbolTable.check_name_unplaced (table : SymbolTable) (name : Ident) :
    (table.unplaced.checkName name.unplaced).type = (table.checkName name).type ∧
      (table.unplaced.checkName name.unplaced).faults.map Fault.gist =
        (table.checkName name).faults.map Fault.gist := by
  unfold checkName Ident.unplaced
  rw [find?_unplaced]
  cases table.find? name.name with
  | none => exact ⟨rfl, rfl⟩
  | some symbol =>
      simp only [Option.map_some, Symbol.unplaced]
      split
      · exact ⟨rfl, rfl⟩
      · exact ⟨rfl, rfl⟩

theorem BinaryOp.check_operand_unplaced (op : BinaryOp) (operand : Expr) (type : ValueType) :
    (op.checkOperand operand.unplaced type).map Fault.gist =
      (op.checkOperand operand type).map Fault.gist := by
  unfold BinaryOp.checkOperand
  split
  · rfl
  · rfl

theorem BinaryOp.check_divisor_unplaced (op : BinaryOp) (right : Expr) :
    (op.checkDivisor right.unplaced).map Fault.gist = (op.checkDivisor right).map Fault.gist := by
  unfold BinaryOp.checkDivisor
  rw [Expr.is_zero_unplaced]
  split
  · rfl
  · rfl

theorem Expr.check_unplaced (table : SymbolTable) (expr : Expr) :
    (expr.unplaced.check table.unplaced).type = (expr.check table).type ∧
      (expr.unplaced.check table.unplaced).faults.map Fault.gist =
        (expr.check table).faults.map Fault.gist := by
  induction expr with
  | integer text place => exact ⟨rfl, rfl⟩
  | float text place => exact ⟨rfl, rfl⟩
  | identifier name place => exact table.check_name_unplaced ⟨name, place⟩
  | paren inner place ih => exact ih
  | element array index place ih =>
      obtain ⟨type, faults⟩ := ih
      simp only [Expr.unplaced, Expr.check, Ident.unplaced, SymbolTable.find?_unplaced]
      cases table.find? array.name with
      | none => exact ⟨rfl, rfl⟩
      | some symbol =>
          simp only [Option.map_some, Symbol.unplaced]
          cases symbol.type.element? with
          | none => exact ⟨rfl, rfl⟩
          | some element =>
              refine ⟨rfl, ?_⟩
              simp only [List.map_append, faults, type]
              split
              · rfl
              · rfl
  | negate inner place ih =>
      obtain ⟨type, faults⟩ := ih
      simp only [Expr.unplaced, Expr.check, type]
      split
      · exact ⟨type, faults⟩
      · exact ⟨rfl, by simp only [List.map_append, faults]; rfl⟩
  | binary op left right place first second =>
      obtain ⟨leftType, leftFaults⟩ := first
      obtain ⟨rightType, rightFaults⟩ := second
      simp only [Expr.unplaced, Expr.check, leftType, rightType, List.map_append, leftFaults,
        rightFaults, BinaryOp.check_operand_unplaced, BinaryOp.check_divisor_unplaced, and_self]

theorem Cond.check_unplaced (table : SymbolTable) (cond : Cond) :
    (cond.unplaced.check table.unplaced).map Fault.gist =
      (cond.check table).map Fault.gist := by
  induction cond with
  | compare op position left right place =>
      obtain ⟨leftType, leftFaults⟩ := left.check_unplaced table
      obtain ⟨rightType, rightFaults⟩ := right.check_unplaced table
      simp only [Cond.unplaced, Cond.check, leftType, rightType, List.map_append, leftFaults,
        rightFaults]
      split
      · rfl
      · rfl
  | and left right place first second =>
      simp only [Cond.unplaced, Cond.check, List.map_append, first, second]
  | or left right place first second =>
      simp only [Cond.unplaced, Cond.check, List.map_append, first, second]
  | not inner place ih => exact ih
  | paren inner place ih => exact ih

/-! ## Statements -/

/-- The first outcome is the second one without places, as far as faults have a gist. -/
structure Outcome.Outlines (outline outcome : Outcome) : Prop where
  table : outline.table = outcome.table.unplaced
  faults : outline.faults.map Fault.gist = outcome.faults.map Fault.gist

namespace SymbolTable

variable (table : SymbolTable)

theorem refusal?_unplaced (name : Ident) :
    (table.unplaced.refusal? name.unplaced).map Fault.gist =
      (table.refusal? name).map Fault.gist := by
  unfold refusal? Ident.unplaced
  rw [find_here?_unplaced]
  cases Name.fault? name.name.toList with
  | some fault => rfl
  | none =>
      cases table.findHere? name.name with
      | none => rfl
      | some symbol => rfl

theorem register_outlines (name : Ident) (symbol : Symbol) :
    (table.unplaced.register name.unplaced symbol.unplaced).Outlines
      (table.register name symbol) := by
  unfold register
  rw [declare_unplaced]
  cases table.declare symbol with
  | ok after => exact ⟨rfl, rfl⟩
  | error clash => exact ⟨rfl, rfl⟩

theorem introduce_outlines (name : Ident) (symbol : Symbol) :
    (table.unplaced.introduce name.unplaced symbol.unplaced).Outlines
      (table.introduce name symbol) := by
  have refused := table.refusal?_unplaced name
  unfold introduce
  cases shape : table.refusal? name with
  | none =>
      rw [shape, Option.map_none, Option.map_eq_none_iff] at refused
      rw [refused]
      exact table.register_outlines name symbol
  | some fault =>
      rw [shape, Option.map_some, Option.map_eq_some_iff] at refused
      obtain ⟨other, found, same⟩ := refused
      rw [found]
      exact ⟨rfl, congrArg (· :: []) same⟩

theorem check_array_outlines (name : Ident) (element : DataType) (size : String)
    (sizePosition : Position) :
    (table.unplaced.checkArray name.unplaced element size default).Outlines
      (table.checkArray name element size sizePosition) := by
  have refused := table.refusal?_unplaced name
  unfold checkArray
  cases shape : table.refusal? name with
  | none =>
      rw [shape, Option.map_none, Option.map_eq_none_iff] at refused
      rw [refused]
      cases Size.positive? size.toList with
      | none => exact ⟨rfl, rfl⟩
      | some count =>
          exact table.register_outlines name
            (.array name.name (.array element) count name.place.position)
  | some fault =>
      rw [shape, Option.map_some, Option.map_eq_some_iff] at refused
      obtain ⟨other, found, same⟩ := refused
      rw [found]
      exact ⟨rfl, congrArg (· :: []) same⟩

theorem check_constant_outlines (name : Ident) (type : DataType) (typePosition : Position)
    (value : Expr) :
    (table.unplaced.checkConstant name.unplaced type default value.unplaced).Outlines
      (table.checkConstant name type typePosition value) := by
  obtain ⟨found, faults⟩ := value.check_unplaced table
  obtain ⟨after, rest⟩ :=
    table.introduce_outlines name (.constant name.name (.scalar type) name.place.position)
  refine ⟨after, ?_⟩
  simp only [checkConstant, List.map_append, faults, found]
  congr 1
  · split
    · rfl
    · rfl

theorem check_assign_unplaced (target : Ident) (value : Expr) :
    (table.unplaced.checkAssign target.unplaced value.unplaced).map Fault.gist =
      (table.checkAssign target value).map Fault.gist := by
  obtain ⟨found, faults⟩ := value.check_unplaced table
  simp only [checkAssign, Ident.unplaced, find?_unplaced]
  cases table.find? target.name with
  | none => rfl
  | some symbol =>
      simp only [Option.map_some, Symbol.unplaced, found, List.map_append, faults]
      congr 1
      · congr 1
        split
        · rfl
        · rfl
      · split
        · rfl
        · rfl

theorem check_counter_unplaced (counter : Ident) :
    (table.unplaced.checkCounter counter.unplaced).map Fault.gist =
      (table.checkCounter counter).map Fault.gist := by
  simp only [checkCounter, Ident.unplaced, find?_unplaced]
  cases table.find? counter.name with
  | none => rfl
  | some symbol =>
      simp only [Option.map_some, Symbol.unplaced, List.map_append]
      congr 1
      · split
        · rfl
        · rfl
      · split
        · rfl
        · rfl

theorem check_bound_unplaced (counter : Ident) (bound : Expr) :
    (table.unplaced.checkBound counter.unplaced bound.unplaced).map Fault.gist =
      (table.checkBound counter bound).map Fault.gist := by
  obtain ⟨found, faults⟩ := bound.check_unplaced table
  simp only [checkBound, found, List.map_append, faults]
  split
  · rfl
  · rfl

theorem check_input_unplaced (target : Ident) :
    (table.unplaced.checkInput target.unplaced).map Fault.gist =
      (table.checkInput target).map Fault.gist := by
  simp only [checkInput, Ident.unplaced, find?_unplaced]
  cases table.find? target.name with
  | none => rfl
  | some symbol =>
      simp only [Option.map_some, Symbol.unplaced]
      split
      · rfl
      · rfl

theorem check_output_unplaced (name : Ident) :
    (table.unplaced.checkOutput name.unplaced).map Fault.gist =
      (table.checkOutput name).map Fault.gist := by
  simp only [checkOutput, Ident.unplaced, find?_unplaced]
  cases table.find? name.name with
  | none => rfl
  | some symbol => rfl

end SymbolTable

mutual

theorem Stmt.check_outlines (table : SymbolTable) (stmt : Stmt) :
    (stmt.unplaced.check table.unplaced).Outlines (stmt.check table) := by
  cases stmt with
  | scalar name type place =>
      exact table.introduce_outlines name (.scalar name.name (.scalar type) name.place.position)
  | array name element size position place =>
      exact table.check_array_outlines name element size position
  | constant name type position value place =>
      exact table.check_constant_outlines name type position value
  | assign target value place => exact ⟨rfl, table.check_assign_unplaced target value⟩
  | ifThen condition body place =>
      obtain ⟨after, faults⟩ := Stmt.check_all_outlines table.enter body
      constructor
      · simp only [Stmt.unplaced, Stmt.check, SymbolTable.enter_unplaced, after,
          SymbolTable.leave_unplaced]
      · simp only [Stmt.unplaced, Stmt.check, SymbolTable.enter_unplaced, List.map_append,
          condition.check_unplaced, faults]
  | ifElse condition body otherwise place =>
      obtain ⟨after, faults⟩ := Stmt.check_all_outlines table.enter body
      obtain ⟨final, further⟩ :=
        Stmt.check_all_outlines (Stmt.checkAll table.enter body).table.leave.enter otherwise
      constructor
      · simp only [Stmt.unplaced, Stmt.check, SymbolTable.enter_unplaced, after,
          SymbolTable.leave_unplaced, final]
      · simp only [Stmt.unplaced, Stmt.check, SymbolTable.enter_unplaced, after,
          SymbolTable.leave_unplaced, List.map_append, condition.check_unplaced, faults, further]
  | doWhile body condition place =>
      obtain ⟨after, faults⟩ := Stmt.check_all_outlines table.enter body
      constructor
      · simp only [Stmt.unplaced, Stmt.check, SymbolTable.enter_unplaced, after,
          SymbolTable.leave_unplaced]
      · simp only [Stmt.unplaced, Stmt.check, SymbolTable.enter_unplaced, after,
          List.map_append, condition.check_unplaced, faults]
  | forLoop counter first last step body place =>
      obtain ⟨after, faults⟩ := Stmt.check_all_outlines table.enter body
      constructor
      · simp only [Stmt.unplaced, Stmt.check, SymbolTable.enter_unplaced, after,
          SymbolTable.leave_unplaced]
      · simp only [Stmt.unplaced, Stmt.check, SymbolTable.enter_unplaced, List.map_append,
          SymbolTable.check_counter_unplaced, SymbolTable.check_bound_unplaced, faults]
  | input target place => exact ⟨rfl, table.check_input_unplaced target⟩
  | output text names place =>
      refine ⟨rfl, ?_⟩
      simp only [Stmt.unplaced, Stmt.check, List.map_flatMap, List.flatMap_map,
        SymbolTable.check_output_unplaced]

theorem Stmt.check_all_outlines (table : SymbolTable) (stmts : List Stmt) :
    (Stmt.checkAll table.unplaced (Stmt.unplacedAll stmts)).Outlines
      (Stmt.checkAll table stmts) := by
  match stmts with
  | [] => exact ⟨rfl, rfl⟩
  | first :: rest =>
      obtain ⟨after, faults⟩ := Stmt.check_outlines table first
      obtain ⟨final, further⟩ := Stmt.check_all_outlines (first.check table).table rest
      constructor
      · simp only [Stmt.unplacedAll, Stmt.checkAll, after, final]
      · simp only [Stmt.unplacedAll, Stmt.checkAll, after, List.map_append, faults, further]

end

/-- The check of a program without places outlines the check of the program. -/
theorem Program.check_outlines (program : Program) :
    program.unplaced.check.Outlines program.check :=
  Stmt.check_all_outlines .empty program

end ThreeAddress
