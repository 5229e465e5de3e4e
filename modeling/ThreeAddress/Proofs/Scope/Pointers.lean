import ThreeAddress.Check.Statement
import ThreeAddress.Proofs.Syntax.Nodes

/-!
# Faults point into the tree

The span of every fault is the span of a node of the checked tree, and its position is the position
of a node or one that a node keeps. A fault about a name points at a node that is this name.
-/

namespace ThreeAddress

set_option autoImplicit false

/-- Diagnostics of the kind are about exactly the text they point at. -/
def DiagnosticKind.quotes : DiagnosticKind → Bool
  | .lexical | .syntactic | .undeclaredIdentifier | .duplicateDeclaration | .invalidIdentifier
  | .constantModification => true
  | .typeMismatch | .arrayBounds | .divisionByZero => false

structure Fault.PointsInto (roots : List Node) (fault : Fault) : Prop where
  spanned : ∃ node, Node.Under roots node ∧ fault.span = node.place.span
  positioned : ∃ node, Node.Under roots node ∧
    (fault.position = node.place.position ∨ fault.position ∈ node.notes)
  quoted : fault.kind.quotes = true → ∃ node, Node.Under roots node ∧
    node.unparse = [.identifier fault.entity] ∧ fault.span = node.place.span ∧
    fault.position = node.place.position

variable {roots : List Node}

namespace Fault.PointsInto

variable {fault : Fault} {node : Node}

/-- A fault about a name. -/
theorem of_name (under : Node.Under roots node)
    (written : node.unparse = [.identifier fault.entity]) (span : fault.span = node.place.span)
    (position : fault.position = node.place.position) : fault.PointsInto roots := by
  refine ⟨⟨node, under, span⟩, ⟨node, under, .inl position⟩, ?_⟩
  intro _
  exact ⟨node, under, written, span, position⟩

/-- A fault of a kind that need not quote what it points at, with its span at one node and its
position at another. -/
theorem of_parts {other : Node} (under : Node.Under roots node)
    (span : fault.span = node.place.span) (beside : Node.Under roots other)
    (position : fault.position = other.place.position ∨ fault.position ∈ other.notes)
    (free : fault.kind.quotes = false) : fault.PointsInto roots := by
  refine ⟨⟨node, under, span⟩, ⟨other, beside, position⟩, ?_⟩
  intro quotes
  rw [free] at quotes
  cases quotes

theorem of_place (under : Node.Under roots node) (free : fault.kind.quotes = false)
    (span : fault.span = node.place.span) (position : fault.position = node.place.position) :
    fault.PointsInto roots :=
  of_parts under span under (.inl position) free

end Fault.PointsInto

open Fault.PointsInto

/-! ## Expressions and conditions -/

/-- A name that is checked where the node stands that is this name. -/
theorem SymbolTable.check_name_points (table : SymbolTable) {name : Ident} {node : Node}
    (under : Node.Under roots node) (written : node.unparse = [name.kind])
    (placed : node.place = name.place) :
    ∀ fault ∈ (table.checkName name).faults, fault.PointsInto roots := by
  unfold checkName
  intro fault member
  split at member
  · cases List.mem_singleton.mp member
    exact of_name under written (by rw [placed]; rfl) (by rw [placed]; rfl)
  · split at member
    · cases List.mem_singleton.mp member
      exact of_name under written (by rw [placed]; rfl) (by rw [placed]; rfl)
    · cases member

theorem BinaryOp.check_operand_points (op : BinaryOp) {operand : Expr} (type : ValueType)
    (under : Node.Under roots (.expr operand)) :
    ∀ fault ∈ op.checkOperand operand type, fault.PointsInto roots := by
  unfold BinaryOp.checkOperand
  intro fault member
  split at member
  · cases member
  · cases List.mem_singleton.mp member
    exact of_place under rfl rfl rfl

theorem BinaryOp.check_divisor_points (op : BinaryOp) {right : Expr}
    (under : Node.Under roots (.expr right)) :
    ∀ fault ∈ op.checkDivisor right, fault.PointsInto roots := by
  unfold BinaryOp.checkDivisor
  intro fault member
  split at member
  · cases List.mem_singleton.mp member
    exact of_place under rfl rfl rfl
  · cases member

theorem Expr.check_points (table : SymbolTable) (expr : Expr)
    (under : Node.Under roots (.expr expr)) :
    ∀ fault ∈ (expr.check table).faults, fault.PointsInto roots := by
  induction expr with
  | integer text place => exact List.forall_mem_nil _
  | float text place => exact List.forall_mem_nil _
  | identifier name place => exact table.check_name_points under rfl rfl
  | paren inner place ih => exact ih (under.child List.mem_cons_self)
  | element array index place ih =>
      have named : Node.Under roots (.ident array) := under.child List.mem_cons_self
      have inside : Node.Under roots (.expr index) := under.child (by simp [Node.children])
      unfold Expr.check
      split
      · exact List.forall_mem_singleton.mpr (of_name named rfl rfl rfl)
      · split
        · exact List.forall_mem_singleton.mpr (of_name named rfl rfl rfl)
        · refine List.forall_mem_append.mpr ⟨ih inside, ?_⟩
          split
          · exact List.forall_mem_nil _
          · exact List.forall_mem_singleton.mpr (of_place inside rfl rfl rfl)
  | negate inner place ih =>
      have inside : Node.Under roots (.expr inner) := under.child List.mem_cons_self
      simp only [Expr.check]
      split
      · exact ih inside
      · exact List.forall_mem_append.mpr ⟨ih inside,
          List.forall_mem_singleton.mpr (of_place under rfl rfl rfl)⟩
  | binary op left right place first second =>
      have before : Node.Under roots (.expr left) := under.child List.mem_cons_self
      have behind : Node.Under roots (.expr right) := under.child (by simp [Node.children])
      simp only [Expr.check, List.forall_mem_append]
      exact ⟨⟨⟨⟨first before, second behind⟩, op.check_operand_points _ before⟩,
        op.check_operand_points _ behind⟩, op.check_divisor_points behind⟩

theorem Cond.check_points (table : SymbolTable) (cond : Cond)
    (under : Node.Under roots (.cond cond)) :
    ∀ fault ∈ cond.check table, fault.PointsInto roots := by
  induction cond with
  | compare op position left right place =>
      have before : Node.Under roots (.expr left) := under.child List.mem_cons_self
      have behind : Node.Under roots (.expr right) := under.child (by simp [Node.children])
      simp only [Cond.check, List.forall_mem_append]
      refine ⟨⟨left.check_points table before, right.check_points table behind⟩, ?_⟩
      split
      · exact List.forall_mem_nil _
      · exact List.forall_mem_singleton.mpr
          (of_parts under rfl under (.inr List.mem_cons_self) rfl)
  | and left right place first second =>
      exact List.forall_mem_append.mpr
        ⟨first (under.child List.mem_cons_self), second (under.child (by simp [Node.children]))⟩
  | or left right place first second =>
      exact List.forall_mem_append.mpr
        ⟨first (under.child List.mem_cons_self), second (under.child (by simp [Node.children]))⟩
  | not inner place ih => exact ih (under.child List.mem_cons_self)
  | paren inner place ih => exact ih (under.child List.mem_cons_self)

/-! ## Statements -/

namespace SymbolTable

variable (table : SymbolTable) {name : Ident}

theorem refusal?_points (under : Node.Under roots (.ident name)) :
    ∀ fault ∈ table.refusal? name, fault.PointsInto roots := by
  unfold refusal?
  intro fault member
  split at member
  · cases Option.some.inj member
    exact of_name under rfl rfl rfl
  · obtain ⟨symbol, _, rfl⟩ := Option.map_eq_some_iff.mp member
    exact of_name under rfl rfl rfl

theorem register_points (symbol : Symbol) (under : Node.Under roots (.ident name)) :
    ∀ fault ∈ (table.register name symbol).faults, fault.PointsInto roots := by
  unfold register
  split
  · exact List.forall_mem_nil _
  · exact List.forall_mem_singleton.mpr (of_name under rfl rfl rfl)

theorem introduce_points (symbol : Symbol) (under : Node.Under roots (.ident name)) :
    ∀ fault ∈ (table.introduce name symbol).faults, fault.PointsInto roots := by
  unfold introduce
  split
  · rename_i fault refused
    exact List.forall_mem_singleton.mpr (table.refusal?_points under fault refused)
  · exact table.register_points symbol under

theorem check_array_points (element : DataType) (size : String) {position : Position} {node : Node}
    (whole : Node.Under roots node) (noted : position ∈ node.notes)
    (under : Node.Under roots (.ident name)) :
    ∀ fault ∈ (table.checkArray name element size position).faults,
      fault.PointsInto roots := by
  unfold checkArray
  split
  · rename_i fault refused
    exact List.forall_mem_singleton.mpr (table.refusal?_points under fault refused)
  · split
    · exact List.forall_mem_singleton.mpr (of_parts under rfl whole (.inr noted) rfl)
    · exact table.register_points _ under

theorem check_constant_points (type : DataType) {position : Position} {value : Expr} {node : Node}
    (whole : Node.Under roots node) (noted : position ∈ node.notes)
    (under : Node.Under roots (.ident name)) (inside : Node.Under roots (.expr value)) :
    ∀ fault ∈ (table.checkConstant name type position value).faults,
      fault.PointsInto roots := by
  simp only [checkConstant, List.forall_mem_append]
  refine ⟨⟨value.check_points table inside, ?_⟩, table.introduce_points _ under⟩
  split
  · exact List.forall_mem_nil _
  · exact List.forall_mem_singleton.mpr (of_parts inside rfl whole (.inr noted) rfl)

theorem check_assign_points {value : Expr} (under : Node.Under roots (.ident name))
    (inside : Node.Under roots (.expr value)) :
    ∀ fault ∈ table.checkAssign name value, fault.PointsInto roots := by
  unfold checkAssign
  split
  · exact List.forall_mem_singleton.mpr (of_name under rfl rfl rfl)
  · simp only [List.forall_mem_append]
    refine ⟨⟨?_, value.check_points table inside⟩, ?_⟩
    · split
      · exact List.forall_mem_singleton.mpr (of_name under rfl rfl rfl)
      · exact List.forall_mem_nil _
    · split
      · exact List.forall_mem_nil _
      · exact List.forall_mem_singleton.mpr (of_parts inside rfl under (.inl rfl) rfl)

theorem check_counter_points (under : Node.Under roots (.ident name)) :
    ∀ fault ∈ table.checkCounter name, fault.PointsInto roots := by
  unfold checkCounter
  split
  · exact List.forall_mem_singleton.mpr (of_name under rfl rfl rfl)
  · refine List.forall_mem_append.mpr ⟨?_, ?_⟩
    · split
      · exact List.forall_mem_singleton.mpr (of_name under rfl rfl rfl)
      · exact List.forall_mem_nil _
    · split
      · exact List.forall_mem_nil _
      · exact List.forall_mem_singleton.mpr (of_name under rfl rfl rfl)

theorem check_bound_points {bound : Expr} (inside : Node.Under roots (.expr bound)) :
    ∀ fault ∈ table.checkBound name bound, fault.PointsInto roots := by
  unfold checkBound
  refine List.forall_mem_append.mpr ⟨bound.check_points table inside, ?_⟩
  split
  · exact List.forall_mem_nil _
  · exact List.forall_mem_singleton.mpr (of_place inside rfl rfl rfl)

theorem check_input_points (under : Node.Under roots (.ident name)) :
    ∀ fault ∈ table.checkInput name, fault.PointsInto roots := by
  unfold checkInput
  split
  · exact List.forall_mem_singleton.mpr (of_name under rfl rfl rfl)
  · split
    · exact List.forall_mem_singleton.mpr (of_name under rfl rfl rfl)
    · exact List.forall_mem_nil _

theorem check_output_points (under : Node.Under roots (.ident name)) :
    ∀ fault ∈ table.checkOutput name, fault.PointsInto roots := by
  unfold checkOutput
  split
  · exact List.forall_mem_singleton.mpr (of_name under rfl rfl rfl)
  · exact List.forall_mem_nil _

end SymbolTable

mutual

theorem Stmt.check_points (table : SymbolTable) (stmt : Stmt)
    (under : Node.Under roots (.stmt stmt)) :
    ∀ fault ∈ (stmt.check table).faults, fault.PointsInto roots := by
  cases stmt with
  | scalar name type place =>
      exact table.introduce_points _ (under.child List.mem_cons_self)
  | array name element size position place =>
      exact table.check_array_points element size under List.mem_cons_self
        (under.child List.mem_cons_self)
  | constant name type position value place =>
      exact table.check_constant_points type under List.mem_cons_self
        (under.child List.mem_cons_self) (under.child (by simp [Node.children]))
  | assign target value place =>
      exact table.check_assign_points (under.child List.mem_cons_self)
        (under.child (by simp [Node.children]))
  | ifThen condition body place =>
      have inside : ∀ stmt ∈ body, Node.Under roots (.stmt stmt) := fun stmt member =>
        under.child (by simp [Node.children, member])
      simp only [Stmt.check, List.forall_mem_append]
      exact ⟨condition.check_points table (under.child List.mem_cons_self),
        Stmt.check_all_points _ body inside⟩
  | ifElse condition body otherwise place =>
      have inside : ∀ stmt ∈ body, Node.Under roots (.stmt stmt) := fun stmt member =>
        under.child (by simp [Node.children, member])
      have other : ∀ stmt ∈ otherwise, Node.Under roots (.stmt stmt) := fun stmt member =>
        under.child (by simp [Node.children, member])
      simp only [Stmt.check, List.forall_mem_append]
      exact ⟨⟨condition.check_points table (under.child List.mem_cons_self),
        Stmt.check_all_points _ body inside⟩, Stmt.check_all_points _ otherwise other⟩
  | doWhile body condition place =>
      have inside : ∀ stmt ∈ body, Node.Under roots (.stmt stmt) := fun stmt member =>
        under.child (by simp [Node.children, member])
      simp only [Stmt.check, List.forall_mem_append]
      exact ⟨Stmt.check_all_points _ body inside,
        condition.check_points _ (under.child (by simp [Node.children]))⟩
  | forLoop counter first last step body place =>
      have inside : ∀ stmt ∈ body, Node.Under roots (.stmt stmt) := fun stmt member =>
        under.child (by simp [Node.children, member])
      simp only [Stmt.check, List.forall_mem_append]
      exact ⟨⟨⟨⟨table.enter.check_counter_points (under.child List.mem_cons_self),
        table.enter.check_bound_points (under.child (by simp [Node.children]))⟩,
        table.enter.check_bound_points (under.child (by simp [Node.children]))⟩,
        table.enter.check_bound_points (under.child (by simp [Node.children]))⟩,
        Stmt.check_all_points _ body inside⟩
  | input target place => exact table.check_input_points (under.child List.mem_cons_self)
  | output text names place =>
      intro fault member
      obtain ⟨name, listed, found⟩ := List.mem_flatMap.mp member
      exact table.check_output_points (under.child (by simp [Node.children, listed])) fault found

theorem Stmt.check_all_points (table : SymbolTable) (stmts : List Stmt)
    (under : ∀ stmt ∈ stmts, Node.Under roots (.stmt stmt)) :
    ∀ fault ∈ (Stmt.checkAll table stmts).faults, fault.PointsInto roots := by
  match stmts with
  | [] => exact List.forall_mem_nil _
  | first :: rest =>
      simp only [Stmt.checkAll, List.forall_mem_append]
      exact ⟨first.check_points table (under first List.mem_cons_self),
        Stmt.check_all_points _ rest fun stmt member => under stmt (List.mem_cons_of_mem _ member)⟩

end

/-- All faults of a program point into its tree. -/
theorem Program.check_points (program : Program) :
    ∀ fault ∈ program.check.faults, fault.PointsInto (program.map .stmt) :=
  Stmt.check_all_points .empty program fun _ member => .root (List.mem_map_of_mem member)

end ThreeAddress
