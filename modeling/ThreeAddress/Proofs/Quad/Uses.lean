import Mathlib.Algebra.BigOperators.Intervals
import Mathlib.Algebra.Order.BigOperators.Group.List
import Mathlib.Algebra.Order.Group.Nat
import Mathlib.Tactic.Linarith
import ThreeAddress.Proofs.Quad.Supply
import ThreeAddress.Proofs.Scope.Mentions

/-!
# How often a code uses its temporaries

Every temporary that a code takes stands in it twice: it is defined once and read once. This is
said by weights: whatever the temporaries weigh, the operands of the code weigh twice as much as
the temporaries that it takes.

The last temporary that is taken is the result of a computation and not of an assignment.
-/

namespace ThreeAddress

set_option autoImplicit false

section Weights

open Finset (range sum_range_succ)

variable (weight : Nat → Nat)

def Operand.tempWeight : Operand → Nat
  | .temp number => weight number
  | _ => 0

@[simp] theorem Operand.temp_weight_var (name : String) :
    (Operand.var name).tempWeight weight = 0 := rfl

@[simp] theorem Operand.temp_weight_temp (number : Nat) :
    (Operand.temp number).tempWeight weight = weight number := rfl

@[simp] theorem Operand.temp_weight_literal (text : String) :
    (Operand.literal text).tempWeight weight = 0 := rfl

namespace Quad

def slotWeight (slot : Option Operand) : Nat :=
  slot.elim 0 (Operand.tempWeight weight)

@[simp] theorem slot_weight_none : slotWeight weight none = 0 := rfl

@[simp] theorem slot_weight_some (operand : Operand) :
    slotWeight weight (some operand) = operand.tempWeight weight := rfl

def tempWeight (quad : Quad) : Nat :=
  slotWeight weight quad.first + slotWeight weight quad.second + slotWeight weight quad.result

def codeWeight (code : List Quad) : Nat :=
  (code.map (tempWeight weight)).sum

@[simp] theorem code_weight_nil : codeWeight weight [] = 0 := rfl

@[simp] theorem code_weight_append (front back : List Quad) :
    codeWeight weight (front ++ back) = codeWeight weight front + codeWeight weight back := by
  rw [codeWeight, List.map_append, List.sum_append]
  rfl

theorem code_weight_cons (quad : Quad) (rest : List Quad) :
    codeWeight weight (quad :: rest) = quad.tempWeight weight + codeWeight weight rest := by
  rw [codeWeight, List.map_cons, List.sum_cons]
  rfl

@[simp] theorem temp_weight_label (number : Nat) : (Quad.label number).tempWeight weight = 0 := rfl

@[simp] theorem temp_weight_jump (number : Nat) : (Quad.jump number).tempWeight weight = 0 := rfl

@[simp] theorem temp_weight_branch (op : Operation) (condition : Operand) (number : Nat) :
    (Quad.branch op condition number).tempWeight weight = condition.tempWeight weight := rfl

@[simp] theorem temp_weight_assign (value target : Operand) :
    (Quad.assign value target).tempWeight weight =
      value.tempWeight weight + target.tempWeight weight := rfl

@[simp] theorem temp_weight_operation (op : Operation) (first second : Operand) (number : Nat) :
    (⟨op, some first, some second, some (.temp number)⟩ : Quad).tempWeight weight =
      first.tempWeight weight + second.tempWeight weight + weight number := rfl

theorem code_weight_compute (code : List Quad) (op : Operation) (first : Operand)
    (second : Option Operand) (next : Nat) :
    codeWeight weight (LoweredValue.compute code op first second next).code =
      codeWeight weight code + first.tempWeight weight + slotWeight weight second +
        weight next := by
  rw [LoweredValue.compute, code_weight_append, code_weight_cons]
  simp only [tempWeight, slot_weight_some, Operand.temp_weight_temp, code_weight_nil]
  omega

theorem code_weight_eq_zero {code : List Quad} (none : ∀ quad ∈ code, quad.tempWeight weight = 0) :
    codeWeight weight code = 0 := by
  induction code with
  | nil => rfl
  | cons quad rest ih =>
      rw [List.forall_mem_cons] at none
      rw [code_weight_cons, none.1, ih none.2]

theorem weight_le_code_weight {code : List Quad} {quad : Quad} (member : quad ∈ code) {number : Nat}
    (used : Operand.temp number ∈ quad.operands) : weight number ≤ codeWeight weight code := by
  have within : weight number ≤ quad.tempWeight weight := by
    simp only [operands, List.mem_append, Option.mem_toList] at used
    rcases used with (first | second) | result
    · rw [tempWeight, Option.mem_def.mp first, slot_weight_some, Operand.temp_weight_temp]
      omega
    · rw [tempWeight, Option.mem_def.mp second, slot_weight_some, Operand.temp_weight_temp]
      omega
    · rw [tempWeight, Option.mem_def.mp result, slot_weight_some, Operand.temp_weight_temp]
      omega
  have part : quad.tempWeight weight ≤ codeWeight weight code :=
    List.le_sum_of_mem (List.mem_map_of_mem member)
  exact within.trans part

end Quad

open Quad

/-- Of the temporaries of an expression only its value is not read yet. -/
theorem Expr.code_weight_lower (expr : Expr) (next : Nat) :
    codeWeight weight (expr.lower next).code + (expr.lower next).value.tempWeight weight +
        2 * ∑ number ∈ range next, weight number =
      2 * ∑ number ∈ range (expr.lower next).next, weight number := by
  induction expr generalizing next with
  | identifier | integer | float => simp [Expr.lower]
  | paren inner place ih => exact ih next
  | element array index place ih =>
      have position := ih next
      simp only [Expr.lower, code_weight_compute]
      simp only [LoweredValue.compute, slot_weight_some, Operand.temp_weight_var,
        Operand.temp_weight_temp, sum_range_succ]
      omega
  | negate inner place ih =>
      have operand := ih next
      simp only [Expr.lower, code_weight_compute]
      simp only [LoweredValue.compute, slot_weight_some, Operand.temp_weight_literal,
        Operand.temp_weight_temp, sum_range_succ]
      omega
  | binary op left right place ihLeft ihRight =>
      have first := ihLeft next
      have second := ihRight (left.lower next).next
      simp only [Expr.lower, code_weight_compute, code_weight_append]
      simp only [LoweredValue.compute, slot_weight_some, Operand.temp_weight_temp, sum_range_succ]
      omega

theorem Cond.code_weight_lower (cond : Cond) (next : Nat) :
    codeWeight weight (cond.lower next).code + (cond.lower next).value.tempWeight weight +
        2 * ∑ number ∈ range next, weight number =
      2 * ∑ number ∈ range (cond.lower next).next, weight number := by
  induction cond generalizing next with
  | compare op position left right place =>
      have first := left.code_weight_lower weight next
      have second := right.code_weight_lower weight (left.lower next).next
      simp only [Cond.lower, code_weight_compute, code_weight_append]
      simp only [LoweredValue.compute, slot_weight_some, Operand.temp_weight_temp, sum_range_succ]
      omega
  | and left right place ihLeft ihRight | or left right place ihLeft ihRight =>
      have first := ihLeft next
      have second := ihRight (left.lower next).next
      simp only [Cond.lower, code_weight_compute, code_weight_append]
      simp only [LoweredValue.compute, slot_weight_some, Operand.temp_weight_temp, sum_range_succ]
      omega
  | not inner place ih =>
      have operand := ih next
      simp only [Cond.lower, code_weight_compute]
      simp only [LoweredValue.compute, slot_weight_none, Operand.temp_weight_temp, sum_range_succ]
      omega
  | paren inner place ih => exact ih next

theorem Expr.code_weight_lower_into (value : Expr) (target : String) (supply : Supply) :
    codeWeight weight (value.lowerInto target supply).code +
        2 * ∑ number ∈ range supply.temps, weight number =
      2 * ∑ number ∈ range (value.lowerInto target supply).supply.temps, weight number := by
  have lowered := value.code_weight_lower weight supply.temps
  simp only [Expr.lowerInto, code_weight_append, code_weight_cons, temp_weight_assign,
    Operand.temp_weight_var, code_weight_nil]
  omega

theorem Stmt.code_weight_lower_output (text : Option String) (names : List Ident) :
    codeWeight weight (Stmt.lowerOutput text names) = 0 := by
  apply code_weight_eq_zero
  intro quad member
  rcases List.mem_append.mp member with written | named
  · obtain ⟨text, _, rfl⟩ := List.mem_map.mp written
    rfl
  · obtain ⟨name, _, rfl⟩ := List.mem_map.mp named
    rfl

mutual

/-- Statements leave no temporary unread. -/
theorem Stmt.code_weight_lower (stmt : Stmt) (supply : Supply) :
    codeWeight weight (stmt.lower supply).code +
        2 * ∑ number ∈ range supply.temps, weight number =
      2 * ∑ number ∈ range (stmt.lower supply).supply.temps, weight number := by
  match stmt with
  | .scalar .. | .array .. | .input .. => exact Nat.zero_add _
  | .output text names place =>
      rw [Stmt.lower, Stmt.code_weight_lower_output]
      exact Nat.zero_add _
  | .constant name type position value place =>
      exact value.code_weight_lower_into weight name.name supply
  | .assign target value place => exact value.code_weight_lower_into weight target.name supply
  | .ifThen condition body place =>
      let entry : Supply := ⟨(condition.lower supply.temps).next, supply.labels + 2⟩
      have test := condition.code_weight_lower weight supply.temps
      have inside := Stmt.code_weight_lower_all body entry
      simp only [Stmt.lower, code_weight_append, code_weight_cons, temp_weight_branch,
        temp_weight_jump, temp_weight_label, code_weight_nil]
      simp only [entry] at inside
      omega
  | .ifElse condition body alternative place =>
      let entry : Supply := ⟨(condition.lower supply.temps).next, supply.labels + 2⟩
      have test := condition.code_weight_lower weight supply.temps
      have inside := Stmt.code_weight_lower_all body entry
      have other := Stmt.code_weight_lower_all alternative (Stmt.lowerAll entry body).supply
      simp only [Stmt.lower, code_weight_append, code_weight_cons, temp_weight_branch,
        temp_weight_jump, temp_weight_label, code_weight_nil]
      simp only [entry] at inside other
      omega
  | .doWhile body condition place =>
      let entry : Supply := ⟨supply.temps, supply.labels + 2⟩
      have inside := Stmt.code_weight_lower_all body entry
      have test := condition.code_weight_lower weight (Stmt.lowerAll entry body).supply.temps
      simp only [Stmt.lower, code_weight_append, code_weight_cons, temp_weight_branch,
        temp_weight_label, code_weight_nil]
      simp only [entry] at inside test
      omega
  | .forLoop counter first last step body place =>
      simp only [Stmt.lower_for_loop, code_weight_append, code_weight_cons, temp_weight_assign,
        temp_weight_operation, temp_weight_branch, temp_weight_jump, temp_weight_label,
        Operand.temp_weight_var, Operand.temp_weight_temp, code_weight_nil, sum_range_succ]
      have starts := first.code_weight_lower weight supply.temps
      generalize first.lower supply.temps = origin at starts ⊢
      have bounds := last.code_weight_lower weight origin.next
      generalize last.lower origin.next = bound at bounds ⊢
      have strides := step.code_weight_lower weight (bound.next + 1)
      generalize step.lower (bound.next + 1) = stride at strides ⊢
      have inside := Stmt.code_weight_lower_all body ⟨stride.next + 2, supply.labels + 2⟩
      simp only [sum_range_succ] at strides inside
      linarith

theorem Stmt.code_weight_lower_all (stmts : List Stmt) (supply : Supply) :
    codeWeight weight (Stmt.lowerAll supply stmts).code +
        2 * ∑ number ∈ range supply.temps, weight number =
      2 * ∑ number ∈ range (Stmt.lowerAll supply stmts).supply.temps, weight number := by
  match stmts with
  | [] => exact Nat.zero_add _
  | first :: rest =>
      have before := first.code_weight_lower supply
      have behind := Stmt.code_weight_lower_all rest (first.lower supply).supply
      simp only [Stmt.lowerAll, code_weight_append]
      omega

end

theorem Program.code_weight_lower (program : Program) :
    codeWeight weight (program.lower .fresh).code =
      2 * ∑ number ∈ range (program.lower .fresh).supply.temps, weight number :=
  Stmt.code_weight_lower_all weight program .fresh

end Weights

/-- All temporaries of a code are among those that it takes. -/
theorem Program.temp_between_of_mem_lower {program : Program} {supply : Supply} {quad : Quad}
    (member : quad ∈ (program.lower supply).code) {number : Nat}
    (used : Operand.temp number ∈ quad.operands) :
    supply.temps ≤ number ∧ number < (program.lower supply).supply.temps := by
  let after := (program.lower supply).supply
  have grows : supply.temps ≤ after.temps := (Stmt.supply_grows_lower_all program supply).temps
  -- Only temporaries that are not taken have a weight.
  let weight : Nat → Nat := fun number =>
    if supply.temps ≤ number ∧ number < after.temps then 0 else 1
  have light : ∑ number ∈ Finset.Ico supply.temps after.temps, weight number = 0 :=
    Finset.sum_eq_zero fun number taken => if_pos (Finset.mem_Ico.mp taken)
  have bound := Quad.weight_le_code_weight weight member used
  have balance : Quad.codeWeight weight (program.lower supply).code +
      2 * ∑ number ∈ Finset.range supply.temps, weight number =
        2 * ∑ number ∈ Finset.range after.temps, weight number :=
    Stmt.code_weight_lower_all weight program supply
  rw [← Finset.sum_range_add_sum_Ico weight grows, light] at balance
  by_contra outside
  rw [show weight number = 1 from if_neg outside] at bound
  omega

open Quad

/-- If the code takes temporaries, then the last of them is computed. -/
def Quad.EndsComputed (before after : Nat) (code : List Quad) : Prop :=
  before < after → ∃ quad ∈ code, quad.op ≠ .assign ∧ quad.result = some (.temp (after - 1))

namespace Quad.EndsComputed

variable {before middle after : Nat} {front back : List Quad}

theorem of_le (none : after ≤ before) (code : List Quad) : EndsComputed before after code := by
  intro taken
  omega

theorem append (first : EndsComputed before middle front) (second : EndsComputed middle after back)
    (within : middle ≤ after) : EndsComputed before after (front ++ back) := by
  intro taken
  by_cases further : middle < after
  · obtain ⟨quad, member, computed⟩ := second further
    exact ⟨quad, List.mem_append_right _ member, computed⟩
  · have same : middle = after := by omega
    rw [same] at first
    obtain ⟨quad, member, computed⟩ := first taken
    exact ⟨quad, List.mem_append_left _ member, computed⟩

theorem compute {code : List Quad} {op : Operation} (other : op ≠ .assign) (first : Operand)
    (second : Option Operand) (next : Nat) :
    EndsComputed before (next + 1) (LoweredValue.compute code op first second next).code := by
  intro _
  exact ⟨_, List.mem_append_right _ List.mem_cons_self, other, rfl⟩

/-- What stands behind the code takes no temporaries. -/
theorem append_right (first : EndsComputed before after front) (back : List Quad) :
    EndsComputed before after (front ++ back) :=
  first.append (.of_le (Nat.le_refl _) back) (Nat.le_refl _)

theorem append_left (front : List Quad) (second : EndsComputed before after back) :
    EndsComputed before after (front ++ back) := by
  intro taken
  obtain ⟨quad, member, computed⟩ := second taken
  exact ⟨quad, List.mem_append_right _ member, computed⟩

end Quad.EndsComputed

theorem Expr.lower_ends_computed (expr : Expr) (next : Nat) :
    EndsComputed next (expr.lower next).next (expr.lower next).code := by
  induction expr generalizing next with
  | identifier | integer | float => exact .of_le (Nat.le_refl _) _
  | paren inner place ih => exact ih next
  | element | negate | binary => exact .compute (by simp) _ _ _

theorem Cond.lower_ends_computed (cond : Cond) (next : Nat) :
    EndsComputed next (cond.lower next).next (cond.lower next).code := by
  induction cond generalizing next with
  | paren inner place ih => exact ih next
  | compare | and | or | not => exact .compute (by simp) _ _ _

mutual

theorem Stmt.lower_ends_computed (stmt : Stmt) (supply : Supply) :
    EndsComputed supply.temps (stmt.lower supply).supply.temps (stmt.lower supply).code := by
  match stmt with
  | .scalar .. | .array .. | .input .. | .output .. => exact .of_le (Nat.le_refl _) _
  | .constant name type position value place =>
      exact (value.lower_ends_computed supply.temps).append_right _
  | .assign target value place =>
      exact (value.lower_ends_computed supply.temps).append_right _
  | .ifThen condition body place =>
      let entry : Supply := ⟨(condition.lower supply.temps).next, supply.labels + 2⟩
      have test := (condition.lower_ends_computed supply.temps).append_right
        [.branch .jumpIfZero (condition.lower supply.temps).value supply.labels]
      have inside := Stmt.lower_all_ends_computed body entry
      exact (test.append inside (Stmt.supply_grows_lower_all body entry).temps).append_right _
  | .ifElse condition body alternative place =>
      let entry : Supply := ⟨(condition.lower supply.temps).next, supply.labels + 2⟩
      have test := (condition.lower_ends_computed supply.temps).append_right
        [.branch .jumpIfZero (condition.lower supply.temps).value supply.labels]
      have inside := Stmt.lower_all_ends_computed body entry
      have other := Stmt.lower_all_ends_computed alternative (Stmt.lowerAll entry body).supply
      have first := (test.append inside (Stmt.supply_grows_lower_all body entry).temps).append_right
        [.jump (supply.labels + 1), .label supply.labels]
      exact (first.append other (Stmt.supply_grows_lower_all alternative _).temps).append_right _
  | .doWhile body condition place =>
      let entry : Supply := ⟨supply.temps, supply.labels + 2⟩
      have inside := (Stmt.lower_all_ends_computed body entry).append_left [.label supply.labels]
      have test := condition.lower_ends_computed (Stmt.lowerAll entry body).supply.temps
      exact (inside.append test (condition.next_le_lower _)).append_right _
  | .forLoop counter first last step body place =>
      let origin := first.lower supply.temps
      let bound := last.lower origin.next
      let stride := step.lower (bound.next + 1)
      let inside := Stmt.lowerAll ⟨stride.next + 2, supply.labels + 2⟩ body
      intro _
      simp only [Stmt.lower_for_loop]
      exact ⟨⟨.arithmetic .add, some (.var counter.name), some (.temp stride.next),
        some (.temp inside.supply.temps)⟩, by simp [origin, bound, stride, inside], by simp, rfl⟩

theorem Stmt.lower_all_ends_computed (stmts : List Stmt) (supply : Supply) :
    EndsComputed supply.temps (Stmt.lowerAll supply stmts).supply.temps
      (Stmt.lowerAll supply stmts).code := by
  match stmts with
  | [] => exact .of_le (Nat.le_refl _) _
  | first :: rest =>
      exact (first.lower_ends_computed supply).append
        (Stmt.lower_all_ends_computed rest (first.lower supply).supply)
        (Stmt.supply_grows_lower_all rest _).temps

end

end ThreeAddress
