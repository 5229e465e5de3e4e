import ThreeAddress.Proofs.Execution.Lowering

/-!
# The temporaries of a code

A code takes its temporaries from the supply in the order in which it defines them, so every
temporary is the result of one quadruple, and a quadruple that defines a temporary reads only
temporaries taken before it.
-/

namespace ThreeAddress

set_option autoImplicit false

def Operand.temp? : Operand → Option Nat
  | .temp number => some number
  | _ => none

namespace Quad

def definedTemp? (quad : Quad) : Option Nat :=
  quad.result.bind Operand.temp?

def definedTemps (code : List Quad) : List Nat :=
  code.filterMap definedTemp?

/-- A quadruple that defines a temporary reads only temporaries before it. -/
def ReadsEarlier (quad : Quad) : Prop :=
  ∀ number, quad.definedTemp? = some number →
    (∀ operand ∈ quad.first, operand.Below number) ∧
      ∀ operand ∈ quad.second, operand.Below number

@[simp] theorem defined_temps_nil : definedTemps [] = [] := rfl

@[simp] theorem defined_temps_append (front back : List Quad) :
    definedTemps (front ++ back) = definedTemps front ++ definedTemps back :=
  List.filterMap_append

@[simp] theorem defined_temps_label (number : Nat) (rest : List Quad) :
    definedTemps (.label number :: rest) = definedTemps rest := rfl

@[simp] theorem defined_temps_jump (number : Nat) (rest : List Quad) :
    definedTemps (.jump number :: rest) = definedTemps rest := rfl

@[simp] theorem defined_temps_branch (op : Operation) (condition : Operand) (number : Nat)
    (rest : List Quad) :
    definedTemps (.branch op condition number :: rest) = definedTemps rest := rfl

@[simp] theorem defined_temps_store (value : Operand) (name : String) (rest : List Quad) :
    definedTemps (.assign value (.var name) :: rest) = definedTemps rest := rfl

@[simp] theorem defined_temps_assign (value : Operand) (number : Nat) (rest : List Quad) :
    definedTemps (.assign value (.temp number) :: rest) = number :: definedTemps rest := rfl

@[simp] theorem defined_temps_operation (op : Operation) (first second : Option Operand)
    (number : Nat) (rest : List Quad) :
    definedTemps (⟨op, first, second, some (.temp number)⟩ :: rest) =
      number :: definedTemps rest := rfl

theorem defined_temps_compute {code : List Quad} {start next : Nat}
    (taken : definedTemps code = List.Ico start next) (within : start ≤ next) (op : Operation)
    (first : Operand) (second : Option Operand) :
    definedTemps (LoweredValue.compute code op first second next).code =
      List.Ico start (next + 1) := by
  rw [LoweredValue.compute, defined_temps_append, taken, List.Ico.succ_top within]
  rfl

def Sequential (code : List Quad) : Prop :=
  ∀ quad ∈ code, quad.ReadsEarlier

@[simp] theorem sequential_nil : Sequential [] :=
  List.forall_mem_nil _

@[simp] theorem sequential_append (front back : List Quad) :
    Sequential (front ++ back) ↔ Sequential front ∧ Sequential back :=
  List.forall_mem_append

theorem sequential_cons (quad : Quad) (rest : List Quad) :
    Sequential (quad :: rest) ↔ quad.ReadsEarlier ∧ Sequential rest :=
  List.forall_mem_cons

theorem sequential_cons_of_none {quad : Quad} (none : quad.definedTemp? = none)
    (rest : List Quad) : Sequential (quad :: rest) ↔ Sequential rest := by
  rw [sequential_cons]
  apply and_iff_right
  intro number defined
  rw [none] at defined
  cases defined

@[simp] theorem sequential_label (number : Nat) (rest : List Quad) :
    Sequential (.label number :: rest) ↔ Sequential rest :=
  sequential_cons_of_none rfl rest

@[simp] theorem sequential_jump (number : Nat) (rest : List Quad) :
    Sequential (.jump number :: rest) ↔ Sequential rest :=
  sequential_cons_of_none rfl rest

@[simp] theorem sequential_branch (op : Operation) (condition : Operand) (number : Nat)
    (rest : List Quad) :
    Sequential (.branch op condition number :: rest) ↔ Sequential rest :=
  sequential_cons_of_none rfl rest

@[simp] theorem sequential_store (value : Operand) (name : String) (rest : List Quad) :
    Sequential (.assign value (.var name) :: rest) ↔ Sequential rest :=
  sequential_cons_of_none rfl rest

@[simp] theorem sequential_assign (value : Operand) (number : Nat) (rest : List Quad) :
    Sequential (.assign value (.temp number) :: rest) ↔
      value.Below number ∧ Sequential rest := by
  rw [sequential_cons]
  simp [ReadsEarlier, definedTemp?, Quad.assign, Operand.temp?]

@[simp] theorem sequential_operation (op : Operation) (first second : Operand) (number : Nat)
    (rest : List Quad) :
    Sequential (⟨op, some first, some second, some (.temp number)⟩ :: rest) ↔
      (first.Below number ∧ second.Below number) ∧ Sequential rest := by
  rw [sequential_cons]
  simp [ReadsEarlier, definedTemp?, Operand.temp?]

end Quad

/-- The code of a value takes its temporaries in order and reads them behind where they are
defined. -/
structure LoweredValue.Orderly (start : Nat) (lowered : LoweredValue) : Prop where
  temps : Quad.definedTemps lowered.code = List.Ico start lowered.next
  reads : Quad.Sequential lowered.code

namespace LoweredValue.Orderly

open Quad

variable {start : Nat}

theorem compute {code : List Quad} {next : Nat} (taken : definedTemps code = List.Ico start next)
    (within : start ≤ next) (reads : Sequential code) (op : Operation)
    {first : Operand} (left : first.Below next) {second : Option Operand}
    (right : ∀ operand ∈ second, operand.Below next) :
    (LoweredValue.compute code op first second next).Orderly start where
  temps := defined_temps_compute taken within op first second
  reads := by
    rw [LoweredValue.compute, sequential_append, sequential_cons]
    refine ⟨reads, ?_, sequential_nil⟩
    intro number defined
    cases defined
    constructor
    · intro operand same
      cases same
      exact left
    · exact right

/-- Two operands, one computed behind the other. -/
theorem pair {first second : LoweredValue} (firsts : first.Orderly start)
    (seconds : second.Orderly first.next) (before : start ≤ first.next)
    (behind : first.next ≤ second.next) :
    definedTemps (first.code ++ second.code) = List.Ico start second.next ∧
      Sequential (first.code ++ second.code) := by
  constructor
  · rw [defined_temps_append, firsts.temps, seconds.temps]
    exact List.Ico.append_consecutive before behind
  · exact (sequential_append _ _).mpr ⟨firsts.reads, seconds.reads⟩

end LoweredValue.Orderly

open LoweredValue

theorem Expr.lower_orderly (expr : Expr) (next : Nat) : (expr.lower next).Orderly next := by
  induction expr generalizing next with
  | identifier | integer | float =>
      exact ⟨List.Ico.self_empty.symm, Quad.sequential_nil⟩
  | paren inner place ih => exact ih next
  | element array index place ih =>
      apply Orderly.compute (ih next).temps (index.next_le_lower next) (ih next).reads
      · trivial
      · intro operand member
        cases member
        exact index.lower_value_below next
  | negate inner place ih =>
      apply Orderly.compute (ih next).temps (inner.next_le_lower next) (ih next).reads
      · trivial
      · intro operand member
        cases member
        exact inner.lower_value_below next
  | binary op left right place ihLeft ihRight =>
      have before := left.next_le_lower next
      have behind := right.next_le_lower (left.lower next).next
      obtain ⟨taken, reads⟩ := (ihLeft next).pair (ihRight _) before behind
      apply Orderly.compute taken (before.trans behind) reads
      · exact (left.lower_value_below next).mono behind
      · intro operand member
        cases member
        exact right.lower_value_below _

theorem Cond.lower_orderly (cond : Cond) (next : Nat) : (cond.lower next).Orderly next := by
  induction cond generalizing next with
  | compare op position left right place =>
      have before := left.next_le_lower next
      have behind := right.next_le_lower (left.lower next).next
      obtain ⟨taken, reads⟩ :=
        (left.lower_orderly next).pair (right.lower_orderly _) before behind
      apply Orderly.compute taken (before.trans behind) reads
      · exact (left.lower_value_below next).mono behind
      · intro operand member
        cases member
        exact right.lower_value_below _
  | and left right place ihLeft ihRight | or left right place ihLeft ihRight =>
      have before := left.next_le_lower next
      have behind := right.next_le_lower (left.lower next).next
      obtain ⟨taken, reads⟩ := (ihLeft next).pair (ihRight _) before behind
      apply Orderly.compute taken (before.trans behind) reads
      · exact (left.lower_value_below next).mono behind
      · intro operand member
        cases member
        exact right.lower_value_below _
  | not inner place ih =>
      apply Orderly.compute (ih next).temps (inner.next_le_lower next) (ih next).reads
      · exact inner.lower_value_below next
      · intro operand member
        cases member
  | paren inner place ih => exact ih next

/-- The code of statements takes its temporaries in order and reads them behind where they are
defined. -/
structure Lowered.Orderly (before : Supply) (lowered : Lowered) : Prop where
  temps : Quad.definedTemps lowered.code = List.Ico before.temps lowered.supply.temps
  reads : Quad.Sequential lowered.code

open Quad

theorem Lowered.orderly_of_none {supply : Supply} {code : List Quad}
    (none : ∀ quad ∈ code, quad.definedTemp? = none) : Lowered.Orderly supply ⟨code, supply⟩ where
  temps := by
    rw [List.Ico.self_empty]
    exact List.filterMap_eq_nil_iff.mpr none
  reads := by
    intro quad member number defined
    rw [none quad member] at defined
    cases defined

theorem Stmt.lower_output_defined_temp? (text : Option String) (names : List Ident) :
    ∀ quad ∈ Stmt.lowerOutput text names, quad.definedTemp? = none := by
  intro quad member
  rcases List.mem_append.mp member with written | named
  · obtain ⟨text, _, rfl⟩ := List.mem_map.mp written
    rfl
  · obtain ⟨name, _, rfl⟩ := List.mem_map.mp named
    rfl

theorem Expr.lower_into_orderly (value : Expr) (target : String) (supply : Supply) :
    (value.lowerInto target supply).Orderly supply where
  temps := by
    rw [Expr.lowerInto, defined_temps_append, (value.lower_orderly supply.temps).temps]
    exact List.append_nil _
  reads := by
    rw [Expr.lowerInto, sequential_append, sequential_store]
    exact ⟨(value.lower_orderly supply.temps).reads, sequential_nil⟩

/-- The temporaries of a counting loop, in the order of its code. -/
theorem Supply.loop_temps {start origin bound stride after : Nat} (first : start ≤ origin)
    (second : origin ≤ bound) (third : bound + 1 ≤ stride) (fourth : stride + 2 ≤ after) :
    List.Ico start origin ++ (List.Ico origin bound ++ bound :: (List.Ico (bound + 1) stride ++
      stride :: (stride + 1) :: (List.Ico (stride + 2) after ++ [after]))) =
      List.Ico start (after + 1) := by
  rw [← List.Ico.succ_top fourth, ← List.Ico.eq_cons (n := stride + 1) (by omega),
    ← List.Ico.eq_cons (n := stride) (by omega),
    List.Ico.append_consecutive third (by omega), ← List.Ico.eq_cons (n := bound) (by omega),
    List.Ico.append_consecutive second (by omega),
    List.Ico.append_consecutive first (by omega)]

mutual

theorem Stmt.lower_orderly (stmt : Stmt) (supply : Supply) :
    (stmt.lower supply).Orderly supply := by
  match stmt with
  | .scalar .. | .array .. => exact Lowered.orderly_of_none (List.forall_mem_nil _)
  | .input target place =>
      exact Lowered.orderly_of_none (List.forall_mem_singleton.mpr rfl)
  | .output text names place =>
      exact Lowered.orderly_of_none (Stmt.lower_output_defined_temp? text names)
  | .constant name type position value place => exact value.lower_into_orderly name.name supply
  | .assign target value place => exact value.lower_into_orderly target.name supply
  | .ifThen condition body place =>
      let entry : Supply := ⟨(condition.lower supply.temps).next, supply.labels + 2⟩
      have test := condition.lower_orderly supply.temps
      have before := condition.next_le_lower supply.temps
      have inside := Stmt.lower_all_orderly body entry
      have within := Stmt.supply_grows_lower_all body entry
      constructor
      · simp only [Stmt.lower, defined_temps_append, defined_temps_branch, defined_temps_jump,
          defined_temps_label, defined_temps_nil, List.append_nil, test.temps]
        rw [inside.temps]
        exact List.Ico.append_consecutive before within.temps
      · simp only [Stmt.lower, sequential_append, sequential_branch, sequential_jump,
          sequential_label, sequential_nil, and_true]
        exact ⟨test.reads, inside.reads⟩
  | .ifElse condition body alternative place =>
      let entry : Supply := ⟨(condition.lower supply.temps).next, supply.labels + 2⟩
      have test := condition.lower_orderly supply.temps
      have before := condition.next_le_lower supply.temps
      have inside := Stmt.lower_all_orderly body entry
      have within := Stmt.supply_grows_lower_all body entry
      have other := Stmt.lower_all_orderly alternative (Stmt.lowerAll entry body).supply
      have further := Stmt.supply_grows_lower_all alternative (Stmt.lowerAll entry body).supply
      constructor
      · simp only [Stmt.lower, defined_temps_append, defined_temps_branch, defined_temps_jump,
          defined_temps_label, defined_temps_nil, List.append_nil, test.temps]
        rw [inside.temps, other.temps, List.Ico.append_consecutive before within.temps]
        exact List.Ico.append_consecutive (before.trans within.temps) further.temps
      · simp only [Stmt.lower, sequential_append, sequential_branch, sequential_jump,
          sequential_label, sequential_nil, and_true]
        exact ⟨⟨test.reads, inside.reads⟩, other.reads⟩
  | .doWhile body condition place =>
      let entry : Supply := ⟨supply.temps, supply.labels + 2⟩
      have inside := Stmt.lower_all_orderly body entry
      have within := Stmt.supply_grows_lower_all body entry
      have test := condition.lower_orderly (Stmt.lowerAll entry body).supply.temps
      have behind := condition.next_le_lower (Stmt.lowerAll entry body).supply.temps
      constructor
      · simp only [Stmt.lower, defined_temps_append, defined_temps_branch, defined_temps_label,
          defined_temps_nil, List.append_nil, List.nil_append]
        rw [inside.temps, test.temps]
        exact List.Ico.append_consecutive within.temps behind
      · simp only [Stmt.lower, sequential_append, sequential_branch, sequential_label,
          sequential_nil, and_true, true_and]
        exact ⟨inside.reads, test.reads⟩
  | .forLoop counter first last step body place =>
      let origin := first.lower supply.temps
      let bound := last.lower origin.next
      let stride := step.lower (bound.next + 1)
      let entry : Supply := ⟨stride.next + 2, supply.labels + 2⟩
      have starts := first.lower_orderly supply.temps
      have bounds := last.lower_orderly origin.next
      have strides := step.lower_orderly (bound.next + 1)
      have inside := Stmt.lower_all_orderly body entry
      have toBound : origin.next ≤ bound.next := last.next_le_lower origin.next
      have toStride : bound.next + 1 ≤ stride.next := step.next_le_lower (bound.next + 1)
      have within : stride.next + 2 ≤ (Stmt.lowerAll entry body).supply.temps :=
        (Stmt.supply_grows_lower_all body entry).temps
      constructor
      · simp only [Stmt.lower_for_loop, defined_temps_append, defined_temps_store,
          defined_temps_assign, defined_temps_label, defined_temps_operation, defined_temps_branch,
          defined_temps_jump, defined_temps_nil]
        rw [starts.temps, bounds.temps, strides.temps, inside.temps]
        exact Supply.loop_temps (first.next_le_lower supply.temps) toBound toStride within
      · simp only [Stmt.lower_for_loop, sequential_append, sequential_store, sequential_assign,
          sequential_operation, sequential_branch, sequential_jump, sequential_label,
          sequential_nil, and_true]
        refine ⟨starts.reads, bounds.reads, last.lower_value_below _, strides.reads,
          step.lower_value_below _, ⟨trivial, ?_⟩, inside.reads, trivial, ?_⟩
        · exact Nat.lt_succ_of_lt toStride
        · exact Nat.lt_of_lt_of_le (Nat.lt_add_of_pos_right Nat.two_pos) within

theorem Stmt.lower_all_orderly (stmts : List Stmt) (supply : Supply) :
    (Stmt.lowerAll supply stmts).Orderly supply := by
  match stmts with
  | [] => exact Lowered.orderly_of_none (List.forall_mem_nil _)
  | first :: rest =>
      have before := first.lower_orderly supply
      have behind := Stmt.lower_all_orderly rest (first.lower supply).supply
      have grows := first.supply_grows_lower supply
      have further := Stmt.supply_grows_lower_all rest (first.lower supply).supply
      constructor
      · rw [Stmt.lowerAll, defined_temps_append, before.temps, behind.temps]
        exact List.Ico.append_consecutive grows.temps further.temps
      · exact (sequential_append _ _).mpr ⟨before.reads, behind.reads⟩

end

end ThreeAddress
