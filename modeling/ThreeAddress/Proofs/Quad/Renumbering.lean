import ThreeAddress.Proofs.Quad.Flow

/-!
# A used supply only renumbers

Lowering looks at a supply only to number what it takes. So a supply from which something has been
taken gives the code that a fresh one gives, with every temporary and every label moved up by what
was taken. Main statement: this holds for all programs that one generator lowers in turn, and for
the two parts of a program that is cut in two.
-/

namespace ThreeAddress

set_option autoImplicit false

/-! ## Moving the numbers of a code -/

instance : Add Supply := ⟨fun first second =>
  ⟨first.temps + second.temps, first.labels + second.labels⟩⟩

namespace Supply

@[simp] theorem temps_add (offset supply : Supply) :
    (offset + supply).temps = offset.temps + supply.temps := rfl

@[simp] theorem labels_add (offset supply : Supply) :
    (offset + supply).labels = offset.labels + supply.labels := rfl

@[simp] theorem add_mk (offset : Supply) (temps labels : Nat) :
    offset + ⟨temps, labels⟩ = ⟨offset.temps + temps, offset.labels + labels⟩ := rfl

theorem add_assoc (first second third : Supply) :
    first + second + third = first + (second + third) :=
  congrArg₂ Supply.mk (Nat.add_assoc _ _ _) (Nat.add_assoc _ _ _)

@[simp] theorem fresh_add (supply : Supply) : fresh + supply = supply :=
  congrArg₂ Supply.mk (Nat.zero_add _) (Nat.zero_add _)

end Supply

def Operand.shift (offset : Supply) : Operand → Operand
  | .literal text => .literal text
  | .var name => .var name
  | .temp number => .temp (offset.temps + number)
  | .label number => .label (offset.labels + number)

namespace Quad

def shift (offset : Supply) (quad : Quad) : Quad :=
  ⟨quad.op, quad.first.map (·.shift offset), quad.second.map (·.shift offset),
    quad.result.map (·.shift offset)⟩

def shiftAll (offset : Supply) (code : List Quad) : List Quad :=
  code.map (shift offset)

end Quad

def LoweredValue.shift (offset : Supply) (lowered : LoweredValue) : LoweredValue :=
  ⟨Quad.shiftAll offset lowered.code, lowered.value.shift offset, offset.temps + lowered.next⟩

def Lowered.shift (offset : Supply) (lowered : Lowered) : Lowered :=
  ⟨Quad.shiftAll offset lowered.code, offset + lowered.supply⟩

section Shift

variable (offset : Supply)

@[simp] theorem LoweredValue.code_shift (lowered : LoweredValue) :
    (lowered.shift offset).code = Quad.shiftAll offset lowered.code := rfl

@[simp] theorem LoweredValue.value_shift (lowered : LoweredValue) :
    (lowered.shift offset).value = lowered.value.shift offset := rfl

@[simp] theorem LoweredValue.next_shift (lowered : LoweredValue) :
    (lowered.shift offset).next = offset.temps + lowered.next := rfl

@[simp] theorem Lowered.code_shift (lowered : Lowered) :
    (lowered.shift offset).code = Quad.shiftAll offset lowered.code := rfl

@[simp] theorem Lowered.supply_shift (lowered : Lowered) :
    (lowered.shift offset).supply = offset + lowered.supply := rfl

@[simp] theorem Operand.shift_var (name : String) : (var name).shift offset = .var name := rfl

@[simp] theorem Operand.shift_temp (number : Nat) :
    (temp number).shift offset = .temp (offset.temps + number) := rfl

@[simp] theorem Quad.shift_mk (op : Operation) (first second result : Option Operand) :
    (Quad.mk op first second result).shift offset =
      ⟨op, first.map (·.shift offset), second.map (·.shift offset),
        result.map (·.shift offset)⟩ := rfl

@[simp] theorem Quad.shift_label (number : Nat) :
    (Quad.label number).shift offset = .label (offset.labels + number) := rfl

@[simp] theorem Quad.shift_jump (number : Nat) :
    (Quad.jump number).shift offset = .jump (offset.labels + number) := rfl

@[simp] theorem Quad.shift_branch (op : Operation) (condition : Operand) (number : Nat) :
    (Quad.branch op condition number).shift offset =
      .branch op (condition.shift offset) (offset.labels + number) := rfl

@[simp] theorem Quad.shift_assign (value target : Operand) :
    (Quad.assign value target).shift offset =
      .assign (value.shift offset) (target.shift offset) := rfl

@[simp] theorem Quad.shift_all_nil : shiftAll offset [] = [] := rfl

@[simp] theorem Quad.shift_all_cons (quad : Quad) (rest : List Quad) :
    shiftAll offset (quad :: rest) = quad.shift offset :: shiftAll offset rest := rfl

@[simp] theorem Quad.shift_all_append (front back : List Quad) :
    shiftAll offset (front ++ back) = shiftAll offset front ++ shiftAll offset back :=
  List.map_append

theorem LoweredValue.compute_shift (code : List Quad) (op : Operation) (first : Operand)
    (second : Option Operand) (next : Nat) :
    compute (Quad.shiftAll offset code) op (first.shift offset)
        (second.map (·.shift offset)) (offset.temps + next) =
      (compute code op first second next).shift offset := by
  simp only [compute, shift, Quad.shift_all_append]
  rfl

/-! ## Lowering from a supply that has been used -/

theorem Expr.lower_shift (expr : Expr) (next : Nat) :
    expr.lower (offset.temps + next) = (expr.lower next).shift offset := by
  induction expr generalizing next with
  | identifier | integer | float => rfl
  | element array index place ih =>
      simp only [Expr.lower, ih]
      exact LoweredValue.compute_shift offset _ _ (.var array.name) (some _) _
  | paren inner place ih => exact ih next
  | negate inner place ih =>
      simp only [Expr.lower, ih]
      exact LoweredValue.compute_shift offset _ _ (.literal "0") (some _) _
  | binary op left right place ihLeft ihRight =>
      simp only [Expr.lower, ihLeft]
      rw [LoweredValue.shift, ihRight, LoweredValue.shift, ← Quad.shift_all_append]
      exact LoweredValue.compute_shift offset _ _ _ (some _) _

theorem Cond.lower_shift (cond : Cond) (next : Nat) :
    cond.lower (offset.temps + next) = (cond.lower next).shift offset := by
  induction cond generalizing next with
  | compare op position left right place =>
      simp only [Cond.lower, Expr.lower_shift]
      rw [LoweredValue.shift, Expr.lower_shift, LoweredValue.shift, ← Quad.shift_all_append]
      exact LoweredValue.compute_shift offset _ _ _ (some _) _
  | and left right place ihLeft ihRight | or left right place ihLeft ihRight =>
      simp only [Cond.lower, ihLeft]
      rw [LoweredValue.shift, ihRight, LoweredValue.shift, ← Quad.shift_all_append]
      exact LoweredValue.compute_shift offset _ _ _ (some _) _
  | not inner place ih =>
      simp only [Cond.lower, ih]
      exact LoweredValue.compute_shift offset _ _ _ none _
  | paren inner place ih => exact ih next

theorem Expr.lower_into_shift (target : String) (value : Expr) (supply : Supply) :
    value.lowerInto target (offset + supply) = (value.lowerInto target supply).shift offset := by
  simp only [Expr.lowerInto, Lowered.shift, Quad.shift_all_append, Supply.temps_add,
    value.lower_shift]
  rfl

theorem Stmt.lower_output_shift (text : Option String) (names : List Ident) :
    Quad.shiftAll offset (Stmt.lowerOutput text names) = Stmt.lowerOutput text names := by
  rw [Stmt.lowerOutput, Quad.shift_all_append, Quad.shiftAll, Quad.shiftAll, List.map_map,
    List.map_map]
  rfl

mutual

theorem Stmt.lower_shift (stmt : Stmt) (supply : Supply) :
    stmt.lower (offset + supply) = (stmt.lower supply).shift offset := by
  match stmt with
  | .scalar .. | .array .. | .input .. => rfl
  | .output text names place =>
      simp only [Stmt.lower, Lowered.shift, Stmt.lower_output_shift]
  | .constant name type position value place => exact value.lower_into_shift offset _ supply
  | .assign target value place => exact value.lower_into_shift offset _ supply
  | .ifThen condition body place =>
      have inside := Stmt.lower_all_shift body
        ⟨(condition.lower supply.temps).next, supply.labels + 2⟩
      rw [Supply.add_mk] at inside
      rw [Lowered.shift]
      simp [Stmt.lower, condition.lower_shift, Nat.add_assoc, inside]
  | .ifElse condition body alternative place =>
      let entry : Supply := ⟨(condition.lower supply.temps).next, supply.labels + 2⟩
      have inside := Stmt.lower_all_shift body entry
      have other := Stmt.lower_all_shift alternative (Stmt.lowerAll entry body).supply
      rw [Supply.add_mk] at inside
      rw [Lowered.shift]
      simp [Stmt.lower, condition.lower_shift, Nat.add_assoc, inside, other, entry]
  | .doWhile body condition place =>
      have inside := Stmt.lower_all_shift body ⟨supply.temps, supply.labels + 2⟩
      rw [Supply.add_mk] at inside
      rw [Lowered.shift]
      simp [Stmt.lower, condition.lower_shift, Nat.add_assoc, inside]
  | .forLoop counter first last step body place =>
      let bound := last.lower (first.lower supply.temps).next
      let stride := step.lower (bound.next + 1)
      have inside := Stmt.lower_all_shift body ⟨stride.next + 2, supply.labels + 2⟩
      rw [Supply.add_mk] at inside
      rw [Stmt.lower_for_loop, Stmt.lower_for_loop, Lowered.shift]
      simp [Expr.lower_shift, Nat.add_assoc, inside, stride, bound]

theorem Stmt.lower_all_shift (stmts : List Stmt) (supply : Supply) :
    Stmt.lowerAll (offset + supply) stmts = (Stmt.lowerAll supply stmts).shift offset := by
  match stmts with
  | [] => rfl
  | first :: rest =>
      have before := first.lower_shift supply
      have behind := Stmt.lower_all_shift rest (first.lower supply).supply
      simp only [Stmt.lowerAll, before, Lowered.shift, behind, Quad.shift_all_append]

end

end Shift

theorem Stmt.lower_all_append (front back : List Stmt) (supply : Supply) :
    Stmt.lowerAll supply (front ++ back) =
      ⟨(Stmt.lowerAll supply front).code ++
          (Stmt.lowerAll (Stmt.lowerAll supply front).supply back).code,
        (Stmt.lowerAll (Stmt.lowerAll supply front).supply back).supply⟩ := by
  induction front generalizing supply with
  | nil => rfl
  | cons first rest ih => simp only [List.cons_append, Stmt.lowerAll, ih, List.append_assoc]

namespace Program

def taken (program : Program) : Supply :=
  (program.lower .fresh).supply

def takenAll : List Program → Supply
  | [] => .fresh
  | program :: rest => program.taken + takenAll rest

/-- What a supply has given out before shows in the numbers only. -/
theorem lower_eq_shift (program : Program) (supply : Supply) :
    program.lower supply = (program.lower .fresh).shift supply :=
  Stmt.lower_all_shift supply program .fresh

theorem code_lower_append (front back : Program) :
    (Program.lower .fresh (front ++ back)).code =
      (front.lower .fresh).code ++ Quad.shiftAll front.taken (back.lower .fresh).code := by
  have behind := back.lower_eq_shift front.taken
  rw [Program.lower, Stmt.lower_all_append]
  exact congrArg (fun lowered => (front.lower .fresh).code ++ lowered.code) behind

end Program

/-! ## Programs that share a generator -/

/-- A temporary stands in the quadruple, or a label that it puts or may jump to. -/
def Quad.Numbered (quad : Quad) : Prop :=
  (∃ number, .temp number ∈ quad.operands) ∨
    ∃ label, quad.target? = some label ∨ quad.defined? = some label

theorem Program.numbered_apart_lower {earlier later : Program} {supply after : Supply}
    (grown : (earlier.lower supply).supply.Grows after) :
    ∀ quad ∈ (later.lower after).code, quad.Numbered → quad ∉ (earlier.lower supply).code := by
  intro quad again numbered member
  rcases numbered with ⟨number, used⟩ | ⟨label, used⟩
  · have below := (Program.temp_between_of_mem_lower member used).2
    have above := (Program.temp_between_of_mem_lower again used).1
    have least := grown.temps
    omega
  · have below := (Stmt.labels_between_lower_all earlier supply quad member label used).2
    have above := (Stmt.labels_between_lower_all later after quad again label used).1
    have least := grown.labels
    rw [Program.lower] at least
    omega

namespace Generator

/-- One call: nothing is pending before it or after it. -/
theorem generate_eq (supply : Supply) (program : Program) :
    Generator.generate ⟨[], supply⟩ program =
      (Quad.shiftAll supply (program.lower .fresh).code, ⟨[], supply + program.taken⟩) := by
  rw [generate, program.lower_eq_shift, List.nil_append, Lowered.code_shift, Lowered.supply_shift,
    Program.taken]

theorem generate_each_eq_mapIdx (programs : List Program) (supply : Supply) :
    Generator.generateEach ⟨[], supply⟩ programs =
      programs.mapIdx fun index program =>
        Quad.shiftAll (supply + Program.takenAll (programs.take index))
          (program.lower .fresh).code := by
  induction programs generalizing supply with
  | nil => rfl
  | cons program rest ih =>
      rw [generateEach, generate_eq, ih, List.mapIdx_cons]
      simp only [List.take_succ_cons, Program.takenAll, Supply.add_assoc]
      rfl

/-- Reusing a generator only renumbers: the code of each program is what a new generator makes of
it, moved up by what the programs before it take, and it has no numbered quadruple in common with
theirs. A program that is cut in two has the code of the first part, and behind it the code of the
second, moved up by what the first one takes. -/
theorem generate_each_renumbers :
    (∀ programs : List Program,
      Generator.new.generateEach programs =
        (programs.mapIdx fun index program =>
          Quad.shiftAll (Program.takenAll (programs.take index))
            (Generator.new.generate program).1) ∧
      (Generator.new.generateEach programs).Pairwise fun earlier later =>
        ∀ quad ∈ later, quad.Numbered → quad ∉ earlier) ∧
    ∀ front back : Program,
      (Generator.new.generate (front ++ back)).1 =
        (Generator.new.generate front).1 ++
          Quad.shiftAll front.taken (Generator.new.generate back).1 := by
  refine ⟨fun programs => ⟨?_, pairwise_generate_each Program.numbered_apart_lower .fresh programs⟩,
    Program.code_lower_append⟩
  rw [new, generate_each_eq_mapIdx]
  simp only [Supply.fresh_add]
  rfl

end Generator

/-- The second `nestedLoops` starts at the numbers that the first one leaves. -/
theorem generate_each_renumbers_nested_loops :
    let code := (Generator.new.generate nestedLoops).1
    Generator.new.generateEach [nestedLoops, nestedLoops] = [code, Quad.shiftAll ⟨7, 6⟩ code] ∧
      (Quad.label 6).Numbered ∧ Quad.label 6 ∈ Quad.shiftAll ⟨7, 6⟩ code ∧
      Quad.label 6 ∉ code := by
  intro code
  obtain ⟨renumbered, apart⟩ := Generator.generate_each_renumbers.1 [nestedLoops, nestedLoops]
  have codes : Generator.new.generateEach [nestedLoops, nestedLoops] =
      [code, Quad.shiftAll ⟨7, 6⟩ code] := renumbered.trans (by decide)
  have numbered : (Quad.label 6).Numbered := .inr ⟨6, .inr rfl⟩
  have member : Quad.label 6 ∈ Quad.shiftAll ⟨7, 6⟩ code := by decide
  rw [codes, List.pairwise_pair] at apart
  exact ⟨codes, numbered, member, apart _ member numbered⟩

end ThreeAddress
