import ThreeAddress.Proofs.Compilation.Acceptance
import ThreeAddress.Proofs.Quad.Origins
import ThreeAddress.Proofs.Typing.Sites

/-!
# Divisions by a literal

The check refuses a division by a zero that is written as the divisor itself. Lowering drops
parentheses, so a zero inside parentheses becomes a literal divisor all the same. Main statement:
the quadruples of an accepted text that divide by a literal zero are as many as its divisions by a
zero in parentheses.
-/

namespace ThreeAddress

set_option autoImplicit false

def Operand.literal? : Operand → Option String
  | .literal text => some text
  | _ => none

/-- The text of a literal, in any number of parentheses. -/
def Expr.literal? : Expr → Option String
  | .integer text _ | .float text _ => some text
  | .paren inner _ => inner.literal?
  | _ => none

/-- A literal of that text, in at least one pair of parentheses. -/
def Expr.Wraps (text : String) : Expr → Prop
  | .paren inner _ => inner.literal? = some text
  | _ => False

instance (text : String) : DecidablePred (Expr.Wraps text)
  | .paren inner _ => inferInstanceAs (Decidable (inner.literal? = some text))
  | .identifier .. | .integer .. | .float .. | .element .. | .negate .. | .binary .. =>
      .isFalse id

def Expr.divisors : Expr → List Expr
  | .identifier .. | .integer .. | .float .. => []
  | .element _ inner _ | .paren inner _ | .negate inner _ => inner.divisors
  | .binary op left right _ =>
      left.divisors ++ right.divisors ++ if op = .div then [right] else []

def Program.divisors (program : Program) : List Expr :=
  (program.statements.flatMap Stmt.expressions).flatMap Expr.divisors

namespace Quad

def literalDivisor? (quad : Quad) : Option String :=
  if quad.op = .arithmetic .div then quad.second.bind Operand.literal? else none

def DividesBy (text : String) (quad : Quad) : Prop :=
  quad.op = .arithmetic .div ∧ quad.second = some (.literal text)

instance (text : String) : DecidablePred (DividesBy text) :=
  fun quad => inferInstanceAs (Decidable (quad.op = _ ∧ quad.second = _))

theorem literal_divisor?_eq_some_iff (quad : Quad) (text : String) :
    quad.literalDivisor? = some text ↔ quad.DividesBy text := by
  rw [literalDivisor?, DividesBy]
  by_cases division : quad.op = .arithmetic .div
  · rw [if_pos division, Option.bind_eq_some_iff]
    constructor
    · rintro ⟨operand, second, found⟩
      cases operand <;> cases found
      exact ⟨division, second⟩
    · rintro ⟨_, second⟩
      exact ⟨_, second, rfl⟩
  · simp [division]

def literalDivisors (code : List Quad) : List String :=
  code.filterMap literalDivisor?

@[simp] theorem literal_divisors_nil : literalDivisors [] = [] := rfl

@[simp] theorem literal_divisors_append (front back : List Quad) :
    literalDivisors (front ++ back) = literalDivisors front ++ literalDivisors back := by
  rw [literalDivisors, List.filterMap_append]
  rfl

@[simp] theorem literal_divisors_cons_of_ne {quad : Quad} (other : quad.op ≠ .arithmetic .div)
    (rest : List Quad) : literalDivisors (quad :: rest) = literalDivisors rest := by
  have none : quad.literalDivisor? = none := if_neg other
  rw [literalDivisors, List.filterMap_cons_none none]
  rfl

theorem literal_divisors_compute {op : Operation} (other : op ≠ .arithmetic .div)
    (code : List Quad) (first : Operand) (second : Option Operand) (next : Nat) :
    literalDivisors (LoweredValue.compute code op first second next).code =
      literalDivisors code := by
  rw [LoweredValue.compute, literal_divisors_append, literal_divisors_cons_of_ne other,
    literal_divisors_nil, List.append_nil]

theorem literal_divisors_division (code : List Quad) (first second : Operand) (next : Nat) :
    literalDivisors (LoweredValue.compute code (.arithmetic .div) first (some second) next).code =
      literalDivisors code ++ second.literal?.toList := by
  rw [LoweredValue.compute, literal_divisors_append]
  cases found : second.literal? with
  | none => simp [literalDivisors, literalDivisor?, found]
  | some text => simp [literalDivisors, literalDivisor?, found]

end Quad

def Expr.literalDivisors (expr : Expr) : List String :=
  expr.divisors.filterMap Expr.literal?

theorem Expr.literal?_value_lower (expr : Expr) (next : Nat) :
    (expr.lower next).value.literal? = expr.literal? := by
  induction expr generalizing next with
  | identifier | integer | float | element | negate | binary => rfl
  | paren inner place ih => exact ih next

theorem Expr.literal_divisors_lower (expr : Expr) (next : Nat) :
    Quad.literalDivisors (expr.lower next).code = expr.literalDivisors := by
  induction expr generalizing next with
  | identifier | integer | float => rfl
  | element array index place ih =>
      rw [Expr.lower, Quad.literal_divisors_compute (by simp)]
      exact ih next
  | paren inner place ih => exact ih next
  | negate inner place ih =>
      rw [Expr.lower, Quad.literal_divisors_compute (by simp)]
      exact ih next
  | binary op left right place ihLeft ihRight =>
      rw [Expr.literalDivisors, Expr.divisors, List.filterMap_append, List.filterMap_append,
        ← Expr.literalDivisors, ← Expr.literalDivisors, ← ihLeft next,
        ← ihRight (left.lower next).next, Expr.lower]
      by_cases division : op = .div
      · rw [division, if_pos rfl, Quad.literal_divisors_division, Quad.literal_divisors_append,
          right.literal?_value_lower]
        cases found : right.literal? with
        | none => rw [List.filterMap_cons_none found]; rfl
        | some text => rw [List.filterMap_cons_some found]; rfl
      · have other : Operation.arithmetic op ≠ .arithmetic .div := by
          intro same
          exact division (Operation.arithmetic.inj same)
        rw [Quad.literal_divisors_compute other, Quad.literal_divisors_append, if_neg division]
        exact (List.append_nil _).symm

theorem Cond.literal_divisors_lower (cond : Cond) (next : Nat) :
    Quad.literalDivisors (cond.lower next).code = cond.sides.flatMap Expr.literalDivisors := by
  induction cond generalizing next with
  | compare op position left right place =>
      rw [Cond.lower, Quad.literal_divisors_compute (by simp), Quad.literal_divisors_append,
        left.literal_divisors_lower, right.literal_divisors_lower]
      simp [Cond.sides]
  | and left right place ihLeft ihRight | or left right place ihLeft ihRight =>
      rw [Cond.lower, Quad.literal_divisors_compute (by simp), Quad.literal_divisors_append,
        ihLeft, ihRight, Cond.sides, List.flatMap_append]
  | not inner place ih =>
      rw [Cond.lower, Quad.literal_divisors_compute (by simp)]
      exact ih next
  | paren inner place ih => exact ih next

theorem Stmt.literal_divisors_lower_output (text : Option String) (names : List Ident) :
    Quad.literalDivisors (Stmt.lowerOutput text names) = [] :=
  Stmt.filter_map_lower_output (fun _ => rfl) text names

/-- A statement divides by the literals that the divisors in its own expressions are. -/
theorem Segment.literal_divisors_own (segment : Segment) :
    Quad.literalDivisors (segment.own.map Prod.fst) =
      segment.stmt.expressions.flatMap Expr.literalDivisors := by
  obtain ⟨start, stmt, supply⟩ := segment
  cases stmt with
  | scalar | array | input => rfl
  | constant name type position value place | assign target value place =>
      simp [Segment.own, Segment.code, Stmt.lower, Stmt.expressions, Expr.lowerInto, Quad.assign,
        value.literal_divisors_lower]
  | ifThen condition body place | ifElse condition body alternative place
  | doWhile body condition place =>
      simp [Segment.own, Stmt.expressions, Quad.branch, Quad.jump, Quad.label,
        condition.literal_divisors_lower]
  | forLoop counter first last step body place =>
      simp [Segment.own, Stmt.countHead, Stmt.countTail, Stmt.expressions, Quad.assign,
        Quad.branch, Quad.jump, Quad.label, first.literal_divisors_lower,
        last.literal_divisors_lower, step.literal_divisors_lower]
  | output text names place =>
      simp [Segment.own, Segment.code, Stmt.lower, Stmt.expressions,
        Stmt.literal_divisors_lower_output]

/-- A program divides by the literals among its divisors. -/
theorem Program.literal_divisors_lower_perm (program : Program) (supply : Supply) :
    (Quad.literalDivisors (program.lower supply).code).Perm
      (program.divisors.filterMap Expr.literal?) := by
  have whole := program.filterMap_lower_perm Quad.literalDivisor? supply
  have own : (fun segment : Segment => (segment.own.map Prod.fst).filterMap Quad.literalDivisor?) =
      fun segment => segment.stmt.expressions.flatMap Expr.literalDivisors :=
    funext Segment.literal_divisors_own
  have statements : program.statements = (program.segments supply).map Segment.stmt :=
    (Stmt.map_stmt_segments program 0 supply).symm
  rw [own] at whole
  rw [Program.divisors, statements, List.filterMap_flatMap, List.flatMap_assoc, List.flatMap_map]
  exact whole

section Spelling

theorem Expr.spelled_divisors (expr : Expr) (spelled : ∀ kind ∈ expr.unparse, kind.Spelled) :
    ∀ divisor ∈ expr.divisors, ∀ kind ∈ divisor.unparse, kind.Spelled := by
  induction expr with
  | identifier | integer | float => exact List.forall_mem_nil _
  | element array index place ih =>
      simp only [Expr.unparse, List.forall_mem_cons, List.forall_mem_append] at spelled
      exact ih spelled.2.2.1
  | paren inner place ih =>
      simp only [Expr.unparse, List.forall_mem_cons, List.forall_mem_append] at spelled
      exact ih spelled.2.1
  | negate inner place ih =>
      simp only [Expr.unparse, List.forall_mem_cons] at spelled
      exact ih spelled.2
  | binary op left right place ihLeft ihRight =>
      simp only [Expr.unparse, List.forall_mem_cons, List.forall_mem_append] at spelled
      simp only [Expr.divisors, List.forall_mem_append]
      refine ⟨⟨ihLeft spelled.1, ihRight spelled.2.2⟩, ?_⟩
      by_cases division : op = .div
      · rw [if_pos division]
        exact List.forall_mem_singleton.mpr spelled.2.2
      · rw [if_neg division]
        exact List.forall_mem_nil _

theorem Cond.spelled_sides (cond : Cond) (spelled : ∀ kind ∈ cond.unparse, kind.Spelled) :
    ∀ side ∈ cond.sides, ∀ kind ∈ side.unparse, kind.Spelled := by
  induction cond with
  | compare op position left right place =>
      simp only [Cond.unparse, List.forall_mem_cons, List.forall_mem_append] at spelled
      simp only [Cond.sides, List.forall_mem_cons]
      exact ⟨spelled.1, spelled.2.2, List.forall_mem_nil _⟩
  | and left right place ihLeft ihRight | or left right place ihLeft ihRight =>
      simp only [Cond.unparse, List.forall_mem_cons, List.forall_mem_append] at spelled
      exact List.forall_mem_append.mpr ⟨ihLeft spelled.1, ihRight spelled.2.2⟩
  | not inner place ih =>
      simp only [Cond.unparse, List.forall_mem_cons] at spelled
      exact ih spelled.2
  | paren inner place ih =>
      simp only [Cond.unparse, List.forall_mem_cons, List.forall_mem_append] at spelled
      exact ih spelled.2.1

theorem Stmt.spelled_expressions (stmt : Stmt) (spelled : ∀ kind ∈ stmt.unparse, kind.Spelled) :
    ∀ expr ∈ stmt.expressions, ∀ kind ∈ expr.unparse, kind.Spelled := by
  cases stmt with
  | scalar | array | input | output => exact List.forall_mem_nil _
  | constant name type position value place | assign target value place =>
      simp only [Stmt.unparse, List.forall_mem_append] at spelled
      exact List.forall_mem_singleton.mpr spelled.1.2
  | ifThen condition body place =>
      simp only [Stmt.unparse, List.forall_mem_append] at spelled
      exact condition.spelled_sides spelled.1.1.1.2
  | ifElse condition body alternative place =>
      simp only [Stmt.unparse, List.forall_mem_append] at spelled
      exact condition.spelled_sides spelled.1.1.1.1.1.2
  | doWhile body condition place =>
      simp only [Stmt.unparse, List.forall_mem_append] at spelled
      exact condition.spelled_sides spelled.1.2
  | forLoop counter first last step body place =>
      simp only [Stmt.unparse, List.forall_mem_append] at spelled
      simp only [Stmt.expressions, List.forall_mem_cons]
      obtain ⟨⟨⟨⟨⟨⟨⟨⟨_, lower⟩, _⟩, upper⟩, _⟩, stride⟩, _⟩, _⟩, _⟩ := spelled
      exact ⟨lower, upper, stride, List.forall_mem_nil _⟩

mutual

theorem Stmt.spelled_inner (stmt : Stmt) (spelled : ∀ kind ∈ stmt.unparse, kind.Spelled) :
    ∀ inside ∈ stmt.inner, ∀ kind ∈ inside.unparse, kind.Spelled := by
  match stmt with
  | .scalar .. | .array .. | .constant .. | .assign .. | .input .. | .output .. =>
      exact List.forall_mem_nil _
  | .ifThen condition body place =>
      simp only [Stmt.unparse, List.forall_mem_append] at spelled
      exact Stmt.spelled_nested body spelled.1.2
  | .ifElse condition body alternative place =>
      simp only [Stmt.unparse, List.forall_mem_append] at spelled
      exact List.forall_mem_append.mpr ⟨Stmt.spelled_nested body spelled.1.1.1.2,
        Stmt.spelled_nested alternative spelled.1.2⟩
  | .doWhile body condition place =>
      simp only [Stmt.unparse, List.forall_mem_append] at spelled
      exact Stmt.spelled_nested body spelled.1.1.1.2
  | .forLoop counter first last step body place =>
      simp only [Stmt.unparse, List.forall_mem_append] at spelled
      exact Stmt.spelled_nested body spelled.1.2

/-- The literals of every statement, at any depth, are literals of the program. -/
theorem Stmt.spelled_nested (stmts : List Stmt)
    (spelled : ∀ kind ∈ Stmt.unparseAll stmts, kind.Spelled) :
    ∀ stmt ∈ Stmt.nested stmts, ∀ kind ∈ stmt.unparse, kind.Spelled := by
  match stmts with
  | [] => exact List.forall_mem_nil _
  | first :: rest =>
      rw [Stmt.unparseAll, List.forall_mem_append] at spelled
      exact Stmt.forall_nested_cons spelled.1 (first.spelled_inner spelled.1)
        (Stmt.spelled_nested rest spelled.2)

end

end Spelling

/-- No divisor of a typed expression is written as a zero. -/
theorem Expr.HasType.divisor_unwritten {scope : Context} {expr : Expr} {type : DataType}
    (typed : expr.HasType scope type) : ∀ divisor ∈ expr.divisors, ¬ divisor.WrittenZero := by
  induction typed with
  | integer | float | identifier => exact List.forall_mem_nil _
  | element _ _ ih | paren _ ih | negate _ ih => exact ih
  | @binary op left right _ _ _ _ _ divisor ihLeft ihRight =>
      simp only [Expr.divisors, List.forall_mem_append]
      refine ⟨⟨ihLeft, ihRight⟩, ?_⟩
      by_cases division : op = .div
      · rw [if_pos division]
        exact List.forall_mem_singleton.mpr fun zero => divisor ⟨division, zero⟩
      · rw [if_neg division]
        exact List.forall_mem_nil _

def zeroTexts : List String := ["0", "0.0"]

/-- A divisor that is not written as a zero can be one in parentheses only. -/
theorem Expr.literal?_eq_zero_iff_wraps {divisor : Expr} {zero : String} (isZero : zero ∈ zeroTexts)
    (spelled : ∀ kind ∈ divisor.unparse, kind.Spelled) (unwritten : ¬ divisor.WrittenZero) :
    divisor.literal? = some zero ↔ divisor.Wraps zero := by
  cases divisor with
  | paren inner place => exact Iff.rfl
  | identifier | element | negate | binary => simp [Expr.literal?, Expr.Wraps]
  | integer text place =>
      have digits : Scan.Digits text.toList := spelled (.integer text) List.mem_cons_self
      have other : text ≠ zero := by
        rintro rfl
        simp only [zeroTexts, List.mem_cons, List.not_mem_nil, or_false] at isZero
        rcases isZero with rfl | rfl
        · exact unwritten .integer
        · exact absurd (digits.2 '.' (by decide)) (by decide)
      simp [Expr.literal?, Expr.Wraps, other]
  | float text place =>
      have decimal : Scan.Decimal text.toList := spelled (.float text) List.mem_cons_self
      have other : text ≠ zero := by
        rintro rfl
        simp only [zeroTexts, List.mem_cons, List.not_mem_nil, or_false] at isZero
        rcases isZero with rfl | rfl
        · obtain ⟨whole, fraction, parts, _⟩ := decimal
          have point : '.' ∈ "0".toList := by
            rw [parts]
            exact List.mem_append_right _ List.mem_cons_self
          exact absurd point (by decide)
        · exact unwritten .float
      simp [Expr.literal?, Expr.Wraps, other]

theorem Program.Accepted.literal?_divisor_iff {program : Program} (accepted : program.Accepted)
    {zero : String} (isZero : zero ∈ zeroTexts) :
    ∀ divisor ∈ program.divisors, (divisor.literal? = some zero ↔ divisor.Wraps zero) := by
  intro divisor member
  obtain ⟨expr, listed, within⟩ := List.mem_flatMap.mp member
  obtain ⟨stmt, present, own⟩ := List.mem_flatMap.mp listed
  obtain ⟨site, _, uses⟩ := Program.sited accepted.faultless stmt present
  obtain ⟨type, typed⟩ := uses.has_type expr own
  have statement := Stmt.spelled_nested program accepted.spelled stmt present
  have expression := stmt.spelled_expressions statement expr own
  exact Expr.literal?_eq_zero_iff_wraps isZero (expr.spelled_divisors expression divisor within)
    (typed.divisor_unwritten divisor within)

theorem Program.Accepted.countP_divides_by {program : Program} (accepted : program.Accepted)
    {zero : String} (isZero : zero ∈ zeroTexts) :
    (program.lower .fresh).code.countP (fun quad => quad.DividesBy zero) =
      program.divisors.countP (fun divisor => divisor.Wraps zero) := by
  have counted := (program.literal_divisors_lower_perm .fresh).count_eq zero
  rw [Quad.literalDivisors, List.count_filterMap, List.count_filterMap] at counted
  calc
    (program.lower .fresh).code.countP (fun quad => quad.DividesBy zero)
      = (program.lower .fresh).code.countP fun quad => quad.literalDivisor? == some zero := by
        apply List.countP_congr
        intro quad _
        simp [Quad.literal_divisor?_eq_some_iff]
    _ = program.divisors.countP fun divisor => divisor.literal? == some zero := counted
    _ = program.divisors.countP fun divisor => divisor.Wraps zero := by
        apply List.countP_congr
        intro divisor member
        simp [accepted.literal?_divisor_iff isZero divisor member]

/-- The code of an accepted text divides by a literal zero as often as the text divides by a zero in
parentheses, and so not at all exactly if no divisor is such a zero. -/
theorem compile_zero_divisors_wrapped {settings : Settings} {source : List Char}
    {program : Program} (read : Source.program source = .ok program)
    (succeeded : (compile settings source).succeeded = true) :
    ∃ code, (compile settings source).code = some code ∧ ∀ zero ∈ zeroTexts,
      (code.countP fun quad => quad.DividesBy zero) =
        (program.divisors.countP fun divisor => divisor.Wraps zero) ∧
      ((∀ quad ∈ code, ¬ quad.DividesBy zero) ↔
        ∀ divisor ∈ program.divisors, ¬ divisor.Wraps zero) := by
  obtain ⟨same, again, accepted, code, _⟩ := compile_succeeded succeeded
  rw [read] at again
  cases again
  refine ⟨_, code, ?_⟩
  intro zero isZero
  have counted := accepted.countP_divides_by isZero
  refine ⟨counted, ?_⟩
  have none : (program.lower .fresh).code.countP (fun quad => quad.DividesBy zero) = 0 ↔
      program.divisors.countP (fun divisor => divisor.Wraps zero) = 0 := by
    rw [counted]
  simpa only [List.countP_eq_zero, decide_eq_true_eq] using none

/-- Divisions by a zero in two pairs of parentheses, by a variable, and by a number. -/
def wrappedZero : List Char :=
  "let x: Int; x := 1 / ((0)); x := x / x / 2;".toList

theorem compile_zero_divisors_wrapped_twice :
    ∃ program, Source.program wrappedZero = .ok program ∧
      (compile default wrappedZero).succeeded = true ∧
      program.divisors.countP (fun divisor => divisor.Wraps "0") = 1 ∧
      ∃ code, (compile default wrappedZero).code = some code ∧
        code.countP (fun quad => quad.DividesBy "0") = 1 ∧
        ∀ quad ∈ code, ¬ quad.DividesBy "0.0" := by
  have succeeded : (compile default wrappedZero).succeeded = true := by decide +kernel
  have divisors : ∀ program ∈ (Source.program wrappedZero).toOption,
      program.divisors.countP (fun divisor => divisor.Wraps "0") = 1 ∧
        ∀ divisor ∈ program.divisors, ¬ divisor.Wraps "0.0" := by
    decide +kernel
  obtain ⟨program, read, _, _, _⟩ := compile_succeeded succeeded
  obtain ⟨once, never⟩ := divisors program (by rw [read]; rfl)
  obtain ⟨code, compiled, counted⟩ := compile_zero_divisors_wrapped read succeeded
  exact ⟨program, read, succeeded, once, code, compiled,
    (counted "0" (by decide)).1.trans once, (counted "0.0" (by decide)).2.mpr never⟩

/-- A division by a zero in parentheses is accepted, and its code divides by a literal zero. -/
theorem division_by_wrapped_zero_accepted :
    let compiled := compile default "let x: Int; x := 1 / (0);".toList
    compiled.succeeded = true ∧ ∃ code ∈ compiled.code, ∃ quad ∈ code, quad.DividesBy "0" := by
  decide +kernel

end ThreeAddress
