import ThreeAddress.Proofs.Quad.Supply
import ThreeAddress.Proofs.Token.Spelling

/-!
# The quadruples that lowering emits

Lowering emits quadruples of a few forms. What holds of a code quadruple by quadruple follows from
these forms without another look at the statements.
-/

namespace ThreeAddress

set_option autoImplicit false

/-- An operand that stands for a number: a number as it was written, a variable or a temporary. -/
def Operand.Numeric : Operand → Prop
  | .literal text => Scan.Digits text.toList ∨ Scan.Decimal text.toList
  | .var _ | .temp _ => True
  | .label _ => False

def Operation.isBinary : Operation → Bool
  | .arithmetic _ | .compare _ | .and | .or | .arrayRead => true
  | _ => false

inductive Quad.Emitted : Quad → Prop
  | label (number : Nat) : Emitted (.label number)
  | jump (number : Nat) : Emitted (.jump number)
  | jumpIfZero {condition : Operand} (number : Nat) : condition.Numeric →
      Emitted (.branch .jumpIfZero condition number)
  | jumpIfTrue {condition : Operand} (number : Nat) : condition.Numeric →
      Emitted (.branch .jumpIfTrue condition number)
  | store {value : Operand} (name : String) : value.Numeric → Emitted (.assign value (.var name))
  | hold {value : Operand} (number : Nat) : value.Numeric → Emitted (.assign value (.temp number))
  | binary {op : Operation} {first second : Operand} (number : Nat) : op.isBinary = true →
      first.Numeric → second.Numeric →
      Emitted ⟨op, some first, some second, some (.temp number)⟩
  | not {first : Operand} (number : Nat) : first.Numeric →
      Emitted ⟨.not, some first, none, some (.temp number)⟩
  | input (name : String) : Emitted ⟨.input, none, none, some (.var name)⟩
  | outputText {text : String} : Scan.Quoted text.toList →
      Emitted ⟨.output, some (.literal text), none, none⟩
  | outputValue (name : String) : Emitted ⟨.output, some (.var name), none, none⟩

/-- A lowered expression emits such quadruples, and its value is a number. -/
structure LoweredValue.Emits (lowered : LoweredValue) : Prop where
  code : ∀ quad ∈ lowered.code, quad.Emitted
  value : lowered.value.Numeric

theorem LoweredValue.emits_compute {code : List Quad} (emitted : ∀ quad ∈ code, quad.Emitted)
    {op : Operation} {first : Operand} {second : Option Operand} {next : Nat}
    (last : Quad.Emitted ⟨op, some first, second, some (.temp next)⟩) :
    (LoweredValue.compute code op first second next).Emits where
  code := by
    rw [LoweredValue.compute, List.forall_mem_append]
    exact ⟨emitted, List.forall_mem_singleton.mpr last⟩
  value := trivial

theorem Expr.lower_emits (expr : Expr) (spelled : ∀ kind ∈ expr.unparse, kind.Spelled)
    (next : Nat) : (expr.lower next).Emits := by
  induction expr generalizing next with
  | identifier name place => exact ⟨List.forall_mem_nil _, trivial⟩
  | integer text place =>
      exact ⟨List.forall_mem_nil _, .inl (spelled (.integer text) List.mem_cons_self)⟩
  | float text place =>
      exact ⟨List.forall_mem_nil _, .inr (spelled (.float text) List.mem_cons_self)⟩
  | element array index place ih =>
      simp only [Expr.unparse, List.forall_mem_cons, List.forall_mem_append] at spelled
      have position := ih spelled.2.2.1 next
      apply LoweredValue.emits_compute position.code
      exact .binary _ rfl trivial position.value
  | paren inner place ih =>
      simp only [Expr.unparse, List.forall_mem_cons, List.forall_mem_append] at spelled
      exact ih spelled.2.1 next
  | negate inner place ih =>
      simp only [Expr.unparse, List.forall_mem_cons] at spelled
      have operand := ih spelled.2 next
      have zero : (Operand.literal "0").Numeric := .inl (by simp [Scan.Digits, Scan.isDigit])
      apply LoweredValue.emits_compute operand.code
      exact .binary _ rfl zero operand.value
  | binary op left right place ihLeft ihRight =>
      simp only [Expr.unparse, List.forall_mem_cons, List.forall_mem_append] at spelled
      have first := ihLeft spelled.1 next
      have second := ihRight spelled.2.2 (left.lower next).next
      apply LoweredValue.emits_compute
      · exact List.forall_mem_append.mpr ⟨first.code, second.code⟩
      · exact .binary _ rfl first.value second.value

theorem Cond.lower_emits (cond : Cond) (spelled : ∀ kind ∈ cond.unparse, kind.Spelled)
    (next : Nat) : (cond.lower next).Emits := by
  induction cond generalizing next with
  | compare op position left right place =>
      simp only [Cond.unparse, List.forall_mem_cons, List.forall_mem_append] at spelled
      have first := left.lower_emits spelled.1 next
      have second := right.lower_emits spelled.2.2 (left.lower next).next
      apply LoweredValue.emits_compute
      · exact List.forall_mem_append.mpr ⟨first.code, second.code⟩
      · exact .binary _ rfl first.value second.value
  | and left right place ihLeft ihRight | or left right place ihLeft ihRight =>
      simp only [Cond.unparse, List.forall_mem_cons, List.forall_mem_append] at spelled
      have first := ihLeft spelled.1 next
      have second := ihRight spelled.2.2 (left.lower next).next
      apply LoweredValue.emits_compute
      · exact List.forall_mem_append.mpr ⟨first.code, second.code⟩
      · exact .binary _ rfl first.value second.value
  | not inner place ih =>
      simp only [Cond.unparse, List.forall_mem_cons] at spelled
      have operand := ih spelled.2 next
      apply LoweredValue.emits_compute operand.code
      exact .not _ operand.value
  | paren inner place ih =>
      simp only [Cond.unparse, List.forall_mem_cons, List.forall_mem_append] at spelled
      exact ih spelled.2.1 next

theorem Expr.lower_into_emits (value : Expr) (spelled : ∀ kind ∈ value.unparse, kind.Spelled)
    (target : String) (supply : Supply) :
    ∀ quad ∈ (value.lowerInto target supply).code, quad.Emitted := by
  have lowered := value.lower_emits spelled supply.temps
  rw [Expr.lowerInto, List.forall_mem_append]
  exact ⟨lowered.code, List.forall_mem_singleton.mpr (.store target lowered.value)⟩

theorem Stmt.lower_output_emits (text : Option String) (names : List Ident)
    (spelled : ∀ kind ∈ Stmt.unparseItems text names, kind.Spelled) :
    ∀ quad ∈ Stmt.lowerOutput text names, quad.Emitted := by
  rw [Stmt.lowerOutput, List.forall_mem_append]
  constructor
  · cases text with
    | none => exact List.forall_mem_nil _
    | some text =>
        rw [Option.toList_some, List.map_singleton, List.forall_mem_singleton]
        exact .outputText (spelled (.string text) List.mem_cons_self)
  · intro quad member
    obtain ⟨name, _, rfl⟩ := List.mem_map.mp member
    exact .outputValue name.name

mutual

theorem Stmt.lower_emits (stmt : Stmt) (spelled : ∀ kind ∈ stmt.unparse, kind.Spelled)
    (supply : Supply) : ∀ quad ∈ (stmt.lower supply).code, quad.Emitted := by
  match stmt with
  | .scalar .. | .array .. => exact List.forall_mem_nil _
  | .input target place => exact List.forall_mem_singleton.mpr (.input target.name)
  | .output text names place =>
      simp only [Stmt.unparse, List.forall_mem_append] at spelled
      exact Stmt.lower_output_emits text names spelled.1.2
  | .constant name type position value place =>
      simp only [Stmt.unparse, List.forall_mem_append] at spelled
      exact value.lower_into_emits spelled.1.2 name.name supply
  | .assign target value place =>
      simp only [Stmt.unparse, List.forall_mem_append] at spelled
      exact value.lower_into_emits spelled.1.2 target.name supply
  | .ifThen condition body place =>
      simp only [Stmt.unparse, List.forall_mem_append] at spelled
      have test := condition.lower_emits spelled.1.1.1.2 supply.temps
      have inside := Stmt.lower_all_emits body spelled.1.2
        ⟨(condition.lower supply.temps).next, supply.labels + 2⟩
      simp only [Stmt.lower, List.forall_mem_append, List.forall_mem_cons]
      exact ⟨⟨⟨test.code, .jumpIfZero _ test.value, List.forall_mem_nil _⟩, inside⟩,
        .jump _, .label _, .label _, List.forall_mem_nil _⟩
  | .ifElse condition body alternative place =>
      simp only [Stmt.unparse, List.forall_mem_append] at spelled
      let entry : Supply := ⟨(condition.lower supply.temps).next, supply.labels + 2⟩
      have test := condition.lower_emits spelled.1.1.1.1.1.2 supply.temps
      have inside := Stmt.lower_all_emits body spelled.1.1.1.2 entry
      have other := Stmt.lower_all_emits alternative spelled.1.2 (Stmt.lowerAll entry body).supply
      simp only [Stmt.lower, List.forall_mem_append, List.forall_mem_cons]
      exact ⟨⟨⟨⟨⟨test.code, .jumpIfZero _ test.value, List.forall_mem_nil _⟩, inside⟩,
        .jump _, .label _, List.forall_mem_nil _⟩, other⟩, .label _, List.forall_mem_nil _⟩
  | .doWhile body condition place =>
      simp only [Stmt.unparse, List.forall_mem_append] at spelled
      let entry : Supply := ⟨supply.temps, supply.labels + 2⟩
      have inside := Stmt.lower_all_emits body spelled.1.1.1.2 entry
      have test := condition.lower_emits spelled.1.2 (Stmt.lowerAll entry body).supply.temps
      simp only [Stmt.lower, List.forall_mem_append, List.forall_mem_cons]
      exact ⟨⟨⟨⟨.label _, List.forall_mem_nil _⟩, inside⟩, test.code⟩,
        .jumpIfTrue _ test.value, .label _, List.forall_mem_nil _⟩
  | .forLoop counter first last step body place =>
      simp only [Stmt.unparse, List.forall_mem_append] at spelled
      obtain ⟨⟨⟨⟨⟨⟨⟨_, origins⟩, _⟩, limits⟩, _⟩, steps⟩, _⟩, bodies⟩ := spelled.1
      let origin := first.lower supply.temps
      let bound := last.lower origin.next
      let stride := step.lower (bound.next + 1)
      have starts := first.lower_emits origins supply.temps
      have bounds := last.lower_emits limits origin.next
      have strides := step.lower_emits steps (bound.next + 1)
      have inside := Stmt.lower_all_emits body bodies ⟨stride.next + 2, supply.labels + 2⟩
      simp only [Stmt.lower_for_loop, List.forall_mem_append, List.forall_mem_cons]
      exact ⟨starts.code, .store _ starts.value, bounds.code, .hold _ bounds.value,
        strides.code, .hold _ strides.value, .label _, .binary _ rfl trivial trivial,
        .jumpIfZero _ trivial, inside, .binary _ rfl trivial trivial, .store _ trivial,
        .jump _, .label _, List.forall_mem_nil _⟩

theorem Stmt.lower_all_emits (stmts : List Stmt)
    (spelled : ∀ kind ∈ Stmt.unparseAll stmts, kind.Spelled) (supply : Supply) :
    ∀ quad ∈ (Stmt.lowerAll supply stmts).code, quad.Emitted := by
  match stmts with
  | [] => exact List.forall_mem_nil _
  | first :: rest =>
      simp only [Stmt.unparseAll, List.forall_mem_append] at spelled
      have before := first.lower_emits spelled.1 supply
      have behind := Stmt.lower_all_emits rest spelled.2 (first.lower supply).supply
      exact List.forall_mem_append.mpr ⟨before, behind⟩

end

end ThreeAddress
