import ThreeAddress.Check.Fault

/-!
# Checking expressions and conditions

Checking finds the type of an expression and its faults in reading order. A faulty part counts as
an `Int`, so that what stands around it can still be checked.
-/

namespace ThreeAddress

set_option autoImplicit false

structure Checked where
  type : ValueType
  faults : List Fault
deriving DecidableEq

def SymbolTable.checkName (table : SymbolTable) (name : Ident) : Checked :=
  match table.find? name.name with
  | none => ⟨.int, [.undeclared name]⟩
  | some symbol => if symbol.type.isArray then ⟨.int, [.bareArray name]⟩ else ⟨symbol.type, []⟩

def BinaryOp.checkOperand (op : BinaryOp) (operand : Expr) (type : ValueType) : List Fault :=
  if type.isNumeric then [] else [.operandType op type operand.place]

def BinaryOp.checkDivisor (op : BinaryOp) (right : Expr) : List Fault :=
  if op = .div ∧ right.isZero then [.zeroDivisor right.place] else []

def Expr.check (table : SymbolTable) : Expr → Checked
  | .integer _ _ => ⟨.int, []⟩
  | .float _ _ => ⟨.float, []⟩
  | .identifier name place => table.checkName ⟨name, place⟩
  | .element array index _ =>
      match table.find? array.name with
      | none => ⟨.int, [.undeclared array]⟩
      | some symbol =>
          match symbol.type.element? with
          | none => ⟨.int, [.notArray array]⟩
          | some type =>
              let found := index.check table
              let fault :=
                if found.type = .int then [] else [.indexType array found.type index.place]
              ⟨type, found.faults ++ fault⟩
  | .paren inner _ => inner.check table
  | .negate inner place =>
      let found := inner.check table
      if found.type.isNumeric then found
      else ⟨.int, found.faults ++ [.negatedType found.type place]⟩
  | .binary op left right _ =>
      let first := left.check table
      let second := right.check table
      let type :=
        if first.type.isNumeric && second.type.isNumeric then
          ValueType.arithmetic first.type second.type
        else .int
      ⟨type, first.faults ++ second.faults ++ op.checkOperand left first.type ++
        op.checkOperand right second.type ++ op.checkDivisor right⟩

def Cond.check (table : SymbolTable) : Cond → List Fault
  | .compare op opPosition left right place =>
      let first := left.check table
      let second := right.check table
      let fault :=
        if first.type.comparable second.type then []
        else [.comparedTypes op opPosition first.type second.type place.span]
      first.faults ++ second.faults ++ fault
  | .and left right _ | .or left right _ => left.check table ++ right.check table
  | .not inner _ | .paren inner _ => inner.check table

end ThreeAddress
