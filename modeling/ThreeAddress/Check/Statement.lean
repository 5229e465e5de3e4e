import ThreeAddress.Check.Expression
import ThreeAddress.Check.Size

/-!
# Checking statements

Checking a statement gives the symbol table behind it and the faults found in it. A declaration
adds at most one symbol to the innermost scope; every block has a scope of its own, which is closed
behind it.
-/

namespace ThreeAddress

set_option autoImplicit false

structure Outcome where
  table : SymbolTable
  faults : List Fault
deriving DecidableEq

/-- The reason why a name cannot be declared here: it breaks the naming rule, or it is taken. -/
def SymbolTable.refusal? (table : SymbolTable) (name : Ident) : Option Fault :=
  match Name.fault? name.name.toList with
  | some fault => some (.badName name fault)
  | none => (table.findHere? name.name).map fun symbol => .redeclared name symbol.declaredAt

def SymbolTable.register (table : SymbolTable) (name : Ident) (symbol : Symbol) : Outcome :=
  match table.declare symbol with
  | .ok after => ⟨after, []⟩
  | .error clash => ⟨table, [.nameClash name clash]⟩

def SymbolTable.introduce (table : SymbolTable) (name : Ident) (symbol : Symbol) : Outcome :=
  match table.refusal? name with
  | some fault => ⟨table, [fault]⟩
  | none => table.register name symbol

def SymbolTable.checkScalar (table : SymbolTable) (name : Ident) (type : DataType) : Outcome :=
  table.introduce name (.scalar name.name (.scalar type) name.place.position)

def SymbolTable.checkArray (table : SymbolTable) (name : Ident) (element : DataType)
    (size : String) (sizePosition : Position) : Outcome :=
  match table.refusal? name with
  | some fault => ⟨table, [fault]⟩
  | none =>
      match Size.positive? size.toList with
      | none => ⟨table, [.badSize name size sizePosition]⟩
      | some count =>
          table.register name (.array name.name (.array element) count name.place.position)

/-- A constant's value is checked before its name is declared, so it cannot mention itself. -/
def SymbolTable.checkConstant (table : SymbolTable) (name : Ident) (type : DataType)
    (typePosition : Position) (value : Expr) : Outcome :=
  let declared := ValueType.scalar type
  let found := value.check table
  let mismatch :=
    if declared.accepts found.type then []
    else [.constantValue name declared typePosition found.type value.place.span]
  let rest := table.introduce name (.constant name.name declared name.place.position)
  ⟨rest.table, found.faults ++ mismatch ++ rest.faults⟩

def SymbolTable.checkAssign (table : SymbolTable) (target : Ident) (value : Expr) : List Fault :=
  match table.find? target.name with
  | none => [.undeclared target]
  | some symbol =>
      let constant := if symbol.isConstant then [.assignedConstant target] else []
      let found := value.check table
      let mismatch :=
        if symbol.type.accepts found.type then []
        else [.assignedType target symbol.type found.type value.place.span]
      constant ++ found.faults ++ mismatch

def SymbolTable.checkCounter (table : SymbolTable) (counter : Ident) : List Fault :=
  match table.find? counter.name with
  | none => [.undeclared counter]
  | some symbol =>
      let constant := if symbol.isConstant then [.counterConstant counter] else []
      let mismatch := if symbol.type = .int then [] else [.counterType counter symbol.type]
      constant ++ mismatch

def SymbolTable.checkBound (table : SymbolTable) (counter : Ident) (bound : Expr) : List Fault :=
  let found := bound.check table
  let mismatch :=
    if found.type.isNumeric then [] else [.boundType counter found.type bound.place]
  found.faults ++ mismatch

def SymbolTable.checkInput (table : SymbolTable) (target : Ident) : List Fault :=
  match table.find? target.name with
  | none => [.undeclared target]
  | some symbol => if symbol.isConstant then [.inputConstant target] else []

def SymbolTable.checkOutput (table : SymbolTable) (name : Ident) : List Fault :=
  match table.find? name.name with
  | none => [.undeclared name]
  | some _ => []

mutual

def Stmt.check (table : SymbolTable) : Stmt → Outcome
  | .scalar name type _ => table.checkScalar name type
  | .array name element size sizePosition _ => table.checkArray name element size sizePosition
  | .constant name type typePosition value _ => table.checkConstant name type typePosition value
  | .assign target value _ => ⟨table, table.checkAssign target value⟩
  | .ifThen condition body _ =>
      let inside := Stmt.checkAll table.enter body
      ⟨inside.table.leave, condition.check table ++ inside.faults⟩
  | .ifElse condition body otherwise _ =>
      let inside := Stmt.checkAll table.enter body
      let other := Stmt.checkAll inside.table.leave.enter otherwise
      ⟨other.table.leave, condition.check table ++ inside.faults ++ other.faults⟩
  | .doWhile body condition _ =>
      let inside := Stmt.checkAll table.enter body
      ⟨inside.table.leave, inside.faults ++ condition.check inside.table⟩
  | .forLoop counter first last step body _ =>
      let scope := table.enter
      let inside := Stmt.checkAll scope body
      ⟨inside.table.leave, scope.checkCounter counter ++ scope.checkBound counter first ++
        scope.checkBound counter last ++ scope.checkBound counter step ++ inside.faults⟩
  | .input target _ => ⟨table, table.checkInput target⟩
  | .output _ names _ => ⟨table, names.flatMap table.checkOutput⟩

def Stmt.checkAll (table : SymbolTable) : List Stmt → Outcome
  | [] => ⟨table, []⟩
  | first :: rest =>
      let before := first.check table
      let behind := Stmt.checkAll before.table rest
      ⟨behind.table, before.faults ++ behind.faults⟩

end

def Program.check (program : Program) : Outcome :=
  Stmt.checkAll .empty program

end ThreeAddress
