import ThreeAddress.Diagnostic
import ThreeAddress.Scope.Name
import ThreeAddress.Scope.Table

/-!
# Faults

The ways in which a program can break the rules of scopes and types, and the diagnostic that each
is told with.
-/

namespace ThreeAddress

set_option autoImplicit false

inductive Fault where
  | undeclared (name : Ident)
  | badName (name : Ident) (fault : NameFault)
  | redeclared (name : Ident) (first : Position)
  | nameClash (name : Ident) (clash : Clash)
  | badSize (name : Ident) (size : String) (sizePosition : Position)
  | constantValue (name : Ident) (declared : ValueType) (typePosition : Position)
      (found : ValueType) (value : Span)
  | assignedConstant (target : Ident)
  | assignedType (target : Ident) (declared found : ValueType) (value : Span)
  | inputConstant (target : Ident)
  | counterConstant (counter : Ident)
  | counterType (counter : Ident) (found : ValueType)
  | boundType (counter : Ident) (found : ValueType) (bound : Place)
  | bareArray (name : Ident)
  | notArray (name : Ident)
  | indexType (array : Ident) (found : ValueType) (index : Place)
  | negatedType (found : ValueType) (place : Place)
  | operandType (op : BinaryOp) (found : ValueType) (operand : Place)
  | zeroDivisor (divisor : Place)
  | comparedTypes (op : CompareOp) (opPosition : Position) (left right : ValueType) (whole : Span)
deriving DecidableEq

namespace Fault

def kind : Fault → DiagnosticKind
  | .undeclared _ => .undeclaredIdentifier
  | .badName _ _ => .invalidIdentifier
  | .redeclared _ _ | .nameClash _ _ => .duplicateDeclaration
  | .badSize _ _ _ => .arrayBounds
  | .assignedConstant _ | .inputConstant _ | .counterConstant _ => .constantModification
  | .zeroDivisor _ => .divisionByZero
  | .constantValue _ _ _ _ _ | .assignedType _ _ _ _ | .counterType _ _ | .boundType _ _ _
  | .bareArray _ | .notArray _ | .indexType _ _ _ | .negatedType _ _ | .operandType _ _ _
  | .comparedTypes _ _ _ _ _ => .typeMismatch

def message : Fault → String
  | .undeclared name => s!"'{name.name}' is not declared"
  | .badName _ fault => fault.message
  | .redeclared name first =>
      s!"'{name.name}' is already declared in this scope at {first.text}"
  | .nameClash _ clash => clash.message
  | .badSize name _ _ => s!"array size of '{name.name}' must be a positive integer"
  | .constantValue name declared _ found _ =>
      s!"constant '{name.name}' is declared {declared.text} but initialized with {found.text}"
  | .assignedConstant target => s!"cannot assign to constant '{target.name}'"
  | .assignedType target declared found _ =>
      s!"cannot assign {found.text} to '{target.name}' of type {declared.text}"
  | .inputConstant target => s!"cannot read input into constant '{target.name}'"
  | .counterConstant counter => s!"constant '{counter.name}' cannot be a loop variable"
  | .counterType _ found => s!"loop variable must be Int, found {found.text}"
  | .boundType _ found _ => s!"loop bound must be numeric, found {found.text}"
  | .bareArray name => s!"array '{name.name}' cannot be used without an index"
  | .notArray name => s!"'{name.name}' is not an array"
  | .indexType _ found _ => s!"array index must be Int, found {found.text}"
  | .negatedType found _ => s!"cannot negate a value of type {found.text}"
  | .operandType op found _ => s!"operand of '{op.text}' must be numeric, found {found.text}"
  | .zeroDivisor _ => "division by a literal zero"
  | .comparedTypes _ _ left right _ => s!"cannot compare {left.text} with {right.text}"

def entity : Fault → String
  | .undeclared name | .badName name _ | .redeclared name _ | .nameClash name _
  | .constantValue name _ _ _ _ | .assignedConstant name | .assignedType name _ _ _
  | .inputConstant name | .counterConstant name | .counterType name _ | .boundType name _ _
  | .bareArray name | .notArray name | .indexType name _ _ => name.name
  | .badSize _ size _ => size
  | .negatedType _ _ => BinaryOp.sub.text
  | .operandType op _ _ => op.text
  | .zeroDivisor _ => BinaryOp.div.text
  | .comparedTypes op _ _ _ _ => op.text

def position : Fault → Position
  | .undeclared name | .badName name _ | .redeclared name _ | .nameClash name _
  | .assignedConstant name | .assignedType name _ _ _ | .inputConstant name
  | .counterConstant name | .counterType name _ | .bareArray name | .notArray name =>
      name.place.position
  | .badSize _ _ position | .constantValue _ _ position _ _ | .comparedTypes _ position _ _ _ =>
      position
  | .boundType _ _ place | .indexType _ _ place | .negatedType _ place | .operandType _ _ place
  | .zeroDivisor place => place.position

def span : Fault → Span
  | .undeclared name | .badName name _ | .redeclared name _ | .nameClash name _ | .badSize name _ _
  | .assignedConstant name | .inputConstant name | .counterConstant name | .counterType name _
  | .bareArray name | .notArray name => name.place.span
  | .constantValue _ _ _ _ span | .assignedType _ _ _ span | .comparedTypes _ _ _ _ span => span
  | .boundType _ _ place | .indexType _ _ place | .negatedType _ place | .operandType _ _ place
  | .zeroDivisor place => place.span

def diagnostic (fault : Fault) : Diagnostic :=
  ⟨fault.kind, fault.message, fault.position, fault.entity, some fault.span⟩

end Fault

end ThreeAddress
