import ThreeAddress.Syntax.Basic

/-!
# Types of values

A declared name is a scalar or an array of one of the two data types. The rules say which values
may be stored where, which may be compared, and what arithmetic yields.
-/

namespace ThreeAddress

set_option autoImplicit false

inductive ValueType where
  | scalar (type : DataType)
  | array (element : DataType)
deriving DecidableEq

namespace ValueType

def int : ValueType := .scalar .int

def float : ValueType := .scalar .float

def text : ValueType → String
  | .scalar type => type.text
  | .array element => element.text ++ "Array"

def isNumeric : ValueType → Bool
  | .scalar _ => true
  | .array _ => false

def isArray : ValueType → Bool
  | .scalar _ => false
  | .array _ => true

def element? : ValueType → Option ValueType
  | .scalar _ => none
  | .array element => some (.scalar element)

/-- Whether a value may be stored: types must agree, except that an `Int` fits into a `Float`. -/
def accepts (target value : ValueType) : Bool :=
  target = value || (target = float && value = int)

def comparable (left right : ValueType) : Bool :=
  left = right || (left.isNumeric && right.isNumeric)

/-- Arithmetic yields a `Float` as soon as one operand is one. -/
def arithmetic (left right : ValueType) : ValueType :=
  if left = float ∨ right = float then float else int

end ValueType

end ThreeAddress
