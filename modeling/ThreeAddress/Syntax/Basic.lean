import ThreeAddress.Source.Place

/-!
# Syntax trees

Expressions, conditions and statements as they were written: parentheses are nodes, literals keep
their text, and every node keeps its place.
-/

namespace ThreeAddress

set_option autoImplicit false

inductive DataType where
  | int
  | float
deriving DecidableEq

def DataType.text : DataType → String
  | .int => "Int"
  | .float => "Float"

inductive BinaryOp where
  | add
  | sub
  | mul
  | div
deriving DecidableEq

def BinaryOp.text : BinaryOp → String
  | .add => "+"
  | .sub => "-"
  | .mul => "*"
  | .div => "/"

/-- Multiplication and division bind tighter than addition and subtraction. -/
def BinaryOp.isMultiplicative : BinaryOp → Bool
  | .mul | .div => true
  | .add | .sub => false

inductive CompareOp where
  | less
  | greater
  | lessEqual
  | greaterEqual
  | equal
  | notEqual
deriving DecidableEq

def CompareOp.all : List CompareOp :=
  [.less, .greater, .lessEqual, .greaterEqual, .equal, .notEqual]

def CompareOp.text : CompareOp → String
  | .less => "<"
  | .greater => ">"
  | .lessEqual => "<="
  | .greaterEqual => ">="
  | .equal => "=="
  | .notEqual => "!="

def CompareOp.ofText? (text : String) : Option CompareOp :=
  CompareOp.all.find? (·.text == text)

structure Ident where
  name : String
  place : Place
deriving DecidableEq

inductive Expr where
  | identifier (name : String) (place : Place)
  | integer (text : String) (place : Place)
  | float (text : String) (place : Place)
  | element (array : Ident) (index : Expr) (place : Place)
  | paren (inner : Expr) (place : Place)
  | negate (inner : Expr) (place : Place)
  | binary (op : BinaryOp) (left right : Expr) (place : Place)
deriving DecidableEq

namespace Expr

def place : Expr → Place
  | .identifier _ place | .integer _ place | .float _ place | .element _ _ place
  | .paren _ place | .negate _ place | .binary _ _ _ place => place

def join (op : BinaryOp) (left right : Expr) : Expr :=
  .binary op left right (left.place.join right.place)

/-- Only the two spellings `0` and `0.0` count as a literal zero, and only where they stand bare. -/
def isZero : Expr → Bool
  | .integer text _ => text == "0"
  | .float text _ => text == "0.0"
  | _ => false

end Expr

inductive Cond where
  | compare (op : CompareOp) (opPosition : Position) (left right : Expr) (place : Place)
  | and (left right : Cond) (place : Place)
  | or (left right : Cond) (place : Place)
  | not (inner : Cond) (place : Place)
  | paren (inner : Cond) (place : Place)
deriving DecidableEq

namespace Cond

def place : Cond → Place
  | .compare _ _ _ _ place | .and _ _ place | .or _ _ place | .not _ place
  | .paren _ place => place

def joinAnd (left right : Cond) : Cond :=
  .and left right (left.place.join right.place)

def joinOr (left right : Cond) : Cond :=
  .or left right (left.place.join right.place)

end Cond

/-- A statement. An array keeps the text of its size, an output the text it writes first, if any. -/
inductive Stmt where
  | scalar (name : Ident) (type : DataType) (place : Place)
  | array (name : Ident) (element : DataType) (size : String) (sizePosition : Position)
      (place : Place)
  | constant (name : Ident) (type : DataType) (typePosition : Position) (value : Expr)
      (place : Place)
  | assign (target : Ident) (value : Expr) (place : Place)
  | ifThen (condition : Cond) (body : List Stmt) (place : Place)
  | ifElse (condition : Cond) (body otherwise : List Stmt) (place : Place)
  | doWhile (body : List Stmt) (condition : Cond) (place : Place)
  | forLoop (counter : Ident) (first last step : Expr) (body : List Stmt) (place : Place)
  | input (target : Ident) (place : Place)
  | output (text : Option String) (names : List Ident) (place : Place)

def Stmt.place : Stmt → Place
  | .scalar _ _ place | .array _ _ _ _ place | .constant _ _ _ _ place | .assign _ _ place
  | .ifThen _ _ place | .ifElse _ _ _ place | .doWhile _ _ place | .forLoop _ _ _ _ _ place
  | .input _ place | .output _ _ place => place

abbrev Program := List Stmt

end ThreeAddress
