import ThreeAddress.Syntax.Basic
import ThreeAddress.Text.Pad

/-!
# Quadruples

One step of three-address code: an operation, up to two arguments and a result. Jumps and labels
keep their label in the result.
-/

namespace ThreeAddress

set_option autoImplicit false

inductive Operand where
  /-- A number or a quoted text, as it was written. -/
  | literal (text : String)
  | var (name : String)
  | temp (number : Nat)
  | label (number : Nat)
deriving DecidableEq

def Operand.text : Operand → String
  | .literal text => text
  | .var name => name
  | .temp number => s!"t{number}"
  | .label number => s!"L{number}"

def Operand.label? : Operand → Option Nat
  | .label number => some number
  | _ => none

inductive Operation where
  | assign
  | arithmetic (op : BinaryOp)
  | compare (op : CompareOp)
  | and
  | or
  | not
  | jump
  | jumpIfZero
  | jumpIfTrue
  | label
  | input
  | output
  | arrayRead
deriving DecidableEq

namespace Operation

def mnemonic : Operation → String
  | .assign => "="
  | .arithmetic op => op.text
  | .compare op => op.text
  | .and => "AND"
  | .or => "OR"
  | .not => "!"
  | .jump => "JMP"
  | .jumpIfZero => "JZ"
  | .jumpIfTrue => "JNZ"
  | .label => "LABEL"
  | .input => "INPUT"
  | .output => "OUTPUT"
  | .arrayRead => "[]"

def isJump : Operation → Bool
  | .jump | .jumpIfZero | .jumpIfTrue => true
  | _ => false

end Operation

structure Quad where
  op : Operation
  first : Option Operand
  second : Option Operand
  result : Option Operand
deriving DecidableEq

namespace Quad

def label (number : Nat) : Quad :=
  ⟨.label, none, none, some (.label number)⟩

def jump (number : Nat) : Quad :=
  ⟨.jump, none, none, some (.label number)⟩

def branch (op : Operation) (condition : Operand) (number : Nat) : Quad :=
  ⟨op, some condition, none, some (.label number)⟩

def assign (value target : Operand) : Quad :=
  ⟨.assign, some value, none, some target⟩

def defined? (quad : Quad) : Option Nat :=
  if quad.op = .label then quad.result.bind Operand.label? else none

def target? (quad : Quad) : Option Nat :=
  if quad.op.isJump then quad.result.bind Operand.label? else none

def slotText : Option Operand → String
  | none => "_"
  | some operand => operand.text

def text (quad : Quad) : String :=
  s!"({quad.op.mnemonic}, {slotText quad.first}, {slotText quad.second}, " ++
    s!"{slotText quad.result})"

def definedLabels (code : List Quad) : List Nat :=
  code.filterMap defined?

def jumpTargets (code : List Quad) : List Nat :=
  code.filterMap target?

def listing (code : List Quad) : String :=
  Text.lines (code.zipIdx.map fun (quad, index) => s!"{index}: {quad.text}")

end Quad

end ThreeAddress
