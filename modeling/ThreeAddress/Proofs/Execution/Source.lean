import Mathlib.Logic.Function.Basic
import ThreeAddress.Syntax.Basic

/-!
# Execution of syntax trees

What a program does when it is run as it is written. The values are open: an `Interpretation` says
what literals, arithmetic, comparisons and array elements mean. The value of the literal `0` is the
only false one, and truth values are the values of the literals `1` and `0`.

A statement relates the world before it to the world behind it. A statement that does not come to
an end, or asks for an input that is not there, relates its world to none.
-/

namespace ThreeAddress

set_option autoImplicit false

/-- The meaning of what the language leaves open. -/
structure Interpretation (Value : Type) where
  literal : String → Value
  arithmetic : BinaryOp → Value → Value → Value
  compare : CompareOp → Value → Value → Bool
  /-- The element of an array, which is a value as well, at an index. -/
  element : Value → Value → Value

namespace Interpretation

variable {Value : Type} (meaning : Interpretation Value)

def zero : Value := meaning.literal "0"

def one : Value := meaning.literal "1"

def truth (holds : Bool) : Value :=
  if holds then meaning.one else meaning.zero

def compared (op : CompareOp) (left right : Value) : Value :=
  meaning.truth (meaning.compare op left right)

variable [DecidableEq Value]

/-- Every value but zero counts as true. -/
def isTrue (value : Value) : Bool :=
  value ≠ meaning.zero

end Interpretation

inductive Event (Value : Type) where
  | text (text : String)
  | value (value : Value)
deriving DecidableEq

/-- All that a run changes: the cell of each name, the input still to be read and the output so
far. -/
structure World (Value Feed : Type) where
  store : String → Value
  input : Feed
  output : List (Event Value)

namespace World

variable {Value Feed : Type}

def set (world : World Value Feed) (name : String) (value : Value) : World Value Feed :=
  { world with store := Function.update world.store name value }

def emit (world : World Value Feed) (event : Event Value) : World Value Feed :=
  { world with output := world.output ++ [event] }

def receive? [Std.Stream Feed Value] (world : World Value Feed) :
    Option (Value × World Value Feed) :=
  (Std.Stream.next? world.input).map fun (value, rest) => (value, { world with input := rest })

end World

section Values

variable {Value : Type} (meaning : Interpretation Value)

def Expr.eval (store : String → Value) : Expr → Value
  | .identifier name _ => store name
  | .integer text _ | .float text _ => meaning.literal text
  | .element array index _ => meaning.element (store array.name) (index.eval store)
  | .paren inner _ => inner.eval store
  | .negate inner _ => meaning.arithmetic .sub meaning.zero (inner.eval store)
  | .binary op left right _ => meaning.arithmetic op (left.eval store) (right.eval store)

variable [DecidableEq Value]

/-- The truth value of a condition; both sides of a conjunction or disjunction are evaluated. -/
def Cond.eval (store : String → Value) : Cond → Value
  | .compare op _ left right _ =>
      meaning.compared op (left.eval meaning store) (right.eval meaning store)
  | .and left right _ =>
      meaning.truth (meaning.isTrue (left.eval store) && meaning.isTrue (right.eval store))
  | .or left right _ =>
      meaning.truth (meaning.isTrue (left.eval store) || meaning.isTrue (right.eval store))
  | .not inner _ => meaning.truth (!meaning.isTrue (inner.eval store))
  | .paren inner _ => inner.eval store

end Values

abbrev Effect (Value Feed : Type) := World Value Feed → World Value Feed → Prop

namespace Effect

variable {Value Feed : Type}

def andThen (first second : Effect Value Feed) : Effect Value Feed :=
  fun world after => ∃ between, first world between ∧ second between after

/-- The body is run as long as the test in front of it holds. -/
inductive Loop (test : World Value Feed → Prop) (body : Effect Value Feed) : Effect Value Feed
  | stop {world : World Value Feed} : ¬ test world → Loop test body world world
  | again {world between after : World Value Feed} :
      test world → body world between → Loop test body between after → Loop test body world after

/-- The body is run once, and again as long as the test behind it holds. -/
def repeatWhile (body : Effect Value Feed) (test : World Value Feed → Prop) : Effect Value Feed :=
  body.andThen (Loop test body)

end Effect

section Statements

variable {Value Feed : Type} [DecidableEq Value] [Std.Stream Feed Value]
variable (meaning : Interpretation Value)

def Cond.Holds (condition : Cond) (world : World Value Feed) : Prop :=
  meaning.isTrue (condition.eval meaning world.store) = true

def Expr.storeInto (name : String) (value : Expr) : Effect Value Feed :=
  fun world after => after = world.set name (value.eval meaning world.store)

def World.print (world : World Value Feed) (text : Option String) (names : List Ident) :
    World Value Feed :=
  names.foldl (fun world name => world.emit (.value (world.store name.name)))
    (text.toList.foldl (fun world text => world.emit (.text text)) world)

/-- The counter is compared with the limit before each round and moved by the stride behind it. -/
def Effect.count (counter : String) (limit stride : Value) (body : Effect Value Feed) :
    Effect Value Feed :=
  Effect.Loop
    (fun world => meaning.isTrue (meaning.compared .lessEqual (world.store counter) limit) = true)
    (body.andThen fun world after =>
      after = world.set counter (meaning.arithmetic .add (world.store counter) stride))

mutual

/-- What a statement does. The limit and the stride of a counting loop are evaluated once, behind
the assignment to its counter. -/
def Stmt.Executes : Stmt → Effect Value Feed
  | .scalar _ _ _ | .array _ _ _ _ _ => fun world after => after = world
  | .constant name _ _ value _ => value.storeInto meaning name.name
  | .assign target value _ => value.storeInto meaning target.name
  | .ifThen condition body _ => fun world after =>
      (condition.Holds meaning world ∧ Stmt.ExecutesAll body world after) ∨
        (¬ condition.Holds meaning world ∧ after = world)
  | .ifElse condition body otherwise _ => fun world after =>
      (condition.Holds meaning world ∧ Stmt.ExecutesAll body world after) ∨
        (¬ condition.Holds meaning world ∧ Stmt.ExecutesAll otherwise world after)
  | .doWhile body condition _ =>
      Effect.repeatWhile (Stmt.ExecutesAll body) (condition.Holds meaning)
  | .forLoop counter first last step body _ =>
      (first.storeInto meaning counter.name).andThen fun entry =>
        Effect.count meaning counter.name (last.eval meaning entry.store)
          (step.eval meaning entry.store) (Stmt.ExecutesAll body) entry
  | .input target _ => fun world after =>
      ∃ value rest, world.receive? = some (value, rest) ∧ after = rest.set target.name value
  | .output text names _ => fun world after => after = world.print text names

def Stmt.ExecutesAll : List Stmt → Effect Value Feed
  | [] => fun world after => after = world
  | first :: rest => Effect.andThen (Stmt.Executes first) (Stmt.ExecutesAll rest)

end

def Program.Executes (program : Program) : Effect Value Feed :=
  Stmt.ExecutesAll meaning program

end Statements

end ThreeAddress
