import ThreeAddress.Quad.Basic

/-!
# Lowering to quadruples

Expressions and conditions become code that leaves their value in an operand; statements become
code that ends by falling through. Temporaries and labels are numbered in the order in which they
are taken from a supply, and the supply that is left goes on to what follows.

The counters of a supply are natural numbers and never run out. Counters of 32 bits agree with them
while one generator takes fewer than `2 ^ 32` temporaries and fewer than `2 ^ 32` labels, over all
the programs that it lowers. Beyond that bound the numbers here are not those of such counters.
-/

namespace ThreeAddress

set_option autoImplicit false

/-- Code that computes a value, where to find the value, and the next unused temporary. -/
structure LoweredValue where
  code : List Quad
  value : Operand
  next : Nat
deriving DecidableEq

/-- The code with one more quadruple behind it, whose result is the next temporary. -/
def LoweredValue.compute (code : List Quad) (op : Operation) (first : Operand)
    (second : Option Operand) (next : Nat) : LoweredValue :=
  ⟨code ++ [⟨op, some first, second, some (.temp next)⟩], .temp next, next + 1⟩

def Expr.lower (next : Nat) : Expr → LoweredValue
  | .identifier name _ => ⟨[], .var name, next⟩
  | .integer text _ | .float text _ => ⟨[], .literal text, next⟩
  | .element array index _ =>
      let position := index.lower next
      .compute position.code .arrayRead (.var array.name) (some position.value) position.next
  | .paren inner _ => inner.lower next
  | .negate inner _ =>
      let operand := inner.lower next
      .compute operand.code (.arithmetic .sub) (.literal "0") (some operand.value) operand.next
  | .binary op left right _ =>
      let first := left.lower next
      let second := right.lower first.next
      .compute (first.code ++ second.code) (.arithmetic op) first.value (some second.value)
        second.next

/-- Both sides of a conjunction or disjunction are computed. -/
def Cond.lower (next : Nat) : Cond → LoweredValue
  | .compare op _ left right _ =>
      let first := left.lower next
      let second := right.lower first.next
      .compute (first.code ++ second.code) (.compare op) first.value (some second.value)
        second.next
  | .and left right _ =>
      let first := left.lower next
      let second := right.lower first.next
      .compute (first.code ++ second.code) .and first.value (some second.value) second.next
  | .or left right _ =>
      let first := left.lower next
      let second := right.lower first.next
      .compute (first.code ++ second.code) .or first.value (some second.value) second.next
  | .not inner _ =>
      let operand := inner.lower next
      .compute operand.code .not operand.value none operand.next
  | .paren inner _ => inner.lower next

/-- The next unused temporary and the next unused label, both without an upper bound. -/
structure Supply where
  temps : Nat
  labels : Nat
deriving DecidableEq, Inhabited

def Supply.fresh : Supply := ⟨0, 0⟩

structure Lowered where
  code : List Quad
  supply : Supply
deriving DecidableEq

def Expr.lowerInto (target : String) (value : Expr) (supply : Supply) : Lowered :=
  let lowered := value.lower supply.temps
  ⟨lowered.code ++ [.assign lowered.value (.var target)], { supply with temps := lowered.next }⟩

/-- What an output statement writes: its text first, then its names. -/
def Stmt.lowerOutput (text : Option String) (names : List Ident) : List Quad :=
  text.toList.map (fun text => ⟨.output, some (.literal text), none, none⟩) ++
    names.map fun name => ⟨.output, some (.var name.name), none, none⟩

mutual

def Stmt.lower (supply : Supply) : Stmt → Lowered
  | .scalar _ _ _ | .array _ _ _ _ _ => ⟨[], supply⟩
  | .constant name _ _ value _ => value.lowerInto name.name supply
  | .assign target value _ => value.lowerInto target.name supply
  | .ifThen condition body _ =>
      let otherwise := supply.labels
      let done := supply.labels + 1
      let test := condition.lower supply.temps
      let inside := Stmt.lowerAll ⟨test.next, supply.labels + 2⟩ body
      ⟨test.code ++ [.branch .jumpIfZero test.value otherwise] ++ inside.code ++
        [.jump done, .label otherwise, .label done], inside.supply⟩
  | .ifElse condition body alternative _ =>
      let otherwise := supply.labels
      let done := supply.labels + 1
      let test := condition.lower supply.temps
      let inside := Stmt.lowerAll ⟨test.next, supply.labels + 2⟩ body
      let other := Stmt.lowerAll inside.supply alternative
      ⟨test.code ++ [.branch .jumpIfZero test.value otherwise] ++ inside.code ++
        [.jump done, .label otherwise] ++ other.code ++ [.label done], other.supply⟩
  | .doWhile body condition _ =>
      let again := supply.labels
      let done := supply.labels + 1
      let inside := Stmt.lowerAll ⟨supply.temps, supply.labels + 2⟩ body
      let test := condition.lower inside.supply.temps
      ⟨[.label again] ++ inside.code ++ test.code ++
        [.branch .jumpIfTrue test.value again, .label done],
        { inside.supply with temps := test.next }⟩
  | .forLoop counter first last step body _ =>
      let index := Operand.var counter.name
      let start := first.lowerInto counter.name supply
      let bound := last.lower start.supply.temps
      let limit := Operand.temp bound.next
      let stride := step.lower (bound.next + 1)
      let increment := Operand.temp stride.next
      let again := supply.labels
      let done := supply.labels + 1
      let test := LoweredValue.compute [] (.compare .lessEqual) index (some limit) (stride.next + 1)
      let inside := Stmt.lowerAll ⟨test.next, supply.labels + 2⟩ body
      let sum := LoweredValue.compute [] (.arithmetic .add) index (some increment)
        inside.supply.temps
      ⟨start.code ++ bound.code ++ [.assign bound.value limit] ++
        stride.code ++ [.assign stride.value increment, .label again] ++
        test.code ++ [.branch .jumpIfZero test.value done] ++ inside.code ++
        sum.code ++ [.assign sum.value index, .jump again, .label done],
        { inside.supply with temps := sum.next }⟩
  | .input target _ => ⟨[⟨.input, none, none, some (.var target.name)⟩], supply⟩
  | .output text names _ => ⟨Stmt.lowerOutput text names, supply⟩

def Stmt.lowerAll (supply : Supply) : List Stmt → Lowered
  | [] => ⟨[], supply⟩
  | first :: rest =>
      let before := first.lower supply
      let behind := Stmt.lowerAll before.supply rest
      ⟨before.code ++ behind.code, behind.supply⟩

end

def Program.lower (supply : Supply) (program : Program) : Lowered :=
  Stmt.lowerAll supply program

end ThreeAddress
