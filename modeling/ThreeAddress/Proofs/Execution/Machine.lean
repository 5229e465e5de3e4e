import ThreeAddress.Proofs.Execution.Source
import ThreeAddress.Quad.Lowering

/-!
# Execution of quadruples

A machine stands at an index of its code. It carries out the quadruple there and goes on with the
next one, or, after a jump, with the quadruple that puts the label. It has finished when its index
is the length of the code, and it is stuck where a quadruple has no meaning.

Main statement: a run that finishes passes through every state the machine can reach, so two ways
of reaching the end agree.
-/

namespace ThreeAddress

set_option autoImplicit false

structure Machine (Value Feed : Type) where
  index : Nat
  world : World Value Feed
  temps : Nat → Value

def Quad.labelIndex? (code : List Quad) (label : Nat) : Option Nat :=
  code.findIdx? fun quad => quad.defined? = some label

/-- The value that an operation computes; jumps, labels, input and output compute none. -/
def Operation.apply? {Value : Type} [DecidableEq Value] (meaning : Interpretation Value) :
    Operation → Value → Option Value → Option Value
  | .assign, first, none => some first
  | .arithmetic op, first, some second => some (meaning.arithmetic op first second)
  | .compare op, first, some second => some (meaning.compared op first second)
  | .and, first, some second =>
      some (meaning.truth (meaning.isTrue first && meaning.isTrue second))
  | .or, first, some second =>
      some (meaning.truth (meaning.isTrue first || meaning.isTrue second))
  | .not, first, none => some (meaning.truth (!meaning.isTrue first))
  | .arrayRead, first, some second => some (meaning.element first second)
  | _, _, _ => none

def Operand.value? {Value : Type} (meaning : Interpretation Value) (store : String → Value)
    (temps : Nat → Value) : Operand → Option Value
  | .literal text => some (meaning.literal text)
  | .var name => some (store name)
  | .temp number => some (temps number)
  | .label _ => none

namespace Machine

variable {Value Feed : Type} [DecidableEq Value] [Std.Stream Feed Value]
variable (meaning : Interpretation Value)

def read? (machine : Machine Value Feed) (operand : Operand) : Option Value :=
  operand.value? meaning machine.world.store machine.temps

def readSecond? (machine : Machine Value Feed) : Option Operand → Option (Option Value)
  | none => some none
  | some operand => (machine.read? meaning operand).map some

def write? (machine : Machine Value Feed) (value : Value) : Operand → Option (Machine Value Feed)
  | .var name => some { machine with world := machine.world.set name value }
  | .temp number => some { machine with temps := Function.update machine.temps number value }
  | .literal _ | .label _ => none

def advance (machine : Machine Value Feed) : Machine Value Feed :=
  { machine with index := machine.index + 1 }

def jump? (code : List Quad) (label : Nat) (machine : Machine Value Feed) :
    Option (Machine Value Feed) :=
  (Quad.labelIndex? code label).map fun index => { machine with index }

def compute? (op : Operation) (first : Operand) (second : Option Operand) (target : Operand)
    (machine : Machine Value Feed) : Option (Machine Value Feed) := do
  let first ← machine.read? meaning first
  let second ← machine.readSecond? meaning second
  let value ← op.apply? meaning first second
  machine.write? value target

def perform? (code : List Quad) (machine : Machine Value Feed) :
    Quad → Option (Machine Value Feed)
  | ⟨.label, none, none, some (.label _)⟩ => some machine.advance
  | ⟨.jump, none, none, some (.label label)⟩ => machine.jump? code label
  | ⟨.jumpIfZero, some test, none, some (.label label)⟩ =>
      (machine.read? meaning test).bind fun value =>
        if meaning.isTrue value then some machine.advance else machine.jump? code label
  | ⟨.jumpIfTrue, some test, none, some (.label label)⟩ =>
      (machine.read? meaning test).bind fun value =>
        if meaning.isTrue value then machine.jump? code label else some machine.advance
  | ⟨.input, none, none, some target⟩ =>
      machine.world.receive?.bind fun (value, world) =>
        ({ machine with world }.write? value target).map advance
  | ⟨.output, some (.literal text), none, none⟩ =>
      some { machine with world := machine.world.emit (.text text) }.advance
  | ⟨.output, some operand, none, none⟩ =>
      (machine.read? meaning operand).map fun value =>
        { machine with world := machine.world.emit (.value value) }.advance
  | ⟨op, some first, second, some target⟩ =>
      (machine.compute? meaning op first second target).map advance
  | _ => none

/-- One step; there is none behind the end of the code. -/
def step? (code : List Quad) (machine : Machine Value Feed) : Option (Machine Value Feed) :=
  code[machine.index]?.bind (machine.perform? meaning code)

def run? (code : List Quad) : Nat → Machine Value Feed → Option (Machine Value Feed)
  | 0, machine => some machine
  | steps + 1, machine => (machine.step? meaning code).bind (run? code steps)

/-- The machine gets to another state, in however many steps. -/
def Reaches (code : List Quad) (machine later : Machine Value Feed) : Prop :=
  ∃ steps, run? meaning code steps machine = some later

/-- After this many steps the machine stands at the end of the code. -/
def FinishesIn (code : List Quad) (steps : Nat) (machine : Machine Value Feed) : Prop :=
  ∃ last, run? meaning code steps machine = some last ∧ last.index = code.length

variable {meaning} {code : List Quad} {machine middle later : Machine Value Feed}

theorem run?_add (first second : Nat) (machine : Machine Value Feed) :
    run? meaning code (first + second) machine =
      (run? meaning code first machine).bind (run? meaning code second) := by
  induction first generalizing machine with
  | zero => simp [run?]
  | succ first ih =>
      rw [Nat.succ_add, run?, run?, Option.bind_assoc]
      exact Option.bind_congr fun next _ => ih next

theorem step?_at_end (ended : machine.index = code.length) :
    machine.step? meaning code = none := by
  have beyond : code[machine.index]? = none := List.getElem?_eq_none (by omega)
  rw [step?, beyond]
  rfl

theorem Reaches.refl (machine : Machine Value Feed) : Reaches meaning code machine machine :=
  ⟨0, rfl⟩

theorem Reaches.trans (first : Reaches meaning code machine middle)
    (second : Reaches meaning code middle later) : Reaches meaning code machine later := by
  obtain ⟨before, toMiddle⟩ := first
  obtain ⟨behind, toLater⟩ := second
  refine ⟨before + behind, ?_⟩
  rw [run?_add, toMiddle]
  exact toLater

theorem Reaches.step (stepped : machine.step? meaning code = some later) :
    Reaches meaning code machine later := by
  refine ⟨1, ?_⟩
  rw [run?, stepped]
  rfl

/-- A machine that has finished has no further step, so what it passed on the way lies before its
end. -/
theorem FinishesIn.after {steps count : Nat} (finished : FinishesIn meaning code steps machine)
    (passed : run? meaning code count machine = some later) :
    count ≤ steps ∧ FinishesIn meaning code (steps - count) later := by
  obtain ⟨last, ran, ended⟩ := finished
  by_cases within : count ≤ steps
  · refine ⟨within, last, ?_, ended⟩
    rw [← Nat.add_sub_cancel' within, run?_add, passed] at ran
    exact ran
  · have longer : count = steps + ((count - steps - 1) + 1) := by omega
    rw [longer, run?_add, ran] at passed
    simp [run?, step?_at_end ended] at passed

theorem FinishesIn.after_step {steps : Nat} (finished : FinishesIn meaning code steps machine)
    (stepped : machine.step? meaning code = some later) :
    0 < steps ∧ FinishesIn meaning code (steps - 1) later := by
  have once : run? meaning code 1 machine = some later := by
    rw [run?, stepped]
    rfl
  exact finished.after once

/-- What a finishing machine reaches goes on to finish, in no more steps. -/
theorem FinishesIn.of_reaches {steps : Nat} (finished : FinishesIn meaning code steps machine)
    (reached : Reaches meaning code machine later) :
    ∃ fewer, fewer ≤ steps ∧ FinishesIn meaning code fewer later := by
  obtain ⟨count, passed⟩ := reached
  exact ⟨steps - count, Nat.sub_le steps count, (finished.after passed).2⟩

/-- A machine finishes in one state only. -/
theorem reaches_end_unique {last other : Machine Value Feed}
    (first : Reaches meaning code machine last) (ended : last.index = code.length)
    (second : Reaches meaning code machine other) (otherEnded : other.index = code.length) :
    last = other := by
  obtain ⟨steps, ran⟩ := first
  obtain ⟨count, passed⟩ := second
  have atMost : count ≤ steps := (FinishesIn.after ⟨last, ran, ended⟩ passed).1
  have atLeast : steps ≤ count := (FinishesIn.after ⟨other, passed, otherEnded⟩ ran).1
  have same : steps = count := by omega
  rw [same, passed] at ran
  exact (Option.some.inj ran).symm

end Machine

end ThreeAddress
