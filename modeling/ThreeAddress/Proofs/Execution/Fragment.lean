import ThreeAddress.Proofs.Execution.Machine
import ThreeAddress.Proofs.Quad.Supply

/-!
# Fragments of code

A fragment is a part of a code that stands at some index of it. Here are the steps of a machine at
the front of a fragment, one statement for each kind of quadruple that lowering puts there, and the
two things that make fragments independent of what stands around them: a label is found where it is
put, provided that no label is put twice, and an operand does not depend on later temporaries.
-/

namespace ThreeAddress

set_option autoImplicit false

namespace Quad

/-- `fragment` is the part of `code` that starts at the index `start`. -/
def Stands (code : List Quad) (start : Nat) (fragment : List Quad) : Prop :=
  ∃ before behind, code = before ++ fragment ++ behind ∧ before.length = start

variable {code front back rest : List Quad} {quad : Quad} {start label : Nat}

theorem stands_whole (code : List Quad) : Stands code 0 code :=
  ⟨[], [], by simp, rfl⟩

theorem Stands.left (stands : Stands code start (front ++ back)) : Stands code start front := by
  obtain ⟨before, behind, split, length⟩ := stands
  refine ⟨before, back ++ behind, ?_, length⟩
  rw [split]
  simp only [List.append_assoc]

theorem Stands.right (stands : Stands code start (front ++ back)) :
    Stands code (start + front.length) back := by
  obtain ⟨before, behind, split, length⟩ := stands
  refine ⟨before ++ front, behind, ?_, ?_⟩
  · rw [split]
    simp only [List.append_assoc]
  · rw [List.length_append, length]

theorem Stands.tail (stands : Stands code start (quad :: rest)) :
    Stands code (start + 1) rest := by
  have apart : Stands code start ([quad] ++ rest) := stands
  exact apart.right

theorem Stands.getElem? (stands : Stands code start (quad :: rest)) :
    code[start]? = some quad := by
  obtain ⟨before, behind, split, length⟩ := stands
  rw [split, List.append_assoc, List.getElem?_append_right (by omega), length, Nat.sub_self]
  rfl

theorem Stands.lt_length (stands : Stands code start (quad :: rest)) : start < code.length := by
  have found := stands.getElem?
  exact (List.getElem?_eq_some_iff.mp found).1

/-- A label that is put once is found where it stands. -/
theorem Stands.label_index? (stands : Stands code start (.label label :: rest))
    (distinct : (definedLabels code).Nodup) : labelIndex? code label = some start := by
  obtain ⟨before, behind, split, length⟩ := stands
  have absent : ∀ quad ∈ before, ¬ quad.defined? = some label := by
    intro quad member defines
    rw [split, List.append_assoc, defined_labels_append] at distinct
    have earlier : label ∈ definedLabels before :=
      List.mem_filterMap.mpr ⟨quad, member, defines⟩
    exact (List.nodup_append.mp distinct).2.2 label earlier label (by simp) rfl
  have missed : before.findIdx? (fun quad => quad.defined? = some label) = none := by
    rw [List.findIdx?_eq_none_iff]
    intro quad member
    simpa using absent quad member
  rw [Quad.labelIndex?, split, List.append_assoc, List.findIdx?_append, missed]
  simp [List.findIdx?_cons, defined?, Quad.label, Operand.label?, length]

end Quad

/-- The temporaries below `low` are those of `base`. -/
def Kept {Value : Type} (low : Nat) (base temps : Nat → Value) : Prop :=
  ∀ number < low, temps number = base number

namespace Kept

variable {Value : Type} {low high : Nat} {base temps later : Nat → Value}

theorem refl (low : Nat) (base : Nat → Value) : Kept low base base :=
  fun _ _ => rfl

theorem trans (first : Kept low base temps) (second : Kept low temps later) :
    Kept low base later :=
  fun number bound => (second number bound).trans (first number bound)

theorem mono (kept : Kept high base temps) (within : low ≤ high) : Kept low base temps :=
  fun number bound => kept number (Nat.lt_of_lt_of_le bound within)

theorem update (kept : Kept low base temps) {number : Nat} (beyond : low ≤ number)
    (value : Value) : Kept low base (Function.update temps number value) := by
  intro other bound
  rw [Function.update_of_ne (by omega)]
  exact kept other bound

end Kept

namespace Operand

/-- An operand that does not depend on temporaries from `low` on. -/
def Below (low : Nat) : Operand → Prop
  | .temp number => number < low
  | .literal _ | .var _ => True
  | .label _ => False

theorem Below.mono {low high : Nat} {operand : Operand} (below : operand.Below low)
    (within : low ≤ high) : operand.Below high := by
  cases operand with
  | temp number => exact Nat.lt_of_lt_of_le below within
  | literal text => trivial
  | var name => trivial
  | label number => exact below

theorem Below.value?_eq {Value : Type} {meaning : Interpretation Value} {store : String → Value}
    {temps later : Nat → Value} {low : Nat} {operand : Operand} (below : operand.Below low)
    (kept : Kept low temps later) :
    operand.value? meaning store later = operand.value? meaning store temps := by
  cases operand with
  | temp number => exact congrArg some (kept number below)
  | literal text => rfl
  | var name => rfl
  | label number => rfl

end Operand

namespace Machine

variable {Value Feed : Type} [DecidableEq Value] [Std.Stream Feed Value]
variable {meaning : Interpretation Value} {code rest : List Quad} {start : Nat}
variable {world : World Value Feed} {temps : Nat → Value}

theorem step?_eq_perform? {quad : Quad} (stands : Quad.Stands code start (quad :: rest)) :
    step? meaning code ⟨start, world, temps⟩ =
      perform? meaning code ⟨start, world, temps⟩ quad := by
  rw [step?, stands.getElem?]
  rfl

theorem step?_label {label : Nat} (stands : Quad.Stands code start (.label label :: rest)) :
    step? meaning code ⟨start, world, temps⟩ = some ⟨start + 1, world, temps⟩ := by
  rw [step?_eq_perform? stands]
  rfl

theorem step?_jump {label target : Nat} (stands : Quad.Stands code start (.jump label :: rest))
    (found : Quad.labelIndex? code label = some target) :
    step? meaning code ⟨start, world, temps⟩ = some ⟨target, world, temps⟩ := by
  rw [step?_eq_perform? stands]
  change (Quad.labelIndex? code label).map _ = _
  rw [found]
  rfl

theorem step?_jump_if_zero {test : Operand} {value : Value} {label target : Nat}
    (stands : Quad.Stands code start (.branch .jumpIfZero test label :: rest))
    (known : test.value? meaning world.store temps = some value)
    (found : Quad.labelIndex? code label = some target) :
    step? meaning code ⟨start, world, temps⟩ =
      some ⟨if meaning.isTrue value then start + 1 else target, world, temps⟩ := by
  rw [step?_eq_perform? stands]
  change (test.value? meaning world.store temps).bind _ = _
  rw [known]
  simp only [Option.bind_some, jump?, found]
  split <;> rfl

theorem step?_jump_if_true {test : Operand} {value : Value} {label target : Nat}
    (stands : Quad.Stands code start (.branch .jumpIfTrue test label :: rest))
    (known : test.value? meaning world.store temps = some value)
    (found : Quad.labelIndex? code label = some target) :
    step? meaning code ⟨start, world, temps⟩ =
      some ⟨if meaning.isTrue value then target else start + 1, world, temps⟩ := by
  rw [step?_eq_perform? stands]
  change (test.value? meaning world.store temps).bind _ = _
  rw [known]
  simp only [Option.bind_some, jump?, found]
  split <;> rfl

/-- A computation stores the value that its operation yields. -/
theorem step?_compute {op : Operation} {first target : Operand} {second : Option Operand}
    {left value : Value} {right : Option Value} {after : Machine Value Feed}
    (stands : Quad.Stands code start (⟨op, some first, second, some target⟩ :: rest))
    (known : first.value? meaning world.store temps = some left)
    (knownSecond : readSecond? meaning (⟨start, world, temps⟩ : Machine Value Feed) second =
      some right)
    (applied : op.apply? meaning left right = some value)
    (written : write? (⟨start, world, temps⟩ : Machine Value Feed) value target = some after) :
    step? meaning code ⟨start, world, temps⟩ = some after.advance := by
  have computed : compute? meaning op first second target
      (⟨start, world, temps⟩ : Machine Value Feed) = some after := by
    simp only [compute?, read?, known, knownSecond, applied, written, Option.bind_eq_bind,
      Option.bind_some]
  rw [step?_eq_perform? stands]
  -- Only an operation that computes something gets past `applied`.
  cases op with
  | assign | arithmetic op | compare op | and | or | not | arrayRead =>
      exact congrArg (Option.map advance) computed
  | jump | jumpIfZero | jumpIfTrue | label | input | output =>
      cases right <;> cases applied

end Machine

end ThreeAddress
