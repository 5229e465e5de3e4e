import ThreeAddress.Proofs.Quad.Temporaries
import ThreeAddress.Proofs.Scope.Flat
import ThreeAddress.Proofs.Token.Spelling

/-!
# The types of operands

A name has the type of its symbol, a temporary the type of what the quadruple that defines it
computes. Since temporaries are defined in order, going through the code once finds the types of
all of them. The operand that an expression leaves its value in has the type of the expression.
-/

namespace ThreeAddress

set_option autoImplicit false

structure OperandTypes where
  names : String → Option ValueType
  temps : Nat → Option ValueType

/-- A number with a point is a `Float`, any other is an `Int`; a string has no type. -/
def Operand.literalType? (text : List Char) : Option ValueType :=
  if text.all fun c => Scan.isDigit c || c = '.' then
    some (if '.' ∈ text then .float else .int)
  else none

def Operand.type? (types : OperandTypes) : Operand → Option ValueType
  | .literal text => literalType? text.toList
  | .var name => types.names name
  | .temp number => types.temps number
  | .label _ => none

namespace Quad

def type? (types : OperandTypes) (quad : Quad) : Option ValueType :=
  let first := quad.first.bind (Operand.type? types)
  let second := quad.second.bind (Operand.type? types)
  match quad.op with
  | .assign => first
  | .arithmetic _ => first.bind fun left => second.map left.arithmetic
  | .arrayRead => first.bind ValueType.element?
  | .compare _ | .and | .or | .not => some .int
  | _ => none

def addType (names : String → Option ValueType) (temps : Nat → Option ValueType) (quad : Quad) :
    Nat → Option ValueType :=
  match quad.definedTemp? with
  | some number => Function.update temps number (quad.type? ⟨names, temps⟩)
  | none => temps

/-- The types of the operands of a code: names have the types of their symbols, temporaries those
of what defines them. -/
def types (table : SymbolTable) (code : List Quad) : OperandTypes :=
  let names := fun name => (table.flat.find? name).map Symbol.type
  ⟨names, code.foldl (addType names) fun _ => none⟩

end Quad

/-- Every temporary has the type of the quadruple that defines it. -/
def OperandTypes.Solves (types : OperandTypes) (code : List Quad) : Prop :=
  ∀ quad ∈ code, ∀ number, quad.definedTemp? = some number →
    types.temps number = quad.type? types

section Solution

open Quad

variable {names : String → Option ValueType}

theorem Operand.Below.type?_eq {temps later : Nat → Option ValueType} {low : Nat}
    {operand : Operand} (below : operand.Below low)
    (same : ∀ number < low, later number = temps number) :
    operand.type? ⟨names, later⟩ = operand.type? ⟨names, temps⟩ := by
  cases operand with
  | temp number => exact same number below
  | literal text => rfl
  | var name => rfl
  | label number => rfl

/-- What a quadruple computes has the same type as long as its operands have. -/
theorem Quad.type?_eq {temps later : Nat → Option ValueType} {low : Nat} {quad : Quad}
    (left : ∀ operand ∈ quad.first, operand.Below low)
    (right : ∀ operand ∈ quad.second, operand.Below low)
    (same : ∀ number < low, later number = temps number) :
    quad.type? ⟨names, later⟩ = quad.type? ⟨names, temps⟩ := by
  have firsts : quad.first.bind (Operand.type? ⟨names, later⟩) =
      quad.first.bind (Operand.type? ⟨names, temps⟩) :=
    Option.bind_congr fun operand member => (left operand member).type?_eq same
  have seconds : quad.second.bind (Operand.type? ⟨names, later⟩) =
      quad.second.bind (Operand.type? ⟨names, temps⟩) :=
    Option.bind_congr fun operand member => (right operand member).type?_eq same
  simp only [Quad.type?, firsts, seconds]

theorem Quad.add_type_of_none {quad : Quad} (none : quad.definedTemp? = none)
    (temps : Nat → Option ValueType) : addType names temps quad = temps := by
  rw [addType, none]

theorem Quad.add_type_of_some {quad : Quad} {number : Nat}
    (defined : quad.definedTemp? = some number) (temps : Nat → Option ValueType) :
    addType names temps quad = Function.update temps number (quad.type? ⟨names, temps⟩) := by
  rw [addType, defined]

theorem Quad.defined_temps_cons_of_none {quad : Quad} (none : quad.definedTemp? = none)
    (rest : List Quad) : definedTemps (quad :: rest) = definedTemps rest :=
  List.filterMap_cons_none none

theorem Quad.defined_temps_cons_of_some {quad : Quad} {number : Nat}
    (defined : quad.definedTemp? = some number) (rest : List Quad) :
    definedTemps (quad :: rest) = number :: definedTemps rest :=
  List.filterMap_cons_some defined

theorem Quad.foldl_add_type_of_not_mem {number : Nat} {code : List Quad}
    (undefined : number ∉ definedTemps code) (temps : Nat → Option ValueType) :
    code.foldl (addType names) temps number = temps number := by
  induction code generalizing temps with
  | nil => rfl
  | cons quad rest ih =>
      rw [List.foldl_cons]
      cases defined : quad.definedTemp? with
      | none =>
          rw [defined_temps_cons_of_none defined] at undefined
          rw [ih undefined, add_type_of_none defined]
      | some other =>
          rw [defined_temps_cons_of_some defined, List.mem_cons, not_or] at undefined
          rw [ih undefined.2, add_type_of_some defined]
          exact Function.update_of_ne undefined.1 _ _

/-- Where temporaries are defined in order and from earlier ones, going through the code once finds
their types. -/
theorem Quad.solves_foldl {code : List Quad} (ordered : (definedTemps code).Pairwise (· < ·))
    (sequential : Sequential code) (temps : Nat → Option ValueType) :
    OperandTypes.Solves ⟨names, code.foldl (addType names) temps⟩ code := by
  induction code generalizing temps with
  | nil => exact List.forall_mem_nil _
  | cons quad rest ih =>
      rw [sequential_cons] at sequential
      have behind : (definedTemps rest).Pairwise (· < ·) :=
        ordered.sublist ((List.sublist_cons_self quad rest).filterMap _)
      rw [List.foldl_cons]
      intro other member number result
      rcases List.mem_cons.mp member with rfl | later
      · -- No later quadruple defines this temporary or one that is read here.
        rw [defined_temps_cons_of_some result, List.pairwise_cons] at ordered
        obtain ⟨left, right⟩ := sequential.1 number result
        have kept : ∀ earlier ≤ number,
            rest.foldl (addType names) (addType names temps other) earlier =
              addType names temps other earlier := by
          intro earlier bound
          apply foldl_add_type_of_not_mem
          intro again
          have := ordered.1 earlier again
          omega
        have step : addType names temps other =
            Function.update temps number (other.type? ⟨names, temps⟩) :=
          add_type_of_some result temps
        have found : rest.foldl (addType names) (addType names temps other) number =
            other.type? ⟨names, temps⟩ := by
          rw [kept number le_rfl, step, Function.update_self]
        have before : ∀ earlier < number,
            rest.foldl (addType names) (addType names temps other) earlier = temps earlier := by
          intro earlier bound
          rw [kept earlier bound.le, step, Function.update_of_ne bound.ne]
        exact found.trans (type?_eq left right before).symm
      · exact ih behind sequential.2 _ other later number result

end Solution

/-- The types found for the code of a program are those of its definitions. -/
theorem Program.types_solve (program : Program) (supply : Supply) (table : SymbolTable) :
    (Quad.types table (program.lower supply).code).Solves (program.lower supply).code := by
  have orderly := Stmt.lower_all_orderly program supply
  apply Quad.solves_foldl
  · rw [Program.lower, orderly.temps]
    exact List.Ico.pairwise_lt _ _
  · exact orderly.reads

theorem OperandTypes.solves_append (types : OperandTypes) (front back : List Quad) :
    types.Solves (front ++ back) ↔ types.Solves front ∧ types.Solves back :=
  List.forall_mem_append

theorem OperandTypes.solves_cons (types : OperandTypes) (quad : Quad) (rest : List Quad) :
    types.Solves (quad :: rest) ↔
      (∀ number, quad.definedTemp? = some number → types.temps number = quad.type? types) ∧
        types.Solves rest :=
  List.forall_mem_cons

theorem Operand.literal_type?_integer {text : List Char} (digits : Scan.Digits text) :
    literalType? text = some .int := by
  have numeric : (text.all fun c => Scan.isDigit c || c = '.') = true := by
    rw [List.all_eq_true]
    intro c member
    rw [digits.2 c member, Bool.true_or]
  have noPoint : '.' ∉ text := by
    intro member
    exact absurd (digits.2 '.' member) (by decide)
  rw [literalType?, if_pos numeric, if_neg noPoint]

theorem Operand.literal_type?_float {whole fraction : List Char} (before : Scan.Digits whole)
    (behind : Scan.Digits fraction) :
    literalType? (whole ++ '.' :: fraction) = some .float := by
  have numeric : ((whole ++ '.' :: fraction).all fun c => Scan.isDigit c || c = '.') = true := by
    rw [List.all_eq_true]
    intro c member
    rcases List.mem_append.mp member with left | right
    · rw [before.2 c left, Bool.true_or]
    · rcases List.mem_cons.mp right with rfl | right
      · rfl
      · rw [behind.2 c right, Bool.true_or]
  have point : '.' ∈ whole ++ '.' :: fraction :=
    List.mem_append_right _ List.mem_cons_self
  rw [literalType?, if_pos numeric, if_pos point]

namespace Quad

variable (types : OperandTypes)

def IndicesTyped (code : List Quad) : Prop :=
  ∀ quad ∈ code, quad.op = .arrayRead → quad.second.bind (Operand.type? types) = some .int

@[simp] theorem indices_typed_nil : IndicesTyped types [] :=
  List.forall_mem_nil _

@[simp] theorem indices_typed_append (front back : List Quad) :
    IndicesTyped types (front ++ back) ↔ IndicesTyped types front ∧ IndicesTyped types back :=
  List.forall_mem_append

theorem indices_typed_cons_of_ne {quad : Quad} (other : quad.op ≠ .arrayRead) (rest : List Quad) :
    IndicesTyped types (quad :: rest) ↔ IndicesTyped types rest := by
  rw [IndicesTyped, List.forall_mem_cons]
  apply and_iff_right
  intro same
  exact absurd same other

@[simp] theorem indices_typed_label (number : Nat) (rest : List Quad) :
    IndicesTyped types (.label number :: rest) ↔ IndicesTyped types rest :=
  indices_typed_cons_of_ne types (by simp [Quad.label]) rest

@[simp] theorem indices_typed_jump (number : Nat) (rest : List Quad) :
    IndicesTyped types (.jump number :: rest) ↔ IndicesTyped types rest :=
  indices_typed_cons_of_ne types (by simp [Quad.jump]) rest

@[simp] theorem indices_typed_jump_if_zero (condition : Operand) (number : Nat) (rest : List Quad) :
    IndicesTyped types (.branch .jumpIfZero condition number :: rest) ↔
      IndicesTyped types rest :=
  indices_typed_cons_of_ne types (by simp [Quad.branch]) rest

@[simp] theorem indices_typed_jump_if_true (condition : Operand) (number : Nat) (rest : List Quad) :
    IndicesTyped types (.branch .jumpIfTrue condition number :: rest) ↔
      IndicesTyped types rest :=
  indices_typed_cons_of_ne types (by simp [Quad.branch]) rest

@[simp] theorem indices_typed_assign (value target : Operand) (rest : List Quad) :
    IndicesTyped types (.assign value target :: rest) ↔ IndicesTyped types rest :=
  indices_typed_cons_of_ne types (by simp [Quad.assign]) rest

@[simp] theorem indices_typed_arithmetic (op : BinaryOp) (first second result : Option Operand)
    (rest : List Quad) :
    IndicesTyped types (⟨.arithmetic op, first, second, result⟩ :: rest) ↔
      IndicesTyped types rest :=
  indices_typed_cons_of_ne types (by simp) rest

@[simp] theorem indices_typed_compare (op : CompareOp) (first second result : Option Operand)
    (rest : List Quad) :
    IndicesTyped types (⟨.compare op, first, second, result⟩ :: rest) ↔
      IndicesTyped types rest :=
  indices_typed_cons_of_ne types (by simp) rest

end Quad

/-- The value of a lowered expression has a type, and its code reads arrays at integers. -/
structure LoweredValue.Typed (types : OperandTypes) (lowered : LoweredValue) (type : ValueType) :
    Prop where
  value : lowered.value.type? types = some type
  indices : Quad.IndicesTyped types lowered.code

section Expressions

variable {types : OperandTypes}

theorem LoweredValue.typed_compute {code : List Quad} {op : Operation} {first : Operand}
    {second : Option Operand} {next : Nat} {type : ValueType}
    (solves : types.Solves (LoweredValue.compute code op first second next).code)
    (indices : Quad.IndicesTyped types code)
    (last : op = .arrayRead → second.bind (Operand.type? types) = some .int)
    (computed : Quad.type? types ⟨op, some first, second, some (.temp next)⟩ = some type) :
    (LoweredValue.compute code op first second next).Typed types type where
  value := by
    rw [LoweredValue.compute, types.solves_append, types.solves_cons] at solves
    exact (solves.2.1 next rfl).trans computed
  indices := by
    rw [LoweredValue.compute, Quad.indices_typed_append]
    exact ⟨indices, List.forall_mem_singleton.mpr last⟩

theorem DataType.int_combine (type : DataType) : DataType.int.combine type = type := by
  cases type <;> rfl

def OperandTypes.Agrees (types : OperandTypes) (scope : Context) : Prop :=
  ∀ name role, scope.Resolves name role → types.names name = some role.type

/-- The operand that an expression leaves its value in has the type of the expression. -/
theorem Expr.lower_typed {scope : Context} (agrees : types.Agrees scope) {expr : Expr}
    {type : DataType} (typed : expr.HasType scope type) {next : Nat}
    (spelled : ∀ kind ∈ expr.unparse, kind.Spelled) (solves : types.Solves (expr.lower next).code) :
    (expr.lower next).Typed types (.scalar type) := by
  induction typed generalizing next with
  | integer =>
      exact ⟨Operand.literal_type?_integer (spelled _ List.mem_cons_self), List.forall_mem_nil _⟩
  | @float text place =>
      obtain ⟨whole, fraction, written, before, behind⟩ := spelled (.float text) List.mem_cons_self
      refine ⟨?_, List.forall_mem_nil _⟩
      rw [Expr.lower, Operand.type?, written]
      exact Operand.literal_type?_float before behind
  | identifier resolves => exact ⟨agrees _ _ resolves, List.forall_mem_nil _⟩
  | element resolves _ ih =>
      simp only [Expr.unparse, List.forall_mem_cons, List.forall_mem_append] at spelled
      have position := ih spelled.2.2.1 ((types.solves_append _ _).mp solves).1
      apply LoweredValue.typed_compute solves position.indices
      · intro _
        exact position.value
      · simp [Quad.type?, Operand.type?, agrees _ _ resolves, ValueType.element?]
  | paren _ ih =>
      simp only [Expr.unparse, List.forall_mem_cons, List.forall_mem_append] at spelled
      exact ih spelled.2.1 solves
  | negate _ ih =>
      simp only [Expr.unparse, List.forall_mem_cons] at spelled
      have operand := ih spelled.2 ((types.solves_append _ _).mp solves).1
      have zero : (Operand.literal "0").type? types = some .int :=
        Operand.literal_type?_integer (by simp [Scan.Digits]; decide)
      apply LoweredValue.typed_compute solves operand.indices
      · intro read
        cases read
      · simp only [Quad.type?, Option.bind_some, zero, operand.value, Option.map_some,
          ValueType.int, ValueType.arithmetic_scalar, DataType.int_combine]
  | binary _ _ _ ihLeft ihRight =>
      simp only [Expr.unparse, List.forall_mem_cons, List.forall_mem_append] at spelled
      obtain ⟨firsts, seconds⟩ :=
        (types.solves_append _ _).mp ((types.solves_append _ _).mp solves).1
      have first := ihLeft spelled.1 firsts
      have second := ihRight spelled.2.2 seconds
      apply LoweredValue.typed_compute solves
      · exact (Quad.indices_typed_append types _ _).mpr ⟨first.indices, second.indices⟩
      · intro read
        cases read
      · simp only [Quad.type?, Option.bind_some, first.value, second.value, Option.map_some,
          ValueType.arithmetic_scalar]

/-- The code of a condition reads arrays at integers. -/
theorem Cond.lower_typed {scope : Context} (agrees : types.Agrees scope) {cond : Cond}
    (typed : cond.Typed scope) {next : Nat} (spelled : ∀ kind ∈ cond.unparse, kind.Spelled)
    (solves : types.Solves (cond.lower next).code) :
    (cond.lower next).Typed types .int := by
  induction typed generalizing next with
  | compare left right =>
      simp only [Cond.unparse, List.forall_mem_cons, List.forall_mem_append] at spelled
      obtain ⟨firsts, seconds⟩ :=
        (types.solves_append _ _).mp ((types.solves_append _ _).mp solves).1
      have first := Expr.lower_typed agrees left spelled.1 firsts
      have second := Expr.lower_typed agrees right spelled.2.2 seconds
      apply LoweredValue.typed_compute solves
      · exact (Quad.indices_typed_append types _ _).mpr ⟨first.indices, second.indices⟩
      · intro read
        cases read
      · rfl
  | and _ _ ihLeft ihRight | or _ _ ihLeft ihRight =>
      simp only [Cond.unparse, List.forall_mem_cons, List.forall_mem_append] at spelled
      obtain ⟨firsts, seconds⟩ :=
        (types.solves_append _ _).mp ((types.solves_append _ _).mp solves).1
      have first := ihLeft spelled.1 firsts
      have second := ihRight spelled.2.2 seconds
      apply LoweredValue.typed_compute solves
      · exact (Quad.indices_typed_append types _ _).mpr ⟨first.indices, second.indices⟩
      · intro read
        cases read
      · rfl
  | not _ ih =>
      simp only [Cond.unparse, List.forall_mem_cons] at spelled
      have operand := ih spelled.2 ((types.solves_append _ _).mp solves).1
      apply LoweredValue.typed_compute solves operand.indices
      · intro read
        cases read
      · rfl
  | paren _ ih =>
      simp only [Cond.unparse, List.forall_mem_cons, List.forall_mem_append] at spelled
      exact ih spelled.2.1 solves

end Expressions

end ThreeAddress
