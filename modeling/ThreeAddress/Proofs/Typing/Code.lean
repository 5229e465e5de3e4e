import Mathlib.Data.List.Forall2
import ThreeAddress.Proofs.Compilation.Acceptance
import ThreeAddress.Proofs.Typing.Operands
import ThreeAddress.Proofs.Typing.Statements

/-!
# The types of what a code stores

The assignments of a code to variables are the stores of its program, in order. Main statement: in
the code of an accepted text that declares no name twice, arrays are read at integers, and every
variable accepts what is stored in it, except for the counters of loops that count with a `Float`.
-/

namespace ThreeAddress

set_option autoImplicit false

/-- A value that a program stores under a name, and whether the name counts the rounds of a
loop. -/
structure Store where
  target : String
  value : Expr
  counts : Bool

mutual

/-- The stores of a statement in the order of its code. A counting loop sets its counter before
the first round and adds its step behind every round. -/
def Stmt.stores : Stmt → List Store
  | .scalar .. | .array .. | .input .. | .output .. => []
  | .constant name _ _ value _ => [⟨name.name, value, false⟩]
  | .assign target value _ => [⟨target.name, value, false⟩]
  | .ifThen _ body _ | .doWhile body _ _ => Stmt.storesAll body
  | .ifElse _ body alternative _ => Stmt.storesAll body ++ Stmt.storesAll alternative
  | .forLoop counter first _ step body _ =>
      ⟨counter.name, first, true⟩ :: (Stmt.storesAll body ++ [⟨counter.name, step, true⟩])

def Stmt.storesAll : List Stmt → List Store
  | [] => []
  | first :: rest => first.stores ++ Stmt.storesAll rest

end

def Program.stores (program : Program) : List Store :=
  Stmt.storesAll program

namespace Quad

def store? (quad : Quad) : Option (Operand × String) :=
  match quad.result, quad.first, quad.op with
  | some (.var name), some value, .assign => some (value, name)
  | _, _, _ => none

def stores (code : List Quad) : List (Operand × String) :=
  code.filterMap store?

@[simp] theorem stores_nil : stores [] = [] := rfl

@[simp] theorem stores_append (front back : List Quad) :
    stores (front ++ back) = stores front ++ stores back :=
  List.filterMap_append

@[simp] theorem stores_label (number : Nat) (rest : List Quad) :
    stores (.label number :: rest) = stores rest := rfl

@[simp] theorem stores_jump (number : Nat) (rest : List Quad) :
    stores (.jump number :: rest) = stores rest := rfl

@[simp] theorem stores_branch (op : Operation) (condition : Operand) (number : Nat)
    (rest : List Quad) : stores (.branch op condition number :: rest) = stores rest := rfl

@[simp] theorem stores_store (value : Operand) (name : String) (rest : List Quad) :
    stores (.assign value (.var name) :: rest) = (value, name) :: stores rest := rfl

@[simp] theorem stores_assign (value : Operand) (number : Nat) (rest : List Quad) :
    stores (.assign value (.temp number) :: rest) = stores rest := rfl

@[simp] theorem stores_operation (op : Operation) (first second : Option Operand) (number : Nat)
    (rest : List Quad) :
    stores (⟨op, first, second, some (.temp number)⟩ :: rest) = stores rest := rfl

theorem Computes.store_eq_none {quad : Quad} (computes : quad.Computes) : quad.store? = none := by
  cases computes with
  | temp first second number computing => rfl

end Quad

/-- The code of an expression stores in temporaries only. -/
theorem Expr.stores_lower (expr : Expr) (next : Nat) : Quad.stores (expr.lower next).code = [] :=
  expr.filter_map_lower (fun _ computes => computes.store_eq_none) next

theorem Cond.stores_lower (cond : Cond) (next : Nat) : Quad.stores (cond.lower next).code = [] :=
  cond.filter_map_lower (fun _ computes => computes.store_eq_none) next

theorem Stmt.stores_lower_output (text : Option String) (names : List Ident) :
    Quad.stores (Stmt.lowerOutput text names) = [] :=
  Stmt.filter_map_lower_output (fun _ => rfl) text names

/-- The code stores a value of the type that the stored expression has. The variable accepts the
type, unless it counts the rounds of a loop and the expression is a `Float`. -/
def Store.Typed (scope : Context) (types : OperandTypes) (store : Store)
    (written : Operand × String) : Prop :=
  written.2 = store.target ∧ ∃ declared found, types.names store.target = some declared ∧
    store.value.HasType scope found ∧ written.1.type? types = some (.scalar found) ∧
    (declared.accepts (.scalar found) = true ↔ ¬ (store.counts = true ∧ found = .float))

/-- The stores of a code are those of the program, with their types, and arrays are read at
integers. -/
structure Quad.Typed (scope : Context) (types : OperandTypes) (stores : List Store)
    (code : List Quad) : Prop where
  stores : List.Forall₂ (Store.Typed scope types) stores (Quad.stores code)
  indices : Quad.IndicesTyped types code

section Statements

open SymbolTable

variable {whole : SymbolTable} {types : OperandTypes}

theorem Quad.Typed.append {scope : Context} {front back : List Store} {before behind : List Quad}
    (first : Quad.Typed scope types front before) (second : Quad.Typed scope types back behind) :
    Quad.Typed scope types (front ++ back) (before ++ behind) where
  stores := by
    rw [Quad.stores_append]
    exact List.rel_append first.stores second.stores
  indices := (Quad.indices_typed_append types _ _).mpr ⟨first.indices, second.indices⟩

theorem Quad.typed_of_none {scope : Context} {code : List Quad} (none : Quad.stores code = [])
    (indices : Quad.IndicesTyped types code) : Quad.Typed scope types [] code := by
  constructor
  · rw [none]
    exact .nil
  · exact indices

/-- The code of an assignment stores what the assignment says. -/
theorem Expr.lower_into_typed {scope : Context} (agrees : types.Agrees scope) {value : Expr}
    {found : DataType} (typed : value.HasType scope found) {target : String}
    {declared : ValueType} (named : types.names target = some declared)
    (takes : declared.Takes found) {supply : Supply}
    (spelled : ∀ kind ∈ value.unparse, kind.Spelled)
    (solves : types.Solves (value.lowerInto target supply).code) :
    Quad.Typed scope types [⟨target, value, false⟩] (value.lowerInto target supply).code := by
  have lowered := value.lower_typed agrees typed spelled ((types.solves_append _ _).mp solves).1
  constructor
  · rw [Expr.lowerInto, Quad.stores_append, value.stores_lower, Quad.stores_store]
    refine .cons ⟨rfl, declared, found, named, typed, lowered.value, ?_⟩ .nil
    simp [(declared.accepts_iff found).mpr takes]
  · rw [Expr.lowerInto, Quad.indices_typed_append, Quad.indices_typed_assign]
    exact ⟨lowered.indices, Quad.indices_typed_nil types⟩

/-- A counter is an `Int`, so it accepts a value exactly when that is one too. -/
theorem Store.typed_count {scope : Context} {target : String} {value : Expr} {found : DataType}
    {written : Operand} (named : types.names target = some .int)
    (typed : value.HasType scope found) (stored : written.type? types = some (.scalar found)) :
    Store.Typed scope types ⟨target, value, true⟩ (written, target) := by
  refine ⟨rfl, .int, found, named, typed, stored, ?_⟩
  cases found <;> simp [ValueType.accepts, ValueType.int, ValueType.float]

theorem Stmt.indices_typed_lower_output (text : Option String) (names : List Ident) :
    Quad.IndicesTyped types (Stmt.lowerOutput text names) := by
  intro quad member read
  obtain ⟨operand, rfl⟩ := Stmt.exists_of_mem_lower_output member
  cases read

/-- A table on the way to `whole`, in which no name is declared twice. -/
structure SymbolTable.Leads (table whole : SymbolTable) : Prop where
  distinct : table.Distinct
  logged : table.Logged
  recorded : table.log <:+ whole.log

theorem SymbolTable.Leads.resolves {table : SymbolTable} (leads : table.Leads whole)
    (once : whole.DeclaresOnce) (name : String) (role : Role) :
    table.context.Resolves name role → whole.flat.context.Resolves name role :=
  once.resolves_flat leads.distinct leads.logged leads.recorded

theorem SymbolTable.Leads.agrees {table : SymbolTable} (leads : table.Leads whole)
    (once : whole.DeclaresOnce) (agrees : types.Agrees whole.flat.context) :
    types.Agrees table.context := by
  intro name role resolves
  exact agrees name role (leads.resolves once name role resolves)

theorem SymbolTable.Leads.enter {table : SymbolTable} (leads : table.Leads whole) :
    table.enter.Leads whole :=
  ⟨leads.distinct.enter, leads.logged.enter, leads.recorded⟩

/-- What a statement leads to, if all that it records is recorded in the end. -/
theorem SymbolTable.Leads.next {before after : SymbolTable} (leads : before.Leads whole)
    (evolves : Evolves before after) (records : Records before after)
    (recorded : after.log <:+ whole.log) : after.Leads whole :=
  ⟨evolves.2 leads.distinct, records.2 leads.logged, recorded⟩

mutual

theorem Stmt.lower_typed (once : whole.DeclaresOnce)
    (agrees : types.Agrees whole.flat.context) (stmt : Stmt) {table : SymbolTable}
    (leads : table.Leads whole) (recorded : (stmt.check table).table.log <:+ whole.log)
    (faultless : (stmt.check table).faults = []) {supply : Supply}
    (spelled : ∀ kind ∈ stmt.unparse, kind.Spelled)
    (solves : types.Solves (stmt.lower supply).code) :
    Quad.Typed whole.flat.context types stmt.stores (stmt.lower supply).code := by
  have kept := leads.resolves once
  have here := leads.agrees once agrees
  match stmt with
  | .scalar .. | .array .. => exact Quad.typed_of_none rfl (Quad.indices_typed_nil types)
  | .input target place =>
      exact Quad.typed_of_none rfl ((Quad.indices_typed_cons_of_ne types (by simp) _).mpr
        (Quad.indices_typed_nil types))
  | .output text names place =>
      exact Quad.typed_of_none (Stmt.stores_lower_output text names)
        (Stmt.indices_typed_lower_output text names)
  | .constant name type position value place =>
      simp only [Stmt.unparse, List.forall_mem_append] at spelled
      obtain ⟨⟨found, typed, takes⟩, introduced⟩ :=
        (check_constant_eq_nil_iff leads.distinct name type position value).mp faultless
      have after := leads.next (Stmt.evolves_check _ table) (Stmt.records_check _ table) recorded
      have resolves : whole.flat.context.Resolves name.name ⟨.scalar type, true⟩ := by
        apply after.resolves once
        rw [resolves_iff after.distinct]
        exact ⟨_, find?_introduce rfl introduced, rfl⟩
      exact Expr.lower_into_typed agrees (typed.transfer kept) (agrees _ _ resolves) takes
        spelled.1.2 solves
  | .assign target value place =>
      simp only [Stmt.unparse, List.forall_mem_append] at spelled
      obtain ⟨declared, found, resolves, typed, takes⟩ :=
        (check_assign_eq_nil_iff leads.distinct target value).mp faultless
      exact Expr.lower_into_typed agrees (typed.transfer kept) (agrees _ _ (kept _ _ resolves))
        takes spelled.1.2 solves
  | .ifThen condition body place =>
      simp only [Stmt.unparse, List.forall_mem_append] at spelled
      obtain ⟨tested, checked⟩ := List.append_eq_nil_iff.mp faultless
      simp only [Stmt.lower, types.solves_append] at solves
      have test := Cond.lower_typed here ((condition.check_eq_nil_iff leads.distinct).mp tested)
        spelled.1.1.1.2 solves.1.1.1
      have inside := Stmt.lower_all_typed once agrees body leads.enter recorded checked
        spelled.1.2 solves.1.2
      constructor
      · simpa only [Stmt.lower, Stmt.stores, Quad.stores_append, Quad.stores_branch,
          Quad.stores_jump, Quad.stores_label, Quad.stores_nil, condition.stores_lower,
          List.nil_append, List.append_nil] using inside.stores
      · simp only [Stmt.lower, Quad.indices_typed_append, Quad.indices_typed_jump_if_zero,
          Quad.indices_typed_jump, Quad.indices_typed_label, Quad.indices_typed_nil, and_true]
        exact ⟨test.indices, inside.indices⟩
  | .ifElse condition body alternative place =>
      simp only [Stmt.unparse, List.forall_mem_append] at spelled
      simp only [Stmt.check, List.append_eq_nil_iff] at faultless
      simp only [Stmt.lower, types.solves_append] at solves
      have earlier : (Stmt.checkAll table.enter body).table.leave.log <:+ whole.log :=
        (Stmt.records_check_all alternative
          (Stmt.checkAll table.enter body).table.leave.enter).1.trans recorded
      have middle := leads.next
        (evolves_of_frames_eq (Stmt.evolves_check_all body table.enter).frames_leave)
        (Stmt.records_check_all body table.enter).leave earlier
      have test := Cond.lower_typed here
        ((condition.check_eq_nil_iff leads.distinct).mp faultless.1.1) spelled.1.1.1.1.1.2
        solves.1.1.1.1.1
      have inside := Stmt.lower_all_typed once agrees body leads.enter earlier faultless.1.2
        spelled.1.1.1.2 solves.1.1.1.2
      have other := Stmt.lower_all_typed once agrees alternative middle.enter recorded
        faultless.2 spelled.1.2 solves.1.2
      constructor
      · simpa only [Stmt.lower, Stmt.stores, Quad.stores_append, Quad.stores_branch,
          Quad.stores_jump, Quad.stores_label, Quad.stores_nil, condition.stores_lower,
          List.nil_append, List.append_nil] using (inside.append other).stores
      · simp only [Stmt.lower, Quad.indices_typed_append, Quad.indices_typed_jump_if_zero,
          Quad.indices_typed_jump, Quad.indices_typed_label, Quad.indices_typed_nil, and_true]
        exact ⟨⟨test.indices, inside.indices⟩, other.indices⟩
  | .doWhile body condition place =>
      simp only [Stmt.unparse, List.forall_mem_append] at spelled
      obtain ⟨checked, tested⟩ := List.append_eq_nil_iff.mp faultless
      simp only [Stmt.lower, types.solves_append] at solves
      have after := leads.enter.next (Stmt.evolves_check_all body _)
        (Stmt.records_check_all body _) recorded
      have inside := Stmt.lower_all_typed once agrees body leads.enter recorded checked
        spelled.1.1.1.2 solves.1.1.2
      have test := Cond.lower_typed (after.agrees once agrees)
        ((condition.check_eq_nil_iff after.distinct).mp tested) spelled.1.2 solves.1.2
      constructor
      · simpa only [Stmt.lower, Stmt.stores, Quad.stores_append, Quad.stores_branch,
          Quad.stores_label, Quad.stores_nil, condition.stores_lower, List.nil_append,
          List.append_nil] using inside.stores
      · simp only [Stmt.lower, Quad.indices_typed_append, Quad.indices_typed_jump_if_true,
          Quad.indices_typed_label, Quad.indices_typed_nil, and_true, true_and]
        exact ⟨inside.indices, test.indices⟩
  | .forLoop counter first last step body place =>
      simp only [Stmt.unparse, List.forall_mem_append] at spelled
      obtain ⟨⟨⟨⟨⟨⟨⟨_, firstSpelled⟩, _⟩, lastSpelled⟩, _⟩, stepSpelled⟩, _⟩, bodySpelled⟩ := spelled.1
      simp only [Stmt.check, List.append_eq_nil_iff, check_counter_eq_nil_iff leads.enter.distinct,
        check_bound_eq_nil_iff leads.enter.distinct] at faultless
      obtain ⟨⟨⟨⟨resolves, lower, starts⟩, upper, bounds⟩, stride, steps⟩, checked⟩ := faultless
      have keptInside := leads.enter.resolves once
      have agreesInside := leads.enter.agrees once agrees
      have named := agreesInside _ _ resolves
      simp only [Stmt.lower_for_loop, types.solves_append, types.solves_cons] at solves
      obtain ⟨origins, _, limits, _, strides, held, _, _, _, insides, added, _⟩ := solves
      have origin := Expr.lower_typed agreesInside starts firstSpelled origins
      have bound := Expr.lower_typed agreesInside bounds lastSpelled limits
      have increment := Expr.lower_typed agreesInside steps stepSpelled strides
      have inside := Stmt.lower_all_typed once agrees body leads.enter recorded checked
        bodySpelled insides
      -- The step is held in a temporary, and adding it to the counter keeps its type.
      have holding := (held _ rfl).trans increment.value
      have total := added _ rfl
      simp only [Quad.type?, Option.bind_some, Operand.type?, named, holding, Option.map_some,
        ValueType.arithmetic_scalar, DataType.int_combine] at total
      constructor
      · simp only [Stmt.lower_for_loop, Stmt.stores, Quad.stores_append, Quad.stores_store,
          Quad.stores_assign, Quad.stores_label, Quad.stores_operation, Quad.stores_branch,
          Quad.stores_jump, Quad.stores_nil, Expr.stores_lower, List.nil_append]
        apply List.Forall₂.cons
        · exact Store.typed_count named (starts.transfer keptInside) origin.value
        · apply List.rel_append inside.stores
          exact .cons (Store.typed_count named (steps.transfer keptInside) total) .nil
      · simp only [Stmt.lower_for_loop, Quad.indices_typed_append, Quad.indices_typed_assign,
          Quad.indices_typed_label, Quad.indices_typed_compare, Quad.indices_typed_jump_if_zero,
          Quad.indices_typed_arithmetic, Quad.indices_typed_jump, Quad.indices_typed_nil, and_true]
        exact ⟨origin.indices, bound.indices, increment.indices, inside.indices⟩

theorem Stmt.lower_all_typed (once : whole.DeclaresOnce)
    (agrees : types.Agrees whole.flat.context) (stmts : List Stmt) {table : SymbolTable}
    (leads : table.Leads whole) (recorded : (Stmt.checkAll table stmts).table.log <:+ whole.log)
    (faultless : (Stmt.checkAll table stmts).faults = []) {supply : Supply}
    (spelled : ∀ kind ∈ Stmt.unparseAll stmts, kind.Spelled)
    (solves : types.Solves (Stmt.lowerAll supply stmts).code) :
    Quad.Typed whole.flat.context types (Stmt.storesAll stmts) (Stmt.lowerAll supply stmts).code := by
  match stmts with
  | [] => exact Quad.typed_of_none rfl (Quad.indices_typed_nil types)
  | first :: rest =>
      simp only [Stmt.unparseAll, List.forall_mem_append] at spelled
      obtain ⟨checked, others⟩ := List.append_eq_nil_iff.mp faultless
      obtain ⟨before, behind⟩ := (types.solves_append _ _).mp solves
      have earlier : (first.check table).table.log <:+ whole.log :=
        (Stmt.records_check_all rest _).1.trans recorded
      have next := leads.next (first.evolves_check table) (first.records_check table) earlier
      exact (Stmt.lower_typed once agrees first leads earlier checked spelled.1 before).append
        (Stmt.lower_all_typed once agrees rest next recorded others spelled.2 behind)

end

end Statements

theorem Quad.types_agree {table : SymbolTable} (once : table.DeclaresOnce) (code : List Quad) :
    (Quad.types table code).Agrees table.flat.context := by
  intro name role resolves
  rw [SymbolTable.resolves_iff once.distinct_flat] at resolves
  obtain ⟨symbol, found, rfl⟩ := resolves
  simp only [Quad.types, found, Option.map_some]
  rfl

/-- The code of an accepted text is well typed, up to the counters of loops. Going through the code
once gives every temporary the type of the quadruple that defines it. With these types, arrays are
read at integers, and the assignments to variables are the stores of the program, in order: a
variable accepts the type of what is stored, except where a loop sets its counter to a `Float` or
adds a `Float` to it. -/
theorem compile_code_typed {settings : Settings} {source : List Char} {program : Program}
    (read : Source.program source = .ok program)
    (succeeded : (compile settings source).succeeded = true)
    (once : program.check.table.DeclaresOnce) :
    ∃ code table, (compile settings source).code = some code ∧
      (compile settings source).symbols = some table ∧
      (Quad.types table code).Solves code ∧
      Quad.IndicesTyped (Quad.types table code) code ∧
      List.Forall₂ (Store.Typed table.flat.context (Quad.types table code)) program.stores
        (Quad.stores code) := by
  obtain ⟨same, again, accepted, code, symbols⟩ := compile_succeeded succeeded
  rw [read] at again
  cases again
  have solves := program.types_solve .fresh program.check.table
  have start : SymbolTable.empty.Leads program.check.table :=
    ⟨SymbolTable.distinct_empty, SymbolTable.logged_empty, List.nil_suffix⟩
  have typed := Stmt.lower_all_typed once (Quad.types_agree once _) program start
    (List.suffix_refl _) accepted.faultless accepted.spelled solves
  exact ⟨_, _, code, symbols, solves, typed.indices, typed.stores⟩

def arraySum : List Char :=
  ("let a: [Int; 4]; let i: Int; let s: Float; s := 0; " ++
    "for i from 0 to 3 step 1 \x7b s := s + a[i]; \x7d").toList

theorem compile_code_typed_array_sum :
    ∃ program, Source.program arraySum = .ok program ∧
      (compile default arraySum).succeeded = true ∧ program.check.table.DeclaresOnce ∧
      ∃ code table, (compile default arraySum).code = some code ∧
        (compile default arraySum).symbols = some table ∧
        (Quad.types table code).Solves code ∧
        Quad.IndicesTyped (Quad.types table code) code ∧
        List.Forall₂ (Store.Typed table.flat.context (Quad.types table code)) program.stores
          (Quad.stores code) := by
  have succeeded : (compile default arraySum).succeeded = true := by decide +kernel
  have once : ∀ table ∈ (compile default arraySum).symbols, table.DeclaresOnce := by
    decide +kernel
  obtain ⟨program, read, _, _, symbols⟩ := compile_succeeded succeeded
  exact ⟨program, read, succeeded, once _ symbols,
    compile_code_typed read succeeded (once _ symbols)⟩

def floatCount : List Char :=
  "let i: Int; for i from 1.5 to 3 step 1 \x7b output(i); \x7d".toList

/-- The check lets a loop start at a `Float`, and its code stores that in an `Int`. -/
theorem float_count_stores_float_in_int :
    (compile default floatCount).succeeded = true ∧
      ∃ code ∈ (compile default floatCount).code, ∃ table ∈ (compile default floatCount).symbols,
        table.DeclaresOnce ∧ Quad.assign (.literal "1.5") (.var "i") ∈ code ∧
          (Operand.literal "1.5").type? (Quad.types table code) = some .float ∧
          (Operand.var "i").type? (Quad.types table code) = some .int ∧
          ValueType.int.accepts .float = false := by
  decide +kernel

end ThreeAddress
