import Mathlib.Data.List.Nodup
import Mathlib.Data.List.Pairwise
import ThreeAddress.Proofs.Compilation.Acceptance
import ThreeAddress.Proofs.Quad.Origins
import ThreeAddress.Proofs.Scope.Mentions
import ThreeAddress.Proofs.Typing.Sites

/-!
# What the code of an accepted text reads and writes

Each variable of the code is in the log of the check, as an array where an element is read and as a
scalar where a number is wanted. Main statement: the code writes a name only where the name is
declared as a constant, or if the log has it as a variable; so where no name is declared twice, a
constant is written by the last quadruple of its declaration and by no other.
-/

namespace ThreeAddress

set_option autoImplicit false

def Operand.IsScalar (known : List Binding) : Operand → Prop
  | .var name => ∃ type fixed, ⟨name, ⟨.scalar type, fixed⟩⟩ ∈ known
  | .literal _ | .temp _ | .label _ => True

/-- The variables of a quadruple have been declared, and as what the operation needs. -/
structure Quad.Resolved (known : List Binding) (quad : Quad) : Prop where
  names : ∀ name, .var name ∈ quad.operands → ∃ role, ⟨name, role⟩ ∈ known
  arrays : quad.op = .arrayRead → ∃ name element fixed,
    quad.first = some (.var name) ∧ ⟨name, ⟨.array element, fixed⟩⟩ ∈ known
  scalars : quad.op ∉ [.arrayRead, .input, .output] →
    ∀ operand ∈ quad.operands, operand.IsScalar known

section Reading

variable {known : List Binding} {site : Context}

@[simp] theorem Operand.is_scalar_literal (text : String) :
    (Operand.literal text).IsScalar known := trivial

@[simp] theorem Operand.is_scalar_temp (number : Nat) :
    (Operand.temp number).IsScalar known := trivial

@[simp] theorem Operand.is_scalar_label (number : Nat) :
    (Operand.label number).IsScalar known := trivial

theorem Quad.Resolved.of_scalars {quad : Quad} (other : quad.op ≠ .arrayRead)
    (scalars : ∀ operand ∈ quad.operands, operand.IsScalar known) : quad.Resolved known where
  names := by
    intro name member
    obtain ⟨type, fixed, declared⟩ := scalars (.var name) member
    exact ⟨_, declared⟩
  arrays := by
    intro reads
    exact absurd reads other
  scalars := fun _ => scalars

theorem Quad.Resolved.label (number : Nat) : (Quad.label number).Resolved known :=
  .of_scalars (by simp [Quad.label]) (by simp [Quad.label, Quad.operands])

theorem Quad.Resolved.jump (number : Nat) : (Quad.jump number).Resolved known :=
  .of_scalars (by simp [Quad.jump]) (by simp [Quad.jump, Quad.operands])

theorem Quad.Resolved.branch {op : Operation} (other : op ≠ .arrayRead) {condition : Operand}
    (scalar : condition.IsScalar known) (number : Nat) :
    (Quad.branch op condition number).Resolved known :=
  .of_scalars other (by simp [Quad.branch, Quad.operands, scalar])

theorem Quad.Resolved.assign {value target : Operand} (values : value.IsScalar known)
    (targets : target.IsScalar known) : (Quad.assign value target).Resolved known :=
  .of_scalars (by simp [Quad.assign])
    (by simp [Quad.assign, Quad.operands, values, targets])

theorem Quad.Resolved.operation {op : Operation} (other : op ≠ .arrayRead)
    {first second : Operand} (firsts : first.IsScalar known) (seconds : second.IsScalar known)
    (next : Nat) : Quad.Resolved known ⟨op, some first, some second, some (.temp next)⟩ :=
  .of_scalars other (by simp [Quad.operands, firsts, seconds])

theorem Quad.Resolved.array_read {array : String} {element : DataType} {fixed : Bool}
    (declared : ⟨array, ⟨.array element, fixed⟩⟩ ∈ known) {index : Operand}
    (scalar : index.IsScalar known) (next : Nat) :
    Quad.Resolved known ⟨.arrayRead, some (.var array), some index, some (.temp next)⟩ where
  names := by
    intro name member
    simp only [Quad.operands, Option.toList_some, List.mem_append, List.mem_singleton,
      Operand.var.injEq, reduceCtorEq, or_false] at member
    rcases member with rfl | rfl
    · exact ⟨_, declared⟩
    · obtain ⟨type, fixed, declared⟩ := scalar
      exact ⟨_, declared⟩
  arrays := fun _ => ⟨array, element, fixed, rfl, declared⟩
  scalars := by
    intro other
    exact absurd List.mem_cons_self other

/-- Only the name of an input or an output has to be declared. -/
theorem Quad.Resolved.transfer {quad : Quad} (transfer : quad.op = .input ∨ quad.op = .output)
    (names : ∀ name, .var name ∈ quad.operands → ∃ role, ⟨name, role⟩ ∈ known) :
    quad.Resolved known where
  names := names
  arrays := by
    intro reads
    rcases transfer with op | op <;> simp [reads] at op
  scalars := by
    intro other
    rcases transfer with op | op <;> simp [op] at other

structure LoweredValue.Resolved (known : List Binding) (lowered : LoweredValue) : Prop where
  code : ∀ quad ∈ lowered.code, quad.Resolved known
  value : lowered.value.IsScalar known

theorem LoweredValue.resolved_compute {code : List Quad}
    (resolved : ∀ quad ∈ code, quad.Resolved known) {op : Operation} {first : Operand}
    {second : Option Operand} {next : Nat}
    (last : Quad.Resolved known ⟨op, some first, second, some (.temp next)⟩) :
    (LoweredValue.compute code op first second next).Resolved known where
  code := List.forall_mem_append.mpr ⟨resolved, List.forall_mem_singleton.mpr last⟩
  value := trivial

theorem LoweredValue.Resolved.compute_pair {left right : LoweredValue}
    (lefts : left.Resolved known) (rights : right.Resolved known) {op : Operation}
    (other : op ≠ .arrayRead) (next : Nat) :
    (LoweredValue.compute (left.code ++ right.code) op left.value (some right.value) next).Resolved
      known := by
  apply LoweredValue.resolved_compute
  · exact List.forall_mem_append.mpr ⟨lefts.code, rights.code⟩
  · exact Quad.Resolved.operation other lefts.value rights.value next

theorem Expr.HasType.lower_resolved {expr : Expr} {type : DataType}
    (typed : expr.HasType site type) (within : site.flatten ⊆ known) (next : Nat) :
    (expr.lower next).Resolved known := by
  induction typed generalizing next with
  | integer | float => exact ⟨List.forall_mem_nil _, trivial⟩
  | identifier resolves =>
      exact ⟨List.forall_mem_nil _, _, _, within resolves.mem_flatten⟩
  | element resolves _ ih =>
      apply LoweredValue.resolved_compute (ih next).code
      exact Quad.Resolved.array_read (within resolves.mem_flatten) (ih next).value _
  | paren _ ih => exact ih next
  | negate _ ih =>
      apply LoweredValue.resolved_compute (ih next).code
      exact .operation (by simp) (Operand.is_scalar_literal "0") (ih next).value _
  | binary _ _ _ ihLeft ihRight =>
      exact (ihLeft next).compute_pair (ihRight _) (by simp) _

theorem Cond.Typed.lower_resolved {cond : Cond} (typed : cond.Typed site)
    (within : site.flatten ⊆ known) (next : Nat) : (cond.lower next).Resolved known := by
  induction typed generalizing next with
  | compare left right =>
      exact (left.lower_resolved within next).compute_pair (right.lower_resolved within _)
        (by simp) _
  | and _ _ ihLeft ihRight | or _ _ ihLeft ihRight =>
      exact (ihLeft next).compute_pair (ihRight _) (by simp) _
  | not _ ih =>
      apply LoweredValue.resolved_compute (ih next).code
      apply Quad.Resolved.of_scalars (by simp)
      simp [Quad.operands, (ih next).value]
  | paren _ ih => exact ih next

theorem Expr.lower_into_resolved {value : Expr} {supply : Supply}
    (resolved : (value.lower supply.temps).Resolved known) {target : String} {type : DataType}
    {fixed : Bool} (declared : ⟨target, ⟨.scalar type, fixed⟩⟩ ∈ known) :
    ∀ quad ∈ (value.lowerInto target supply).code, quad.Resolved known := by
  rw [Expr.lowerInto, List.forall_mem_append]
  have target : (Operand.var target).IsScalar known := ⟨type, fixed, declared⟩
  have stored := Quad.Resolved.assign resolved.value target
  exact ⟨resolved.code, List.forall_mem_singleton.mpr stored⟩

theorem Stmt.lower_output_resolved {text : Option String} {names : List Ident}
    (declared : ∀ name ∈ names, ∃ role, ⟨name.name, role⟩ ∈ known) :
    ∀ quad ∈ Stmt.lowerOutput text names, quad.Resolved known := by
  intro quad member
  rcases List.mem_append.mp member with written | written
  · obtain ⟨text, _, rfl⟩ := List.mem_map.mp written
    apply Quad.Resolved.transfer (.inr rfl)
    simp [Quad.operands]
  · obtain ⟨name, listed, rfl⟩ := List.mem_map.mp written
    apply Quad.Resolved.transfer (.inr rfl)
    simpa [Quad.operands] using declared name listed

/-- What a statement emits itself is resolved by the declarations where it stands. -/
theorem Segment.own_resolved {segment : Segment} (sited : segment.stmt.Sited known)
    (declared : ∀ binding ∈ segment.stmt.binding?, binding ∈ known) :
    ∀ quad ∈ segment.own.map Prod.fst, quad.Resolved known := by
  obtain ⟨start, stmt, supply⟩ := segment
  obtain ⟨site, within, uses⟩ := sited
  cases stmt with
  | scalar | array => exact List.forall_mem_nil _
  | constant name type position value place =>
      obtain ⟨found, typed⟩ := uses
      simp only [Segment.own, List.zipIdx_map_fst]
      exact Expr.lower_into_resolved (typed.lower_resolved within _) (declared _ rfl)
  | assign target value place =>
      obtain ⟨⟨type, resolves⟩, found, typed⟩ := uses
      simp only [Segment.own, List.zipIdx_map_fst]
      exact Expr.lower_into_resolved (typed.lower_resolved within _) (within resolves.mem_flatten)
  | ifThen condition body place =>
      have test := Cond.Typed.lower_resolved uses within supply.temps
      have branch := Quad.Resolved.branch (show Operation.jumpIfZero ≠ .arrayRead by simp) test.value
        supply.labels
      simp only [Segment.own, Quad.map_fst_around, List.forall_mem_append, List.forall_mem_cons]
      exact ⟨⟨test.code, branch, List.forall_mem_nil _⟩, .jump _, .label _,
        .label _, List.forall_mem_nil _⟩
  | ifElse condition body alternative place =>
      have test := Cond.Typed.lower_resolved uses within supply.temps
      have branch := Quad.Resolved.branch (show Operation.jumpIfZero ≠ .arrayRead by simp) test.value
        supply.labels
      simp only [Segment.own, List.map_append, List.zipIdx_map_fst, Quad.map_fst_around,
        List.forall_mem_append, List.forall_mem_cons]
      exact ⟨⟨test.code, branch, List.forall_mem_nil _⟩,
        ⟨.jump _, .label _, List.forall_mem_nil _⟩, .label _,
        List.forall_mem_nil _⟩
  | doWhile body condition place =>
      let inside := Stmt.lowerAll ⟨supply.temps, supply.labels + 2⟩ body
      have test := Cond.Typed.lower_resolved uses within inside.supply.temps
      have branch := Quad.Resolved.branch (show Operation.jumpIfTrue ≠ .arrayRead by simp) test.value
        supply.labels
      simp only [Segment.own, Quad.map_fst_around, List.forall_mem_append, List.forall_mem_cons]
      exact ⟨⟨.label _, List.forall_mem_nil _⟩, test.code, branch, .label _,
        List.forall_mem_nil _⟩
  | forLoop counter first last step body place =>
      obtain ⟨resolves, ⟨_, lower⟩, ⟨_, upper⟩, ⟨_, stride⟩⟩ := uses
      have counts : (Operand.var counter.name).IsScalar known :=
        ⟨_, _, within resolves.mem_flatten⟩
      have lower := lower.lower_resolved within supply.temps
      have upper := upper.lower_resolved within (first.lower supply.temps).next
      have stride := stride.lower_resolved within
        ((last.lower (first.lower supply.temps).next).next + 1)
      simp only [Segment.own, Quad.map_fst_around, Stmt.countHead, Stmt.countTail,
        List.forall_mem_append, List.forall_mem_cons]
      have temp : ∀ number, (Operand.temp number).IsScalar known := Operand.is_scalar_temp
      exact ⟨⟨lower.code, .assign lower.value counts, upper.code, .assign upper.value (temp _),
          stride.code, .assign stride.value (temp _), .label _,
          .operation (by simp) counts (temp _) _, .branch (by simp) (temp _) _,
          List.forall_mem_nil _⟩,
        .operation (by simp) counts (temp _) _, .assign (temp _) counts, .jump _, .label _,
        List.forall_mem_nil _⟩
  | input target place =>
      obtain ⟨type, resolves⟩ := uses
      simp only [Segment.own, List.zipIdx_map_fst, Segment.code, Stmt.lower,
        List.forall_mem_singleton]
      apply Quad.Resolved.transfer (.inl rfl)
      simpa [Quad.operands] using ⟨_, within resolves.mem_flatten⟩
  | output text names place =>
      simp only [Segment.own, List.zipIdx_map_fst]
      apply Stmt.lower_output_resolved
      intro name listed
      obtain ⟨role, resolves⟩ := uses name listed
      exact ⟨role, within resolves.mem_flatten⟩

end Reading

namespace Quad

def written? (quad : Quad) : Option String :=
  match quad.result with
  | some (.var name) => some name
  | _ => none

theorem written?_eq_some_iff (quad : Quad) (name : String) :
    quad.written? = some name ↔ quad.result = some (.var name) := by
  obtain ⟨op, first, second, result⟩ := quad
  cases result with
  | none => simp [written?]
  | some operand => cases operand <;> simp [written?]

def writes (code : List Quad) : List String :=
  code.filterMap written?

@[simp] theorem writes_nil : writes [] = [] := rfl

@[simp] theorem writes_append (front back : List Quad) :
    writes (front ++ back) = writes front ++ writes back := by
  rw [writes, List.filterMap_append]
  rfl

theorem writes_cons (quad : Quad) (rest : List Quad) :
    writes (quad :: rest) = quad.written?.toList ++ writes rest := by
  rw [writes, List.filterMap_cons]
  cases quad.written? <;> rfl

theorem Computes.written_eq_none {quad : Quad} (computes : quad.Computes) :
    quad.written? = none := by
  cases computes with
  | temp first second number computing => rfl

end Quad

/-- The code of an expression writes temporaries only. -/
theorem Expr.writes_lower (expr : Expr) (next : Nat) : Quad.writes (expr.lower next).code = [] :=
  expr.filter_map_lower (fun _ computes => computes.written_eq_none) next

theorem Cond.writes_lower (cond : Cond) (next : Nat) : Quad.writes (cond.lower next).code = [] :=
  cond.filter_map_lower (fun _ computes => computes.written_eq_none) next

/-- The variables that a statement writes itself, not in its blocks. -/
def Stmt.writes : Stmt → List String
  | .constant name _ _ _ _ => [name.name]
  | .assign target _ _ | .input target _ => [target.name]
  | .forLoop counter _ _ _ _ _ => [counter.name, counter.name]
  | .scalar .. | .array .. | .ifThen .. | .ifElse .. | .doWhile .. | .output .. => []

theorem Stmt.writes_lower_output (text : Option String) (names : List Ident) :
    Quad.writes (Stmt.lowerOutput text names) = [] :=
  Stmt.filter_map_lower_output (fun _ => rfl) text names

theorem Segment.writes_own (segment : Segment) :
    Quad.writes (segment.own.map Prod.fst) = segment.stmt.writes := by
  obtain ⟨start, stmt, supply⟩ := segment
  cases stmt with
  | scalar | array | input => rfl
  | constant name type position value place | assign target value place =>
      simp [Segment.own, Segment.code, Stmt.lower, Expr.lowerInto, value.writes_lower,
        Quad.writes_cons, Quad.assign, Quad.written?, Stmt.writes]
  | ifThen condition body place | ifElse condition body alternative place
  | doWhile body condition place =>
      simp [Segment.own, condition.writes_lower, Quad.writes_cons, Quad.branch, Quad.jump,
        Quad.label, Quad.written?, Stmt.writes]
  | forLoop counter first last step body place =>
      simp [Segment.own, Stmt.countHead, Stmt.countTail, first.writes_lower, last.writes_lower,
        step.writes_lower, Quad.writes_cons, Quad.assign, Quad.branch, Quad.jump, Quad.label,
        Quad.written?, Stmt.writes]
  | output text names place =>
      simp [Segment.own, Segment.code, Stmt.lower, Stmt.writes_lower_output, Stmt.writes]

def Stmt.constant? : Stmt → Option String
  | .constant name _ _ _ _ => some name.name
  | _ => none

/-- The last quadruple of the declaration of a constant stands at this index. -/
def Segment.Initialises (segment : Segment) (name : String) (index : Nat) : Prop :=
  segment.stmt.constant? = some name ∧ index + 1 = segment.start + segment.code.length

/-- The declaration of a constant writes with its last quadruple only. -/
theorem Segment.initialises_of_written {segment : Segment} {name : String}
    (declares : segment.stmt.constant? = some name) {quad : Quad} {index : Nat}
    (member : (quad, index) ∈ segment.own) {target : String}
    (written : quad.written? = some target) :
    quad.op = .assign ∧ target = name ∧ segment.Initialises name index := by
  obtain ⟨start, stmt, supply⟩ := segment
  cases stmt with
  | scalar | array | assign | ifThen | ifElse | doWhile | forLoop | input | output => cases declares
  | constant ident type position value place =>
      cases declares
      simp only [Segment.own, Segment.code, Stmt.lower, Expr.lowerInto, List.zipIdx_append,
        List.mem_append] at member
      rcases member with computed | last
      · have none := List.filterMap_eq_nil_iff.mp (value.writes_lower supply.temps) quad
          (List.fst_mem_of_mem_zipIdx computed)
        rw [none] at written
        cases written
      · cases List.mem_singleton.mp last
        cases written
        refine ⟨rfl, rfl, rfl, ?_⟩
        simp [Segment.code, Stmt.lower, Expr.lowerInto]
        omega

theorem Segment.written_of_initialises {segment : Segment} {name : String} {index : Nat}
    (initialises : segment.Initialises name index) :
    ∃ value, (Quad.assign value (.var name), index) ∈ segment.own := by
  obtain ⟨start, stmt, supply⟩ := segment
  obtain ⟨declares, ends⟩ := initialises
  cases stmt with
  | scalar | array | assign | ifThen | ifElse | doWhile | forLoop | input | output => cases declares
  | constant ident type position value place =>
      cases declares
      simp only [Segment.code, Stmt.lower, Expr.lowerInto, List.length_append,
        List.length_singleton] at ends
      obtain rfl : index = start + (value.lower supply.temps).code.length := by omega
      refine ⟨(value.lower supply.temps).value, ?_⟩
      simp only [Segment.own, Segment.code, Stmt.lower, Expr.lowerInto, List.zipIdx_append]
      exact List.mem_append_right _ List.mem_cons_self

/-- What a statement writes, apart from the constant that it declares, is a variable. -/
theorem Stmt.Sited.variable_of_mem_writes {known : List Binding} {stmt : Stmt}
    (sited : stmt.Sited known) (other : stmt.constant? = none) {name : String}
    (written : name ∈ stmt.writes) : ∃ type, ⟨name, ⟨type, false⟩⟩ ∈ known := by
  obtain ⟨site, within, uses⟩ := sited
  cases stmt with
  | scalar | array | ifThen | ifElse | doWhile | output => cases written
  | constant => cases other
  | assign target value place =>
      obtain ⟨⟨type, resolves⟩, _⟩ := uses
      cases List.mem_singleton.mp written
      exact ⟨_, within resolves.mem_flatten⟩
  | forLoop counter first last step body place =>
      obtain rfl : name = counter.name := by simpa [Stmt.writes] using written
      exact ⟨_, within uses.1.mem_flatten⟩
  | input target place =>
      obtain ⟨type, resolves⟩ := uses
      cases List.mem_singleton.mp written
      exact ⟨_, within resolves.mem_flatten⟩

namespace Program

variable {program : Program}

theorem mem_statements_of_mem_segments {supply : Supply} {segment : Segment}
    (member : segment ∈ program.segments supply) : segment.stmt ∈ program.statements := by
  rw [Program.statements, ← Stmt.map_stmt_segments program 0 supply]
  exact List.mem_map_of_mem member

/-- All variables of the code of a program without faults are in the log, as what they have to
be. -/
theorem resolved_of_faultless (faultless : program.check.faults = []) (supply : Supply) :
    ∀ quad ∈ (program.lower supply).code, quad.Resolved program.check.table.bindings := by
  intro quad member
  obtain ⟨index, found⟩ := List.mem_iff_getElem?.mp member
  obtain ⟨segment, present, own⟩ := (program.mem_own_iff supply quad index).mpr found
  have stmt := mem_statements_of_mem_segments present
  apply Segment.own_resolved (Program.sited faultless _ stmt) _ quad
  · exact List.mem_map_of_mem own
  · intro binding declares
    rw [bindings_check faultless]
    exact List.mem_filterMap.mpr ⟨_, stmt, declares⟩

/-- The code writes a name where the name is declared as a constant, or the name is a variable. -/
theorem initialises_or_variable (faultless : program.check.faults = []) {supply : Supply}
    {index : Nat} {quad : Quad} (found : (program.lower supply).code[index]? = some quad)
    {name : String} (written : quad.written? = some name) :
    (quad.op = .assign ∧ ∃ segment ∈ program.segments supply, segment.Initialises name index) ∨
      ∃ type, ⟨name, ⟨type, false⟩⟩ ∈ program.check.table.bindings := by
  obtain ⟨segment, present, own⟩ := (program.mem_own_iff supply quad index).mpr found
  cases declares : segment.stmt.constant? with
  | some constant =>
      obtain ⟨op, rfl, initialises⟩ := segment.initialises_of_written declares own written
      exact .inl ⟨op, segment, present, initialises⟩
  | none =>
      have sited := Program.sited faultless _ (mem_statements_of_mem_segments present)
      refine .inr (sited.variable_of_mem_writes declares ?_)
      rw [← segment.writes_own]
      exact List.mem_filterMap.mpr ⟨quad, List.mem_map_of_mem own, written⟩

end Program

theorem SymbolTable.DeclaresOnce.nodup_bindings {table : SymbolTable} (once : table.DeclaresOnce) :
    (table.bindings.map Binding.name).Nodup := by
  rw [bindings, declarations, List.map_map, List.map_reverse]
  exact (List.reverse_perm _).nodup_iff.mpr once

theorem Stmt.constant?_of_binding? {stmt : Stmt} {binding : Binding}
    (declares : stmt.binding? = some binding) (isConstant : binding.role.isConstant = true) :
    stmt.constant? = some binding.name := by
  cases stmt <;> cases declares
  · cases isConstant
  · cases isConstant
  · rfl

theorem Stmt.exists_binding?_of_constant? {stmt : Stmt} {name : String}
    (declares : stmt.constant? = some name) :
    ∃ role, stmt.binding? = some ⟨name, role⟩ ∧ role.isConstant = true := by
  cases stmt <;> cases declares
  exact ⟨_, rfl, rfl⟩

namespace Program

variable {program : Program}

/-- Where no name is declared twice, one segment declares a name. -/
theorem segment_eq_of_binding? (faultless : program.check.faults = [])
    (once : program.check.table.DeclaresOnce) {supply : Supply} {segment other : Segment}
    (member : segment ∈ program.segments supply) (present : other ∈ program.segments supply)
    {name : String} {role second : Role} (declares : segment.stmt.binding? = some ⟨name, role⟩)
    (again : other.stmt.binding? = some ⟨name, second⟩) : segment = other := by
  have nodup := once.nodup_bindings
  rw [bindings_check faultless, Stmt.bindings, ← Stmt.map_stmt_segments program 0 supply,
    List.filterMap_map, List.Nodup, List.pairwise_map, List.pairwise_filterMap] at nodup
  -- The relation that holds between two segments is symmetric, so their order does not matter.
  let Apart (first second : Segment) : Prop :=
    ∀ binding, first.stmt.binding? = some binding → ∀ later, second.stmt.binding? = some later →
      binding.name ≠ later.name
  have symmetric : Std.Symm Apart :=
    ⟨fun _ _ apart binding here later there same => apart later there binding here same.symm⟩
  have apart : (Stmt.segments 0 supply program).Pairwise Apart := nodup
  by_contra different
  exact apart.forall member present different _ declares _ again rfl

/-- Where no name is declared twice, the declaration of a constant is the only place that writes
it. -/
theorem written_iff_initialises (faultless : program.check.faults = [])
    (once : program.check.table.DeclaresOnce) {supply : Supply} {segment : Segment}
    (member : segment ∈ program.segments supply) {name : String}
    (declares : segment.stmt.constant? = some name) {index : Nat} {quad : Quad}
    (found : (program.lower supply).code[index]? = some quad) :
    quad.written? = some name ↔ segment.Initialises name index := by
  obtain ⟨role, bound, isConstant⟩ := Stmt.exists_binding?_of_constant? declares
  constructor
  · intro written
    rcases initialises_or_variable faultless found written with
      ⟨_, other, present, initialises⟩ | ⟨type, logged⟩
    · obtain ⟨second, again, _⟩ := Stmt.exists_binding?_of_constant? initialises.1
      rw [segment_eq_of_binding? faultless once member present bound again]
      exact initialises
    · have declared : ⟨name, role⟩ ∈ program.check.table.bindings := by
        rw [bindings_check faultless]
        exact List.mem_filterMap.mpr ⟨_, mem_statements_of_mem_segments member, bound⟩
      cases List.inj_on_of_nodup_map once.nodup_bindings declared logged rfl
      cases isConstant
  · intro initialises
    obtain ⟨value, own⟩ := segment.written_of_initialises initialises
    have placed := (program.mem_own_iff supply _ index).mp ⟨segment, member, own⟩
    rw [placed] at found
    cases found
    rfl

end Program

/-- The code of an accepted text has declared and writable operands. Every variable in it is in the
log of declarations, as an array where elements are read, and as a scalar in computations,
assignments and jumps. A variable is written by the assignment of its declaration as a constant, or
the log has it as no constant; so if no name is declared twice, the declaration of a constant is
the only place that writes it. -/
theorem compile_operands_declared {settings : Settings} {source : List Char} {program : Program}
    (read : Source.program source = .ok program)
    (succeeded : (compile settings source).succeeded = true) :
    ∃ code table, (compile settings source).code = some code ∧
      (compile settings source).symbols = some table ∧
      (∀ quad ∈ code, quad.Resolved table.bindings) ∧
      (∀ index quad name, code[index]? = some quad → quad.result = some (.var name) →
        (quad.op = .assign ∧
          ∃ segment ∈ program.segments .fresh, segment.Initialises name index) ∨
        ∃ type, ⟨name, ⟨type, false⟩⟩ ∈ table.bindings) ∧
      (table.DeclaresOnce → ∀ binding ∈ table.bindings, binding.role.isConstant = true →
        ∃ segment ∈ program.segments .fresh, segment.stmt.constant? = some binding.name ∧
          ∀ index quad, code[index]? = some quad →
            (quad.result = some (.var binding.name) ↔
              segment.Initialises binding.name index)) := by
  obtain ⟨same, again, accepted, code, symbols⟩ := compile_succeeded succeeded
  rw [read] at again
  cases again
  refine ⟨_, _, code, symbols, Program.resolved_of_faultless accepted.faultless .fresh, ?_, ?_⟩
  · intro index quad name found written
    rw [← Quad.written?_eq_some_iff] at written
    exact Program.initialises_or_variable accepted.faultless found written
  · intro once binding logged isConstant
    rw [Program.bindings_check accepted.faultless, Stmt.bindings,
      ← Stmt.map_stmt_segments program 0 .fresh, List.filterMap_map] at logged
    obtain ⟨segment, member, declares⟩ := List.mem_filterMap.mp logged
    have constant := Stmt.constant?_of_binding? declares isConstant
    refine ⟨segment, member, constant, ?_⟩
    intro index quad found
    rw [← Quad.written?_eq_some_iff]
    exact Program.written_iff_initialises accepted.faultless once member constant found

def boundedLoop : List Char :=
  ("@define Const n: Int = 3; let a: [Int; 4]; let i: Int; " ++
    "for i from 0 to n step 1 \x7b i := a[i]; \x7d").toList

theorem compile_operands_declared_bounded_loop :
    ∃ program, Source.program boundedLoop = .ok program ∧
      (compile default boundedLoop).succeeded = true ∧
      ∃ code table, (compile default boundedLoop).code = some code ∧
        (compile default boundedLoop).symbols = some table ∧ table.DeclaresOnce ∧
        ⟨"n", ⟨.scalar .int, true⟩⟩ ∈ table.bindings ∧
        (∀ quad ∈ code, quad.Resolved table.bindings) ∧
        ∃ segment ∈ program.segments .fresh, segment.stmt.constant? = some "n" ∧
          ∀ index quad, code[index]? = some quad →
            (quad.result = some (.var "n") ↔ segment.Initialises "n" index) := by
  have checked : (compile default boundedLoop).succeeded = true ∧
      ∀ table ∈ (compile default boundedLoop).symbols,
        table.DeclaresOnce ∧ ⟨"n", ⟨.scalar .int, true⟩⟩ ∈ table.bindings := by
    decide +kernel
  obtain ⟨succeeded, logged⟩ := checked
  obtain ⟨program, read, _, _, _⟩ := compile_succeeded succeeded
  obtain ⟨code, table, compiled, symbols, resolved, _, constants⟩ :=
    compile_operands_declared read succeeded
  obtain ⟨once, constant⟩ := logged table symbols
  exact ⟨program, read, succeeded, code, table, compiled, symbols, once, constant, resolved,
    constants once _ constant rfl⟩

end ThreeAddress
