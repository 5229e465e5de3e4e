import ThreeAddress.Proofs.Quad.Segments
import ThreeAddress.Proofs.Scope.Log
import ThreeAddress.Proofs.Typing.Statements

/-!
# Statements in the places where they were checked

Each statement of a well-formed program, at any depth, keeps the rules in some context, and every
declaration of that context is one that the program makes. The log of the check lists exactly the
declarations that the program makes, in reading order. So what a scope said of a name can be read
off the log when the scope is long gone.
-/

namespace ThreeAddress

set_option autoImplicit false

def Stmt.binding? : Stmt → Option Binding
  | .scalar name type _ => some ⟨name.name, ⟨.scalar type, false⟩⟩
  | .array name element _ _ _ => some ⟨name.name, ⟨.array element, false⟩⟩
  | .constant name type _ _ _ => some ⟨name.name, ⟨.scalar type, true⟩⟩
  | _ => none

def Stmt.bindings (stmts : List Stmt) : List Binding :=
  (Stmt.nested stmts).filterMap Stmt.binding?

theorem Stmt.bindings_cons_subset_iff (first : Stmt) (rest : List Stmt) (known : List Binding) :
    Stmt.bindings (first :: rest) ⊆ known ↔
      (∀ binding ∈ first.binding?, binding ∈ known) ∧
        first.inner.filterMap Stmt.binding? ⊆ known ∧ Stmt.bindings rest ⊆ known := by
  rw [Stmt.bindings, Stmt.bindings, Stmt.nested, ← List.append_subset, ← List.filterMap_append]
  cases own : first.binding? with
  | none => simp [List.filterMap_cons_none own]
  | some binding => simp [List.filterMap_cons_some own]

def Cond.sides : Cond → List Expr
  | .compare _ _ left right _ => [left, right]
  | .and left right _ | .or left right _ => left.sides ++ right.sides
  | .not inner _ | .paren inner _ => inner.sides

/-- The expressions that a statement computes itself, not in its blocks. -/
def Stmt.expressions : Stmt → List Expr
  | .constant _ _ _ value _ | .assign _ value _ => [value]
  | .ifThen condition _ _ | .ifElse condition _ _ _ | .doWhile _ condition _ => condition.sides
  | .forLoop _ first last step _ _ => [first, last, step]
  | .scalar .. | .array .. | .input .. | .output .. => []

/-- The rules for the names and the types that a statement uses itself, not in its blocks. -/
def Stmt.UsesIn (site : Context) : Stmt → Prop
  | .scalar .. | .array .. => True
  | .constant _ _ _ value _ => ∃ found, value.HasType site found
  | .assign target value _ =>
      (∃ type, site.Resolves target.name ⟨.scalar type, false⟩) ∧ ∃ found, value.HasType site found
  | .ifThen condition _ _ | .ifElse condition _ _ _ | .doWhile _ condition _ =>
      condition.Typed site
  | .forLoop counter first last step _ _ =>
      site.Resolves counter.name ⟨.scalar .int, false⟩ ∧ (∃ found, first.HasType site found) ∧
        (∃ found, last.HasType site found) ∧ ∃ found, step.HasType site found
  | .input target _ => ∃ type, site.Resolves target.name ⟨type, false⟩
  | .output _ names _ => ∀ name ∈ names, ∃ role, site.Resolves name.name role

theorem Cond.Typed.sides {site : Context} {cond : Cond} (typed : cond.Typed site) :
    ∀ side ∈ cond.sides, ∃ type, side.HasType site type := by
  induction typed with
  | compare left right =>
      simp only [Cond.sides, List.forall_mem_cons]
      exact ⟨⟨_, left⟩, ⟨_, right⟩, List.forall_mem_nil _⟩
  | and _ _ ihLeft ihRight | or _ _ ihLeft ihRight =>
      exact List.forall_mem_append.mpr ⟨ihLeft, ihRight⟩
  | not _ ih | paren _ ih => exact ih

theorem Stmt.UsesIn.has_type {site : Context} {stmt : Stmt} (uses : stmt.UsesIn site) :
    ∀ expr ∈ stmt.expressions, ∃ type, expr.HasType site type := by
  cases stmt with
  | scalar | array | input | output => exact List.forall_mem_nil _
  | constant name type position value place => exact List.forall_mem_singleton.mpr uses
  | assign target value place => exact List.forall_mem_singleton.mpr uses.2
  | ifThen | ifElse | doWhile => exact Cond.Typed.sides uses
  | forLoop counter first last step body place =>
      obtain ⟨_, lower, upper, stride⟩ := uses
      simp only [Stmt.expressions, List.forall_mem_cons]
      exact ⟨lower, upper, stride, List.forall_mem_nil _⟩

/-- A statement keeps the rules in a context whose declarations are all among `known`. -/
def Stmt.Sited (known : List Binding) (stmt : Stmt) : Prop :=
  ∃ site : Context, site.flatten ⊆ known ∧ stmt.UsesIn site

/-- Only scalars take values. -/
theorem ValueType.Takes.scalar {declared : ValueType} {found : DataType}
    (takes : declared.Takes found) : ∃ type, declared = .scalar type := by
  cases takes with
  | same => exact ⟨_, rfl⟩
  | wider => exact ⟨_, rfl⟩

theorem Stmt.forall_nested_cons {property : Stmt → Prop} {first : Stmt} {rest : List Stmt}
    (here : property first) (inside : ∀ stmt ∈ first.inner, property stmt)
    (later : ∀ stmt ∈ Stmt.nested rest, property stmt) :
    ∀ stmt ∈ Stmt.nested (first :: rest), property stmt :=
  List.forall_mem_cons.mpr ⟨here, List.forall_mem_append.mpr ⟨inside, later⟩⟩

namespace Context

theorem Resolves.mem_flatten {site : Context} {name : String} {role : Role}
    (resolves : site.Resolves name role) : ⟨name, role⟩ ∈ site.flatten := by
  induction resolves with
  | here member => exact List.mem_append_left _ member
  | outside _ _ ih => exact List.mem_append_right _ ih

theorem Declares.flatten {scope next : Context} {binding : Binding}
    (declares : scope.Declares binding next) : next.flatten = binding :: scope.flatten := by
  cases declares
  rfl

section Known

variable {known : List Binding} {scope after : Context} {stmts : List Stmt}

/-- Statements add their own declarations to a context and no others. -/
theorem Admits.flatten_subset (admits : scope.Admits stmts after)
    (before : scope.flatten ⊆ known) (declared : Stmt.bindings stmts ⊆ known) :
    after.flatten ⊆ known := by
  induction admits with
  | nil => exact before
  | scalar declares _ ih | array _ _ declares _ ih | constant _ _ declares _ ih =>
      obtain ⟨own, _, later⟩ := (Stmt.bindings_cons_subset_iff _ _ _).mp declared
      apply ih
      · rw [declares.flatten]
        exact List.cons_subset.mpr ⟨own _ rfl, before⟩
      · exact later
  | assign _ _ _ _ ih | input _ _ ih | output _ _ ih
  | ifThen _ _ _ _ ih | ifElse _ _ _ _ _ _ ih | doWhile _ _ _ _ ih
  | forLoop _ _ _ _ _ _ _ ih =>
      exact ih before ((Stmt.bindings_cons_subset_iff _ _ _).mp declared).2.2

/-- Every statement, at any depth, keeps the rules among the declarations before it. -/
theorem Admits.sited (admits : scope.Admits stmts after) (before : scope.flatten ⊆ known)
    (declared : Stmt.bindings stmts ⊆ known) : ∀ stmt ∈ Stmt.nested stmts, stmt.Sited known := by
  induction admits with
  | nil =>
      intro stmt member
      cases member
  | scalar declares _ ih | array _ _ declares _ ih =>
      obtain ⟨own, inside, later⟩ := (Stmt.bindings_cons_subset_iff _ _ _).mp declared
      have next := List.cons_subset.mpr ⟨own _ rfl, before⟩
      rw [← declares.flatten] at next
      exact Stmt.forall_nested_cons ⟨_, before, trivial⟩ (List.forall_mem_nil _) (ih next later)
  | constant typed _ declares _ ih =>
      obtain ⟨own, inside, later⟩ := (Stmt.bindings_cons_subset_iff _ _ _).mp declared
      have next := List.cons_subset.mpr ⟨own _ rfl, before⟩
      rw [← declares.flatten] at next
      exact Stmt.forall_nested_cons ⟨_, before, _, typed⟩ (List.forall_mem_nil _) (ih next later)
  | assign resolves typed takes _ ih =>
      obtain ⟨own, inside, later⟩ := (Stmt.bindings_cons_subset_iff _ _ _).mp declared
      obtain ⟨type, rfl⟩ := takes.scalar
      exact Stmt.forall_nested_cons ⟨_, before, ⟨type, resolves⟩, _, typed⟩
        (List.forall_mem_nil _) (ih before later)
  | ifThen typed _ _ ihBody ih =>
      obtain ⟨own, inside, later⟩ := (Stmt.bindings_cons_subset_iff _ _ _).mp declared
      exact Stmt.forall_nested_cons ⟨_, before, typed⟩ (ihBody before inside) (ih before later)
  | ifElse typed _ _ _ ihBody ihOther ih =>
      obtain ⟨own, inside, later⟩ := (Stmt.bindings_cons_subset_iff _ _ _).mp declared
      rw [Stmt.inner, List.filterMap_append, List.append_subset] at inside
      have blocks := List.forall_mem_append.mpr ⟨ihBody before inside.1, ihOther before inside.2⟩
      exact Stmt.forall_nested_cons ⟨_, before, typed⟩ blocks (ih before later)
  | doWhile body typed _ ihBody ih =>
      obtain ⟨own, inside, later⟩ := (Stmt.bindings_cons_subset_iff _ _ _).mp declared
      exact Stmt.forall_nested_cons ⟨_, body.flatten_subset before inside, typed⟩
        (ihBody before inside) (ih before later)
  | forLoop resolves lower upper stride _ _ ihBody ih =>
      obtain ⟨own, inside, later⟩ := (Stmt.bindings_cons_subset_iff _ _ _).mp declared
      exact Stmt.forall_nested_cons
        ⟨_, before, resolves, ⟨_, lower⟩, ⟨_, upper⟩, ⟨_, stride⟩⟩ (ihBody before inside)
        (ih before later)
  | input resolves _ ih =>
      obtain ⟨own, inside, later⟩ := (Stmt.bindings_cons_subset_iff _ _ _).mp declared
      exact Stmt.forall_nested_cons ⟨_, before, _, resolves⟩ (List.forall_mem_nil _)
        (ih before later)
  | output resolves _ ih =>
      obtain ⟨own, inside, later⟩ := (Stmt.bindings_cons_subset_iff _ _ _).mp declared
      exact Stmt.forall_nested_cons ⟨_, before, resolves⟩ (List.forall_mem_nil _)
        (ih before later)

end Known

end Context

namespace SymbolTable

variable {table : SymbolTable}

def bindings (table : SymbolTable) : List Binding :=
  table.declarations.map fun entry => entry.symbol.binding

theorem bindings_introduce {name : Ident} {symbol : Symbol} (named : symbol.name = name.name)
    (faultless : (table.introduce name symbol).faults = []) :
    (table.introduce name symbol).table.bindings = table.bindings ++ [symbol.binding] := by
  cases refused : table.refusal? name with
  | some fault =>
      rw [introduce_of_refused refused] at faultless
      cases faultless
  | none =>
      rw [introduce_of_free named refused]
      simp [bindings, declarations, extended]

theorem bindings_check_array {name : Ident} {element : DataType} {size : String}
    {position : Position} (faultless : (table.checkArray name element size position).faults = []) :
    (table.checkArray name element size position).table.bindings =
      table.bindings ++ [⟨name.name, ⟨.array element, false⟩⟩] := by
  cases parsed : Size.positive? size.toList with
  | some count =>
      rw [table.check_array_of_size name element position parsed] at faultless ⊢
      exact bindings_introduce rfl faultless
  | none =>
      obtain ⟨fault, refused⟩ := table.check_array_of_bad_size name element position parsed
      rw [refused] at faultless
      cases faultless

end SymbolTable

open SymbolTable

mutual

theorem Stmt.bindings_check (stmt : Stmt) {table : SymbolTable}
    (faultless : (stmt.check table).faults = []) :
    (stmt.check table).table.bindings =
      table.bindings ++ (stmt :: stmt.inner).filterMap Stmt.binding? := by
  match stmt with
  | .scalar name type place => exact bindings_introduce rfl faultless
  | .array name element size position place => exact bindings_check_array faultless
  | .constant name type position value place =>
      simp only [Stmt.check, checkConstant, List.append_eq_nil_iff] at faultless
      exact bindings_introduce rfl faultless.2
  | .assign .. | .input .. | .output .. => exact (List.append_nil _).symm
  | .ifThen condition body place =>
      simp only [Stmt.check, List.append_eq_nil_iff] at faultless
      exact Stmt.bindings_check_all body faultless.2
  | .ifElse condition body otherwise place =>
      simp only [Stmt.check, List.append_eq_nil_iff] at faultless
      have between : (Stmt.checkAll table.enter body).table.leave.enter.bindings =
          table.bindings ++ Stmt.bindings body :=
        Stmt.bindings_check_all body faultless.1.2
      have behind := Stmt.bindings_check_all otherwise faultless.2
      rw [between, List.append_assoc, Stmt.bindings, Stmt.bindings,
        ← List.filterMap_append] at behind
      exact behind
  | .doWhile body condition place =>
      simp only [Stmt.check, List.append_eq_nil_iff] at faultless
      exact Stmt.bindings_check_all body faultless.1
  | .forLoop counter first last step body place =>
      simp only [Stmt.check, List.append_eq_nil_iff] at faultless
      exact Stmt.bindings_check_all body faultless.2

/-- Statements without faults log exactly what they declare. -/
theorem Stmt.bindings_check_all (stmts : List Stmt) {table : SymbolTable}
    (faultless : (Stmt.checkAll table stmts).faults = []) :
    (Stmt.checkAll table stmts).table.bindings = table.bindings ++ Stmt.bindings stmts := by
  match stmts with
  | [] => exact (List.append_nil _).symm
  | first :: rest =>
      simp only [Stmt.checkAll, List.append_eq_nil_iff] at faultless
      have later := Stmt.bindings_check_all rest faultless.2
      rw [first.bindings_check faultless.1, List.append_assoc, Stmt.bindings,
        ← List.filterMap_append] at later
      exact later

end

namespace Program

variable {program : Program}

/-- The log of a program without faults lists what the program declares. -/
theorem bindings_check (faultless : program.check.faults = []) :
    program.check.table.bindings = Stmt.bindings program :=
  Stmt.bindings_check_all program faultless

/-- Every statement of a program without faults keeps the rules among the declarations in the
log. -/
theorem sited (faultless : program.check.faults = []) :
    ∀ stmt ∈ program.statements, stmt.Sited program.check.table.bindings := by
  have admits := (Stmt.admits_iff_check_all program distinct_empty _).mpr ⟨faultless, rfl⟩
  rw [bindings_check faultless]
  exact admits.sited (List.nil_subset _) (List.Subset.refl _)

end Program

end ThreeAddress
