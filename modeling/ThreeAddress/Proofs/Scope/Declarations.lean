import ThreeAddress.Proofs.Scope.Faults

/-!
# The first declaration of a name wins

A declaration is turned down for its name, for a symbol of that name in the innermost frame or for
the size of an array, in this order, or else it is registered. The innermost frame has exactly the
first good declaration of each name that stands before, directly in the same block. Main statement:
a declaration comes to one of three ends, and the declarations of its block that stand before it
say to which.
-/

namespace ThreeAddress

set_option autoImplicit false

/-- A diagnostic of the kind tells why a declaration was turned down. -/
def DiagnosticKind.refuses : DiagnosticKind → Bool
  | .invalidIdentifier | .duplicateDeclaration | .arrayBounds => true
  | .lexical | .syntactic | .undeclaredIdentifier | .constantModification | .typeMismatch
  | .divisionByZero => false

namespace Fault

/-- The faults that declarations were turned down for. -/
def refusals (faults : List Fault) : List Fault :=
  faults.filter fun fault => fault.kind.refuses

@[simp] theorem refusals_append (front back : List Fault) :
    refusals (front ++ back) = refusals front ++ refusals back :=
  List.filter_append ..

theorem name_clash_mem_refusals {faults : List Fault} {name : Ident} {clash : Clash}
    (found : .nameClash name clash ∈ faults) : .nameClash name clash ∈ refusals faults :=
  List.mem_filter.mpr ⟨found, rfl⟩

end Fault

open Fault SymbolTable

/-! ## The ends of a declaration -/

def Stmt.declared? : Stmt → Option Ident
  | .scalar name _ _ | .array name _ _ _ _ | .constant name _ _ _ _ => some name
  | .assign .. | .ifThen .. | .ifElse .. | .doWhile .. | .forLoop .. | .input .. | .output .. =>
      none

theorem Stmt.symbol?_eq_none_of_declared? {stmt : Stmt} (nothing : stmt.declared? = none) :
    stmt.symbol? = none := by
  cases stmt with
  | scalar | array | constant => cases nothing
  | assign | ifThen | ifElse | doWhile | forLoop | input | output => rfl

theorem Stmt.name_of_symbol? {stmt : Stmt} {name : Ident} {symbol : Symbol}
    (declares : stmt.declared? = some name) (stands : stmt.symbol? = some symbol) :
    symbol.name = name.name := by
  cases stmt with
  | scalar | constant =>
      cases declares
      cases stands
      rfl
  | array =>
      cases declares
      obtain ⟨count, _, rfl⟩ := Option.map_eq_some_iff.mp stands
      rfl
  | assign | ifThen | ifElse | doWhile | forLoop | input | output => cases declares

/-- The ends that a declaration can come to, with the faults it is turned down for and the table
behind it. -/
inductive Stmt.Settled (stmt : Stmt) (name : Ident) (table : SymbolTable) :
    List Fault → SymbolTable → Prop
  | misnamed {fault : NameFault} (bad : Name.fault? name.name.toList = some fault) :
      Settled stmt name table [.badName name fault] table
  | taken {first : Symbol} (good : Name.fault? name.name.toList = none)
      (here : table.findHere? name.name = some first) :
      Settled stmt name table [.redeclared name first.declaredAt] table
  | unsized (size : String) (position : Position) (good : Name.fault? name.name.toList = none)
      (free : table.findHere? name.name = none) (nothing : stmt.symbol? = none) :
      Settled stmt name table [.badSize name size position] table
  | registered {symbol : Symbol} (good : Name.fault? name.name.toList = none)
      (free : table.findHere? name.name = none) (stands : stmt.symbol? = some symbol) :
      Settled stmt name table [] (table.extended symbol)

namespace SymbolTable

variable {table : SymbolTable} {name : Ident}

theorem settled_of_refusal? {fault : Fault} (refused : table.refusal? name = some fault)
    (stmt : Stmt) : stmt.Settled name table (refusals [fault]) table := by
  unfold refusal? at refused
  split at refused
  · cases refused
    exact .misnamed ‹_›
  · obtain ⟨first, here, rfl⟩ := Option.map_eq_some_iff.mp refused
    exact .taken ‹_› here

theorem settled_introduce (table : SymbolTable) {stmt : Stmt} {symbol : Symbol}
    (declares : stmt.declared? = some name) (stands : stmt.symbol? = some symbol) :
    stmt.Settled name table (refusals (table.introduce name symbol).faults)
      (table.introduce name symbol).table := by
  cases refused : table.refusal? name with
  | some fault =>
      rw [introduce_of_refused refused]
      exact settled_of_refusal? refused stmt
  | none =>
      obtain ⟨good, free⟩ := (refusal?_eq_none_iff table name).mp refused
      rw [introduce_of_free (Stmt.name_of_symbol? declares stands) refused]
      exact .registered good free stands

end SymbolTable

theorem Stmt.settled_check {stmt : Stmt} {name : Ident} (declares : stmt.declared? = some name)
    (table : SymbolTable) :
    stmt.Settled name table (refusals (stmt.check table).faults) (stmt.check table).table := by
  cases stmt with
  | scalar declared type place =>
      cases declares
      exact table.settled_introduce rfl rfl
  | constant declared type position value place =>
      cases declares
      have inside : refusals (value.check table).faults = [] :=
        (value.kinds_check table).filter_eq_nil (by decide)
      simp only [Stmt.check, checkConstant, refusals_append, inside]
      -- The value may be of a wrong type, and the constant is declared all the same.
      split
      · exact table.settled_introduce rfl rfl
      · exact table.settled_introduce rfl rfl
  | array declared element size position place =>
      cases declares
      rw [Stmt.check]
      cases sized : Size.positive? size.toList with
      | some count =>
          rw [table.check_array_of_size name element position sized]
          exact table.settled_introduce rfl (congrArg (Option.map _) sized)
      | none =>
          rw [checkArray, sized]
          cases refused : table.refusal? name with
          | some fault => exact settled_of_refusal? refused _
          | none =>
              obtain ⟨good, free⟩ := (refusal?_eq_none_iff table name).mp refused
              exact .unsized size position good free (congrArg (Option.map _) sized)
  | assign | ifThen | ifElse | doWhile | forLoop | input | output => cases declares

theorem Stmt.Settled.name_clash_not_mem {stmt : Stmt} {name : Ident} {table after : SymbolTable}
    {faults : List Fault} (settled : stmt.Settled name table faults after) (other : Ident)
    (clash : Clash) : .nameClash other clash ∉ faults := by
  cases settled <;> simp

/-- No table refuses a symbol for its name once the check has found the name free. -/
theorem Stmt.name_clash_not_mem_own_faults (stmt : Stmt) (table : SymbolTable) (name : Ident)
    (clash : Clash) : .nameClash name clash ∉ stmt.ownFaults table := by
  have unnamed {kinds : List DiagnosticKind} {faults : List Fault} (among : Among kinds faults)
      (other : .duplicateDeclaration ∉ kinds) : .nameClash name clash ∉ faults :=
    among.not_mem rfl other
  cases stmt with
  | scalar | array | constant =>
      intro found
      exact (Stmt.settled_check rfl table).name_clash_not_mem name clash
        (name_clash_mem_refusals found)
  | assign target value place => exact unnamed (table.kinds_check_assign target value) (by decide)
  | input target place => exact unnamed (table.kinds_check_input target) (by decide)
  | output position names place => exact unnamed (table.kinds_check_output names) (by decide)
  | ifThen condition | ifElse condition => exact unnamed (condition.kinds_check table) (by decide)
  | doWhile body condition => exact unnamed (condition.kinds_check _) (by decide)
  | forLoop counter first last step =>
      have bound (expr : Expr) := unnamed (table.enter.kinds_check_bound counter expr) (by decide)
      have itself := unnamed (table.enter.kinds_check_counter counter) (by decide)
      simp [Stmt.ownFaults, bound, itself]

/-! ## The first good declaration -/

/-- The symbol of a declaration of this name, if the name is good and so is the size of an array. -/
def Stmt.candidate? (name : String) (stmt : Stmt) : Option Symbol :=
  stmt.symbol?.filter fun symbol => symbol.name = name ∧ Name.fault? name.toList = none

theorem Stmt.candidate?_eq_some_iff (stmt : Stmt) (name : String) (symbol : Symbol) :
    stmt.candidate? name = some symbol ↔
      stmt.symbol? = some symbol ∧ symbol.name = name ∧ Name.fault? name.toList = none := by
  simp [Stmt.candidate?, Option.filter_eq_some_iff]

theorem Stmt.candidate?_of_declared? {stmt : Stmt} {declared : Ident}
    (declares : stmt.declared? = some declared) (good : Name.fault? declared.name.toList = none) :
    stmt.candidate? declared.name = stmt.symbol? := by
  cases stands : stmt.symbol? with
  | none => rw [Stmt.candidate?, stands, Option.filter_none]
  | some symbol =>
      exact (stmt.candidate?_eq_some_iff declared.name symbol).mpr
        ⟨stands, Stmt.name_of_symbol? declares stands, good⟩

theorem Stmt.candidate?_of_bad_name {name : String} {fault : NameFault}
    (bad : Name.fault? name.toList = some fault) (stmt : Stmt) : stmt.candidate? name = none := by
  simp [Stmt.candidate?, bad]

theorem Stmt.candidate?_of_ne {stmt : Stmt} {declared : Ident} {name : String}
    (declares : stmt.declared? = some declared) (other : declared.name ≠ name) :
    stmt.candidate? name = none := by
  rw [Option.eq_none_iff_forall_ne_some]
  intro symbol found
  obtain ⟨stands, named, _⟩ := (stmt.candidate?_eq_some_iff name symbol).mp found
  exact other ((Stmt.name_of_symbol? declares stands).symm.trans named)

/-- The symbol of the first good declaration of a name, the insides of blocks not counted. -/
def Stmt.firstDeclared? (name : String) (stmts : List Stmt) : Option Symbol :=
  stmts.findSome? (Stmt.candidate? name)

theorem Stmt.first_declared?_cons (name : String) (stmt : Stmt) (rest : List Stmt) :
    Stmt.firstDeclared? name (stmt :: rest) =
      (stmt.candidate? name).or (Stmt.firstDeclared? name rest) := by
  rw [Stmt.firstDeclared?, List.findSome?_cons]
  cases stmt.candidate? name <;> rfl

theorem Stmt.good_of_first_declared? {name : String} {stmts : List Stmt} {first : Symbol}
    (found : Stmt.firstDeclared? name stmts = some first) : Name.fault? name.toList = none := by
  obtain ⟨stmt, _, stands⟩ := List.exists_of_findSome?_eq_some found
  exact ((stmt.candidate?_eq_some_iff name first).mp stands).2.2

theorem SymbolTable.find_here?_extended (table : SymbolTable) (symbol : Symbol) (name : String) :
    (table.extended symbol).findHere? name =
      if symbol.name = name then some symbol else table.findHere? name := by
  have top := top_of_frames_eq_cons (table.frames_extended symbol)
  by_cases same : symbol.name = name
  · simp [findHere?, Frame.find?, top, same]
  · simp [findHere?, Frame.find?, top, same]

/-- A good declaration goes into the innermost frame if its name is free there. -/
theorem Stmt.Settled.find_here? {stmt : Stmt} {declared : Ident} {table after : SymbolTable}
    {faults : List Fault} (settled : stmt.Settled declared table faults after)
    (declares : stmt.declared? = some declared) (name : String) :
    after.findHere? name = (table.findHere? name).or (stmt.candidate? name) := by
  by_cases same : declared.name = name
  · subst same
    cases settled with
    | misnamed bad => rw [Stmt.candidate?_of_bad_name bad, Option.or_none]
    | taken good here => rw [here, Option.some_or]
    | unsized size position good free nothing =>
        rw [Stmt.candidate?_of_declared? declares good, nothing, Option.or_none]
    | registered good free stands =>
        rw [find_here?_extended, if_pos (Stmt.name_of_symbol? declares stands), free,
          Stmt.candidate?_of_declared? declares good, stands, Option.none_or]
  · rw [Stmt.candidate?_of_ne declares same, Option.or_none]
    cases settled with
    | misnamed | taken | unsized => rfl
    | registered good free stands =>
        rw [find_here?_extended, if_neg (Stmt.name_of_symbol? declares stands ▸ same)]

theorem Stmt.find_here?_check (stmt : Stmt) (table : SymbolTable) (name : String) :
    (stmt.check table).table.findHere? name =
      (table.findHere? name).or (stmt.candidate? name) := by
  cases declares : stmt.declared? with
  | some declared => exact (Stmt.settled_check declares table).find_here? declares name
  | none =>
      have nothing := Stmt.symbol?_eq_none_of_declared? declares
      rw [find_here?_of_frames_eq (Stmt.frames_check_of_none nothing table), Stmt.candidate?,
        nothing, Option.filter_none, Option.or_none]

/-- The innermost frame gains the first good declaration of each name that it has not yet. -/
theorem Stmt.find_here?_check_all (stmts : List Stmt) (table : SymbolTable) (name : String) :
    (Stmt.checkAll table stmts).table.findHere? name =
      (table.findHere? name).or (Stmt.firstDeclared? name stmts) := by
  induction stmts generalizing table with
  | nil => exact (Option.or_none).symm
  | cons first rest ih =>
      rw [Stmt.checkAll, ih, first.find_here?_check, Stmt.first_declared?_cons, Option.or_assoc]

namespace Surroundings

/-- The statements before this one directly in its block. -/
def preceding : Surroundings → List Stmt
  | .flat before _ => before
  | .nested _ _ block _ => block.preceding

/-- A block begins with an empty frame. -/
theorem find_here?_entry (around : Surroundings) {table : SymbolTable}
    (fresh : table.top = []) (name : String) :
    (around.entry table).findHere? name = Stmt.firstDeclared? name around.preceding := by
  induction around generalizing table with
  | flat before behind =>
      rw [entry, Stmt.find_here?_check_all, SymbolTable.findHere?, fresh]
      exact Option.none_or
  | nested before shell block behind ih =>
      have entered (outer : SymbolTable) : (shell.entry outer).top = [] := by
        cases shell <;> rfl
      exact ih (entered _)

end Surroundings

namespace Stmt.Settled

variable {stmt : Stmt} {name : Ident} {table after : SymbolTable} {faults : List Fault}
  (settled : stmt.Settled name table faults after)

include settled

theorem of_no_candidate (declares : stmt.declared? = some name)
    (free : table.findHere? name.name = none) (unfit : stmt.candidate? name.name = none) :
    after = table ∧ ∃ fault, faults = [fault] ∧ fault.span = name.place.span ∧
      (fault.kind = .invalidIdentifier ∨ fault.kind = .arrayBounds) := by
  cases settled with
  | misnamed bad => exact ⟨rfl, _, rfl, rfl, .inl rfl⟩
  | unsized size position good free nothing => exact ⟨rfl, _, rfl, rfl, .inr rfl⟩
  | taken good here =>
      rw [free] at here
      cases here
  | registered good free stands =>
      rw [Stmt.candidate?_of_declared? declares good, stands] at unfit
      cases unfit

theorem of_candidate {symbol : Symbol} (free : table.findHere? name.name = none)
    (fit : stmt.candidate? name.name = some symbol) :
    after = table.extended symbol ∧ faults = [] := by
  obtain ⟨stands, _, good⟩ := (stmt.candidate?_eq_some_iff name.name symbol).mp fit
  cases settled with
  | misnamed bad =>
      rw [good] at bad
      cases bad
  | taken _ here =>
      rw [free] at here
      cases here
  | unsized size position _ _ nothing =>
      rw [stands] at nothing
      cases nothing
  | registered _ _ present =>
      cases stands.symm.trans present
      exact ⟨rfl, rfl⟩

theorem of_taken {first : Symbol} (good : Name.fault? name.name.toList = none)
    (here : table.findHere? name.name = some first) :
    after = table ∧ faults = [.redeclared name first.declaredAt] := by
  cases settled with
  | misnamed bad =>
      rw [good] at bad
      cases bad
  | taken _ present =>
      cases here.symm.trans present
      exact ⟨rfl, rfl⟩
  | unsized size position _ free nothing =>
      rw [free] at here
      cases here
  | registered _ free stands =>
      rw [free] at here
      cases here

end Stmt.Settled

/-- Of the declarations of one name that stand directly in one block, those that come before any
good one are each turned down once, for the name or for the size of an array; the first good one is
registered and never turned down; those behind it are each turned down once, as duplicates of it. A
declaration that is turned down leaves the table as it is. A symbol is never turned down by the
table itself. -/
theorem Program.first_declaration_wins (program : Program) :
    (∀ (around : Surroundings) (stmt : Stmt) (name : Ident),
      program = around.plug stmt → stmt.declared? = some name →
        let table := around.entry .empty
        let outcome := stmt.check table
        let earlier := Stmt.firstDeclared? name.name around.preceding
        program.check.faults = around.faultsBefore .empty ++ outcome.faults ++
          around.faultsBehind .empty stmt ∧
        (earlier = none → stmt.candidate? name.name = none →
          outcome.table = table ∧ ∃ fault, refusals outcome.faults = [fault] ∧
            fault.span = name.place.span ∧
            (fault.kind = .invalidIdentifier ∨ fault.kind = .arrayBounds)) ∧
        (∀ symbol, earlier = none → stmt.candidate? name.name = some symbol →
          outcome.table = table.extended symbol ∧ refusals outcome.faults = []) ∧
        (∀ first, earlier = some first →
          outcome.table = table ∧ ∃ fault, refusals outcome.faults = [fault] ∧
            fault.span = name.place.span ∧ fault.kind = .duplicateDeclaration ∧
            fault.message =
              s!"'{name.name}' is already declared in this scope at {first.declaredAt.text}")) ∧
    (∀ (name : Ident) (clash : Clash), .nameClash name clash ∉ program.check.faults) := by
  constructor
  · intro around stmt name written declares table outcome earlier
    have settled := Stmt.settled_check declares table
    have here : table.findHere? name.name = earlier := around.find_here?_entry rfl name.name
    refine ⟨?_, ?_, ?_, ?_⟩
    · rw [written]
      exact around.faults_check_all_plug .empty stmt
    · intro nothing unfit
      exact settled.of_no_candidate declares (here.trans nothing) unfit
    · intro symbol nothing fit
      exact settled.of_candidate (here.trans nothing) fit
    · intro first found
      have good := Stmt.good_of_first_declared? found
      obtain ⟨unchanged, only⟩ := settled.of_taken good (here.trans found)
      exact ⟨unchanged, _, only, rfl, rfl, rfl⟩
  · intro name clash found
    obtain ⟨around, stmt, _, own⟩ := (Stmt.mem_faults_check_all_iff program .empty _).mp found
    exact stmt.name_clash_not_mem_own_faults _ name clash own

def declaredOn (line : Nat) : Ident :=
  ⟨"k", default, ⟨line, 5⟩⟩

/-- The end of a loop body in which `k` is already declared as an array without elements, as a
variable and, in a block, as another one. -/
def behindDeclarations : Surroundings :=
  let smaller := Cond.compare .less default (.integer "1" default) (.integer "2" default) default
  .nested [] (.doWhile smaller default)
    (.flat
      [.array (declaredOn 2) .int "0" default default, .scalar (declaredOn 3) .int default,
        .ifThen smaller [.scalar (declaredOn 4) .float default] default] []) []

theorem first_declaration_wins_behind_declarations :
    let again := Stmt.constant (declaredOn 5) .int default (.identifier "k" default) default
    (again.check (behindDeclarations.entry .empty)).table = behindDeclarations.entry .empty ∧
      ∃ fault ∈ Program.check (behindDeclarations.plug again) |>.faults,
        fault.kind = .duplicateDeclaration ∧
          fault.message = "'k' is already declared in this scope at 3:5" := by
  intro again
  have wins := (Program.first_declaration_wins (behindDeclarations.plug again)).1
    behindDeclarations again (declaredOn 5) rfl rfl
  obtain ⟨split, _, _, later⟩ := wins
  obtain ⟨unchanged, fault, only, _, kind, message⟩ :=
    later (.scalar "k" .int ⟨3, 5⟩) (by decide)
  refine ⟨unchanged, fault, ?_, kind, message.trans (by decide)⟩
  have turned : fault ∈ refusals (again.check (behindDeclarations.entry .empty)).faults :=
    only ▸ List.mem_cons_self
  rw [split]
  exact List.mem_append_left _ (List.mem_append_right _ (List.mem_filter.mp turned).1)

end ThreeAddress
