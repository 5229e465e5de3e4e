import ThreeAddress.Proofs.Scope.Frames

/-!
# Blocks are closed off from what stands behind them

Checking a statement reads the frames of the symbol table and never its log. A statement that
declares nothing gives the frames back as it found them, whatever its blocks declare. So whatever
is checked behind a compound statement, in its own list or around it, is checked as if the blocks
had other contents. Main statement: two programs that differ in such contents only have the same
faults behind them.
-/

namespace ThreeAddress

set_option autoImplicit false

namespace SymbolTable

/-! ## The frames behind a statement -/

theorem depth_eq_length_tail (table : SymbolTable) : table.depth = table.frames.tail.length := by
  simp [frames, depth]

theorem top_of_frames_eq_cons {table : SymbolTable} {frame : Frame} {outer : List Frame}
    (shape : table.frames = frame :: outer) : table.top = frame := by
  rw [frames_eq_top_cons] at shape
  exact (List.cons.inj shape).1

theorem top_of_frames_eq {left right : SymbolTable} (same : left.frames = right.frames) :
    left.top = right.top :=
  top_of_frames_eq_cons (same.trans right.frames_eq_top_cons)

theorem frames_introduce (table : SymbolTable) {name : Ident} {symbol : Symbol}
    (named : symbol.name = name.name) :
    (table.introduce name symbol).table.frames = table.frames ∨
      table.findHere? symbol.name = none ∧
        (table.introduce name symbol).table.frames =
          (symbol :: table.top) :: table.frames.tail := by
  cases refused : table.refusal? name with
  | some fault =>
      rw [introduce_of_refused refused]
      exact .inl rfl
  | none =>
      have here := ((refusal?_eq_none_iff table name).mp refused).2
      rw [introduce_of_free named refused]
      exact .inr ⟨named ▸ here, table.frames_extended symbol⟩

end SymbolTable

/-- The symbol that a declaration is for. An array has none if its size is no positive number. -/
def Stmt.symbol? : Stmt → Option Symbol
  | .scalar name type _ => some (.scalar name.name (.scalar type) name.place.position)
  | .array name element size _ _ =>
      (Size.positive? size.toList).map fun count =>
        .array name.name (.array element) count name.place.position
  | .constant name type _ _ _ => some (.constant name.name (.scalar type) name.place.position)
  | .assign .. | .ifThen .. | .ifElse .. | .doWhile .. | .forLoop .. | .input .. | .output .. =>
      none

open SymbolTable

/-- A statement without a symbol of its own leaves no trace in the frames. -/
theorem Stmt.frames_check_of_none {stmt : Stmt} (nothing : stmt.symbol? = none)
    (table : SymbolTable) : (stmt.check table).table.frames = table.frames := by
  cases stmt with
  | scalar name type place => cases nothing
  | constant name type position value place => cases nothing
  | array name element size position place =>
      have unsized : Size.positive? size.toList = none := by simpa [Stmt.symbol?] using nothing
      obtain ⟨fault, unchanged⟩ := table.check_array_of_bad_size name element position unsized
      rw [Stmt.check, unchanged]
  | assign target value place => rfl
  | input target place => rfl
  | output text names place => rfl
  | ifThen condition body place => exact (Stmt.evolves_check_all body table.enter).frames_leave
  | ifElse condition body otherwise place =>
      have inside := (Stmt.evolves_check_all body table.enter).frames_leave
      have other := (Stmt.evolves_check_all otherwise
        (Stmt.checkAll table.enter body).table.leave.enter).frames_leave
      exact other.trans inside
  | doWhile body condition place => exact (Stmt.evolves_check_all body table.enter).frames_leave
  | forLoop counter first last step body place =>
      exact (Stmt.evolves_check_all body table.enter).frames_leave

theorem Stmt.frames_check_of_some {stmt : Stmt} {symbol : Symbol}
    (declares : stmt.symbol? = some symbol) (table : SymbolTable) :
    (stmt.check table).table.frames = table.frames ∨
      table.findHere? symbol.name = none ∧
        (stmt.check table).table.frames = (symbol :: table.top) :: table.frames.tail := by
  cases stmt with
  | scalar name type place =>
      cases declares
      exact table.frames_introduce rfl
  | constant name type position value place =>
      cases declares
      exact table.frames_introduce rfl
  | array name element size position place =>
      obtain ⟨count, sized, rfl⟩ := Option.map_eq_some_iff.mp declares
      rw [Stmt.check, table.check_array_of_size name element position sized]
      exact table.frames_introduce rfl
  | assign | ifThen | ifElse | doWhile | forLoop | input | output => cases declares

/-- What a statement may do to the innermost frame. -/
theorem Stmt.top_check (stmt : Stmt) (table : SymbolTable) :
    (stmt.check table).table.top = table.top ∨
      ∃ symbol, stmt.symbol? = some symbol ∧ table.findHere? symbol.name = none ∧
        (stmt.check table).table.top = symbol :: table.top := by
  cases declares : stmt.symbol? with
  | none => exact .inl (top_of_frames_eq (Stmt.frames_check_of_none declares table))
  | some symbol =>
      rcases Stmt.frames_check_of_some declares table with same | ⟨free, grown⟩
      · exact .inl (top_of_frames_eq same)
      · exact .inr ⟨symbol, rfl, free, top_of_frames_eq_cons grown⟩

theorem Stmt.depth_check (stmt : Stmt) (table : SymbolTable) :
    (stmt.check table).table.depth = table.depth := by
  rw [depth_eq_length_tail, depth_eq_length_tail, (stmt.evolves_check table).1]

theorem Stmt.depth_check_all (stmts : List Stmt) (table : SymbolTable) :
    (Stmt.checkAll table stmts).table.depth = table.depth := by
  rw [depth_eq_length_tail, depth_eq_length_tail, (Stmt.evolves_check_all stmts table).1]

/-- Statements add symbols of their own to the innermost frame, in their order, and none of those
that their blocks declare. -/
theorem Stmt.top_check_all (stmts : List Stmt) (table : SymbolTable) :
    ∃ added : List Symbol, added.Sublist (stmts.filterMap Stmt.symbol?) ∧
      (Stmt.checkAll table stmts).table.top = added.reverse ++ table.top := by
  induction stmts generalizing table with
  | nil => exact ⟨[], .slnil, rfl⟩
  | cons first rest ih =>
      obtain ⟨added, selected, grown⟩ := ih (first.check table).table
      rcases first.top_check table with same | ⟨symbol, declares, _, pushed⟩
      · refine ⟨added, ?_, ?_⟩
        · rw [List.filterMap_cons]
          split
          · exact selected
          · exact selected.cons _
        · rw [← same]
          exact grown
      · refine ⟨symbol :: added, ?_, ?_⟩
        · rw [List.filterMap_cons_some declares]
          exact selected.cons_cons symbol
        · rw [pushed] at grown
          rw [List.reverse_cons, List.append_assoc]
          exact grown

theorem Program.depth_check (program : Program) : program.check.table.depth = 0 :=
  Stmt.depth_check_all program .empty

theorem Program.global_check (program : Program) :
    program.check.table.global.reverse.Sublist (program.filterMap Stmt.symbol?) := by
  obtain ⟨added, selected, grown⟩ := Stmt.top_check_all program .empty
  have outermost : program.check.table.top = program.check.table.global := by
    have closed := List.eq_nil_of_length_eq_zero program.depth_check
    rw [top, closed]
    rfl
  have collected : program.check.table.global = added.reverse := by
    rw [← outermost]
    exact grown.trans (List.append_nil _)
  rw [collected, List.reverse_reverse]
  exact selected

/-! ## The check reads only the frames -/

namespace SymbolTable

variable {left right : SymbolTable} (same : left.frames = right.frames)

include same

theorem find?_of_frames_eq : left.find? = right.find? := by
  funext name
  rw [find?, find?, same]

theorem find_here?_of_frames_eq : left.findHere? = right.findHere? := by
  funext name
  rw [findHere?, findHere?, top_of_frames_eq same]

theorem check_name_of_frames_eq : left.checkName = right.checkName := by
  funext name
  unfold checkName
  rw [find?_of_frames_eq same]

theorem refusal?_of_frames_eq : left.refusal? = right.refusal? := by
  funext name
  unfold refusal?
  rw [find_here?_of_frames_eq same]

theorem check_input_of_frames_eq : left.checkInput = right.checkInput := by
  funext target
  unfold checkInput
  rw [find?_of_frames_eq same]

theorem check_output_of_frames_eq : left.checkOutput = right.checkOutput := by
  funext name
  unfold checkOutput
  rw [find?_of_frames_eq same]

theorem check_counter_of_frames_eq : left.checkCounter = right.checkCounter := by
  funext counter
  unfold checkCounter
  rw [find?_of_frames_eq same]

omit same

theorem frames_enter_of_frames_eq (same : left.frames = right.frames) :
    left.enter.frames = right.enter.frames := by
  rw [frames_enter, frames_enter, same]

theorem frames_leave_of_frames_eq (same : left.frames = right.frames) :
    left.leave.frames = right.leave.frames := by
  have parts := List.append_inj' same rfl
  simp only [frames, leave, parts.1, parts.2]

end SymbolTable

theorem Expr.check_of_frames_eq {left right : SymbolTable} (same : left.frames = right.frames)
    (expr : Expr) : expr.check left = expr.check right := by
  induction expr with
  | integer text place => rfl
  | float text place => rfl
  | identifier name place => rw [Expr.check, Expr.check, check_name_of_frames_eq same]
  | element array index place ih => rw [Expr.check, Expr.check, find?_of_frames_eq same, ih]
  | paren inner place ih => exact ih
  | negate inner place ih => rw [Expr.check, Expr.check, ih]
  | binary op first second place ihFirst ihSecond =>
      rw [Expr.check, Expr.check, ihFirst, ihSecond]

theorem Cond.check_of_frames_eq {left right : SymbolTable} (same : left.frames = right.frames)
    (cond : Cond) : cond.check left = cond.check right := by
  induction cond with
  | compare op position first second place =>
      rw [Cond.check, Cond.check, first.check_of_frames_eq same, second.check_of_frames_eq same]
  | and first second place ihFirst ihSecond => rw [Cond.check, Cond.check, ihFirst, ihSecond]
  | or first second place ihFirst ihSecond => rw [Cond.check, Cond.check, ihFirst, ihSecond]
  | not inner place ih => exact ih
  | paren inner place ih => exact ih

theorem SymbolTable.check_assign_of_frames_eq {left right : SymbolTable}
    (same : left.frames = right.frames) : left.checkAssign = right.checkAssign := by
  funext target value
  unfold checkAssign
  rw [find?_of_frames_eq same, value.check_of_frames_eq same]

theorem SymbolTable.check_bound_of_frames_eq {left right : SymbolTable}
    (same : left.frames = right.frames) : left.checkBound = right.checkBound := by
  funext counter bound
  unfold checkBound
  rw [bound.check_of_frames_eq same]

/-- Outcomes that differ at most in the logs of their tables. -/
structure Outcome.Alike (left right : Outcome) : Prop where
  frames : left.table.frames = right.table.frames
  faults : left.faults = right.faults

namespace SymbolTable

variable {left right : SymbolTable}

theorem introduce_alike (same : left.frames = right.frames) {name : Ident} {symbol : Symbol}
    (named : symbol.name = name.name) :
    (left.introduce name symbol).Alike (right.introduce name symbol) := by
  cases refused : right.refusal? name with
  | some fault =>
      have refusedLeft : left.refusal? name = some fault := by
        rw [refusal?_of_frames_eq same, refused]
      rw [introduce_of_refused refused, introduce_of_refused refusedLeft]
      exact ⟨same, rfl⟩
  | none =>
      have free : left.refusal? name = none := by
        rw [refusal?_of_frames_eq same, refused]
      rw [introduce_of_free named refused, introduce_of_free named free]
      constructor
      · rw [frames_extended, frames_extended, top_of_frames_eq same, same]
      · rfl

theorem check_array_alike (same : left.frames = right.frames) (name : Ident) (element : DataType)
    (size : String) (position : Position) :
    (left.checkArray name element size position).Alike
      (right.checkArray name element size position) := by
  cases sized : Size.positive? size.toList with
  | some count =>
      rw [left.check_array_of_size name element position sized,
        right.check_array_of_size name element position sized]
      exact introduce_alike same rfl
  | none =>
      unfold checkArray
      rw [refusal?_of_frames_eq same, sized]
      cases right.refusal? name with
      | some fault => exact ⟨same, rfl⟩
      | none => exact ⟨same, rfl⟩

theorem check_constant_alike (same : left.frames = right.frames) (name : Ident) (type : DataType)
    (position : Position) (value : Expr) :
    (left.checkConstant name type position value).Alike
      (right.checkConstant name type position value) := by
  have declared :
      (left.introduce name (.constant name.name (.scalar type) name.place.position)).Alike
        (right.introduce name (.constant name.name (.scalar type) name.place.position)) :=
    introduce_alike same rfl
  unfold checkConstant
  constructor
  · exact declared.frames
  · simp only [declared.faults, value.check_of_frames_eq same]

end SymbolTable

theorem Stmt.frames_check_of_none_of_frames_eq {stmt : Stmt} (nothing : stmt.symbol? = none)
    {left right : SymbolTable} (same : left.frames = right.frames) :
    (stmt.check left).table.frames = (stmt.check right).table.frames := by
  rw [Stmt.frames_check_of_none nothing, Stmt.frames_check_of_none nothing, same]

/-- The scope of a second block has the frames that the scope of the first one had. -/
theorem Stmt.frames_reopened (body : List Stmt) (table : SymbolTable) :
    (Stmt.checkAll table.enter body).table.leave.enter.frames = table.enter.frames := by
  rw [frames_enter, frames_enter, (Stmt.evolves_check_all body table.enter).frames_leave]

mutual

/-- Tables with the same frames check a statement alike. -/
theorem Stmt.check_alike (stmt : Stmt) {left right : SymbolTable}
    (same : left.frames = right.frames) : (stmt.check left).Alike (stmt.check right) := by
  have entered := frames_enter_of_frames_eq same
  match stmt with
  | .scalar name type place => exact introduce_alike same rfl
  | .array name element size position place =>
      exact check_array_alike same name element size position
  | .constant name type position value place =>
      exact check_constant_alike same name type position value
  | .assign target value place =>
      refine ⟨same, ?_⟩
      rw [Stmt.check, Stmt.check, check_assign_of_frames_eq same]
  | .input target place =>
      refine ⟨same, ?_⟩
      rw [Stmt.check, Stmt.check, check_input_of_frames_eq same]
  | .output text names place =>
      refine ⟨same, ?_⟩
      rw [Stmt.check, Stmt.check, check_output_of_frames_eq same]
  | .ifThen condition body place =>
      refine ⟨Stmt.frames_check_of_none_of_frames_eq rfl same, ?_⟩
      have inside := Stmt.check_all_alike body entered
      simp only [Stmt.check, inside.faults, condition.check_of_frames_eq same]
  | .ifElse condition body otherwise place =>
      refine ⟨Stmt.frames_check_of_none_of_frames_eq rfl same, ?_⟩
      have inside := Stmt.check_all_alike body entered
      have reopened := (Stmt.frames_reopened body left).trans
        (entered.trans (Stmt.frames_reopened body right).symm)
      have other := Stmt.check_all_alike otherwise reopened
      simp only [Stmt.check, inside.faults, other.faults, condition.check_of_frames_eq same]
  | .doWhile body condition place =>
      refine ⟨Stmt.frames_check_of_none_of_frames_eq rfl same, ?_⟩
      have inside := Stmt.check_all_alike body entered
      -- The condition still sees what the body declares, so the frames inside have to agree.
      simp only [Stmt.check, inside.faults, condition.check_of_frames_eq inside.frames]
  | .forLoop counter first last step body place =>
      refine ⟨Stmt.frames_check_of_none_of_frames_eq rfl same, ?_⟩
      have inside := Stmt.check_all_alike body entered
      simp only [Stmt.check, inside.faults, check_counter_of_frames_eq entered,
        check_bound_of_frames_eq entered]

theorem Stmt.check_all_alike (stmts : List Stmt) {left right : SymbolTable}
    (same : left.frames = right.frames) :
    (Stmt.checkAll left stmts).Alike (Stmt.checkAll right stmts) := by
  match stmts with
  | [] => exact ⟨same, rfl⟩
  | first :: rest =>
      have before := first.check_alike same
      have behind := Stmt.check_all_alike rest before.frames
      constructor
      · exact behind.frames
      · simp only [Stmt.checkAll, before.faults, behind.faults]

end

/-- Behind a statement that declares nothing, the check goes on as behind any other such. -/
theorem Stmt.check_all_behind {first second : Stmt} (nothing : first.symbol? = none)
    (neither : second.symbol? = none) (table : SymbolTable) (behind : List Stmt) :
    (Stmt.checkAll (first.check table).table behind).Alike
      (Stmt.checkAll (second.check table).table behind) := by
  apply Stmt.check_all_alike
  rw [Stmt.frames_check_of_none nothing, Stmt.frames_check_of_none neither]

theorem Stmt.check_all_append (front back : List Stmt) (table : SymbolTable) :
    Stmt.checkAll table (front ++ back) =
      ⟨(Stmt.checkAll (Stmt.checkAll table front).table back).table,
        (Stmt.checkAll table front).faults ++
          (Stmt.checkAll (Stmt.checkAll table front).table back).faults⟩ := by
  induction front generalizing table with
  | nil => rfl
  | cons first rest ih => simp only [List.cons_append, Stmt.checkAll, ih, List.append_assoc]

/-! ## The code around a statement -/

/-- A compound statement in which one block is missing. -/
inductive Shell where
  | ifThen (condition : Cond) (place : Place)
  | thenPart (condition : Cond) (otherwise : List Stmt) (place : Place)
  | elsePart (condition : Cond) (body : List Stmt) (place : Place)
  | doWhile (condition : Cond) (place : Place)
  | forLoop (counter : Ident) (first last step : Expr) (place : Place)

namespace Shell

def fill (block : List Stmt) : Shell → Stmt
  | .ifThen condition place => .ifThen condition block place
  | .thenPart condition otherwise place => .ifElse condition block otherwise place
  | .elsePart condition body place => .ifElse condition body block place
  | .doWhile condition place => .doWhile block condition place
  | .forLoop counter first last step place => .forLoop counter first last step block place

def entry (table : SymbolTable) : Shell → SymbolTable
  | .elsePart _ body _ => (Stmt.checkAll table.enter body).table.leave.enter
  | .ifThen .. | .thenPart .. | .doWhile .. | .forLoop .. => table.enter

def faultsBefore (table : SymbolTable) : Shell → List Fault
  | .ifThen condition _ | .thenPart condition _ _ => condition.check table
  | .elsePart condition body _ =>
      condition.check table ++ (Stmt.checkAll table.enter body).faults
  | .doWhile .. => []
  | .forLoop counter first last step _ =>
      table.enter.checkCounter counter ++ table.enter.checkBound counter first ++
        table.enter.checkBound counter last ++ table.enter.checkBound counter step

def faultsBehind (inner : SymbolTable) : Shell → List Fault
  | .thenPart _ otherwise _ => (Stmt.checkAll inner.leave.enter otherwise).faults
  | .doWhile condition _ => condition.check inner
  | .ifThen .. | .elsePart .. | .forLoop .. => []

/-- Nothing of a block but its last frames matters to what stands behind it. -/
theorem faults_behind_of_frames_eq (shell : Shell) {left right : SymbolTable}
    (same : left.frames = right.frames) : shell.faultsBehind left = shell.faultsBehind right := by
  cases shell with
  | thenPart condition otherwise place =>
      have reopened := frames_enter_of_frames_eq (frames_leave_of_frames_eq same)
      exact (Stmt.check_all_alike otherwise reopened).faults
  | doWhile condition place => exact condition.check_of_frames_eq same
  | ifThen | elsePart | forLoop => rfl

theorem symbol?_fill (shell : Shell) (block : List Stmt) : (shell.fill block).symbol? = none := by
  cases shell <;> rfl

theorem faults_check_fill (shell : Shell) (block : List Stmt) (table : SymbolTable) :
    ((shell.fill block).check table).faults =
      shell.faultsBefore table ++ (Stmt.checkAll (shell.entry table) block).faults ++
        shell.faultsBehind (Stmt.checkAll (shell.entry table) block).table := by
  cases shell <;> simp [fill, entry, faultsBefore, faultsBehind, Stmt.check]

end Shell

/-- The code around one statement: what stands before and behind it in its list, and then the same
for the compound statement that has this list as a block, up to the whole program. -/
inductive Surroundings where
  | flat (before behind : List Stmt)
  | nested (before : List Stmt) (shell : Shell) (block : Surroundings) (behind : List Stmt)

namespace Surroundings

def plug (stmt : Stmt) : Surroundings → List Stmt
  | .flat before behind => before ++ stmt :: behind
  | .nested before shell block behind => before ++ shell.fill (block.plug stmt) :: behind

def entry (table : SymbolTable) : Surroundings → SymbolTable
  | .flat before _ => (Stmt.checkAll table before).table
  | .nested before shell block _ => block.entry (shell.entry (Stmt.checkAll table before).table)

def faultsBefore (table : SymbolTable) : Surroundings → List Fault
  | .flat before _ => (Stmt.checkAll table before).faults
  | .nested before shell block _ =>
      let reached := Stmt.checkAll table before
      reached.faults ++ shell.faultsBefore reached.table ++
        block.faultsBefore (shell.entry reached.table)

/-- What is found behind the statement, in its own list and in all that are around it. -/
def faultsBehind (table : SymbolTable) (stmt : Stmt) : Surroundings → List Fault
  | .flat before behind =>
      let reached := Stmt.checkAll table before
      (Stmt.checkAll (stmt.check reached.table).table behind).faults
  | .nested before shell block behind =>
      let reached := Stmt.checkAll table before
      let inside := shell.entry reached.table
      block.faultsBehind inside stmt ++
        shell.faultsBehind (Stmt.checkAll inside (block.plug stmt)).table ++
        (Stmt.checkAll ((shell.fill (block.plug stmt)).check reached.table).table behind).faults

theorem faults_check_all_plug (around : Surroundings) (table : SymbolTable) (stmt : Stmt) :
    (Stmt.checkAll table (around.plug stmt)).faults =
      around.faultsBefore table ++ (stmt.check (around.entry table)).faults ++
        around.faultsBehind table stmt := by
  induction around generalizing table with
  | flat before behind =>
      simp only [plug, Stmt.check_all_append, Stmt.checkAll, faultsBefore, entry, faultsBehind,
        List.append_assoc]
  | nested before shell block behind ih =>
      simp only [plug, Stmt.check_all_append, Stmt.checkAll, Shell.faults_check_fill, ih,
        faultsBefore, entry, faultsBehind, List.append_assoc]

section Exchange

variable {first second : Stmt} (nothing : first.symbol? = none) (neither : second.symbol? = none)

include nothing neither

theorem check_all_plug_frames (around : Surroundings) (table : SymbolTable) :
    (Stmt.checkAll table (around.plug first)).table.frames =
      (Stmt.checkAll table (around.plug second)).table.frames := by
  cases around with
  | flat before behind =>
      simp only [plug, Stmt.check_all_append, Stmt.checkAll]
      exact (Stmt.check_all_behind nothing neither _ behind).frames
  | nested before shell block behind =>
      simp only [plug, Stmt.check_all_append, Stmt.checkAll]
      exact (Stmt.check_all_behind (shell.symbol?_fill _) (shell.symbol?_fill _) _ behind).frames

/-- What is found behind a statement that declares nothing does not depend on the statement. -/
theorem faults_behind_exchange (around : Surroundings) (table : SymbolTable) :
    around.faultsBehind table first = around.faultsBehind table second := by
  induction around generalizing table with
  | flat before behind => exact (Stmt.check_all_behind nothing neither _ behind).faults
  | nested before shell block behind ih =>
      -- Within the block this is the induction; around it, the compound statement declares nothing.
      have inside := block.check_all_plug_frames nothing neither
        (shell.entry (Stmt.checkAll table before).table)
      have outside := Stmt.check_all_behind (shell.symbol?_fill (block.plug first))
        (shell.symbol?_fill (block.plug second)) (Stmt.checkAll table before).table behind
      simp only [faultsBehind, ih, shell.faults_behind_of_frames_eq inside, outside.faults]

end Exchange

end Surroundings

/-- Compound statements that differ at most in what their blocks contain, and in their places. -/
inductive Stmt.SameButBlocks : Stmt → Stmt → Prop
  | ifThen (condition : Cond) (body body' : List Stmt) (place place' : Place) :
      SameButBlocks (.ifThen condition body place) (.ifThen condition body' place')
  | ifElse (condition : Cond) (body body' otherwise otherwise' : List Stmt)
      (place place' : Place) :
      SameButBlocks (.ifElse condition body otherwise place)
        (.ifElse condition body' otherwise' place')
  | doWhile (condition : Cond) (body body' : List Stmt) (place place' : Place) :
      SameButBlocks (.doWhile body condition place) (.doWhile body' condition place')
  | forLoop (counter : Ident) (first last step : Expr) (body body' : List Stmt)
      (place place' : Place) :
      SameButBlocks (.forLoop counter first last step body place)
        (.forLoop counter first last step body' place')

theorem Stmt.SameButBlocks.symbol? {first second : Stmt} (same : first.SameButBlocks second) :
    first.symbol? = none ∧ second.symbol? = none := by
  cases same <;> exact ⟨rfl, rfl⟩

/-- A statement changes the table's depth and the frames below the innermost one not at all, and
the innermost one by at most the symbol that it declares itself. So a program ends at depth zero
with symbols of its outermost declarations only. The faults of a program are those before any of
its statements, those of this statement and those behind it; if it is a compound statement, those
behind it, in its own list and in all around it, are the same for any contents of its blocks. -/
theorem Stmt.check_isolates_blocks :
    (∀ (stmt : Stmt) (table : SymbolTable),
      let after := (stmt.check table).table
      after.depth = table.depth ∧ after.frames.tail = table.frames.tail ∧
        (after.top = table.top ∨
          ∃ symbol, stmt.symbol? = some symbol ∧ table.findHere? symbol.name = none ∧
            after.top = symbol :: table.top)) ∧
    (∀ program : Program,
      program.check.table.depth = 0 ∧
        program.check.table.global.reverse.Sublist (program.filterMap Stmt.symbol?)) ∧
    (∀ (around : Surroundings) (table : SymbolTable) (stmt : Stmt),
      (Stmt.checkAll table (around.plug stmt)).faults =
        around.faultsBefore table ++ (stmt.check (around.entry table)).faults ++
          around.faultsBehind table stmt) ∧
    (∀ (around : Surroundings) (table : SymbolTable) (first second : Stmt),
      first.SameButBlocks second →
        around.faultsBehind table first = around.faultsBehind table second) := by
  refine ⟨?_, ?_, Surroundings.faults_check_all_plug, ?_⟩
  · intro stmt table
    exact ⟨stmt.depth_check table, (stmt.evolves_check table).1, stmt.top_check table⟩
  · intro program
    exact ⟨program.depth_check, program.global_check⟩
  · intro around table first second same
    exact around.faults_behind_exchange same.symbol?.1 same.symbol?.2 table

end ThreeAddress
