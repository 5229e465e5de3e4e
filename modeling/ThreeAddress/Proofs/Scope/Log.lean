import ThreeAddress.Proofs.Scope.Frames

/-!
# The log of declarations during a check

A check only adds to the log of a symbol table. Every symbol that a name can mean stands in the log,
and all names in it follow the naming rule.
-/

namespace ThreeAddress

set_option autoImplicit false

theorem Frame.name_of_find? {frame : Frame} {name : String} {symbol : Symbol}
    (found : frame.find? name = some symbol) : symbol ∈ frame ∧ symbol.name = name :=
  ⟨List.mem_of_find?_eq_some found, by simpa using List.find?_some found⟩

namespace SymbolTable

/-- A name means a symbol of that name, which stands in one of the frames. -/
theorem mem_of_find? {table : SymbolTable} {name : String} {symbol : Symbol}
    (found : table.find? name = some symbol) :
    (∃ frame ∈ table.frames, symbol ∈ frame) ∧ symbol.name = name := by
  obtain ⟨frame, member, inFrame⟩ := List.exists_of_findSome?_eq_some found
  obtain ⟨present, named⟩ := Frame.name_of_find? inFrame
  exact ⟨⟨frame, member, present⟩, named⟩

theorem find?_extended (table : SymbolTable) (symbol : Symbol) :
    (table.extended symbol).find? symbol.name = some symbol := by
  rw [find?, frames_extended, List.findSome?_cons, Frame.find?, List.find?_cons_of_pos (by simp)]

/-- A name that has been declared means what it was declared as. -/
theorem find?_introduce {table : SymbolTable} {name : Ident} {symbol : Symbol}
    (named : symbol.name = name.name) (faultless : (table.introduce name symbol).faults = []) :
    (table.introduce name symbol).table.find? name.name = some symbol := by
  cases refused : table.refusal? name with
  | some fault =>
      rw [introduce_of_refused refused] at faultless
      cases faultless
  | none =>
      rw [introduce_of_free named refused, ← named]
      exact table.find?_extended symbol

def DeclaresOnce (table : SymbolTable) : Prop :=
  (table.log.map fun entry => entry.symbol.name).Nodup

instance (table : SymbolTable) : Decidable table.DeclaresOnce :=
  inferInstanceAs (Decidable (List.Nodup _))

/-- Every symbol in a frame stands in the log, and the names in the log follow the naming rule. -/
structure Logged (table : SymbolTable) : Prop where
  symbols : ∀ frame ∈ table.frames, ∀ symbol ∈ frame,
    ∃ entry ∈ table.log, entry.symbol = symbol
  names : ∀ entry ∈ table.log, Name.fault? entry.symbol.name.toList = none

theorem logged_empty : empty.Logged where
  symbols := by
    intro frame member symbol present
    cases member with
    | head => cases present
    | tail _ member => cases member
  names := by
    intro entry member
    cases member

theorem Logged.enter {table : SymbolTable} (logged : table.Logged) : table.enter.Logged where
  symbols := by
    intro frame member symbol present
    rw [frames_enter] at member
    rcases List.mem_cons.mp member with rfl | outer
    · cases present
    · exact logged.symbols frame outer symbol present
  names := logged.names

theorem frames_leave_subset (table : SymbolTable) : table.leave.frames ⊆ table.frames := by
  cases table with
  | mk inner global log =>
      cases inner with
      | nil => exact List.Subset.refl _
      | cons frame inner => exact List.subset_cons_self _ _

theorem Logged.leave {table : SymbolTable} (logged : table.Logged) : table.leave.Logged where
  symbols := by
    intro frame member
    exact logged.symbols frame (frames_leave_subset table member)
  names := logged.names

theorem Logged.extended {table : SymbolTable} (logged : table.Logged) {symbol : Symbol}
    (valid : Name.fault? symbol.name.toList = none) : (table.extended symbol).Logged where
  symbols := by
    intro frame member other present
    rw [frames_extended] at member
    rcases List.mem_cons.mp member with rfl | below
    · rcases List.mem_cons.mp present with rfl | earlier
      · exact ⟨_, List.mem_cons_self, rfl⟩
      · have top : table.top ∈ table.frames := by
          rw [frames_eq_top_cons]
          exact List.mem_cons_self
        obtain ⟨entry, stored, same⟩ := logged.symbols table.top top other earlier
        exact ⟨entry, List.mem_cons_of_mem _ stored, same⟩
    · obtain ⟨entry, stored, same⟩ :=
        logged.symbols frame (List.mem_of_mem_tail below) other present
      exact ⟨entry, List.mem_cons_of_mem _ stored, same⟩
  names := by
    intro entry member
    rcases List.mem_cons.mp member with rfl | earlier
    · exact valid
    · exact logged.names entry earlier

/-- A symbol that a name means is in the log. -/
theorem Logged.find? {table : SymbolTable} (logged : table.Logged) {name : String}
    {symbol : Symbol} (found : table.find? name = some symbol) :
    (∃ entry ∈ table.log, entry.symbol = symbol) ∧ symbol.name = name := by
  obtain ⟨⟨frame, member, present⟩, named⟩ := mem_of_find? found
  exact ⟨logged.symbols frame member symbol present, named⟩

/-- What one statement may do to the log. -/
def Records (before after : SymbolTable) : Prop :=
  before.log <:+ after.log ∧ (before.Logged → after.Logged)

theorem Records.refl (table : SymbolTable) : Records table table :=
  ⟨List.suffix_refl _, id⟩

theorem Records.trans {before middle after : SymbolTable} (first : Records before middle)
    (second : Records middle after) : Records before after :=
  ⟨first.1.trans second.1, fun logged => second.2 (first.2 logged)⟩

/-- A block records what stands inside it. -/
theorem Records.leave {table inside : SymbolTable} (records : Records table.enter inside) :
    Records table inside.leave :=
  ⟨records.1, fun logged => (records.2 logged.enter).leave⟩

theorem records_introduce (table : SymbolTable) {name : Ident} {symbol : Symbol}
    (named : symbol.name = name.name) : Records table (table.introduce name symbol).table := by
  cases refused : table.refusal? name with
  | some fault =>
      rw [introduce_of_refused refused]
      exact .refl table
  | none =>
      have valid := ((refusal?_eq_none_iff table name).mp refused).1
      rw [introduce_of_free named refused]
      exact ⟨List.suffix_cons _ _, fun logged => logged.extended (named ▸ valid)⟩

theorem records_check_array (table : SymbolTable) (name : Ident) (element : DataType)
    (size : String) (position : Position) :
    Records table (table.checkArray name element size position).table := by
  cases parsed : Size.positive? size.toList with
  | some count =>
      rw [table.check_array_of_size name element position parsed]
      exact table.records_introduce rfl
  | none =>
      obtain ⟨fault, unchanged⟩ := table.check_array_of_bad_size name element position parsed
      rw [unchanged]
      exact .refl table

end SymbolTable

open SymbolTable

mutual

theorem Stmt.records_check (stmt : Stmt) (table : SymbolTable) :
    Records table (stmt.check table).table := by
  match stmt with
  | .scalar name type place => exact table.records_introduce rfl
  | .array name element size position place =>
      exact table.records_check_array name element size position
  | .constant name type position value place => exact table.records_introduce rfl
  | .assign .. | .input .. | .output .. => exact .refl table
  | .ifThen condition body place => exact (Stmt.records_check_all body table.enter).leave
  | .ifElse condition body otherwise place =>
      exact (Stmt.records_check_all body table.enter).leave.trans
        (Stmt.records_check_all otherwise _).leave
  | .doWhile body condition place => exact (Stmt.records_check_all body table.enter).leave
  | .forLoop counter first last step body place =>
      exact (Stmt.records_check_all body table.enter).leave

theorem Stmt.records_check_all (stmts : List Stmt) (table : SymbolTable) :
    Records table (Stmt.checkAll table stmts).table := by
  match stmts with
  | [] => exact .refl table
  | first :: rest => exact (first.records_check table).trans (Stmt.records_check_all rest _)

end

theorem Program.logged_check (program : Program) : program.check.table.Logged :=
  (Stmt.records_check_all program .empty).2 logged_empty

end ThreeAddress
