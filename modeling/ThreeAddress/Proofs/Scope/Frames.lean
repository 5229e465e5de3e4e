import ThreeAddress.Check.Statement

/-!
# The frames of a symbol table during a check

A statement changes at most the innermost frame, by one symbol whose name is new there; a block
leaves the frames around it as they were. So no frame ever has two symbols of one name.
-/

namespace ThreeAddress

set_option autoImplicit false

theorem Frame.find?_eq_none_iff (frame : Frame) (name : String) :
    frame.find? name = none ↔ ∀ symbol ∈ frame, symbol.name ≠ name := by
  simp [Frame.find?, List.find?_eq_none]

/-- Where names are distinct, a name finds every symbol that has it. -/
theorem Frame.find?_eq_some_iff {frame : Frame} (distinct : (frame.map Symbol.name).Nodup)
    (name : String) (symbol : Symbol) :
    frame.find? name = some symbol ↔ symbol ∈ frame ∧ symbol.name = name := by
  constructor
  · intro found
    exact ⟨List.mem_of_find?_eq_some found, by simpa using List.find?_some found⟩
  · rintro ⟨member, rfl⟩
    induction frame with
    | nil => cases member
    | cons first rest ih =>
        rw [List.map_cons, List.nodup_cons] at distinct
        rcases List.mem_cons.mp member with rfl | later
        · simp [Frame.find?]
        · have other : first.name ≠ symbol.name := by
            intro same
            exact distinct.1 (same ▸ List.mem_map_of_mem later)
          rw [Frame.find?, List.find?_cons_of_neg (by simpa using other)]
          exact ih distinct.2 later

namespace SymbolTable

theorem frames_eq_top_cons (table : SymbolTable) :
    table.frames = table.top :: table.frames.tail := by
  cases table with
  | mk inner global log => cases inner <;> rfl

@[simp] theorem frames_enter (table : SymbolTable) : table.enter.frames = [] :: table.frames := rfl

theorem frames_push (table : SymbolTable) (symbol : Symbol) :
    (table.push symbol).frames = (symbol :: table.top) :: table.frames.tail := by
  cases table with
  | mk inner global log => cases inner <;> rfl

/-- Leaving a scope that was entered gives back the frames around it. -/
theorem frames_leave {table outer : SymbolTable} (within : table.frames.tail = outer.frames) :
    table.leave.frames = outer.frames := by
  cases table with
  | mk inner global log =>
      cases inner with
      | cons frame inner => exact within
      | nil =>
          rw [frames_eq_top_cons outer] at within
          cases within

/-- No frame has two symbols of one name. -/
def Distinct (table : SymbolTable) : Prop :=
  ∀ frame ∈ table.frames, (frame.map Symbol.name).Nodup

theorem distinct_empty : empty.Distinct := by
  intro frame member
  cases member with
  | head => exact List.nodup_nil
  | tail _ member => cases member

/-- What one statement may do to the frames. -/
def Evolves (before after : SymbolTable) : Prop :=
  after.frames.tail = before.frames.tail ∧ (before.Distinct → after.Distinct)

theorem Evolves.refl (table : SymbolTable) : Evolves table table :=
  ⟨rfl, id⟩

theorem Evolves.trans {before middle after : SymbolTable} (first : Evolves before middle)
    (second : Evolves middle after) : Evolves before after :=
  ⟨second.1.trans first.1, fun distinct => second.2 (first.2 distinct)⟩

theorem evolves_of_frames_eq {before after : SymbolTable} (same : after.frames = before.frames) :
    Evolves before after := by
  constructor
  · rw [same]
  · intro distinct
    rw [Distinct, same]
    exact distinct

theorem Distinct.enter {table : SymbolTable} (distinct : table.Distinct) :
    table.enter.Distinct := by
  intro frame member
  rw [frames_enter] at member
  rcases List.mem_cons.mp member with rfl | outer
  · exact List.nodup_nil
  · exact distinct frame outer

/-- A block gives back the frames around it. -/
theorem Evolves.frames_leave {table inside : SymbolTable} (evolves : Evolves table.enter inside) :
    inside.leave.frames = table.frames :=
  SymbolTable.frames_leave evolves.1

theorem find_here?_eq_none_iff (table : SymbolTable) (name : String) :
    table.findHere? name = none ↔ ∀ symbol ∈ table.top, symbol.name ≠ name :=
  Frame.find?_eq_none_iff table.top name

def extended (table : SymbolTable) (symbol : Symbol) : SymbolTable :=
  { table.push symbol with log := ⟨symbol, table.depth⟩ :: table.log }

theorem frames_extended (table : SymbolTable) (symbol : Symbol) :
    (table.extended symbol).frames = (symbol :: table.top) :: table.frames.tail :=
  table.frames_push symbol

theorem declare_of_free {table : SymbolTable} {symbol : Symbol}
    (free : table.findHere? symbol.name = none) :
    table.declare symbol = .ok (table.extended symbol) := by
  rw [declare, free]
  rfl

theorem evolves_extended {table : SymbolTable} {symbol : Symbol}
    (free : table.findHere? symbol.name = none) : Evolves table (table.extended symbol) := by
  constructor
  · rw [frames_extended]
    rfl
  · intro distinct frame member
    rw [frames_extended] at member
    have top : table.top ∈ table.frames := by
      rw [frames_eq_top_cons]
      exact List.mem_cons_self
    rcases List.mem_cons.mp member with rfl | below
    · rw [List.map_cons, List.nodup_cons]
      refine ⟨?_, distinct table.top top⟩
      intro taken
      obtain ⟨other, present, same⟩ := List.mem_map.mp taken
      exact (find_here?_eq_none_iff table symbol.name).mp free other present same
    · exact distinct frame (List.mem_of_mem_tail below)

theorem refusal?_eq_none_iff (table : SymbolTable) (name : Ident) :
    table.refusal? name = none ↔
      Name.fault? name.name.toList = none ∧ table.findHere? name.name = none := by
  cases broken : Name.fault? name.name.toList with
  | some fault => simp [refusal?, broken]
  | none => simp [refusal?, broken]

theorem register_of_free {table : SymbolTable} {name : Ident} {symbol : Symbol}
    (free : table.findHere? symbol.name = none) :
    table.register name symbol = ⟨table.extended symbol, []⟩ := by
  rw [register, declare_of_free free]

theorem introduce_of_refused {table : SymbolTable} {name : Ident} {fault : Fault}
    (refused : table.refusal? name = some fault) (symbol : Symbol) :
    table.introduce name symbol = ⟨table, [fault]⟩ := by
  rw [introduce, refused]

theorem introduce_of_free {table : SymbolTable} {name : Ident} {symbol : Symbol}
    (named : symbol.name = name.name) (free : table.refusal? name = none) :
    table.introduce name symbol = ⟨table.extended symbol, []⟩ := by
  have here := ((refusal?_eq_none_iff table name).mp free).2
  rw [introduce, free]
  exact register_of_free (named ▸ here)

theorem evolves_introduce (table : SymbolTable) {name : Ident} {symbol : Symbol}
    (named : symbol.name = name.name) :
    Evolves table (table.introduce name symbol).table := by
  cases refused : table.refusal? name with
  | some fault =>
      rw [introduce_of_refused refused]
      exact .refl table
  | none =>
      have here := ((refusal?_eq_none_iff table name).mp refused).2
      rw [introduce_of_free named refused]
      exact evolves_extended (named ▸ here)

/-- An array with a good size is declared as any other name is. -/
theorem check_array_of_size (table : SymbolTable) (name : Ident) (element : DataType)
    {size : String} (position : Position) {count : Nat}
    (parsed : Size.positive? size.toList = some count) :
    table.checkArray name element size position =
      table.introduce name
        (.array name.name (.array element) count name.place.position) := by
  rw [checkArray, introduce, parsed]

theorem check_array_of_bad_size (table : SymbolTable) (name : Ident) (element : DataType)
    {size : String} (position : Position) (parsed : Size.positive? size.toList = none) :
    ∃ fault, table.checkArray name element size position = ⟨table, [fault]⟩ := by
  cases refused : table.refusal? name with
  | some fault => exact ⟨fault, by rw [checkArray, refused]⟩
  | none => exact ⟨.badSize name size position, by rw [checkArray, refused, parsed]⟩

theorem evolves_check_array (table : SymbolTable) (name : Ident) (element : DataType)
    (size : String) (position : Position) :
    Evolves table (table.checkArray name element size position).table := by
  cases parsed : Size.positive? size.toList with
  | some count =>
      rw [table.check_array_of_size name element position parsed]
      exact table.evolves_introduce rfl
  | none =>
      obtain ⟨fault, unchanged⟩ := table.check_array_of_bad_size name element position parsed
      rw [unchanged]
      exact .refl table

end SymbolTable

open SymbolTable

mutual

theorem Stmt.evolves_check (stmt : Stmt) (table : SymbolTable) :
    Evolves table (stmt.check table).table := by
  match stmt with
  | .scalar name type place => exact table.evolves_introduce rfl
  | .array name element size position place =>
      exact table.evolves_check_array name element size position
  | .constant name type position value place => exact table.evolves_introduce rfl
  | .assign .. | .input .. | .output .. => exact .refl table
  | .ifThen condition body place =>
      exact evolves_of_frames_eq (Stmt.evolves_check_all body table.enter).frames_leave
  | .ifElse condition body otherwise place =>
      have inside := (Stmt.evolves_check_all body table.enter).frames_leave
      have other := (Stmt.evolves_check_all otherwise
        (Stmt.checkAll table.enter body).table.leave.enter).frames_leave
      exact evolves_of_frames_eq (other.trans inside)
  | .doWhile body condition place =>
      exact evolves_of_frames_eq (Stmt.evolves_check_all body table.enter).frames_leave
  | .forLoop counter first last step body place =>
      exact evolves_of_frames_eq (Stmt.evolves_check_all body table.enter).frames_leave

theorem Stmt.evolves_check_all (stmts : List Stmt) (table : SymbolTable) :
    Evolves table (Stmt.checkAll table stmts).table := by
  match stmts with
  | [] => exact .refl table
  | first :: rest =>
      exact (first.evolves_check table).trans (Stmt.evolves_check_all rest _)

end

end ThreeAddress
