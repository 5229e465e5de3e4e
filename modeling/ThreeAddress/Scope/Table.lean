import ThreeAddress.Scope.ValueType
import ThreeAddress.Text.Pad

/-!
# Symbols and scopes

A symbol table is a stack of frames over a global frame that is always there. A declaration goes
into the innermost frame; a name means the symbol of the innermost frame that has one. Apart from
the frames the table keeps a log of all declarations, which leaving a scope does not shorten.
-/

namespace ThreeAddress

set_option autoImplicit false

structure Symbol where
  name : String
  type : ValueType
  isConstant : Bool
  /-- The number of elements of an array. -/
  size : Option Nat
  declaredAt : Position
deriving DecidableEq

namespace Symbol

def scalar (name : String) (type : ValueType) (declaredAt : Position) : Symbol :=
  ⟨name, type, false, none, declaredAt⟩

def constant (name : String) (type : ValueType) (declaredAt : Position) : Symbol :=
  ⟨name, type, true, none, declaredAt⟩

def array (name : String) (type : ValueType) (size : Nat) (declaredAt : Position) : Symbol :=
  ⟨name, type, false, some size, declaredAt⟩

def role (symbol : Symbol) : String :=
  if symbol.isConstant then "constant"
  else if symbol.size.isSome then "array"
  else "variable"

end Symbol

/-- The symbols of one scope, the latest first. -/
abbrev Frame := List Symbol

def Frame.find? (frame : Frame) (name : String) : Option Symbol :=
  List.find? (·.name == name) frame

/-- A declaration and the number of scopes that were open around it. -/
structure Declaration where
  symbol : Symbol
  depth : Nat
deriving DecidableEq

/-- A symbol of the same name stands in the innermost scope. -/
structure Clash where
  name : String
deriving DecidableEq

def Clash.message (clash : Clash) : String :=
  s!"symbol '{clash.name}' already declared in this scope"

structure SymbolTable where
  /-- The frames of the open scopes, the innermost first. -/
  inner : List Frame
  global : Frame
  /-- All declarations, the latest first. -/
  log : List Declaration
deriving DecidableEq

namespace SymbolTable

def empty : SymbolTable := ⟨[], [], []⟩

def depth (table : SymbolTable) : Nat :=
  table.inner.length

def enter (table : SymbolTable) : SymbolTable :=
  { table with inner := [] :: table.inner }

/-- Leaves the innermost scope; the global scope is never left. -/
def leave (table : SymbolTable) : SymbolTable :=
  { table with inner := table.inner.tail }

def top (table : SymbolTable) : Frame :=
  table.inner.headD table.global

def frames (table : SymbolTable) : List Frame :=
  table.inner ++ [table.global]

def findHere? (table : SymbolTable) (name : String) : Option Symbol :=
  table.top.find? name

def find? (table : SymbolTable) (name : String) : Option Symbol :=
  table.frames.findSome? (·.find? name)

def push (table : SymbolTable) (symbol : Symbol) : SymbolTable :=
  match table.inner with
  | [] => { table with global := symbol :: table.global }
  | frame :: outer => { table with inner := (symbol :: frame) :: outer }

def declare (table : SymbolTable) (symbol : Symbol) : Except Clash SymbolTable :=
  match table.findHere? symbol.name with
  | some _ => .error ⟨symbol.name⟩
  | none =>
      .ok { table.push symbol with log := ⟨symbol, table.depth⟩ :: table.log }

def declarations (table : SymbolTable) : List Declaration :=
  table.log.reverse

def row (name type role depth position size : String) : String :=
  let cells := Text.padRight 16 name ++ Text.padRight 12 type ++ Text.padRight 10 role ++
    Text.padRight 7 depth
  if size = "" then cells ++ position else cells ++ Text.padRight 10 position ++ size

def entryRow (entry : Declaration) : String :=
  row entry.symbol.name entry.symbol.type.text entry.symbol.role (toString entry.depth)
    entry.symbol.declaredAt.text
    (match entry.symbol.size with
      | some size => s!"size={size}"
      | none => "")

def text (table : SymbolTable) : String :=
  Text.lines (row "NAME" "TYPE" "KIND" "DEPTH" "LINE:COL" "SIZE" ::
    table.declarations.map entryRow)

end SymbolTable

end ThreeAddress
