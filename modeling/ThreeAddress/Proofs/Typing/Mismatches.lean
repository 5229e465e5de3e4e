import ThreeAddress.Proofs.Scope.Faults
import ThreeAddress.Proofs.Typing.Sites

/-!
# Where types can disagree

The check of an expression always finds a number, so four of its reports are about values that no
expression has. The rules below say which expressions and which statements have types that
disagree, and what is then told. Main statement: the reports about array values are never made, and
the mismatches found in a program are those that the rules give for its statements, each in the
table that the check has reached there.
-/

namespace ThreeAddress

set_option autoImplicit false

open SymbolTable

/-! ## The rules -/

/-- An expression has a part whose type is wrong in its place, and the fault tells so. What stands
as an index is only looked at if it belongs to an array. -/
inductive Expr.Mismatch (table : SymbolTable) : Expr → Fault → Prop
  | bareArray {name : String} {place : Place} {symbol : Symbol} {element : DataType} :
      table.find? name = some symbol → symbol.type = .array element →
      Mismatch table (.identifier name place) (.bareArray ⟨name, place⟩)
  | notArray {array : Ident} {index : Expr} {place : Place} {symbol : Symbol} {type : DataType} :
      table.find? array.name = some symbol → symbol.type = .scalar type →
      Mismatch table (.element array index place) (.notArray array)
  | index {array : Ident} {index : Expr} {place : Place} {symbol : Symbol} {element : DataType} :
      table.find? array.name = some symbol → symbol.type = .array element →
      index.countsAs table = .float →
      Mismatch table (.element array index place) (.indexType array .float index.place)
  | inIndex {array : Ident} {index : Expr} {place : Place} {symbol : Symbol} {element : DataType}
      {fault : Fault} :
      table.find? array.name = some symbol → symbol.type = .array element →
      Mismatch table index fault → Mismatch table (.element array index place) fault
  | inParen {inner : Expr} {place : Place} {fault : Fault} :
      Mismatch table inner fault → Mismatch table (.paren inner place) fault
  | inNegate {inner : Expr} {place : Place} {fault : Fault} :
      Mismatch table inner fault → Mismatch table (.negate inner place) fault
  | inLeft {op : BinaryOp} {left right : Expr} {place : Place} {fault : Fault} :
      Mismatch table left fault → Mismatch table (.binary op left right place) fault
  | inRight {op : BinaryOp} {left right : Expr} {place : Place} {fault : Fault} :
      Mismatch table right fault → Mismatch table (.binary op left right place) fault

/-- A statement itself, not one in its blocks, has types that disagree, and the fault tells so. -/
inductive Stmt.Mismatch (table : SymbolTable) : Stmt → Fault → Prop
  | inConstant {name : Ident} {type : DataType} {position : Position} {value : Expr}
      {place : Place} {fault : Fault} :
      value.Mismatch table fault → Mismatch table (.constant name type position value place) fault
  | constant {name : Ident} {position : Position} {value : Expr} {place : Place} :
      value.countsAs table = .float →
      Mismatch table (.constant name .int position value place)
        (.constantValue name .int position .float value.place.span)
  | inAssign {target : Ident} {value : Expr} {place : Place} {symbol : Symbol} {fault : Fault} :
      table.find? target.name = some symbol → value.Mismatch table fault →
      Mismatch table (.assign target value place) fault
  | assign {target : Ident} {value : Expr} {place : Place} {symbol : Symbol} :
      table.find? target.name = some symbol → ¬ symbol.type.Takes (value.countsAs table) →
      Mismatch table (.assign target value place)
        (.assignedType target symbol.type (.scalar (value.countsAs table)) value.place.span)
  | ifThen {condition : Cond} {body : List Stmt} {place : Place} {side : Expr} {fault : Fault} :
      side ∈ condition.sides → side.Mismatch table fault →
      Mismatch table (.ifThen condition body place) fault
  | ifElse {condition : Cond} {body otherwise : List Stmt} {place : Place} {side : Expr}
      {fault : Fault} :
      side ∈ condition.sides → side.Mismatch table fault →
      Mismatch table (.ifElse condition body otherwise place) fault
  | doWhile {body : List Stmt} {condition : Cond} {place : Place} {side : Expr} {fault : Fault} :
      side ∈ condition.sides →
      side.Mismatch (Stmt.checkAll table.enter body).table fault →
      Mismatch table (.doWhile body condition place) fault
  | counter {counter : Ident} {first last step : Expr} {body : List Stmt} {place : Place}
      {symbol : Symbol} :
      table.find? counter.name = some symbol → symbol.type ≠ .int →
      Mismatch table (.forLoop counter first last step body place)
        (.counterType counter symbol.type)
  | bound {counter : Ident} {first last step bound : Expr} {body : List Stmt} {place : Place}
      {fault : Fault} :
      bound ∈ [first, last, step] → bound.Mismatch table.enter fault →
      Mismatch table (.forLoop counter first last step body place) fault

/-! ## The check follows the rules -/

namespace Fault

def mismatches (faults : List Fault) : List Fault :=
  faults.filter fun fault => fault.kind = .typeMismatch

@[simp] theorem mismatches_append (front back : List Fault) :
    mismatches (front ++ back) = mismatches front ++ mismatches back :=
  List.filter_append ..

theorem mem_mismatches_iff {fault : Fault} {faults : List Fault} :
    fault ∈ mismatches faults ↔ fault ∈ faults ∧ fault.kind = .typeMismatch := by
  simp [mismatches]

theorem mismatches_eq_nil {kinds : List DiagnosticKind} {faults : List Fault}
    (among : Among kinds faults) (other : .typeMismatch ∉ kinds) : mismatches faults = [] := by
  rw [List.eq_nil_iff_forall_not_mem]
  intro fault found
  obtain ⟨reported, kind⟩ := mem_mismatches_iff.mp found
  exact among.not_mem kind other reported

/-- A condition that has to hold, and the mismatch that is told where it does not. -/
theorem mem_mismatches_demand {condition : Prop} [Decidable condition] {fault : Fault}
    (told : Fault) (kind : told.kind = .typeMismatch) :
    fault ∈ mismatches (if condition then [] else [told]) ↔ ¬ condition ∧ fault = told := by
  by_cases holds : condition
  · simp [holds, mismatches]
  · simp [holds, mismatches, kind]

end Fault

open Fault

theorem ValueType.scalar_ne_int_iff (type : DataType) :
    ¬ ValueType.scalar type = .int ↔ type = .float := by
  cases type <;> decide

/-- An `Int` does not take a `Float`; every other number is taken. -/
theorem ValueType.not_takes_scalar_iff (type found : DataType) :
    ¬ (ValueType.scalar type).Takes found ↔ type = .int ∧ found = .float := by
  rw [← ValueType.accepts_iff]
  cases type <;> cases found <;> decide

section Expressions

variable {table : SymbolTable} {fault : Fault}

theorem SymbolTable.mem_mismatches_check_name (name : String) (place : Place) :
    fault ∈ mismatches (table.checkName ⟨name, place⟩).faults ↔
      (Expr.identifier name place).Mismatch table fault := by
  rw [checkName]
  constructor
  · intro found
    cases resolved : table.find? name with
    | none =>
        rw [resolved] at found
        cases found
    | some symbol =>
        rw [resolved] at found
        cases type : symbol.type with
        | scalar element =>
            simp only [type, ValueType.isArray] at found
            cases found
        | array element =>
            simp only [type, ValueType.isArray] at found
            cases List.mem_singleton.mp found
            exact .bareArray resolved type
  · intro mismatch
    cases mismatch with
    | bareArray resolved type =>
        simp only [resolved, type, ValueType.isArray]
        exact List.mem_singleton_self _

theorem Expr.mem_mismatches_check_element (array : Ident) {index : Expr} (place : Place)
    (ih : fault ∈ mismatches (index.check table).faults ↔ index.Mismatch table fault) :
    fault ∈ mismatches ((Expr.element array index place).check table).faults ↔
      (Expr.element array index place).Mismatch table fault := by
  rw [Expr.check]
  cases resolved : table.find? array.name with
  | none =>
      constructor
      · intro found
        cases found
      · intro mismatch
        cases mismatch with
        | notArray same _ | index same _ _ | inIndex same _ _ =>
            rw [resolved] at same
            cases same
  | some symbol =>
      cases type : symbol.type with
      | scalar element =>
          simp only [type, ValueType.element?]
          constructor
          · intro found
            cases List.mem_singleton.mp found
            exact .notArray resolved type
          · intro mismatch
            cases mismatch with
            | notArray _ _ => exact List.mem_singleton_self _
            | index same kind _ | inIndex same kind _ =>
                rw [resolved] at same
                cases same
                rw [type] at kind
                cases kind
      | array element =>
          simp only [type, ValueType.element?, mismatches_append, List.mem_append, ih,
            index.check_type, ValueType.scalar_ne_int_iff, mem_mismatches_demand
              (.indexType array (.scalar (index.countsAs table)) index.place) rfl]
          constructor
          · rintro (inside | ⟨float, rfl⟩)
            · exact .inIndex resolved type inside
            · rw [float]
              exact .index resolved type float
          · intro mismatch
            cases mismatch with
            | notArray same kind =>
                rw [resolved] at same
                cases same
                rw [type] at kind
                cases kind
            | index _ _ float =>
                rw [float]
                exact .inr ⟨rfl, rfl⟩
            | inIndex _ _ inside => exact .inl inside

/-- The mismatches that the check of an expression finds are those that the rules give. -/
theorem Expr.mem_mismatches_check (expr : Expr) :
    fault ∈ mismatches (expr.check table).faults ↔ expr.Mismatch table fault := by
  induction expr with
  | integer text place | float text place =>
      constructor
      · intro found
        cases found
      · intro mismatch
        cases mismatch
  | identifier name place => exact mem_mismatches_check_name name place
  | element array index place ih => exact Expr.mem_mismatches_check_element array place ih
  | paren inner place ih =>
      rw [Expr.check, ih]
      constructor
      · exact .inParen
      · intro mismatch
        cases mismatch with
        | inParen inside => exact inside
  | negate inner place ih =>
      rw [Expr.check_negate, ih]
      constructor
      · exact .inNegate
      · intro mismatch
        cases mismatch with
        | inNegate inside => exact inside
  | binary op left right place ihLeft ihRight =>
      rw [Expr.check_binary (left.check_type table) (right.check_type table)]
      have divisor := mismatches_eq_nil (op.kinds_check_divisor right) (by decide)
      simp only [mismatches_append, divisor, List.append_nil, List.mem_append, ihLeft, ihRight]
      constructor
      · rintro (inside | inside)
        · exact .inLeft inside
        · exact .inRight inside
      · intro mismatch
        cases mismatch with
        | inLeft inside => exact .inl inside
        | inRight inside => exact .inr inside

theorem Cond.mem_mismatches_check (cond : Cond) :
    fault ∈ mismatches (cond.check table) ↔ ∃ side ∈ cond.sides, side.Mismatch table fault := by
  induction cond with
  | compare op position left right place =>
      simp [Cond.check_compare, Cond.sides, Expr.mem_mismatches_check]
  | and left right place ihLeft ihRight | or left right place ihLeft ihRight =>
      rw [Cond.check, Cond.sides, mismatches_append, List.mem_append, ihLeft, ihRight]
      constructor
      · rintro (⟨side, compared, mismatch⟩ | ⟨side, compared, mismatch⟩)
        · exact ⟨side, List.mem_append_left _ compared, mismatch⟩
        · exact ⟨side, List.mem_append_right _ compared, mismatch⟩
      · rintro ⟨side, compared, mismatch⟩
        rcases List.mem_append.mp compared with first | second
        · exact .inl ⟨side, first, mismatch⟩
        · exact .inr ⟨side, second, mismatch⟩
  | not inner place ih | paren inner place ih => exact ih

end Expressions

section Statements

variable {table : SymbolTable} {fault : Fault}

theorem SymbolTable.mem_mismatches_check_constant (name : Ident) (type : DataType)
    (position : Position) (value : Expr) (place : Place) :
    fault ∈ mismatches (table.checkConstant name type position value).faults ↔
      (Stmt.constant name type position value place).Mismatch table fault := by
  have declaring (symbol : Symbol) : mismatches (table.introduce name symbol).faults = [] :=
    mismatches_eq_nil (table.kinds_introduce name symbol) (by decide)
  simp only [checkConstant, mismatches_append, declaring, List.append_nil,
    List.mem_append, value.mem_mismatches_check, value.check_type, ValueType.accepts_iff,
    ValueType.not_takes_scalar_iff, mem_mismatches_demand (.constantValue name (.scalar type)
      position (.scalar (value.countsAs table)) value.place.span) rfl]
  constructor
  · rintro (inside | ⟨⟨rfl, float⟩, rfl⟩)
    · exact .inConstant inside
    · rw [float]
      exact .constant float
  · intro mismatch
    cases mismatch with
    | inConstant inside => exact .inl inside
    | constant float =>
        rw [float]
        exact .inr ⟨⟨rfl, rfl⟩, rfl⟩

theorem SymbolTable.mem_mismatches_check_assign (target : Ident) (value : Expr) (place : Place) :
    fault ∈ mismatches (table.checkAssign target value) ↔
      (Stmt.assign target value place).Mismatch table fault := by
  rw [checkAssign]
  cases resolved : table.find? target.name with
  | none =>
      constructor
      · intro reported
        cases reported
      · intro mismatch
        cases mismatch with
        | inAssign same _ | assign same _ =>
            rw [resolved] at same
            cases same
  | some symbol =>
      have constant : mismatches (if symbol.isConstant then [assignedConstant target] else []) =
          [] := by
        split <;> rfl
      simp only [mismatches_append, constant, List.nil_append, List.mem_append,
        value.mem_mismatches_check, value.check_type, ValueType.accepts_iff,
        mem_mismatches_demand (.assignedType target symbol.type (.scalar (value.countsAs table))
          value.place.span) rfl]
      constructor
      · rintro (inside | ⟨refused, rfl⟩)
        · exact .inAssign resolved inside
        · exact .assign resolved refused
      · intro mismatch
        cases mismatch with
        | inAssign _ inside => exact .inl inside
        | assign same refused =>
            rw [resolved] at same
            cases same
            exact .inr ⟨refused, rfl⟩

theorem SymbolTable.mem_mismatches_check_counter (counter : Ident) :
    fault ∈ mismatches (table.checkCounter counter) ↔
      ∃ symbol, table.find? counter.name = some symbol ∧ symbol.type ≠ .int ∧
        fault = .counterType counter symbol.type := by
  rw [checkCounter]
  cases resolved : table.find? counter.name with
  | none =>
      constructor
      · intro reported
        cases reported
      · rintro ⟨symbol, same, _⟩
        cases same
  | some symbol =>
      have constant : mismatches (if symbol.isConstant then [counterConstant counter] else []) =
          [] := by
        split <;> rfl
      simp only [mismatches_append, constant, List.nil_append, Option.some.injEq,
        exists_eq_left', ne_eq, mem_mismatches_demand (.counterType counter symbol.type) rfl]

/-- The mismatches found in a statement itself are those that the rules give. -/
theorem Stmt.mem_mismatches_own_faults (stmt : Stmt) :
    fault ∈ mismatches (stmt.ownFaults table) ↔ stmt.Mismatch table fault := by
  -- Nothing that has a type is written in these statements.
  have untyped {kinds : List DiagnosticKind} (among : Among kinds (stmt.ownFaults table))
      (other : .typeMismatch ∉ kinds) (none : ¬ stmt.Mismatch table fault) :
      fault ∈ mismatches (stmt.ownFaults table) ↔ stmt.Mismatch table fault := by
    rw [mismatches_eq_nil among other]
    exact iff_of_false List.not_mem_nil none
  cases stmt with
  | scalar name type place =>
      exact untyped (table.kinds_introduce name _) (by decide) fun mismatch => by cases mismatch
  | array name element size position place =>
      exact untyped (table.kinds_check_array name element size position) (by decide)
        fun mismatch => by cases mismatch
  | input target place =>
      exact untyped (table.kinds_check_input target) (by decide) fun mismatch => by cases mismatch
  | output position names place =>
      exact untyped (table.kinds_check_output names) (by decide) fun mismatch => by cases mismatch
  | constant name type position value place =>
      exact mem_mismatches_check_constant name type position value place
  | assign target value place => exact mem_mismatches_check_assign target value place
  | ifThen condition body place =>
      rw [Stmt.ownFaults, condition.mem_mismatches_check]
      constructor
      · rintro ⟨side, compared, mismatch⟩
        exact .ifThen compared mismatch
      · intro mismatch
        cases mismatch with
        | ifThen compared mismatch => exact ⟨_, compared, mismatch⟩
  | ifElse condition body otherwise place =>
      rw [Stmt.ownFaults, condition.mem_mismatches_check]
      constructor
      · rintro ⟨side, compared, mismatch⟩
        exact .ifElse compared mismatch
      · intro mismatch
        cases mismatch with
        | ifElse compared mismatch => exact ⟨_, compared, mismatch⟩
  | doWhile body condition place =>
      rw [Stmt.ownFaults, condition.mem_mismatches_check]
      constructor
      · rintro ⟨side, compared, mismatch⟩
        exact .doWhile compared mismatch
      · intro mismatch
        cases mismatch with
        | doWhile compared mismatch => exact ⟨_, compared, mismatch⟩
  | forLoop counter first last step body place =>
      simp only [Stmt.ownFaults, mismatches_append, List.mem_append, mem_mismatches_check_counter,
        check_bound_eq, Expr.mem_mismatches_check]
      constructor
      · rintro (((⟨symbol, resolved, other, rfl⟩ | mismatch) | mismatch) | mismatch)
        · exact .counter resolved other
        · exact .bound (.head _) mismatch
        · exact .bound (.tail _ (.head _)) mismatch
        · exact .bound (.tail _ (.tail _ (.head _))) mismatch
      · intro mismatch
        cases mismatch with
        | counter resolved other => exact .inl (.inl (.inl ⟨_, resolved, other, rfl⟩))
        | bound member mismatch =>
            simp only [List.mem_cons, List.not_mem_nil, or_false] at member
            rcases member with rfl | rfl | rfl
            · exact .inl (.inl (.inr mismatch))
            · exact .inl (.inr mismatch)
            · exact .inr mismatch

end Statements

/-! ## Reports that are never made -/

/-- How the reports begin that tell of an array as a value: as the bound or the step of a loop, as
what is negated, as an operand or as a side of a comparison. -/
def Fault.arrayValueReports : List String :=
  ["loop bound must be numeric", "cannot negate a value of type", "operand of ", "cannot compare "]

def Fault.blamesArrayValue : Fault → Bool
  | .boundType .. | .negatedType .. | .operandType .. | .comparedTypes .. => true
  | _ => false

theorem Expr.Mismatch.blames_array_value {table : SymbolTable} {expr : Expr} {fault : Fault}
    (mismatch : expr.Mismatch table fault) : fault.blamesArrayValue = false := by
  induction mismatch with
  | bareArray | notArray | index => rfl
  | inIndex _ _ _ ih | inParen _ ih | inNegate _ ih | inLeft _ ih | inRight _ ih => exact ih

theorem Stmt.Mismatch.blames_array_value {table : SymbolTable} {stmt : Stmt} {fault : Fault}
    (mismatch : stmt.Mismatch table fault) : fault.blamesArrayValue = false := by
  cases mismatch with
  | constant | assign | counter => rfl
  | inConstant inside | inAssign _ inside | ifThen _ inside | ifElse _ inside
  | doWhile _ inside | bound _ inside => exact inside.blames_array_value

theorem Fault.kind_of_blames_array_value {fault : Fault} (blames : fault.blamesArrayValue = true) :
    fault.kind = .typeMismatch := by
  cases fault with
  | boundType | negatedType | operandType | comparedTypes => rfl
  | _ => cases blames

/-- The text parts from each of the reports about array values before either of them ends. -/
def Fault.Apart (text : String) : Prop :=
  ∀ opening ∈ arrayValueReports,
    ¬ opening.toList <+: text.toList ∧ ¬ text.toList <+: opening.toList

instance Fault.decidableApart : DecidablePred Apart := fun text =>
  inferInstanceAs (Decidable (∀ opening ∈ arrayValueReports,
    ¬ opening.toList <+: text.toList ∧ ¬ text.toList <+: opening.toList))

/-- Texts that have parted stay apart, however they go on. -/
theorem Fault.Apart.append {text : String} (apart : Apart text) (rest : String) :
    Apart (text ++ rest) := by
  intro opening member
  obtain ⟨shorter, longer⟩ := apart opening member
  have front : text.toList <+: (text ++ rest).toList := by
    rw [String.toList_append]
    exact List.prefix_append _ _
  constructor
  · intro begins
    rcases List.prefix_or_prefix_of_prefix begins front with within | beyond
    · exact shorter within
    · exact longer beyond
  · intro within
    exact longer (front.trans within)

theorem NameFault.message_apart (fault : NameFault) : Fault.Apart fault.message := by
  cases fault with
  | empty | badStart | badCharacter | trailingUnderscore | doubleUnderscore => decide
  | tooLong => exact .append (.append (by decide) _) _

/-- Only a fault about an array value is told as one. Each of the other messages parts from these
reports within the fixed text that it begins with. -/
theorem Fault.message_apart {fault : Fault} (other : fault.blamesArrayValue = false) :
    Apart fault.message := by
  cases fault with
  | boundType | negatedType | operandType | comparedTypes => cases other
  | badName name reason => exact reason.message_apart
  | zeroDivisor divisor =>
      have fixed : Apart "division by a literal zero" := by decide
      exact fixed
  | counterType | indexType => exact .append (by decide) _
  | undeclared | nameClash | badSize | assignedConstant | inputConstant | counterConstant
  | bareArray | notArray => exact .append (.append (by decide) _) _
  | redeclared => exact .append (.append (.append (by decide) _) _) _
  | constantValue | assignedType =>
      exact .append (.append (.append (.append (.append (by decide) _) _) _) _) _

/-! ## The mismatches of a program -/

theorem Stmt.mem_mismatches_check_all (stmts : List Stmt) (table : SymbolTable) (fault : Fault) :
    fault ∈ mismatches (Stmt.checkAll table stmts).faults ↔
      ∃ (around : Surroundings) (stmt : Stmt),
        stmts = around.plug stmt ∧ stmt.Mismatch (around.entry table) fault := by
  rw [mem_mismatches_iff, Stmt.mem_faults_check_all_iff]
  simp only [← Stmt.mem_mismatches_own_faults, mem_mismatches_iff]
  constructor
  · rintro ⟨⟨around, stmt, plugged, site⟩, kind⟩
    exact ⟨around, stmt, plugged, site, kind⟩
  · rintro ⟨around, stmt, plugged, site, kind⟩
    exact ⟨⟨around, stmt, plugged, site⟩, kind⟩

theorem Stmt.blames_array_value_of_mem_check_all {stmts : List Stmt} {table : SymbolTable}
    {fault : Fault} (found : fault ∈ (Stmt.checkAll table stmts).faults) :
    fault.blamesArrayValue = false := by
  cases blames : fault.blamesArrayValue with
  | false => rfl
  | true =>
      have mismatch := mem_mismatches_iff.mpr ⟨found, kind_of_blames_array_value blames⟩
      obtain ⟨around, stmt, _, rule⟩ :=
        (Stmt.mem_mismatches_check_all stmts table fault).mp mismatch
      rw [rule.blames_array_value] at blames
      cases blames

/-- In every table the check gives every expression the type that it counts as, which is one of the
two number types. So a program is never told that one of its values is an array where a number has
to be, and its types mismatch exactly where the rules say so: at a bare array name, an index behind
a name that is no array, an index that is no `Int`, a loop variable that is no `Int`, or a value
that its constant or the target of its assignment cannot take. -/
theorem Program.check_mismatch_sites :
    (∀ (table : SymbolTable) (expr : Expr),
      (expr.check table).type = .scalar (expr.countsAs table) ∧
        ((expr.check table).type = .int ∨ (expr.check table).type = .float)) ∧
    (∀ (program : Program), ∀ fault ∈ program.check.faults, ∀ opening ∈ Fault.arrayValueReports,
      ¬ opening.toList <+: fault.diagnostic.message.toList) ∧
    (∀ (program : Program) (fault : Fault),
      fault ∈ program.check.faults ∧ fault.kind = .typeMismatch ↔
        ∃ (around : Surroundings) (stmt : Stmt),
          program = around.plug stmt ∧ stmt.Mismatch (around.entry .empty) fault) := by
  refine ⟨?_, ?_, ?_⟩
  · intro table expr
    refine ⟨expr.check_type table, ?_⟩
    rw [expr.check_type]
    cases expr.countsAs table with
    | int => exact .inl rfl
    | float => exact .inr rfl
  · intro program fault found opening member
    exact (message_apart (Stmt.blames_array_value_of_mem_check_all found) opening member).1
  · intro program fault
    rw [← mem_mismatches_iff]
    exact Stmt.mem_mismatches_check_all program .empty fault

end ThreeAddress
