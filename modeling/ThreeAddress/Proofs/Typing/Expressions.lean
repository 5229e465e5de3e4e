import ThreeAddress.Proofs.Scope.Frames
import ThreeAddress.Proofs.Typing.Rules

/-!
# Expressions without faults are the expressions with a type

A symbol table stands for the context of its frames, and it finds for a name what the rules say the
name means. Main statements: the check of an expression is faultless and finds a type exactly when
the rules give the expression that type, and a condition has no faults exactly when it is typed.
-/

namespace ThreeAddress

set_option autoImplicit false

def Symbol.binding (symbol : Symbol) : Binding :=
  ⟨symbol.name, ⟨symbol.type, symbol.isConstant⟩⟩

def Frame.context (frames : List Frame) : Context :=
  frames.map fun frame => frame.map Symbol.binding

def SymbolTable.context (table : SymbolTable) : Context :=
  Frame.context table.frames

namespace SymbolTable

@[simp] theorem context_enter (table : SymbolTable) :
    table.enter.context = [] :: table.context := rfl

theorem context_eq_top_cons (table : SymbolTable) :
    table.context = table.top.map Symbol.binding :: Frame.context table.frames.tail := by
  rw [context, frames_eq_top_cons]
  rfl

theorem context_eq_of_frames_eq {table other : SymbolTable} (same : table.frames = other.frames) :
    table.context = other.context := by
  rw [context, same]
  rfl

end SymbolTable

/-- A name means the symbol that the frames find for it. -/
theorem Frame.resolves_context_iff (frames : List Frame)
    (distinct : ∀ frame ∈ frames, (frame.map Symbol.name).Nodup) (name : String) (role : Role) :
    (Frame.context frames).Resolves name role ↔
      ∃ symbol, frames.findSome? (Frame.find? · name) = some symbol ∧
        symbol.binding.role = role := by
  induction frames with
  | nil =>
      constructor
      · intro resolves
        cases resolves
      · rintro ⟨symbol, found, _⟩
        cases found
  | cons frame outer ih =>
      have here := distinct frame List.mem_cons_self
      have rest := ih fun frame member => distinct frame (List.mem_cons_of_mem _ member)
      cases found : frame.find? name with
      | some symbol =>
          have present := (Frame.find?_eq_some_iff here name symbol).mp found
          simp only [List.findSome?_cons, found, Option.some.injEq, exists_eq_left']
          constructor
          · intro resolves
            cases resolves with
            | here member =>
                obtain ⟨other, stored, same⟩ := List.mem_map.mp member
                have named : other.name = name := congrArg Binding.name same
                have twice := (Frame.find?_eq_some_iff here name other).mpr ⟨stored, named⟩
                rw [found] at twice
                cases twice
                rw [same]
            | outside absent _ =>
                exact absurd present.2
                  (absent symbol.binding (List.mem_map_of_mem present.1))
          · rintro rfl
            refine .here (List.mem_map.mpr ⟨symbol, present.1, ?_⟩)
            rw [Symbol.binding, present.2]
      | none =>
          have absent := (Frame.find?_eq_none_iff frame name).mp found
          simp only [List.findSome?_cons, found]
          rw [← rest]
          constructor
          · intro resolves
            cases resolves with
            | here member =>
                obtain ⟨other, stored, same⟩ := List.mem_map.mp member
                exact absurd (congrArg Binding.name same) (absent other stored)
            | outside _ further => exact further
          · intro further
            refine .outside ?_ further
            intro binding member
            obtain ⟨other, stored, rfl⟩ := List.mem_map.mp member
            exact absent other stored

theorem SymbolTable.resolves_iff {table : SymbolTable} (distinct : table.Distinct)
    (name : String) (role : Role) :
    table.context.Resolves name role ↔
      ∃ symbol, table.find? name = some symbol ∧ symbol.binding.role = role :=
  Frame.resolves_context_iff table.frames distinct name role

section Expressions

variable {table : SymbolTable}

theorem Checked.eq_faultless_iff (checked : Checked) (type : ValueType) :
    checked = ⟨type, []⟩ ↔ checked.type = type ∧ checked.faults = [] := by
  cases checked with
  | mk found faults => simp

theorem ValueType.arithmetic_scalar (first second : DataType) :
    ValueType.arithmetic (.scalar first) (.scalar second) = .scalar (first.combine second) := by
  cases first <;> cases second <;> rfl

theorem Expr.is_zero_iff (expr : Expr) : expr.isZero = true ↔ expr.WrittenZero := by
  constructor
  · intro zero
    cases expr with
    | integer text place =>
        have spelled : text = "0" := by simpa [Expr.isZero] using zero
        subst spelled
        exact .integer
    | float text place =>
        have spelled : text = "0.0" := by simpa [Expr.isZero] using zero
        subst spelled
        exact .float
    | identifier | element | paren | negate | binary => cases zero
  · intro zero
    cases zero with
    | integer => rfl
    | float => rfl

theorem BinaryOp.check_divisor_eq_nil_iff (op : BinaryOp) (right : Expr) :
    op.checkDivisor right = [] ↔ ¬ (op = .div ∧ right.WrittenZero) := by
  rw [BinaryOp.checkDivisor, ← Expr.is_zero_iff]
  split
  · rename_i zero
    simp [zero]
  · rename_i other
    simp only [other, not_false_eq_true]

/-- The type that an expression counts as, whatever is wrong with it. A name that is not declared,
or is declared as something else than it is used as, counts as an `Int`. -/
def Expr.countsAs (table : SymbolTable) : Expr → DataType
  | .integer _ _ => .int
  | .float _ _ => .float
  | .identifier name _ =>
      match (table.find? name).map Symbol.type with
      | some (.scalar type) => type
      | _ => .int
  | .element array _ _ =>
      match (table.find? array.name).map Symbol.type with
      | some (.array type) => type
      | _ => .int
  | .paren inner _ | .negate inner _ => inner.countsAs table
  | .binary _ left right _ => (left.countsAs table).combine (right.countsAs table)

/-- The check gives every expression the number type that it counts as. -/
theorem Expr.check_type (table : SymbolTable) (expr : Expr) :
    (expr.check table).type = .scalar (expr.countsAs table) := by
  induction expr with
  | integer text place => rfl
  | float text place => rfl
  | identifier name place =>
      rw [Expr.check, SymbolTable.checkName, Expr.countsAs]
      cases table.find? name with
      | none => rfl
      | some symbol =>
          cases type : symbol.type with
          | scalar element => simp [type, ValueType.isArray]
          | array element => simp [type, ValueType.isArray, ValueType.int]
  | element array index place ih =>
      rw [Expr.check, Expr.countsAs]
      cases table.find? array.name with
      | none => rfl
      | some symbol =>
          cases type : symbol.type with
          | scalar element => simp [type, ValueType.element?, ValueType.int]
          | array element => simp [type, ValueType.element?]
  | paren inner place ih => exact ih
  | negate inner place ih => simp [Expr.check, Expr.countsAs, ih, ValueType.isNumeric]
  | binary op left right place ihLeft ihRight =>
      simp [Expr.check, Expr.countsAs, ihLeft, ihRight, ValueType.isNumeric,
        ValueType.arithmetic_scalar]

theorem Expr.check_type_scalar (table : SymbolTable) (expr : Expr) :
    ∃ type, (expr.check table).type = .scalar type :=
  ⟨expr.countsAs table, expr.check_type table⟩

theorem Expr.check_negate (table : SymbolTable) (inner : Expr) (place : Place) :
    (Expr.negate inner place).check table = inner.check table := by
  simp [Expr.check, inner.check_type, ValueType.isNumeric]

/-- Operands are numbers, so of an operation only its divisor can be at fault. -/
theorem Expr.check_binary {left right : Expr} {first second : DataType}
    (foundFirst : (left.check table).type = .scalar first)
    (foundSecond : (right.check table).type = .scalar second) (op : BinaryOp) (place : Place) :
    (Expr.binary op left right place).check table =
      ⟨.scalar (first.combine second), (left.check table).faults ++
        (right.check table).faults ++ op.checkDivisor right⟩ := by
  simp [Expr.check, BinaryOp.checkOperand, foundFirst, foundSecond, ValueType.isNumeric,
    ValueType.arithmetic_scalar]

theorem SymbolTable.check_name_eq_iff (distinct : table.Distinct) (name : Ident)
    (type : DataType) :
    table.checkName name = ⟨.scalar type, []⟩ ↔
      ∃ fixed, table.context.Resolves name.name ⟨.scalar type, fixed⟩ := by
  simp only [SymbolTable.resolves_iff distinct]
  rw [SymbolTable.checkName]
  cases found : table.find? name.name with
  | none => simp
  | some symbol =>
      cases kind : symbol.type with
      | scalar element => simp [kind, ValueType.isArray, Symbol.binding]
      | array element => simp [kind, ValueType.isArray, Symbol.binding]

theorem Expr.check_element_eq_iff (distinct : table.Distinct) (array : Ident) (index : Expr)
    (place : Place) (type : DataType) :
    (Expr.element array index place).check table = ⟨.scalar type, []⟩ ↔
      (∃ fixed, table.context.Resolves array.name ⟨.array type, fixed⟩) ∧
        index.check table = ⟨.scalar .int, []⟩ := by
  simp only [SymbolTable.resolves_iff distinct, Checked.eq_faultless_iff]
  rw [Expr.check]
  cases found : table.find? array.name with
  | none => simp
  | some symbol =>
      cases kind : symbol.type with
      | scalar element => simp [kind, ValueType.element?, Symbol.binding]
      | array element =>
          simp only [kind, ValueType.element?, Symbol.binding, List.append_eq_nil_iff,
            Option.some.injEq, exists_eq_left']
          by_cases number : (index.check table).type = .scalar .int
          · simp [number, ValueType.int]
          · simp [number, ValueType.int]

/-- The check of an expression is faultless and finds a type exactly when the rules give it that
type. -/
theorem Expr.check_eq_iff (distinct : table.Distinct) (expr : Expr) (type : DataType) :
    expr.check table = ⟨.scalar type, []⟩ ↔ expr.HasType table.context type := by
  induction expr generalizing type with
  | integer text place =>
      constructor
      · intro checked
        cases checked
        exact .integer
      · intro typed
        cases typed
        rfl
  | float text place =>
      constructor
      · intro checked
        cases checked
        exact .float
      · intro typed
        cases typed
        rfl
  | identifier name place =>
      rw [Expr.check, SymbolTable.check_name_eq_iff distinct]
      constructor
      · rintro ⟨fixed, resolves⟩
        exact .identifier resolves
      · intro typed
        cases typed with
        | identifier resolves => exact ⟨_, resolves⟩
  | element array index place ih =>
      rw [Expr.check_element_eq_iff distinct, ih]
      constructor
      · rintro ⟨⟨fixed, resolves⟩, typed⟩
        exact .element resolves typed
      · intro typed
        cases typed with
        | element resolves typed => exact ⟨⟨_, resolves⟩, typed⟩
  | paren inner place ih =>
      rw [Expr.check, ih]
      constructor
      · exact .paren
      · intro typed
        cases typed with
        | paren typed => exact typed
  | negate inner place ih =>
      rw [Expr.check_negate, ih]
      constructor
      · exact .negate
      · intro typed
        cases typed with
        | negate typed => exact typed
  | binary op left right place ihLeft ihRight =>
      obtain ⟨first, foundFirst⟩ := Expr.check_type_scalar table left
      obtain ⟨second, foundSecond⟩ := Expr.check_type_scalar table right
      rw [Expr.check_binary foundFirst foundSecond, Checked.eq_faultless_iff]
      simp only [List.append_eq_nil_iff, BinaryOp.check_divisor_eq_nil_iff]
      constructor
      · rintro ⟨combined, ⟨noneLeft, noneRight⟩, divisor⟩
        cases combined
        exact .binary
          ((ihLeft first).mp ((Checked.eq_faultless_iff _ _).mpr ⟨foundFirst, noneLeft⟩))
          ((ihRight second).mp ((Checked.eq_faultless_iff _ _).mpr ⟨foundSecond, noneRight⟩))
          divisor
      · intro typed
        cases typed with
        | binary typedLeft typedRight divisor =>
            have checkedLeft := (ihLeft _).mpr typedLeft
            have checkedRight := (ihRight _).mpr typedRight
            rw [checkedLeft] at foundFirst
            rw [checkedRight] at foundSecond
            cases foundFirst
            cases foundSecond
            rw [checkedLeft, checkedRight]
            exact ⟨rfl, ⟨rfl, rfl⟩, divisor⟩

/-- An expression without faults has a type, and one with a type has no faults. -/
theorem Expr.check_faults_eq_nil_iff (distinct : table.Distinct) (expr : Expr) :
    (expr.check table).faults = [] ↔ ∃ type, expr.HasType table.context type := by
  obtain ⟨type, found⟩ := Expr.check_type_scalar table expr
  constructor
  · intro faultless
    exact ⟨type, (expr.check_eq_iff distinct type).mp
      ((Checked.eq_faultless_iff _ _).mpr ⟨found, faultless⟩)⟩
  · rintro ⟨other, typed⟩
    rw [(expr.check_eq_iff distinct other).mpr typed]

/-- Numbers can be compared, so only the sides of a comparison can be at fault. -/
theorem Cond.check_compare (table : SymbolTable) (op : CompareOp) (position : Position)
    (left right : Expr) (place : Place) :
    (Cond.compare op position left right place).check table =
      (left.check table).faults ++ (right.check table).faults := by
  simp [Cond.check, Expr.check_type, ValueType.comparable, ValueType.isNumeric]

theorem Cond.check_eq_nil_iff (distinct : table.Distinct) (cond : Cond) :
    cond.check table = [] ↔ cond.Typed table.context := by
  induction cond with
  | compare op position left right place =>
      simp only [Cond.check_compare, List.append_eq_nil_iff,
        Expr.check_faults_eq_nil_iff distinct]
      constructor
      · rintro ⟨⟨_, typedLeft⟩, ⟨_, typedRight⟩⟩
        exact .compare typedLeft typedRight
      · intro typed
        cases typed with
        | compare typedLeft typedRight => exact ⟨⟨_, typedLeft⟩, ⟨_, typedRight⟩⟩
  | and left right place ihLeft ihRight =>
      rw [Cond.check, List.append_eq_nil_iff, ihLeft, ihRight]
      constructor
      · rintro ⟨typedLeft, typedRight⟩
        exact .and typedLeft typedRight
      · intro typed
        cases typed with
        | and typedLeft typedRight => exact ⟨typedLeft, typedRight⟩
  | or left right place ihLeft ihRight =>
      rw [Cond.check, List.append_eq_nil_iff, ihLeft, ihRight]
      constructor
      · rintro ⟨typedLeft, typedRight⟩
        exact .or typedLeft typedRight
      · intro typed
        cases typed with
        | or typedLeft typedRight => exact ⟨typedLeft, typedRight⟩
  | not inner place ih =>
      rw [Cond.check, ih]
      constructor
      · exact .not
      · intro typed
        cases typed with
        | not typed => exact typed
  | paren inner place ih =>
      rw [Cond.check, ih]
      constructor
      · exact .paren
      · intro typed
        cases typed with
        | paren typed => exact typed

end Expressions

end ThreeAddress
