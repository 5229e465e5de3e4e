import ThreeAddress.Proofs.Typing.Expressions

/-!
# The check finds exactly the programs that break the rules

Main statement: checking a program finds no fault exactly when the program is well formed. The
induction says more about statements: the table behind faultless ones stands for the context that
the rules lead to.
-/

namespace ThreeAddress

set_option autoImplicit false

theorem ValueType.accepts_iff (target : ValueType) (found : DataType) :
    target.accepts (.scalar found) = true ↔ target.Takes found := by
  constructor
  · intro accepted
    cases target with
    | array element => cases found <;> cases element <;> cases accepted
    | scalar type =>
        cases type <;> cases found
        · exact .same
        · cases accepted
        · exact .wider
        · exact .same
  · intro takes
    cases takes with
    | same => simp [ValueType.accepts]
    | wider => rfl

theorem Size.positive?_eq_some_iff (text : List Char) :
    (∃ count, Size.positive? text = some count) ↔
      ∃ value, Size.integer? text = some value ∧ 0 < value := by
  rw [Size.positive?]
  cases Size.integer? text with
  | none => simp
  | some value => by_cases positive : 0 < value <;> simp [positive]

namespace SymbolTable

variable {table : SymbolTable}

theorem context_extended (table : SymbolTable) (symbol : Symbol) :
    (table.extended symbol).context =
      (symbol.binding :: table.top.map Symbol.binding) :: Frame.context table.frames.tail := by
  rw [context, frames_extended]
  rfl

/-- A name is declared exactly where the rules let it be. -/
theorem declares_iff (table : SymbolTable) {name : Ident} (symbol : Symbol)
    (named : symbol.name = name.name) (after : Context) :
    table.context.Declares symbol.binding after ↔
      (table.introduce name symbol).faults = [] ∧
        (table.introduce name symbol).table.context = after := by
  have free : table.refusal? name = none ↔
      Name.fault? symbol.binding.name.toList = none ∧
        ∀ earlier ∈ table.top.map Symbol.binding, earlier.name ≠ symbol.binding.name := by
    rw [refusal?_eq_none_iff, find_here?_eq_none_iff, Symbol.binding, named]
    simp [Symbol.binding]
  rw [context_eq_top_cons]
  cases refused : table.refusal? name with
  | some fault =>
      rw [introduce_of_refused refused]
      constructor
      · intro declares
        cases declares with
        | intro valid fresh =>
            rw [free.mpr ⟨valid, fresh⟩] at refused
            cases refused
      · rintro ⟨faultless, _⟩
        cases faultless
  | none =>
      obtain ⟨valid, fresh⟩ := free.mp refused
      rw [introduce_of_free named refused, context_extended]
      constructor
      · intro declares
        cases declares
        exact ⟨rfl, rfl⟩
      · rintro ⟨_, rfl⟩
        exact .intro valid fresh

theorem check_assign_eq_nil_iff (distinct : table.Distinct) (target : Ident) (value : Expr) :
    table.checkAssign target value = [] ↔
      ∃ declared found, table.context.Resolves target.name ⟨declared, false⟩ ∧
        value.HasType table.context found ∧ declared.Takes found := by
  obtain ⟨found, number⟩ := value.check_type_scalar table
  simp only [resolves_iff distinct, ← Expr.check_eq_iff distinct, Checked.eq_faultless_iff]
  rw [checkAssign]
  cases present : table.find? target.name with
  | none => simp
  | some symbol =>
      simp only [number, ValueType.accepts_iff, List.append_eq_nil_iff, ite_eq_left_iff,
        ite_eq_right_iff, reduceCtorEq, imp_false, Classical.not_not, Bool.not_eq_true]
      constructor
      · rintro ⟨⟨changeable, faultless⟩, takes⟩
        exact ⟨symbol.type, found, ⟨symbol, rfl, by rw [Symbol.binding, changeable]⟩,
          ⟨rfl, faultless⟩, takes⟩
      · rintro ⟨declared, other, ⟨found, same, role⟩, ⟨type, faultless⟩, takes⟩
        cases same
        cases type
        obtain ⟨rfl, changeable⟩ := Role.mk.inj role
        exact ⟨⟨changeable, faultless⟩, takes⟩

theorem check_constant_eq_nil_iff (distinct : table.Distinct) (name : Ident) (type : DataType)
    (position : Position) (value : Expr) :
    (table.checkConstant name type position value).faults = [] ↔
      (∃ found, value.HasType table.context found ∧ (ValueType.scalar type).Takes found) ∧
        (table.introduce name
          (.constant name.name (.scalar type) name.place.position)).faults = [] := by
  obtain ⟨found, number⟩ := value.check_type_scalar table
  simp only [← Expr.check_eq_iff distinct, Checked.eq_faultless_iff, checkConstant, number,
    ValueType.accepts_iff, List.append_eq_nil_iff, ite_eq_left_iff, reduceCtorEq, imp_false,
    Classical.not_not]
  constructor
  · rintro ⟨⟨faultless, takes⟩, introduced⟩
    exact ⟨⟨found, ⟨rfl, faultless⟩, takes⟩, introduced⟩
  · rintro ⟨⟨other, ⟨same, faultless⟩, takes⟩, introduced⟩
    cases same
    exact ⟨⟨faultless, takes⟩, introduced⟩

theorem check_counter_eq_nil_iff (distinct : table.Distinct) (counter : Ident) :
    table.checkCounter counter = [] ↔
      table.context.Resolves counter.name ⟨.scalar .int, false⟩ := by
  rw [resolves_iff distinct, checkCounter]
  cases present : table.find? counter.name with
  | none => simp
  | some symbol =>
      by_cases number : symbol.type = .scalar .int
      · simp [Symbol.binding, ValueType.int, number]
      · simp [Symbol.binding, ValueType.int, number]

/-- Bounds are numbers, so there is nothing wrong with them but what is wrong inside. -/
theorem check_bound_eq (table : SymbolTable) (counter : Ident) (bound : Expr) :
    table.checkBound counter bound = (bound.check table).faults := by
  simp [checkBound, bound.check_type, ValueType.isNumeric]

theorem check_bound_eq_nil_iff (distinct : table.Distinct) (counter : Ident) (bound : Expr) :
    table.checkBound counter bound = [] ↔ ∃ type, bound.HasType table.context type := by
  rw [check_bound_eq, bound.check_faults_eq_nil_iff distinct]

theorem check_input_eq_nil_iff (distinct : table.Distinct) (target : Ident) :
    table.checkInput target = [] ↔
      ∃ type, table.context.Resolves target.name ⟨type, false⟩ := by
  simp only [resolves_iff distinct]
  rw [checkInput]
  cases present : table.find? target.name with
  | none => simp
  | some symbol => simp [Symbol.binding]

theorem check_output_eq_nil_iff (distinct : table.Distinct) (name : Ident) :
    table.checkOutput name = [] ↔ ∃ role, table.context.Resolves name.name role := by
  simp only [resolves_iff distinct]
  rw [checkOutput]
  cases present : table.find? name.name with
  | none => simp
  | some symbol => simp

/-- An array is declared exactly where its size is good and the rules let its name be declared. -/
theorem declares_array_iff (name : Ident) (element : DataType) (size : String)
    (position : Position) (after : Context) :
    ((∃ count, Size.integer? size.toList = some count ∧ 0 < count) ∧
        table.context.Declares ⟨name.name, ⟨.array element, false⟩⟩ after) ↔
      (table.checkArray name element size position).faults = [] ∧
        (table.checkArray name element size position).table.context = after := by
  rw [← Size.positive?_eq_some_iff]
  cases parsed : Size.positive? size.toList with
  | none =>
      obtain ⟨fault, refused⟩ := table.check_array_of_bad_size name element position parsed
      simp [refused]
  | some count =>
      rw [table.check_array_of_size name element position parsed, ← table.declares_iff _ rfl]
      simp [Symbol.binding, Symbol.array]

/-- Behind a block the context is the one before it. -/
theorem context_leave {inside : SymbolTable} (evolves : Evolves table.enter inside) :
    inside.leave.context = table.context :=
  context_eq_of_frames_eq evolves.frames_leave

end SymbolTable

open SymbolTable

mutual

theorem Stmt.admits_iff_check (stmt : Stmt) {table : SymbolTable} (distinct : table.Distinct)
    (after : Context) :
    table.context.Admits [stmt] after ↔
      (stmt.check table).faults = [] ∧ (stmt.check table).table.context = after := by
  match stmt with
  | .scalar name type place =>
      rw [Stmt.check, checkScalar, ← table.declares_iff _ rfl]
      constructor
      · intro admits
        cases admits with
        | scalar declares done =>
            cases done
            exact declares
      · intro declares
        exact .scalar declares .nil
  | .array name element size position place =>
      rw [Stmt.check, ← declares_array_iff]
      constructor
      · intro admits
        cases admits with
        | array parsed positive declares done =>
            cases done
            exact ⟨⟨_, parsed, positive⟩, declares⟩
      · rintro ⟨⟨count, parsed, positive⟩, declares⟩
        exact .array parsed positive declares .nil
  | .constant name type position value place =>
      obtain ⟨found, number⟩ := value.check_type_scalar table
      have named := table.declares_iff
        (.constant name.name (.scalar type) name.place.position) (Eq.refl name.name)
      simp only [Stmt.check, checkConstant, number, ValueType.accepts_iff,
        List.append_eq_nil_iff, ite_eq_left_iff, reduceCtorEq, imp_false, Classical.not_not]
      constructor
      · intro admits
        cases admits with
        | constant typed takes declares done =>
            cases done
            have checked := (value.check_eq_iff distinct _).mpr typed
            rw [checked] at number
            cases number
            obtain ⟨faultless, leads⟩ := (named after).mp declares
            exact ⟨⟨⟨by rw [checked], takes⟩, faultless⟩, leads⟩
      · rintro ⟨⟨⟨faultless, takes⟩, free⟩, leads⟩
        have typed := (value.check_eq_iff distinct found).mp
          ((Checked.eq_faultless_iff _ _).mpr ⟨number, faultless⟩)
        exact .constant typed takes ((named after).mpr ⟨free, leads⟩) .nil
  | .assign target value place =>
      simp only [Stmt.check, check_assign_eq_nil_iff distinct]
      constructor
      · intro admits
        cases admits with
        | assign resolves typed takes done =>
            cases done
            exact ⟨⟨_, _, resolves, typed, takes⟩, rfl⟩
      · rintro ⟨⟨declared, found, resolves, typed, takes⟩, rfl⟩
        exact .assign resolves typed takes .nil
  | .ifThen condition body place =>
      have inside := Stmt.admits_iff_check_all body distinct.enter
      have behind := context_leave (Stmt.evolves_check_all body table.enter)
      simp only [Stmt.check, behind, List.append_eq_nil_iff, condition.check_eq_nil_iff distinct]
      constructor
      · intro admits
        cases admits with
        | ifThen typed block done =>
            cases done
            exact ⟨⟨typed, ((inside _).mp block).1⟩, rfl⟩
      · rintro ⟨⟨typed, faultless⟩, rfl⟩
        exact .ifThen typed ((inside _).mpr ⟨faultless, rfl⟩) .nil
  | .ifElse condition body otherwise place =>
      have evolves := Stmt.evolves_check_all body table.enter
      have between := context_leave evolves
      have distinctBetween : (Stmt.checkAll table.enter body).table.leave.Distinct :=
        (evolves_of_frames_eq evolves.frames_leave).2 distinct
      have inside := Stmt.admits_iff_check_all body distinct.enter
      have other := Stmt.admits_iff_check_all otherwise distinctBetween.enter
      have behind := context_leave (Stmt.evolves_check_all otherwise
        (Stmt.checkAll table.enter body).table.leave.enter)
      rw [context_enter, between] at other
      simp only [Stmt.check, behind, between, List.append_eq_nil_iff,
        condition.check_eq_nil_iff distinct]
      constructor
      · intro admits
        cases admits with
        | ifElse typed block alternative done =>
            cases done
            exact ⟨⟨⟨typed, ((inside _).mp block).1⟩, ((other _).mp alternative).1⟩, rfl⟩
      · rintro ⟨⟨⟨typed, faultless⟩, faultlessOther⟩, rfl⟩
        exact .ifElse typed ((inside _).mpr ⟨faultless, rfl⟩)
          ((other _).mpr ⟨faultlessOther, rfl⟩) .nil
  | .doWhile body condition place =>
      have evolves := Stmt.evolves_check_all body table.enter
      have inside := Stmt.admits_iff_check_all body distinct.enter
      have behind := context_leave evolves
      simp only [Stmt.check, behind, List.append_eq_nil_iff,
        condition.check_eq_nil_iff (evolves.2 distinct.enter)]
      constructor
      · intro admits
        cases admits with
        | doWhile block typed done =>
            cases done
            obtain ⟨faultless, leads⟩ := (inside _).mp block
            exact ⟨⟨faultless, leads ▸ typed⟩, rfl⟩
      · rintro ⟨⟨faultless, typed⟩, rfl⟩
        exact .doWhile ((inside _).mpr ⟨faultless, rfl⟩) typed .nil
  | .forLoop counter first last step body place =>
      have inside := Stmt.admits_iff_check_all body distinct.enter
      have behind := context_leave (Stmt.evolves_check_all body table.enter)
      simp only [Stmt.check, behind, List.append_eq_nil_iff,
        check_counter_eq_nil_iff distinct.enter, check_bound_eq_nil_iff distinct.enter,
        context_enter, Context.resolves_nil_cons_iff, Expr.has_type_nil_cons_iff]
      constructor
      · intro admits
        cases admits with
        | forLoop resolves lower upper stride block done =>
            cases done
            exact ⟨⟨⟨⟨⟨resolves, _, lower⟩, _, upper⟩, _, stride⟩, ((inside _).mp block).1⟩, rfl⟩
      · rintro ⟨⟨⟨⟨⟨resolves, _, lower⟩, _, upper⟩, _, stride⟩, faultless⟩, rfl⟩
        exact .forLoop resolves lower upper stride ((inside _).mpr ⟨faultless, rfl⟩) .nil
  | .input target place =>
      simp only [Stmt.check, check_input_eq_nil_iff distinct]
      constructor
      · intro admits
        cases admits with
        | input resolves done =>
            cases done
            exact ⟨⟨_, resolves⟩, rfl⟩
      · rintro ⟨⟨type, resolves⟩, rfl⟩
        exact .input resolves .nil
  | .output text names place =>
      simp only [Stmt.check, List.flatMap_eq_nil_iff, check_output_eq_nil_iff distinct]
      constructor
      · intro admits
        cases admits with
        | output resolves done =>
            cases done
            exact ⟨resolves, rfl⟩
      · rintro ⟨resolves, rfl⟩
        exact .output resolves .nil

/-- Statements are faultless exactly when the rules admit them, and then the table behind them
stands for the context that the rules lead to. -/
theorem Stmt.admits_iff_check_all (stmts : List Stmt) {table : SymbolTable}
    (distinct : table.Distinct) (after : Context) :
    table.context.Admits stmts after ↔
      (Stmt.checkAll table stmts).faults = [] ∧
        (Stmt.checkAll table stmts).table.context = after := by
  match stmts with
  | [] =>
      constructor
      · intro admits
        cases admits
        exact ⟨rfl, rfl⟩
      · rintro ⟨_, rfl⟩
        exact .nil
  | first :: rest =>
      have head := first.admits_iff_check distinct
      have tail := Stmt.admits_iff_check_all rest ((first.evolves_check table).2 distinct) after
      rw [Context.admits_cons_iff]
      simp only [Stmt.checkAll, List.append_eq_nil_iff]
      constructor
      · rintro ⟨next, alone, further⟩
        obtain ⟨faultless, rfl⟩ := (head next).mp alone
        obtain ⟨faultlessRest, leads⟩ := tail.mp further
        exact ⟨⟨faultless, faultlessRest⟩, leads⟩
      · rintro ⟨⟨faultless, faultlessRest⟩, leads⟩
        exact ⟨_, (head _).mpr ⟨faultless, rfl⟩, tail.mpr ⟨faultlessRest, leads⟩⟩

end

/-- The check finds a fault in a program exactly when the program breaks a rule. -/
theorem Program.check_faultless_iff_well_formed (program : Program) :
    program.check.faults = [] ↔ program.WellFormed := by
  have whole := Stmt.admits_iff_check_all program distinct_empty
  constructor
  · intro faultless
    exact ⟨_, (whole _).mpr ⟨faultless, rfl⟩⟩
  · rintro ⟨after, admits⟩
    exact ((whole after).mp admits).1

end ThreeAddress
