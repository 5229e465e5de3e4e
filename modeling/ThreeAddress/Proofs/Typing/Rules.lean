import ThreeAddress.Check.Size
import ThreeAddress.Scope.Name
import ThreeAddress.Scope.ValueType

/-!
# The rules of scopes and types

Which programs are well formed, said without a checker: nothing here reports a fault or goes on
behind one. A `Context` holds the declarations that stand before a place in the blocks around it,
and statements lead from one context to another.
-/

namespace ThreeAddress

set_option autoImplicit false

structure Role where
  type : ValueType
  isConstant : Bool
deriving DecidableEq

structure Binding where
  name : String
  role : Role
deriving DecidableEq

/-- The declarations of each block around a place, the innermost block first. -/
abbrev Context := List (List Binding)

namespace Context

/-- A name means what the innermost block that declares it says. -/
inductive Resolves : Context → String → Role → Prop
  | here {block : List Binding} {outer : Context} {name : String} {role : Role} :
      ⟨name, role⟩ ∈ block → Resolves (block :: outer) name role
  | outside {block : List Binding} {outer : Context} {name : String} {role : Role} :
      (∀ binding ∈ block, binding.name ≠ name) → Resolves outer name role →
      Resolves (block :: outer) name role

/-- A declaration follows the naming rule and is the first of its name in its block. -/
inductive Declares : Context → Binding → Context → Prop
  | intro {block : List Binding} {outer : Context} {binding : Binding} :
      Name.fault? binding.name.toList = none →
      (∀ earlier ∈ block, earlier.name ≠ binding.name) →
      Declares (block :: outer) binding ((binding :: block) :: outer)

end Context

/-- Where a value may be stored: types agree, except that an `Int` fits into a `Float`. -/
inductive ValueType.Takes : ValueType → DataType → Prop
  | same {type : DataType} : Takes (.scalar type) type
  | wider : Takes (.scalar .float) .int

def DataType.combine : DataType → DataType → DataType
  | .int, .int => .int
  | _, _ => .float

/-- The two ways of writing a zero that no divisor may have. -/
inductive Expr.WrittenZero : Expr → Prop
  | integer {place : Place} : WrittenZero (.integer "0" place)
  | float {place : Place} : WrittenZero (.float "0.0" place)

inductive Expr.HasType (scope : Context) : Expr → DataType → Prop
  | integer {text : String} {place : Place} : HasType scope (.integer text place) .int
  | float {text : String} {place : Place} : HasType scope (.float text place) .float
  | identifier {name : String} {place : Place} {type : DataType} {fixed : Bool} :
      scope.Resolves name ⟨.scalar type, fixed⟩ → HasType scope (.identifier name place) type
  | element {array : Ident} {index : Expr} {place : Place} {type : DataType} {fixed : Bool} :
      scope.Resolves array.name ⟨.array type, fixed⟩ → HasType scope index .int →
      HasType scope (.element array index place) type
  | paren {inner : Expr} {place : Place} {type : DataType} :
      HasType scope inner type → HasType scope (.paren inner place) type
  | negate {inner : Expr} {place : Place} {type : DataType} :
      HasType scope inner type → HasType scope (.negate inner place) type
  | binary {op : BinaryOp} {left right : Expr} {place : Place} {first second : DataType} :
      HasType scope left first → HasType scope right second →
      ¬ (op = .div ∧ right.WrittenZero) →
      HasType scope (.binary op left right place) (first.combine second)

/-- A block without declarations changes the meaning of no name. -/
theorem Context.resolves_nil_cons_iff (scope : Context) (name : String) (role : Role) :
    Context.Resolves ([] :: scope) name role ↔ scope.Resolves name role := by
  constructor
  · intro resolves
    cases resolves with
    | here member => cases member
    | outside _ further => exact further
  · intro resolves
    refine .outside ?_ resolves
    intro binding member
    cases member

/-- Only the meaning of names matters to a type. -/
theorem Expr.HasType.transfer {scope other : Context} {expr : Expr} {type : DataType}
    (kept : ∀ name role, scope.Resolves name role → other.Resolves name role)
    (typed : expr.HasType scope type) : expr.HasType other type := by
  induction typed with
  | integer => exact .integer
  | float => exact .float
  | identifier resolves => exact .identifier (kept _ _ resolves)
  | element resolves _ ih => exact .element (kept _ _ resolves) ih
  | paren _ ih => exact .paren ih
  | negate _ ih => exact .negate ih
  | binary _ _ divisor ihLeft ihRight => exact .binary ihLeft ihRight divisor

theorem Expr.has_type_nil_cons_iff (scope : Context) (expr : Expr) (type : DataType) :
    expr.HasType ([] :: scope) type ↔ expr.HasType scope type := by
  constructor
  · intro typed
    exact typed.transfer fun name role => (Context.resolves_nil_cons_iff scope name role).mp
  · intro typed
    exact typed.transfer fun name role => (Context.resolves_nil_cons_iff scope name role).mpr

/-- All numbers can be compared, so the sides of a comparison only need a type. -/
inductive Cond.Typed (scope : Context) : Cond → Prop
  | compare {op : CompareOp} {position : Position} {left right : Expr} {place : Place}
      {first second : DataType} :
      left.HasType scope first → right.HasType scope second →
      Typed scope (.compare op position left right place)
  | and {left right : Cond} {place : Place} :
      Typed scope left → Typed scope right → Typed scope (.and left right place)
  | or {left right : Cond} {place : Place} :
      Typed scope left → Typed scope right → Typed scope (.or left right place)
  | not {inner : Cond} {place : Place} : Typed scope inner → Typed scope (.not inner place)
  | paren {inner : Cond} {place : Place} : Typed scope inner → Typed scope (.paren inner place)

/-- From the declarations before them, statements are well formed and lead to the declarations
behind them. A block starts without declarations of its own and takes those it makes with it; only
the condition of a repetition still sees those of its body. -/
inductive Context.Admits : Context → List Stmt → Context → Prop
  | nil {scope : Context} : Admits scope [] scope
  | scalar {scope next after : Context} {name : Ident} {type : DataType} {place : Place}
      {rest : List Stmt} :
      scope.Declares ⟨name.name, ⟨.scalar type, false⟩⟩ next → Admits next rest after →
      Admits scope (.scalar name type place :: rest) after
  | array {scope next after : Context} {name : Ident} {element : DataType} {size : String}
      {position : Position} {place : Place} {count : Int} {rest : List Stmt} :
      Size.integer? size.toList = some count → 0 < count →
      scope.Declares ⟨name.name, ⟨.array element, false⟩⟩ next → Admits next rest after →
      Admits scope (.array name element size position place :: rest) after
  | constant {scope next after : Context} {name : Ident} {type found : DataType}
      {position : Position} {value : Expr} {place : Place} {rest : List Stmt} :
      value.HasType scope found → (ValueType.scalar type).Takes found →
      scope.Declares ⟨name.name, ⟨.scalar type, true⟩⟩ next → Admits next rest after →
      Admits scope (.constant name type position value place :: rest) after
  | assign {scope after : Context} {target : Ident} {value : Expr} {place : Place}
      {declared : ValueType} {found : DataType} {rest : List Stmt} :
      scope.Resolves target.name ⟨declared, false⟩ → value.HasType scope found →
      declared.Takes found → Admits scope rest after →
      Admits scope (.assign target value place :: rest) after
  | ifThen {scope inner after : Context} {condition : Cond} {body : List Stmt} {place : Place}
      {rest : List Stmt} :
      condition.Typed scope → Admits ([] :: scope) body inner → Admits scope rest after →
      Admits scope (.ifThen condition body place :: rest) after
  | ifElse {scope inner other after : Context} {condition : Cond} {body otherwise : List Stmt}
      {place : Place} {rest : List Stmt} :
      condition.Typed scope → Admits ([] :: scope) body inner →
      Admits ([] :: scope) otherwise other → Admits scope rest after →
      Admits scope (.ifElse condition body otherwise place :: rest) after
  | doWhile {scope inner after : Context} {body : List Stmt} {condition : Cond} {place : Place}
      {rest : List Stmt} :
      Admits ([] :: scope) body inner → condition.Typed inner → Admits scope rest after →
      Admits scope (.doWhile body condition place :: rest) after
  | forLoop {scope inner after : Context} {counter : Ident} {first last step : Expr}
      {lower upper stride : DataType} {body : List Stmt} {place : Place} {rest : List Stmt} :
      scope.Resolves counter.name ⟨.scalar .int, false⟩ → first.HasType scope lower →
      last.HasType scope upper → step.HasType scope stride →
      Admits ([] :: scope) body inner → Admits scope rest after →
      Admits scope (.forLoop counter first last step body place :: rest) after
  | input {scope after : Context} {target : Ident} {type : ValueType} {place : Place}
      {rest : List Stmt} :
      scope.Resolves target.name ⟨type, false⟩ → Admits scope rest after →
      Admits scope (.input target place :: rest) after
  | output {scope after : Context} {text : Option String} {names : List Ident} {place : Place}
      {rest : List Stmt} :
      (∀ name ∈ names, ∃ role, scope.Resolves name.name role) → Admits scope rest after →
      Admits scope (.output text names place :: rest) after

/-- Statements are well formed one by one, each in the context that those before it lead to. -/
theorem Context.admits_cons_iff (scope after : Context) (first : Stmt) (rest : List Stmt) :
    scope.Admits (first :: rest) after ↔
      ∃ next, scope.Admits [first] next ∧ next.Admits rest after := by
  constructor
  · intro admits
    cases admits with
    | scalar declares rest => exact ⟨_, .scalar declares .nil, rest⟩
    | array parsed positive declares rest =>
        exact ⟨_, .array parsed positive declares .nil, rest⟩
    | constant typed takes declares rest => exact ⟨_, .constant typed takes declares .nil, rest⟩
    | assign resolves typed takes rest => exact ⟨_, .assign resolves typed takes .nil, rest⟩
    | ifThen typed body rest => exact ⟨_, .ifThen typed body .nil, rest⟩
    | ifElse typed body otherwise rest => exact ⟨_, .ifElse typed body otherwise .nil, rest⟩
    | doWhile body typed rest => exact ⟨_, .doWhile body typed .nil, rest⟩
    | forLoop resolves lower upper stride body rest =>
        exact ⟨_, .forLoop resolves lower upper stride body .nil, rest⟩
    | input resolves rest => exact ⟨_, .input resolves .nil, rest⟩
    | output resolves rest => exact ⟨_, .output resolves .nil, rest⟩
  · rintro ⟨next, alone, rest⟩
    cases alone with
    | scalar declares done =>
        cases done
        exact .scalar declares rest
    | array parsed positive declares done =>
        cases done
        exact .array parsed positive declares rest
    | constant typed takes declares done =>
        cases done
        exact .constant typed takes declares rest
    | assign resolves typed takes done =>
        cases done
        exact .assign resolves typed takes rest
    | ifThen typed body done =>
        cases done
        exact .ifThen typed body rest
    | ifElse typed body otherwise done =>
        cases done
        exact .ifElse typed body otherwise rest
    | doWhile body typed done =>
        cases done
        exact .doWhile body typed rest
    | forLoop resolves lower upper stride body done =>
        cases done
        exact .forLoop resolves lower upper stride body rest
    | input resolves done =>
        cases done
        exact .input resolves rest
    | output resolves done =>
        cases done
        exact .output resolves rest

/-- A program starts in a block without declarations. -/
def Program.WellFormed (program : Program) : Prop :=
  ∃ after, Context.Admits [[]] program after

end ThreeAddress
