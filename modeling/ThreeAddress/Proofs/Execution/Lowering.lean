import ThreeAddress.Proofs.Execution.Realization

/-!
# Lowering keeps the meaning of a program

The code of an expression or a condition computes its value; the code of a statement realizes what
the statement does. Main statement: running the code of a program from its first quadruple comes to
the end of the code in exactly the worlds in which the program itself comes to an end.
-/

namespace ThreeAddress

set_option autoImplicit false

open Machine Quad

theorem Expr.lower_value_below (expr : Expr) (next : Nat) :
    (expr.lower next).value.Below (expr.lower next).next := by
  induction expr generalizing next with
  | identifier | integer | float => trivial
  | paren inner place ih => exact ih next
  | element | negate | binary => exact Nat.lt_succ_self _

theorem Cond.lower_value_below (cond : Cond) (next : Nat) :
    (cond.lower next).value.Below (cond.lower next).next := by
  induction cond generalizing next with
  | paren inner place ih => exact ih next
  | compare | and | or | not => exact Nat.lt_succ_self _

variable {Value Feed : Type} [DecidableEq Value] [Std.Stream Feed Value]
variable {meaning : Interpretation Value} {code : List Quad} {low : Nat} {base : Nat → Value}

namespace Computes

variable {first second : LoweredValue} {left right : World Value Feed → Value}

/-- Two operands, the second of which leaves the first alone. -/
theorem pair (firsts : Computes meaning code low base first left)
    (below : first.value.Below first.next) (wider : low ≤ first.next)
    (seconds : ∀ temps, Computes meaning code first.next temps second right) :
    Prepares meaning code low base (first.code ++ second.code)
      fun (world : World Value Feed) later =>
        first.value.value? meaning world.store later = some (left world) ∧
          ∀ start, readSecond? meaning (⟨start, world, later⟩ : Machine Value Feed)
            (some second.value) = some (some (right world)) := by
  refine Prepares.append firsts wider seconds ?_
  intro world temps later known kept found
  constructor
  · rw [below.value?_eq kept]
    exact known
  · intro start
    rw [readSecond?, read?, found]
    rfl

/-- One operand for an operation that takes a single one. -/
theorem alone (firsts : Computes meaning code low base first left) :
    Prepares meaning code low base first.code fun (world : World Value Feed) later =>
      first.value.value? meaning world.store later = some (left world) ∧
        ∀ start, readSecond? meaning (⟨start, world, later⟩ : Machine Value Feed) none =
          some none := by
  intro start world temps stands kept
  obtain ⟨later, ran, keptLater, known⟩ := firsts start world temps stands kept
  exact ⟨later, ran, keptLater, known, fun _ => rfl⟩

/-- An operand that needs no code in front of one that is computed. -/
theorem behind_operand {operand : Operand} {value : World Value Feed → Value}
    (known : ∀ (world : World Value Feed) temps,
      operand.value? meaning world.store temps = some (value world))
    (seconds : Computes meaning code low base second right) :
    Prepares meaning code low base second.code fun (world : World Value Feed) later =>
      operand.value? meaning world.store later = some (value world) ∧
        ∀ start, readSecond? meaning (⟨start, world, later⟩ : Machine Value Feed)
          (some second.value) = some (some (right world)) := by
  intro start world temps stands kept
  obtain ⟨later, ran, keptLater, found⟩ := seconds start world temps stands kept
  refine ⟨later, ran, keptLater, known world later, ?_⟩
  intro start
  rw [readSecond?, read?, found]
  rfl

/-- A variable and a temporary of the frame, combined by an operation. -/
theorem with_frame {op : Operation} {name : String} {number next : Nat}
    {value : World Value Feed → Value}
    (applied : ∀ world, op.apply? meaning (world.store name) (some (base number)) =
      some (value world))
    (framed : number < low) (fresh : low ≤ next) :
    Computes meaning code low base
      (LoweredValue.compute [] op (.var name) (some (.temp number)) next) value := by
  refine Prepares.compute (.nil ?_) applied fresh
  intro world temps kept
  refine ⟨rfl, fun start => ?_⟩
  rw [← kept number framed]
  rfl

theorem narrow {middle : Nat} {lowered : LoweredValue} {value : World Value Feed → Value}
    (wider : low ≤ middle) (computes : ∀ temps, Computes meaning code middle temps lowered value) :
    Computes meaning code low base lowered value := by
  intro start world temps stands kept
  obtain ⟨later, ran, keptLater, known⟩ :=
    computes temps start world temps stands (.refl middle temps)
  exact ⟨later, ran, kept.trans (keptLater.mono wider), known⟩

end Computes

theorem Expr.lower_computes (expr : Expr) (next : Nat) (base : Nat → Value) :
    Computes meaning code next base (expr.lower next)
      fun world : World Value Feed => expr.eval meaning world.store := by
  induction expr generalizing next base with
  | identifier name place => exact .nil fun _ _ _ => rfl
  | integer text place | float text place => exact .nil fun _ _ _ => rfl
  | paren inner place ih => exact ih next base
  | element array index place ih =>
      refine Prepares.compute (Computes.behind_operand (fun _ _ => rfl) (ih next base)) ?_
        (index.next_le_lower next)
      intro world
      rfl
  | negate inner place ih =>
      refine Prepares.compute (Computes.behind_operand (fun _ _ => rfl) (ih next base)) ?_
        (inner.next_le_lower next)
      intro world
      rfl
  | binary op left right place ihLeft ihRight =>
      have wider := left.next_le_lower next
      refine Prepares.compute (Computes.pair (ihLeft next base) (left.lower_value_below next)
        wider (ihRight _)) ?_ (wider.trans (right.next_le_lower _))
      intro world
      rfl

theorem Cond.lower_computes (cond : Cond) (next : Nat) (base : Nat → Value) :
    Computes meaning code next base (cond.lower next)
      fun world : World Value Feed => cond.eval meaning world.store := by
  induction cond generalizing next base with
  | compare op position left right place =>
      have wider := left.next_le_lower next
      refine Prepares.compute (Computes.pair (left.lower_computes next base)
        (left.lower_value_below next) wider (right.lower_computes _)) ?_
        (wider.trans (right.next_le_lower _))
      intro world
      rfl
  | and left right place ihLeft ihRight | or left right place ihLeft ihRight =>
      have wider := left.next_le_lower next
      refine Prepares.compute (Computes.pair (ihLeft next base) (left.lower_value_below next)
        wider (ihRight _)) ?_ (wider.trans (right.next_le_lower _))
      intro world
      rfl
  | not inner place ih =>
      refine Prepares.compute (ih next base).alone ?_ (inner.next_le_lower next)
      intro world
      rfl
  | paren inner place ih => exact ih next base

theorem Expr.lower_into_realizes (expr : Expr) (target : String) (supply : Supply)
    (base : Nat → Value) :
    Realizes meaning code supply.temps base (expr.lowerInto target supply).code
      (expr.storeInto meaning target : Effect Value Feed) :=
  .store target (expr.lower_computes supply.temps base)

theorem Stmt.lower_output_realizes (text : Option String) (names : List Ident) :
    Realizes meaning code low base (Stmt.lowerOutput text names)
      fun (world after : World Value Feed) => after = world.print text names := by
  refine (Realizes.append (.map _ (fun world text => world.emit (.text text)) (fun _ _ => rfl) _)
    (.map _ (fun world name => world.emit (.value (world.store name.name))) (fun _ _ => rfl)
      _)).congr ?_
  intro world after
  simp [Effect.andThen, World.print]

/-- An input that finds nothing to read stops the machine before the end of the code. -/
theorem Stmt.lower_input_realizes (name : String) :
    Realizes meaning code low base [⟨.input, none, none, some (.var name)⟩]
      fun (world after : World Value Feed) =>
        ∃ value rest, world.receive? = some (value, rest) ∧ after = rest.set name value where
  follows := by
    intro start world after temps stands kept holds
    obtain ⟨value, rest, received, same⟩ := holds
    refine ⟨temps, .step ?_, kept⟩
    rw [step?_eq_perform? stands, same]
    change world.receive?.bind _ = _
    rw [received]
    rfl
  allowed := by
    intro steps start world temps stands kept finished
    cases received : world.receive? with
    | some pair => exact ⟨pair.2.set name pair.1, pair.1, pair.2, rfl, rfl⟩
    | none =>
        have stuck : step? meaning code ⟨start, world, temps⟩ = none := by
          rw [step?_eq_perform? stands]
          change world.receive?.bind _ = _
          rw [received]
          rfl
        have inside := stands.lt_length
        obtain ⟨last, ran, ended⟩ := finished
        cases steps with
        | zero =>
            cases ran
            exact absurd ended (Nat.ne_of_lt inside)
        | succ steps =>
            rw [run?, stuck] at ran
            cases ran

/-- The same value in a temporary of its own. -/
def LoweredValue.held (lowered : LoweredValue) : LoweredValue :=
  .compute lowered.code .assign lowered.value none lowered.next

theorem Expr.held_computes (expr : Expr) (next : Nat) (base : Nat → Value) :
    Computes meaning code next base (expr.lower next).held
      fun world : World Value Feed => expr.eval meaning world.store := by
  refine Prepares.compute (expr.lower_computes next base).alone ?_ (expr.next_le_lower next)
  intro world
  rfl

/-- The limit and the stride of a counting loop are in their temporaries when the loop starts. -/
theorem bounds_prepared (last step : Expr) (next : Nat) (base : Nat → Value) :
    Prepares meaning code next base
      ((last.lower next).held.code ++ (step.lower (last.lower next).held.next).held.code)
      fun (world : World Value Feed) later =>
        later (last.lower next).next = last.eval meaning world.store ∧
          later (step.lower (last.lower next).held.next).next =
            step.eval meaning world.store := by
  have fresh : next ≤ (last.lower next).held.next :=
    Nat.le_succ_of_le (last.next_le_lower next)
  refine Prepares.append (last.held_computes next base) fresh (step.held_computes _) ?_
  intro world temps later limit kept stride
  have kept := kept (last.lower next).next (Nat.lt_succ_self _)
  exact ⟨kept.trans (Option.some.inj limit), Option.some.inj stride⟩

/-- The code that counts up to a limit by a stride, with the code of its body and the temporaries
for the limit, the stride, the test and the sum. -/
def countCode (counter : String) (again done limit stride test sum : Nat) (inside : List Quad) :
    List Quad :=
  .label again :: ([⟨.compare .lessEqual, some (.var counter), some (.temp limit),
      some (.temp test)⟩] ++
    .branch .jumpIfZero (.temp test) done ::
      ((inside ++ ([⟨.arithmetic .add, some (.var counter), some (.temp stride),
          some (.temp sum)⟩] ++ [.assign (.temp sum) (.var counter)])) ++
        [.jump again, .label done]))

/-- The limit and the stride stand in the frame, so the body leaves them alone in every round. -/
theorem count_code_realizes {inside : List Quad} {body : Effect Value Feed}
    {limit stride test sum : Nat} (counter : String) (again done : Nat)
    (distinct : (definedLabels code).Nodup)
    (insides : Realizes meaning code low base inside body)
    (limits : limit < low) (strides : stride < low) (tests : low ≤ test) (sums : low ≤ sum) :
    Realizes meaning code low base
      (countCode counter again done limit stride test sum inside)
      (Effect.count meaning counter (base limit) (base stride) body) := by
  have tested : Computes meaning code low base
      (.compute [] (.compare .lessEqual) (.var counter) (some (.temp limit)) test)
      fun world : World Value Feed =>
        meaning.compared .lessEqual (world.store counter) (base limit) :=
    .with_frame (fun _ => rfl) limits tests
  have summed : Computes meaning code low base
      (.compute [] (.arithmetic .add) (.var counter) (some (.temp stride)) sum)
      fun world : World Value Feed =>
        meaning.arithmetic .add (world.store counter) (base stride) :=
    .with_frame (fun _ => rfl) strides sums
  exact .loop distinct tested (insides.append (.store counter summed))

theorem Stmt.lower_for_loop_code (supply : Supply) (counter : Ident) (first last step : Expr)
    (body : List Stmt) (place : Place) :
    let limit := last.lower (first.lower supply.temps).next
    let stride := step.lower limit.held.next
    let inside := Stmt.lowerAll ⟨stride.held.next + 1, supply.labels + 2⟩ body
    (Stmt.lower supply (.forLoop counter first last step body place)).code =
      (first.lowerInto counter.name supply).code ++
        ((limit.held.code ++ stride.held.code) ++
          countCode counter.name supply.labels (supply.labels + 1) limit.next stride.next
            stride.held.next inside.supply.temps inside.code) := by
  simp [Stmt.lower, Expr.lowerInto, LoweredValue.held, LoweredValue.compute, Quad.assign,
    countCode]

mutual

theorem Stmt.lower_realizes (distinct : (definedLabels code).Nodup) (stmt : Stmt)
    (supply : Supply) (base : Nat → Value) :
    Realizes meaning code supply.temps base (stmt.lower supply).code
      (stmt.Executes meaning : Effect Value Feed) := by
  match stmt with
  | .scalar name type place | .array name element size position place =>
      simp only [Stmt.Executes]
      exact .nil
  | .constant name type position value place =>
      simp only [Stmt.Executes]
      exact value.lower_into_realizes name.name supply base
  | .assign target value place =>
      simp only [Stmt.Executes]
      exact value.lower_into_realizes target.name supply base
  | .ifThen condition body place =>
      have insides := Stmt.lower_all_realizes distinct body
        ⟨(condition.lower supply.temps).next, supply.labels + 2⟩
      simp only [Stmt.Executes, Stmt.lower, List.append_assoc, List.cons_append, List.nil_append]
      exact .choice distinct (condition.lower_computes supply.temps base)
        (.narrow (condition.next_le_lower supply.temps) insides) .nil
  | .ifElse condition body alternative place =>
      have wider := condition.next_le_lower supply.temps
      have insides := Stmt.lower_all_realizes distinct body
        ⟨(condition.lower supply.temps).next, supply.labels + 2⟩
      have grows := Stmt.supply_grows_lower_all body
        ⟨(condition.lower supply.temps).next, supply.labels + 2⟩
      have others := Stmt.lower_all_realizes distinct alternative
        (Stmt.lowerAll ⟨(condition.lower supply.temps).next, supply.labels + 2⟩ body).supply
      simp only [Stmt.Executes, Stmt.lower, List.append_assoc, List.cons_append, List.nil_append]
      exact .choice distinct (condition.lower_computes supply.temps base)
        (.narrow wider insides) (.narrow (wider.trans grows.temps) others)
  | .doWhile body condition place =>
      have insides := Stmt.lower_all_realizes distinct body
        ⟨supply.temps, supply.labels + 2⟩ base
      have grows := Stmt.supply_grows_lower_all body ⟨supply.temps, supply.labels + 2⟩
      simp only [Stmt.Executes, Stmt.lower, List.append_assoc, List.cons_append, List.nil_append]
      exact .repetition distinct insides (.narrow grows.temps (condition.lower_computes _))
  | .forLoop counter first last step body place =>
      let limit := last.lower (first.lower supply.temps).next
      let stride := step.lower limit.held.next
      have entry : supply.temps ≤ (first.lower supply.temps).next :=
        first.next_le_lower supply.temps
      have limits : limit.next < stride.held.next :=
        Nat.lt_succ_of_le (Nat.le_of_succ_le (step.next_le_lower limit.held.next))
      have wider : (first.lower supply.temps).next ≤ stride.held.next :=
        (last.next_le_lower _).trans (Nat.le_of_lt limits)
      have insides := Stmt.lower_all_realizes distinct body
        ⟨stride.held.next + 1, supply.labels + 2⟩
      have grows := Stmt.supply_grows_lower_all body ⟨stride.held.next + 1, supply.labels + 2⟩
      rw [Stmt.lower_for_loop_code]
      simp only [Stmt.Executes]
      refine .append (first.lower_into_realizes counter.name supply base) (.narrow entry ?_)
      intro temps
      refine .behind_prepared (bounds_prepared last step _ temps) wider
        (fun later => count_code_realizes counter.name _ _ distinct
          (.narrow (Nat.le_succ _) insides) limits (Nat.lt_succ_self _) (Nat.le_refl _)
          ((Nat.le_succ _).trans grows.temps)) ?_
      intro world later known after
      rw [known.1, known.2]
  | .input target place =>
      simp only [Stmt.Executes]
      exact Stmt.lower_input_realizes target.name
  | .output text names place =>
      simp only [Stmt.Executes]
      exact Stmt.lower_output_realizes text names

theorem Stmt.lower_all_realizes (distinct : (definedLabels code).Nodup) (stmts : List Stmt)
    (supply : Supply) (base : Nat → Value) :
    Realizes meaning code supply.temps base (Stmt.lowerAll supply stmts).code
      (Stmt.ExecutesAll meaning stmts : Effect Value Feed) := by
  match stmts with
  | [] =>
      simp only [Stmt.ExecutesAll]
      exact .nil
  | first :: rest =>
      simp only [Stmt.ExecutesAll]
      exact .append (first.lower_realizes distinct supply base)
        (.narrow (first.supply_grows_lower supply).temps
          (Stmt.lower_all_realizes distinct rest (first.lower supply).supply))

end

/-- A program comes to an end in a world exactly when its code, run from the first quadruple, comes
to its end in that world. -/
theorem Program.lower_reaches_end_iff (meaning : Interpretation Value) (program : Program)
    (world after : World Value Feed) (temps : Nat → Value) :
    program.Executes meaning world after ↔
      ∃ later, Reaches meaning (program.lower .fresh).code ⟨0, world, temps⟩
        ⟨(program.lower .fresh).code.length, after, later⟩ := by
  have distinct := program.nodup_defined_labels_lower .fresh
  have realizes : Realizes meaning (program.lower .fresh).code 0 temps
      (program.lower .fresh).code (program.Executes meaning : Effect Value Feed) :=
    Stmt.lower_all_realizes distinct program .fresh temps
  have stands := stands_whole (program.lower .fresh).code
  have kept := Kept.refl 0 temps
  constructor
  · intro executes
    obtain ⟨later, ran, _⟩ := realizes.follows 0 world after temps stands kept executes
    rw [Nat.zero_add] at ran
    exact ⟨later, ran⟩
  · rintro ⟨later, steps, ran⟩
    obtain ⟨other, executes⟩ :=
      realizes.allowed steps 0 world temps stands kept ⟨_, ran, rfl⟩
    obtain ⟨last, reached, _⟩ := realizes.follows 0 world other temps stands kept executes
    rw [Nat.zero_add] at reached
    have same := reaches_end_unique reached rfl ⟨steps, ran⟩ rfl
    cases same
    exact executes

end ThreeAddress
