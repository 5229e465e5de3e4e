import Mathlib.Data.List.Intervals
import ThreeAddress.Quad.Generator

/-!
# What lowering takes from a supply

Lowering never gives back a temporary or a label. An expression puts no label; a statement puts
exactly the labels that it took, each of them once.
-/

namespace ThreeAddress

set_option autoImplicit false

namespace Quad

@[simp] theorem defined_labels_nil : definedLabels [] = [] := rfl

@[simp] theorem defined_labels_append (front back : List Quad) :
    definedLabels (front ++ back) = definedLabels front ++ definedLabels back := by
  rw [definedLabels, List.filterMap_append]
  rfl

@[simp] theorem defined_labels_label (number : Nat) (rest : List Quad) :
    definedLabels (.label number :: rest) = number :: definedLabels rest := rfl

theorem defined_labels_cons_of_ne_label {quad : Quad} (other : quad.op ≠ .label)
    (rest : List Quad) : definedLabels (quad :: rest) = definedLabels rest := by
  have none : quad.defined? = none := by rw [defined?, if_neg other]
  rw [definedLabels, List.filterMap_cons_none none]
  rfl

@[simp] theorem defined_labels_assign (value target : Operand) (rest : List Quad) :
    definedLabels (.assign value target :: rest) = definedLabels rest := rfl

@[simp] theorem defined_labels_jump (number : Nat) (rest : List Quad) :
    definedLabels (.jump number :: rest) = definedLabels rest := rfl

@[simp] theorem defined_labels_branch {op : Operation} (other : op ≠ .label) (condition : Operand)
    (number : Nat) (rest : List Quad) :
    definedLabels (.branch op condition number :: rest) = definedLabels rest :=
  defined_labels_cons_of_ne_label other rest

end Quad

theorem Expr.next_le_lower (expr : Expr) (next : Nat) : next ≤ (expr.lower next).next := by
  induction expr generalizing next with
  | identifier | integer | float => exact Nat.le_refl next
  | element array index place ih => exact Nat.le_succ_of_le (ih next)
  | paren inner place ih => exact ih next
  | negate inner place ih => exact Nat.le_succ_of_le (ih next)
  | binary op left right place ihLeft ihRight =>
      exact Nat.le_succ_of_le ((ihLeft next).trans (ihRight _))

theorem Cond.next_le_lower (cond : Cond) (next : Nat) : next ≤ (cond.lower next).next := by
  induction cond generalizing next with
  | compare op position left right place =>
      exact Nat.le_succ_of_le ((left.next_le_lower next).trans (right.next_le_lower _))
  | and left right place ihLeft ihRight | or left right place ihLeft ihRight =>
      exact Nat.le_succ_of_le ((ihLeft next).trans (ihRight _))
  | not inner place ih => exact Nat.le_succ_of_le (ih next)
  | paren inner place ih => exact ih next

/-- A counting loop with its parts in the order of its code. -/
theorem Stmt.lower_for_loop (supply : Supply) (counter : Ident) (first last step : Expr)
    (body : List Stmt) (place : Place) :
    let origin := first.lower supply.temps
    let bound := last.lower origin.next
    let stride := step.lower (bound.next + 1)
    let inside := Stmt.lowerAll ⟨stride.next + 2, supply.labels + 2⟩ body
    Stmt.lower supply (.forLoop counter first last step body place) =
      ⟨origin.code ++ .assign origin.value (.var counter.name) ::
        (bound.code ++ .assign bound.value (.temp bound.next) ::
          (stride.code ++ .assign stride.value (.temp stride.next) :: .label supply.labels ::
            ⟨.compare .lessEqual, some (.var counter.name), some (.temp bound.next),
              some (.temp (stride.next + 1))⟩ ::
            .branch .jumpIfZero (.temp (stride.next + 1)) (supply.labels + 1) ::
            (inside.code ++
              [⟨.arithmetic .add, some (.var counter.name), some (.temp stride.next),
                some (.temp inside.supply.temps)⟩,
                .assign (.temp inside.supply.temps) (.var counter.name),
                .jump supply.labels, .label (supply.labels + 1)]))),
        ⟨inside.supply.temps + 1, inside.supply.labels⟩⟩ := by
  simp [Stmt.lower, Expr.lowerInto, LoweredValue.compute]

def Operation.computes : Operation → Bool
  | .arithmetic _ | .compare _ | .and | .or | .not | .arrayRead => true
  | .assign | .jump | .jumpIfZero | .jumpIfTrue | .label | .input | .output => false

inductive Quad.Computes : Quad → Prop
  | temp {op : Operation} (first : Operand) (second : Option Operand) (number : Nat) :
      op.computes = true → Computes ⟨op, some first, second, some (.temp number)⟩

theorem LoweredValue.computes_compute {code : List Quad}
    (computes : ∀ quad ∈ code, quad.Computes) {op : Operation} (computing : op.computes = true)
    (first : Operand) (second : Option Operand) (next : Nat) :
    ∀ quad ∈ (LoweredValue.compute code op first second next).code, quad.Computes := by
  rw [LoweredValue.compute, List.forall_mem_append]
  exact ⟨computes, List.forall_mem_singleton.mpr (.temp first second next computing)⟩

/-- An expression does nothing but compute temporaries. -/
theorem Expr.computes_lower (expr : Expr) (next : Nat) :
    ∀ quad ∈ (expr.lower next).code, quad.Computes := by
  induction expr generalizing next with
  | identifier | integer | float => exact List.forall_mem_nil _
  | element array index place ih => exact LoweredValue.computes_compute (ih next) rfl _ _ _
  | paren inner place ih => exact ih next
  | negate inner place ih => exact LoweredValue.computes_compute (ih next) rfl _ _ _
  | binary op left right place ihLeft ihRight =>
      exact LoweredValue.computes_compute
        (List.forall_mem_append.mpr ⟨ihLeft next, ihRight _⟩) rfl _ _ _

theorem Cond.computes_lower (cond : Cond) (next : Nat) :
    ∀ quad ∈ (cond.lower next).code, quad.Computes := by
  induction cond generalizing next with
  | compare op position left right place =>
      exact LoweredValue.computes_compute
        (List.forall_mem_append.mpr ⟨left.computes_lower next, right.computes_lower _⟩) rfl _ _ _
  | and left right place ihLeft ihRight | or left right place ihLeft ihRight =>
      exact LoweredValue.computes_compute
        (List.forall_mem_append.mpr ⟨ihLeft next, ihRight _⟩) rfl _ _ _
  | not inner place ih => exact LoweredValue.computes_compute (ih next) rfl _ _ _
  | paren inner place ih => exact ih next

/-- An output does nothing but write operands. -/
theorem Stmt.exists_of_mem_lower_output {text : Option String} {names : List Ident} {quad : Quad}
    (member : quad ∈ Stmt.lowerOutput text names) :
    ∃ operand, quad = ⟨.output, some operand, none, none⟩ := by
  rcases List.mem_append.mp member with written | named
  · obtain ⟨text, _, rfl⟩ := List.mem_map.mp written
    exact ⟨_, rfl⟩
  · obtain ⟨name, _, rfl⟩ := List.mem_map.mp named
    exact ⟨_, rfl⟩

section

variable {α : Type} {told : Quad → Option α}

/-- What no computation tells is not told by an expression. -/
theorem Expr.filter_map_lower (silent : ∀ quad : Quad, quad.Computes → told quad = none)
    (expr : Expr) (next : Nat) : (expr.lower next).code.filterMap told = [] :=
  List.filterMap_eq_nil_iff.mpr fun quad member =>
    silent quad (expr.computes_lower next quad member)

theorem Cond.filter_map_lower (silent : ∀ quad : Quad, quad.Computes → told quad = none)
    (cond : Cond) (next : Nat) : (cond.lower next).code.filterMap told = [] :=
  List.filterMap_eq_nil_iff.mpr fun quad member =>
    silent quad (cond.computes_lower next quad member)

theorem Stmt.filter_map_lower_output
    (silent : ∀ operand, told ⟨.output, some operand, none, none⟩ = none)
    (text : Option String) (names : List Ident) :
    (Stmt.lowerOutput text names).filterMap told = [] := by
  apply List.filterMap_eq_nil_iff.mpr
  intro quad member
  obtain ⟨operand, rfl⟩ := Stmt.exists_of_mem_lower_output member
  exact silent operand

end

theorem Quad.Computes.defined_eq_none {quad : Quad} (computes : quad.Computes) :
    quad.defined? = none := by
  cases computes with
  | temp first second number computing => exact ite_self none

theorem Expr.defined_labels_lower (expr : Expr) (next : Nat) :
    Quad.definedLabels (expr.lower next).code = [] :=
  expr.filter_map_lower (fun _ computes => computes.defined_eq_none) next

theorem Cond.defined_labels_lower (cond : Cond) (next : Nat) :
    Quad.definedLabels (cond.lower next).code = [] :=
  cond.filter_map_lower (fun _ computes => computes.defined_eq_none) next

namespace Supply

/-- Nothing has been given back. -/
structure Grows (before after : Supply) : Prop where
  temps : before.temps ≤ after.temps
  labels : before.labels ≤ after.labels

theorem Grows.refl (supply : Supply) : Grows supply supply :=
  ⟨Nat.le_refl _, Nat.le_refl _⟩

theorem Grows.trans {before middle after : Supply} (first : Grows before middle)
    (second : Grows middle after) : Grows before after :=
  ⟨first.temps.trans second.temps, first.labels.trans second.labels⟩

def labelsBetween (before after : Supply) : List Nat :=
  List.Ico before.labels after.labels

theorem labels_between_self (supply : Supply) : supply.labelsBetween supply = [] :=
  List.Ico.self_empty

theorem labels_between_append {before middle after : Supply} (first : Grows before middle)
    (second : Grows middle after) :
    before.labelsBetween middle ++ middle.labelsBetween after = before.labelsBetween after :=
  List.Ico.append_consecutive first.labels second.labels

/-- A statement puts two labels around those of its blocks. -/
theorem labels_around (before after : Supply) {temps : Nat} {front back : List Nat}
    (grows : Grows ⟨temps, before.labels + 2⟩ after)
    (blocks : (front ++ back).Perm (labelsBetween ⟨temps, before.labels + 2⟩ after)) :
    (front ++ before.labels :: (back ++ [before.labels + 1])).Perm
      (before.labelsBetween after) := by
  have within : before.labels + 2 ≤ after.labels := grows.labels
  have interval : before.labelsBetween after =
      before.labels :: (before.labels + 1) ::
        labelsBetween ⟨temps, before.labels + 2⟩ after := by
    rw [labelsBetween, List.Ico.eq_cons (by omega), List.Ico.eq_cons (by omega)]
    rfl
  rw [interval]
  calc
    (front ++ before.labels :: (back ++ [before.labels + 1])).Perm
        (before.labels :: (front ++ (back ++ [before.labels + 1]))) := List.perm_middle
    _ = before.labels :: ((front ++ back) ++ [before.labels + 1]) := by rw [List.append_assoc]
    (before.labels :: ((front ++ back) ++ [before.labels + 1])).Perm
        (before.labels :: (before.labels + 1) :: (front ++ back)) :=
      (List.perm_append_singleton _ _).cons _
    (before.labels :: (before.labels + 1) :: (front ++ back)).Perm
        (before.labels :: (before.labels + 1) ::
          labelsBetween ⟨temps, before.labels + 2⟩ after) := (blocks.cons _).cons _

end Supply

mutual

theorem Stmt.supply_grows_lower (stmt : Stmt) (supply : Supply) :
    supply.Grows (stmt.lower supply).supply := by
  match stmt with
  | .scalar .. | .array .. | .input .. | .output .. => exact .refl supply
  | .constant name type position value place =>
      exact ⟨value.next_le_lower supply.temps, Nat.le_refl _⟩
  | .assign target value place =>
      exact ⟨value.next_le_lower supply.temps, Nat.le_refl _⟩
  | .ifThen condition body place =>
      have test := condition.next_le_lower supply.temps
      have inside := Stmt.supply_grows_lower_all body
        ⟨(condition.lower supply.temps).next, supply.labels + 2⟩
      exact .trans ⟨test, Nat.le_add_right _ 2⟩ inside
  | .ifElse condition body alternative place =>
      have test := condition.next_le_lower supply.temps
      have inside := Stmt.supply_grows_lower_all body
        ⟨(condition.lower supply.temps).next, supply.labels + 2⟩
      exact .trans ⟨test, Nat.le_add_right _ 2⟩
        (inside.trans (Stmt.supply_grows_lower_all alternative _))
  | .doWhile body condition place =>
      have inside := Stmt.supply_grows_lower_all body ⟨supply.temps, supply.labels + 2⟩
      have test := condition.next_le_lower
        (Stmt.lowerAll ⟨supply.temps, supply.labels + 2⟩ body).supply.temps
      exact ⟨inside.temps.trans test, (Nat.le_add_right _ 2).trans inside.labels⟩
  | .forLoop counter first last step body place =>
      have start := first.next_le_lower supply.temps
      have bound := last.next_le_lower (first.lower supply.temps).next
      have stride := step.next_le_lower ((last.lower (first.lower supply.temps).next).next + 1)
      have inside := Stmt.supply_grows_lower_all body
        ⟨(step.lower ((last.lower (first.lower supply.temps).next).next + 1)).next + 1 + 1,
          supply.labels + 2⟩
      have temps := inside.temps
      have labels := inside.labels
      simp only at temps labels
      constructor
      · simp only [Stmt.lower, Expr.lowerInto, LoweredValue.compute]
        omega
      · simp only [Stmt.lower, Expr.lowerInto, LoweredValue.compute]
        omega

theorem Stmt.supply_grows_lower_all (stmts : List Stmt) (supply : Supply) :
    supply.Grows (Stmt.lowerAll supply stmts).supply := by
  match stmts with
  | [] => exact .refl supply
  | first :: rest =>
      exact (first.supply_grows_lower supply).trans (Stmt.supply_grows_lower_all rest _)

end

theorem Stmt.defined_labels_lower_output (text : Option String) (names : List Ident) :
    Quad.definedLabels (Stmt.lowerOutput text names) = [] :=
  Stmt.filter_map_lower_output (fun _ => rfl) text names

mutual

theorem Stmt.defined_labels_lower_perm (stmt : Stmt) (supply : Supply) :
    (Quad.definedLabels (stmt.lower supply).code).Perm
      (supply.labelsBetween (stmt.lower supply).supply) := by
  match stmt with
  | .scalar .. | .array .. | .input .. =>
      simp only [Stmt.lower, Supply.labels_between_self]
      exact .refl _
  | .output text names place =>
      simp only [Stmt.lower, Supply.labels_between_self, Stmt.defined_labels_lower_output]
      exact .refl _
  | .constant name type position value place =>
      simp [Stmt.lower, Expr.lowerInto, Supply.labelsBetween, value.defined_labels_lower]
  | .assign target value place =>
      simp [Stmt.lower, Expr.lowerInto, Supply.labelsBetween, value.defined_labels_lower]
  | .ifThen condition body place =>
      let entry : Supply := ⟨(condition.lower supply.temps).next, supply.labels + 2⟩
      have inside := Stmt.defined_labels_lower_all_perm body entry
      have grows := Stmt.supply_grows_lower_all body entry
      have labels : Quad.definedLabels (Stmt.lower supply (.ifThen condition body place)).code =
          Quad.definedLabels (Stmt.lowerAll entry body).code ++
            supply.labels :: ([] ++ [supply.labels + 1]) := by
        simp [Stmt.lower, condition.defined_labels_lower, entry]
      rw [labels]
      refine Supply.labels_around supply (Stmt.lowerAll entry body).supply grows ?_
      rw [List.append_nil]
      exact inside
  | .ifElse condition body alternative place =>
      let entry : Supply := ⟨(condition.lower supply.temps).next, supply.labels + 2⟩
      let middle := (Stmt.lowerAll entry body).supply
      have inside := Stmt.defined_labels_lower_all_perm body entry
      have other := Stmt.defined_labels_lower_all_perm alternative middle
      have grows : entry.Grows middle := Stmt.supply_grows_lower_all body entry
      have further := Stmt.supply_grows_lower_all alternative middle
      have labels :
          Quad.definedLabels (Stmt.lower supply (.ifElse condition body alternative place)).code =
            Quad.definedLabels (Stmt.lowerAll entry body).code ++ supply.labels ::
              (Quad.definedLabels (Stmt.lowerAll middle alternative).code ++
                [supply.labels + 1]) := by
        simp [Stmt.lower, condition.defined_labels_lower, entry, middle]
      rw [labels]
      have blocks := inside.append other
      rw [Supply.labels_between_append grows further] at blocks
      exact Supply.labels_around supply (Stmt.lowerAll middle alternative).supply
        (grows.trans further) blocks
  | .doWhile body condition place =>
      let entry : Supply := ⟨supply.temps, supply.labels + 2⟩
      have inside := Stmt.defined_labels_lower_all_perm body entry
      have grows := Stmt.supply_grows_lower_all body entry
      have labels : Quad.definedLabels (Stmt.lower supply (.doWhile body condition place)).code =
          [] ++ supply.labels ::
            (Quad.definedLabels (Stmt.lowerAll entry body).code ++ [supply.labels + 1]) := by
        simp [Stmt.lower, condition.defined_labels_lower, entry]
      rw [labels]
      exact Supply.labels_around supply (Stmt.lowerAll entry body).supply grows inside
  | .forLoop counter first last step body place =>
      let bound := last.lower (first.lower supply.temps).next
      let stride := step.lower (bound.next + 1)
      let entry : Supply := ⟨stride.next + 1 + 1, supply.labels + 2⟩
      have inside := Stmt.defined_labels_lower_all_perm body entry
      have grows := Stmt.supply_grows_lower_all body entry
      have labels :
          Quad.definedLabels (Stmt.lower supply (.forLoop counter first last step body place)).code =
            [] ++ supply.labels ::
              (Quad.definedLabels (Stmt.lowerAll entry body).code ++ [supply.labels + 1]) := by
        simp [Stmt.lower, Expr.lowerInto, LoweredValue.compute, first.defined_labels_lower,
          last.defined_labels_lower, step.defined_labels_lower, entry, stride, bound,
          Quad.defined_labels_cons_of_ne_label]
      rw [labels]
      exact Supply.labels_around supply (Stmt.lowerAll entry body).supply grows inside

theorem Stmt.defined_labels_lower_all_perm (stmts : List Stmt) (supply : Supply) :
    (Quad.definedLabels (Stmt.lowerAll supply stmts).code).Perm
      (supply.labelsBetween (Stmt.lowerAll supply stmts).supply) := by
  match stmts with
  | [] =>
      simp only [Stmt.lowerAll, Supply.labels_between_self]
      exact .refl _
  | first :: rest =>
      have front := first.defined_labels_lower_perm supply
      have back := Stmt.defined_labels_lower_all_perm rest (first.lower supply).supply
      rw [Stmt.lowerAll, Quad.defined_labels_append,
        ← Supply.labels_between_append (first.supply_grows_lower supply)
          (Stmt.supply_grows_lower_all rest _)]
      exact front.append back

end

/-- No label is put twice. -/
theorem Program.nodup_defined_labels_lower (program : Program) (supply : Supply) :
    (Quad.definedLabels (program.lower supply).code).Nodup :=
  (Stmt.defined_labels_lower_all_perm program supply).nodup_iff.mpr (List.Ico.nodup _ _)

namespace Generator

/-- Each of the codes comes from a supply that has grown out of the first one. -/
theorem exists_of_mem_generate_each {programs : List Program} {supply : Supply} {code : List Quad}
    (member : code ∈ Generator.generateEach ⟨[], supply⟩ programs) :
    ∃ (program : Program) (after : Supply),
      supply.Grows after ∧ code = (program.lower after).code := by
  induction programs generalizing supply with
  | nil => cases member
  | cons program rest ih =>
      rcases List.mem_cons.mp member with rfl | later
      · exact ⟨program, supply, .refl supply, rfl⟩
      · obtain ⟨other, after, grown, rfl⟩ := ih later
        exact ⟨other, after, (Stmt.supply_grows_lower_all program supply).trans grown, rfl⟩

/-- What keeps the code of a program apart from the code of any program after it keeps all the codes
of a generator apart. -/
theorem pairwise_generate_each {apart : List Quad → List Quad → Prop}
    (step : ∀ {earlier later : Program} {supply after : Supply},
      (earlier.lower supply).supply.Grows after →
        apart (earlier.lower supply).code (later.lower after).code)
    (supply : Supply) (programs : List Program) :
    (Generator.generateEach ⟨[], supply⟩ programs).Pairwise apart := by
  induction programs generalizing supply with
  | nil => exact .nil
  | cons program rest ih =>
      refine .cons ?_ (ih (program.lower supply).supply)
      intro code later
      obtain ⟨other, after, grown, rfl⟩ := exists_of_mem_generate_each later
      exact step grown

end Generator

end ThreeAddress
