import ThreeAddress.Proofs.Quad.Supply

/-!
# Segments of lowered code

Every statement of a program, however deep it is nested, has a segment of the code to itself. Main
statement: a call of lowering puts exactly the labels that it takes, two for each branching
statement and each of them once; a jump inside a segment stays inside it, and no jump from around a
segment leads into it; and calls that share a supply put different labels.
-/

namespace ThreeAddress

set_option autoImplicit false

namespace Quad

@[simp] theorem jump_targets_nil : jumpTargets [] = [] := rfl

@[simp] theorem jump_targets_append (front back : List Quad) :
    jumpTargets (front ++ back) = jumpTargets front ++ jumpTargets back := by
  rw [jumpTargets, List.filterMap_append]
  rfl

@[simp] theorem jump_targets_label (number : Nat) (rest : List Quad) :
    jumpTargets (.label number :: rest) = jumpTargets rest := rfl

@[simp] theorem jump_targets_assign (value target : Operand) (rest : List Quad) :
    jumpTargets (.assign value target :: rest) = jumpTargets rest := rfl

@[simp] theorem jump_targets_jump (number : Nat) (rest : List Quad) :
    jumpTargets (.jump number :: rest) = number :: jumpTargets rest := rfl

@[simp] theorem jump_targets_jump_if_zero (condition : Operand) (number : Nat) (rest : List Quad) :
    jumpTargets (.branch .jumpIfZero condition number :: rest) = number :: jumpTargets rest := rfl

@[simp] theorem jump_targets_jump_if_true (condition : Operand) (number : Nat) (rest : List Quad) :
    jumpTargets (.branch .jumpIfTrue condition number :: rest) = number :: jumpTargets rest := rfl

@[simp] theorem jump_targets_arithmetic (op : BinaryOp) (first second result : Option Operand)
    (rest : List Quad) :
    jumpTargets (⟨.arithmetic op, first, second, result⟩ :: rest) = jumpTargets rest := rfl

@[simp] theorem jump_targets_compare (op : CompareOp) (first second result : Option Operand)
    (rest : List Quad) :
    jumpTargets (⟨.compare op, first, second, result⟩ :: rest) = jumpTargets rest := rfl

theorem Computes.target_eq_none {quad : Quad} (computes : quad.Computes) :
    quad.target? = none := by
  cases computes with
  | temp first second number computing => exact ite_self none

end Quad

theorem Expr.jump_targets_lower (expr : Expr) (next : Nat) :
    Quad.jumpTargets (expr.lower next).code = [] :=
  expr.filter_map_lower (fun _ computes => computes.target_eq_none) next

theorem Cond.jump_targets_lower (cond : Cond) (next : Nat) :
    Quad.jumpTargets (cond.lower next).code = [] :=
  cond.filter_map_lower (fun _ computes => computes.target_eq_none) next

theorem Stmt.jump_targets_lower_output (text : Option String) (names : List Ident) :
    Quad.jumpTargets (Stmt.lowerOutput text names) = [] :=
  Stmt.filter_map_lower_output (fun _ => rfl) text names

namespace Supply

theorem mem_labels_between_iff (before after : Supply) (label : Nat) :
    label ∈ before.labelsBetween after ↔ before.labels ≤ label ∧ label < after.labels :=
  List.Ico.mem

/-- What was taken on the way was taken in the whole. -/
theorem labels_between_subset {before first second after : Supply} (start : before.Grows first)
    (stop : second.Grows after) : first.labelsBetween second ⊆ before.labelsBetween after := by
  intro label member
  rw [mem_labels_between_iff] at member ⊢
  exact ⟨start.labels.trans member.1, Nat.lt_of_lt_of_le member.2 stop.labels⟩

end Supply

theorem Stmt.mem_defined_labels_lower_iff (stmt : Stmt) (supply : Supply) (label : Nat) :
    label ∈ Quad.definedLabels (stmt.lower supply).code ↔
      label ∈ supply.labelsBetween (stmt.lower supply).supply :=
  (stmt.defined_labels_lower_perm supply).mem_iff

theorem Stmt.mem_defined_labels_lower_all_iff (stmts : List Stmt) (supply : Supply) (label : Nat) :
    label ∈ Quad.definedLabels (Stmt.lowerAll supply stmts).code ↔
      label ∈ supply.labelsBetween (Stmt.lowerAll supply stmts).supply :=
  (Stmt.defined_labels_lower_all_perm stmts supply).mem_iff

/-- A branching statement jumps to its own two labels and inside its blocks. -/
theorem Supply.targets_around {supply after : Supply} (entry : Supply) {targets : List Nat}
    (step : entry.labels = supply.labels + 2) (grows : entry.Grows after)
    (own : ∀ target ∈ targets, target = supply.labels ∨ target = supply.labels + 1 ∨
      target ∈ entry.labelsBetween after) :
    targets ⊆ supply.labelsBetween after := by
  intro target member
  have room := grows.labels
  rw [Supply.mem_labels_between_iff]
  rcases own target member with rfl | rfl | inside
  · omega
  · omega
  · rw [Supply.mem_labels_between_iff] at inside
    omega

mutual

/-- The jumps of a statement go to labels that the statement took. -/
theorem Stmt.jump_targets_lower_subset (stmt : Stmt) (supply : Supply) :
    Quad.jumpTargets (stmt.lower supply).code ⊆
      supply.labelsBetween (stmt.lower supply).supply := by
  match stmt with
  | .scalar .. | .array .. | .input .. => exact List.nil_subset _
  | .output text names place =>
      rw [Stmt.lower, Stmt.jump_targets_lower_output]
      exact List.nil_subset _
  | .constant name type position value place =>
      simp [Stmt.lower, Expr.lowerInto, value.jump_targets_lower]
  | .assign target value place =>
      simp [Stmt.lower, Expr.lowerInto, value.jump_targets_lower]
  | .ifThen condition body place =>
      let entry : Supply := ⟨(condition.lower supply.temps).next, supply.labels + 2⟩
      have inside := Stmt.jump_targets_lower_all_subset body entry
      have grows := Stmt.supply_grows_lower_all body entry
      have jumps : Quad.jumpTargets (Stmt.lower supply (.ifThen condition body place)).code =
          supply.labels :: (Quad.jumpTargets (Stmt.lowerAll entry body).code ++
            [supply.labels + 1]) := by
        simp [Stmt.lower, condition.jump_targets_lower, entry]
      rw [jumps]
      refine Supply.targets_around entry rfl grows ?_
      intro target member
      simp only [List.mem_cons, List.mem_append, List.not_mem_nil, or_false] at member
      rcases member with start | within | stop
      · exact .inl start
      · exact .inr (.inr (inside within))
      · exact .inr (.inl stop)
  | .ifElse condition body alternative place =>
      let entry : Supply := ⟨(condition.lower supply.temps).next, supply.labels + 2⟩
      let middle := (Stmt.lowerAll entry body).supply
      have inside := Stmt.jump_targets_lower_all_subset body entry
      have other := Stmt.jump_targets_lower_all_subset alternative middle
      have grows : entry.Grows middle := Stmt.supply_grows_lower_all body entry
      have further := Stmt.supply_grows_lower_all alternative middle
      have jumps :
          Quad.jumpTargets (Stmt.lower supply (.ifElse condition body alternative place)).code =
            supply.labels :: (Quad.jumpTargets (Stmt.lowerAll entry body).code ++
              (supply.labels + 1) :: Quad.jumpTargets (Stmt.lowerAll middle alternative).code) := by
        simp [Stmt.lower, condition.jump_targets_lower, entry, middle]
      rw [jumps]
      refine Supply.targets_around entry rfl (grows.trans further) ?_
      intro target member
      simp only [List.mem_cons, List.mem_append] at member
      rcases member with start | within | stop | within
      · exact .inl start
      · exact .inr (.inr (Supply.labels_between_subset (.refl entry) further (inside within)))
      · exact .inr (.inl stop)
      · exact .inr (.inr (Supply.labels_between_subset grows (.refl _) (other within)))
  | .doWhile body condition place =>
      let entry : Supply := ⟨supply.temps, supply.labels + 2⟩
      have inside := Stmt.jump_targets_lower_all_subset body entry
      have grows := Stmt.supply_grows_lower_all body entry
      have jumps : Quad.jumpTargets (Stmt.lower supply (.doWhile body condition place)).code =
          Quad.jumpTargets (Stmt.lowerAll entry body).code ++ [supply.labels] := by
        simp [Stmt.lower, condition.jump_targets_lower, entry]
      rw [jumps]
      refine Supply.targets_around entry rfl ⟨?_, grows.labels⟩ ?_
      · exact grows.temps.trans (condition.next_le_lower _)
      intro target member
      simp only [List.mem_append, List.mem_singleton] at member
      rcases member with within | again
      · exact .inr (.inr (inside within))
      · exact .inl again
  | .forLoop counter first last step body place =>
      let bound := last.lower (first.lower supply.temps).next
      let stride := step.lower (bound.next + 1)
      let entry : Supply := ⟨stride.next + 2, supply.labels + 2⟩
      have inside := Stmt.jump_targets_lower_all_subset body entry
      have grows := Stmt.supply_grows_lower_all body entry
      have jumps :
          Quad.jumpTargets (Stmt.lower supply (.forLoop counter first last step body place)).code =
            (supply.labels + 1) :: (Quad.jumpTargets (Stmt.lowerAll entry body).code ++
              [supply.labels]) := by
        simp [Stmt.lower_for_loop, first.jump_targets_lower, last.jump_targets_lower,
          step.jump_targets_lower, entry, stride, bound]
      rw [jumps, Stmt.lower_for_loop]
      refine Supply.targets_around entry rfl
        ⟨Nat.le_succ_of_le grows.temps, grows.labels⟩ ?_
      intro target member
      simp only [List.mem_cons, List.mem_append, List.not_mem_nil, or_false] at member
      rcases member with stop | within | again
      · exact .inr (.inl stop)
      · exact .inr (.inr (inside within))
      · exact .inl again

theorem Stmt.jump_targets_lower_all_subset (stmts : List Stmt) (supply : Supply) :
    Quad.jumpTargets (Stmt.lowerAll supply stmts).code ⊆
      supply.labelsBetween (Stmt.lowerAll supply stmts).supply := by
  match stmts with
  | [] => exact List.nil_subset _
  | first :: rest =>
      have front := first.jump_targets_lower_subset supply
      have back := Stmt.jump_targets_lower_all_subset rest (first.lower supply).supply
      rw [Stmt.lowerAll, Quad.jump_targets_append,
        ← Supply.labels_between_append (first.supply_grows_lower supply)
          (Stmt.supply_grows_lower_all rest _)]
      exact List.append_subset.mpr
        ⟨List.subset_append_of_subset_left _ front, List.subset_append_of_subset_right _ back⟩

end

namespace Quad

/-- `fragment` is the part of `code` that starts at the index `start`, and no quadruple around it
jumps to a label that it puts. -/
def Isolated (code : List Quad) (start : Nat) (fragment : List Quad) : Prop :=
  ∃ before behind, code = before ++ fragment ++ behind ∧ before.length = start ∧
    ∀ target ∈ jumpTargets (before ++ behind), target ∉ definedLabels fragment

theorem isolated_whole (code : List Quad) : Isolated code 0 code :=
  ⟨[], [], by simp, rfl, by simp⟩

theorem Isolated.trans {code middle fragment : List Quad} {start offset : Nat}
    (outer : Isolated code start middle) (inner : Isolated middle offset fragment) :
    Isolated code (start + offset) fragment := by
  obtain ⟨before, behind, whole, length, outside⟩ := outer
  obtain ⟨near, far, part, offsets, around⟩ := inner
  refine ⟨before ++ near, far ++ behind, ?_, ?_, ?_⟩
  · rw [whole, part]
    simp only [List.append_assoc]
  · rw [List.length_append, length, offsets]
  · intro target member inside
    simp only [jump_targets_append, List.mem_append] at member outside around
    -- A label of the fragment is one of the middle part too, so no jump from outside reaches it.
    have further : target ∈ definedLabels middle := by
      rw [part, defined_labels_append, defined_labels_append]
      exact List.mem_append_left _ (List.mem_append_right _ inside)
    rcases member with (start | start) | (stop | stop)
    · exact outside target (.inl start) further
    · exact around target (.inl start) inside
    · exact around target (.inr stop) inside
    · exact outside target (.inr stop) further

end Quad

/-- A block is isolated if the jumps around it keep away from the labels that it takes. -/
theorem Stmt.isolated_lower_all (stmts : List Stmt) (entry : Supply) (before behind : List Quad)
    (outside : ∀ target ∈ Quad.jumpTargets before ++ Quad.jumpTargets behind,
      target < entry.labels ∨ (Stmt.lowerAll entry stmts).supply.labels ≤ target) :
    Quad.Isolated (before ++ (Stmt.lowerAll entry stmts).code ++ behind) before.length
      (Stmt.lowerAll entry stmts).code := by
  refine ⟨before, behind, rfl, rfl, ?_⟩
  intro target member inside
  rw [Stmt.mem_defined_labels_lower_all_iff, Supply.mem_labels_between_iff] at inside
  rw [Quad.jump_targets_append] at member
  rcases outside target member with below | above
  · omega
  · omega

/-- Of statements one after another, the first is isolated from the rest. -/
theorem Stmt.isolated_first (first : Stmt) (rest : List Stmt) (supply : Supply) :
    Quad.Isolated (Stmt.lowerAll supply (first :: rest)).code 0 (first.lower supply).code := by
  refine ⟨[], (Stmt.lowerAll (first.lower supply).supply rest).code, rfl, rfl, ?_⟩
  intro target member inside
  have later := Stmt.jump_targets_lower_all_subset rest (first.lower supply).supply member
  rw [Supply.mem_labels_between_iff] at later
  rw [Stmt.mem_defined_labels_lower_iff, Supply.mem_labels_between_iff] at inside
  omega

theorem Stmt.isolated_rest (first : Stmt) (rest : List Stmt) (supply : Supply) :
    Quad.Isolated (Stmt.lowerAll supply (first :: rest)).code (first.lower supply).code.length
      (Stmt.lowerAll (first.lower supply).supply rest).code := by
  have alone := Stmt.isolated_lower_all rest (first.lower supply).supply
    (first.lower supply).code []
  rw [List.append_nil] at alone
  refine alone ?_
  intro target member
  rw [Quad.jump_targets_nil, List.append_nil] at member
  have earlier := first.jump_targets_lower_subset supply member
  rw [Supply.mem_labels_between_iff] at earlier
  exact .inl earlier.2

/-- A statement of a program, where its code starts, and the supply that it is lowered from. -/
structure Segment where
  start : Nat
  stmt : Stmt
  supply : Supply

def Segment.code (segment : Segment) : List Quad :=
  (segment.stmt.lower segment.supply).code

mutual

/-- The segments of the statements in the blocks of a statement whose code starts at `start`. -/
def Stmt.blockSegments (start : Nat) (supply : Supply) : Stmt → List Segment
  | .scalar .. | .array .. | .constant .. | .assign .. | .input .. | .output .. => []
  | .ifThen condition body _ =>
      let test := condition.lower supply.temps
      Stmt.segments (start + (test.code.length + 1)) ⟨test.next, supply.labels + 2⟩ body
  | .ifElse condition body alternative _ =>
      let test := condition.lower supply.temps
      let entry : Supply := ⟨test.next, supply.labels + 2⟩
      let inside := Stmt.lowerAll entry body
      Stmt.segments (start + (test.code.length + 1)) entry body ++
        Stmt.segments (start + (test.code.length + 1 + inside.code.length + 2)) inside.supply
          alternative
  | .doWhile body _ _ => Stmt.segments (start + 1) ⟨supply.temps, supply.labels + 2⟩ body
  | .forLoop _ first last step body _ =>
      let origin := first.lower supply.temps
      let bound := last.lower origin.next
      let stride := step.lower (bound.next + 1)
      Stmt.segments (start + (origin.code.length + bound.code.length + stride.code.length + 6))
        ⟨stride.next + 2, supply.labels + 2⟩ body

/-- The segments of statements one after another and of the statements in their blocks, where the
code of the first starts at `start`. -/
def Stmt.segments (start : Nat) (supply : Supply) : List Stmt → List Segment
  | [] => []
  | first :: rest =>
      let before := first.lower supply
      ⟨start, first, supply⟩ :: (first.blockSegments start supply ++
        Stmt.segments (start + before.code.length) before.supply rest)

end

def Program.segments (supply : Supply) (program : Program) : List Segment :=
  Stmt.segments 0 supply program

mutual

def Stmt.inner : Stmt → List Stmt
  | .scalar .. | .array .. | .constant .. | .assign .. | .input .. | .output .. => []
  | .ifThen _ body _ | .doWhile body _ _ | .forLoop _ _ _ _ body _ => Stmt.nested body
  | .ifElse _ body alternative _ => Stmt.nested body ++ Stmt.nested alternative

def Stmt.nested : List Stmt → List Stmt
  | [] => []
  | first :: rest => first :: (first.inner ++ Stmt.nested rest)

end

def Program.statements (program : Program) : List Stmt :=
  Stmt.nested program

/-- Whether the code of a statement has labels of its own. -/
def Stmt.isBranching : Stmt → Bool
  | .ifThen .. | .ifElse .. | .doWhile .. | .forLoop .. => true
  | _ => false

namespace Stmt

def countHead (supply : Supply) (counter : Ident) (first last step : Expr) : List Quad :=
  let origin := first.lower supply.temps
  let bound := last.lower origin.next
  let stride := step.lower (bound.next + 1)
  origin.code ++ .assign origin.value (.var counter.name) ::
    (bound.code ++ .assign bound.value (.temp bound.next) ::
      (stride.code ++ [.assign stride.value (.temp stride.next), .label supply.labels,
        ⟨.compare .lessEqual, some (.var counter.name), some (.temp bound.next),
          some (.temp (stride.next + 1))⟩,
        .branch .jumpIfZero (.temp (stride.next + 1)) (supply.labels + 1)]))

def countTail (supply : Supply) (counter : Ident) (stride sum : Nat) : List Quad :=
  [⟨.arithmetic .add, some (.var counter.name), some (.temp stride), some (.temp sum)⟩,
    .assign (.temp sum) (.var counter.name), .jump supply.labels, .label (supply.labels + 1)]

theorem lower_for_loop_around (supply : Supply) (counter : Ident) (first last step : Expr)
    (body : List Stmt) (place : Place) :
    let bound := last.lower (first.lower supply.temps).next
    let stride := step.lower (bound.next + 1)
    let inside := Stmt.lowerAll ⟨stride.next + 2, supply.labels + 2⟩ body
    (Stmt.lower supply (.forLoop counter first last step body place)).code =
      countHead supply counter first last step ++ inside.code ++
        countTail supply counter stride.next inside.supply.temps := by
  simp [Stmt.lower_for_loop, countHead, countTail]

theorem length_count_head (supply : Supply) (counter : Ident) (first last step : Expr) :
    let origin := first.lower supply.temps
    let bound := last.lower origin.next
    let stride := step.lower (bound.next + 1)
    (countHead supply counter first last step).length =
      origin.code.length + bound.code.length + stride.code.length + 6 := by
  simp only [countHead, List.length_append, List.length_cons, List.length_nil]
  omega

end Stmt

section Blocks

variable (supply : Supply) (place : Place)

theorem Stmt.isolated_if_then (condition : Cond) (body : List Stmt) :
    let test := condition.lower supply.temps
    Quad.Isolated (Stmt.lower supply (.ifThen condition body place)).code (test.code.length + 1)
      (Stmt.lowerAll ⟨test.next, supply.labels + 2⟩ body).code := by
  intro test
  have isolated := Stmt.isolated_lower_all body ⟨test.next, supply.labels + 2⟩
    (test.code ++ [.branch .jumpIfZero test.value supply.labels])
    [.jump (supply.labels + 1), .label supply.labels, .label (supply.labels + 1)]
  rw [List.length_append] at isolated
  apply isolated
  intro target member
  simp [test, condition.jump_targets_lower] at member
  exact .inl (by simp only; omega)

theorem Stmt.isolated_if_else_body (condition : Cond) (body alternative : List Stmt) :
    let test := condition.lower supply.temps
    Quad.Isolated (Stmt.lower supply (.ifElse condition body alternative place)).code
      (test.code.length + 1) (Stmt.lowerAll ⟨test.next, supply.labels + 2⟩ body).code := by
  intro test
  let inside := Stmt.lowerAll ⟨test.next, supply.labels + 2⟩ body
  have isolated := Stmt.isolated_lower_all body ⟨test.next, supply.labels + 2⟩
    (test.code ++ [.branch .jumpIfZero test.value supply.labels])
    ([.jump (supply.labels + 1), .label supply.labels] ++
      (Stmt.lowerAll inside.supply alternative).code ++ [.label (supply.labels + 1)])
  rw [List.length_append] at isolated
  have whole : (Stmt.lower supply (.ifElse condition body alternative place)).code =
      test.code ++ [.branch .jumpIfZero test.value supply.labels] ++ inside.code ++
        ([.jump (supply.labels + 1), .label supply.labels] ++
          (Stmt.lowerAll inside.supply alternative).code ++ [.label (supply.labels + 1)]) := by
    simp [Stmt.lower, test, inside]
  rw [whole]
  apply isolated
  intro target member
  simp [test, condition.jump_targets_lower] at member
  rcases member with own | own | later
  · exact .inl (by simp only; omega)
  · exact .inl (by simp only; omega)
  · have beyond := Stmt.jump_targets_lower_all_subset alternative inside.supply later
    rw [Supply.mem_labels_between_iff] at beyond
    exact .inr beyond.1

theorem Stmt.isolated_if_else_alternative (condition : Cond) (body alternative : List Stmt) :
    let test := condition.lower supply.temps
    let inside := Stmt.lowerAll ⟨test.next, supply.labels + 2⟩ body
    Quad.Isolated (Stmt.lower supply (.ifElse condition body alternative place)).code
      (test.code.length + 1 + inside.code.length + 2)
      (Stmt.lowerAll inside.supply alternative).code := by
  intro test inside
  have grows := Stmt.supply_grows_lower_all body ⟨test.next, supply.labels + 2⟩
  have isolated := Stmt.isolated_lower_all alternative inside.supply
    (test.code ++ [.branch .jumpIfZero test.value supply.labels] ++ inside.code ++
      [.jump (supply.labels + 1), .label supply.labels])
    [.label (supply.labels + 1)]
  rw [List.length_append, List.length_append, List.length_append] at isolated
  apply isolated
  intro target member
  have room : supply.labels + 2 ≤ inside.supply.labels := grows.labels
  simp [test, condition.jump_targets_lower] at member
  rcases member with own | earlier | own
  · exact .inl (by omega)
  · have within := Stmt.jump_targets_lower_all_subset body ⟨test.next, supply.labels + 2⟩ earlier
    rw [Supply.mem_labels_between_iff] at within
    exact .inl within.2
  · exact .inl (by omega)

theorem Stmt.isolated_do_while (body : List Stmt) (condition : Cond) :
    Quad.Isolated (Stmt.lower supply (.doWhile body condition place)).code 1
      (Stmt.lowerAll ⟨supply.temps, supply.labels + 2⟩ body).code := by
  let entry : Supply := ⟨supply.temps, supply.labels + 2⟩
  let inside := Stmt.lowerAll entry body
  let test := condition.lower inside.supply.temps
  have isolated := Stmt.isolated_lower_all body entry [.label supply.labels]
    (test.code ++ [.branch .jumpIfTrue test.value supply.labels, .label (supply.labels + 1)])
  have whole : (Stmt.lower supply (.doWhile body condition place)).code =
      [.label supply.labels] ++ inside.code ++
        (test.code ++
          [.branch .jumpIfTrue test.value supply.labels, .label (supply.labels + 1)]) := by
    simp [Stmt.lower, test, inside, entry]
  rw [whole]
  apply isolated
  intro target member
  simp [test, condition.jump_targets_lower] at member
  exact .inl (by simp only [entry]; omega)

theorem Stmt.isolated_for_loop (counter : Ident) (first last step : Expr) (body : List Stmt) :
    let origin := first.lower supply.temps
    let bound := last.lower origin.next
    let stride := step.lower (bound.next + 1)
    Quad.Isolated (Stmt.lower supply (.forLoop counter first last step body place)).code
      (origin.code.length + bound.code.length + stride.code.length + 6)
      (Stmt.lowerAll ⟨stride.next + 2, supply.labels + 2⟩ body).code := by
  intro origin bound stride
  let entry : Supply := ⟨stride.next + 2, supply.labels + 2⟩
  have isolated := Stmt.isolated_lower_all body entry
    (Stmt.countHead supply counter first last step)
    (Stmt.countTail supply counter stride.next (Stmt.lowerAll entry body).supply.temps)
  rw [← Stmt.lower_for_loop_around supply counter first last step body place,
    Stmt.length_count_head] at isolated
  apply isolated
  intro target member
  simp [Stmt.countHead, Stmt.countTail, first.jump_targets_lower, last.jump_targets_lower,
    step.jump_targets_lower] at member
  exact .inl (by simp only [entry]; omega)

end Blocks

mutual

theorem Stmt.isolated_block_segments (stmt : Stmt) (supply : Supply) {whole : List Quad}
    {start : Nat} (isolated : Quad.Isolated whole start (stmt.lower supply).code) :
    ∀ segment ∈ stmt.blockSegments start supply,
      Quad.Isolated whole segment.start segment.code := by
  match stmt with
  | .scalar .. | .array .. | .constant .. | .assign .. | .input .. | .output .. =>
      intro segment member
      cases member
  | .ifThen condition body place =>
      exact Stmt.isolated_segments body _
        (isolated.trans (Stmt.isolated_if_then supply place condition body))
  | .ifElse condition body alternative place =>
      intro segment member
      rcases List.mem_append.mp member with inside | other
      · exact Stmt.isolated_segments body _
          (isolated.trans (Stmt.isolated_if_else_body supply place condition body alternative))
          segment inside
      · exact Stmt.isolated_segments alternative _
          (isolated.trans
            (Stmt.isolated_if_else_alternative supply place condition body alternative))
          segment other
  | .doWhile body condition place =>
      exact Stmt.isolated_segments body _
        (isolated.trans (Stmt.isolated_do_while supply place body condition))
  | .forLoop counter first last step body place =>
      exact Stmt.isolated_segments body _
        (isolated.trans (Stmt.isolated_for_loop supply place counter first last step body))

theorem Stmt.isolated_segments (stmts : List Stmt) (supply : Supply) {whole : List Quad}
    {start : Nat} (isolated : Quad.Isolated whole start (Stmt.lowerAll supply stmts).code) :
    ∀ segment ∈ Stmt.segments start supply stmts,
      Quad.Isolated whole segment.start segment.code := by
  match stmts with
  | [] =>
      intro segment member
      cases member
  | first :: rest =>
      have here := isolated.trans (Stmt.isolated_first first rest supply)
      intro segment member
      rcases List.mem_cons.mp member with rfl | member
      · exact here
      rcases List.mem_append.mp member with inside | later
      · exact first.isolated_block_segments supply here segment inside
      · exact Stmt.isolated_segments rest _
          (isolated.trans (Stmt.isolated_rest first rest supply)) segment later

end

mutual

theorem Stmt.map_stmt_block_segments (stmt : Stmt) (start : Nat) (supply : Supply) :
    (stmt.blockSegments start supply).map Segment.stmt = stmt.inner := by
  match stmt with
  | .scalar .. | .array .. | .constant .. | .assign .. | .input .. | .output .. => rfl
  | .ifThen condition body place => exact Stmt.map_stmt_segments body _ _
  | .ifElse condition body alternative place =>
      rw [Stmt.blockSegments, Stmt.inner, List.map_append, Stmt.map_stmt_segments body,
        Stmt.map_stmt_segments alternative]
  | .doWhile body condition place => exact Stmt.map_stmt_segments body _ _
  | .forLoop counter first last step body place => exact Stmt.map_stmt_segments body _ _

/-- Every statement has one segment. -/
theorem Stmt.map_stmt_segments (stmts : List Stmt) (start : Nat) (supply : Supply) :
    (Stmt.segments start supply stmts).map Segment.stmt = Stmt.nested stmts := by
  match stmts with
  | [] => rfl
  | first :: rest =>
      rw [Stmt.segments, Stmt.nested, List.map_cons, List.map_append,
        first.map_stmt_block_segments, Stmt.map_stmt_segments rest]

end

mutual

/-- A branching statement takes two labels for itself. -/
theorem Stmt.labels_lower (stmt : Stmt) (supply : Supply) :
    (stmt.lower supply).supply.labels =
      supply.labels + 2 * (stmt :: stmt.inner).countP Stmt.isBranching := by
  match stmt with
  | .scalar .. | .array .. | .constant .. | .assign .. | .input .. | .output .. => rfl
  | .ifThen condition body place =>
      have inside := Stmt.labels_lower_all body
        ⟨(condition.lower supply.temps).next, supply.labels + 2⟩
      simp only [Stmt.lower, Stmt.inner, List.countP_cons, Stmt.isBranching, if_true] at inside ⊢
      omega
  | .ifElse condition body alternative place =>
      have inside := Stmt.labels_lower_all body
        ⟨(condition.lower supply.temps).next, supply.labels + 2⟩
      have other := Stmt.labels_lower_all alternative
        (Stmt.lowerAll ⟨(condition.lower supply.temps).next, supply.labels + 2⟩ body).supply
      simp only [Stmt.lower, Stmt.inner, List.countP_cons, List.countP_append, Stmt.isBranching,
        if_true] at inside other ⊢
      omega
  | .doWhile body condition place =>
      have inside := Stmt.labels_lower_all body ⟨supply.temps, supply.labels + 2⟩
      simp only [Stmt.lower, Stmt.inner, List.countP_cons, Stmt.isBranching, if_true] at inside ⊢
      omega
  | .forLoop counter first last step body place =>
      let bound := last.lower (first.lower supply.temps).next
      let stride := step.lower (bound.next + 1)
      have inside := Stmt.labels_lower_all body ⟨stride.next + 2, supply.labels + 2⟩
      rw [Stmt.lower_for_loop]
      simp only [Stmt.inner, List.countP_cons, Stmt.isBranching, if_true] at inside ⊢
      rw [inside]
      omega

theorem Stmt.labels_lower_all (stmts : List Stmt) (supply : Supply) :
    (Stmt.lowerAll supply stmts).supply.labels =
      supply.labels + 2 * (Stmt.nested stmts).countP Stmt.isBranching := by
  match stmts with
  | [] => rfl
  | first :: rest =>
      have here := first.labels_lower supply
      have later := Stmt.labels_lower_all rest (first.lower supply).supply
      simp only [Stmt.lowerAll, Stmt.nested, List.countP_cons, List.countP_append] at here later ⊢
      omega

end

theorem Program.mem_defined_labels_lower_iff (program : Program) (supply : Supply) (label : Nat) :
    label ∈ Quad.definedLabels (program.lower supply).code ↔
      supply.labels ≤ label ∧ label < (program.lower supply).supply.labels := by
  rw [← Supply.mem_labels_between_iff]
  exact Stmt.mem_defined_labels_lower_all_iff program supply label

theorem Program.disjoint_defined_labels_lower {earlier later : Program} {supply after : Supply}
    (grown : (earlier.lower supply).supply.Grows after) :
    List.Disjoint (Quad.definedLabels (earlier.lower supply).code)
      (Quad.definedLabels (later.lower after).code) := by
  intro label here there
  have below := ((earlier.mem_defined_labels_lower_iff supply label).mp here).2
  have above := ((later.mem_defined_labels_lower_iff after label).mp there).1
  have least := grown.labels
  omega

/-- Labels are sound and control flow is closed: a program puts exactly the labels that it takes,
each of them once, and takes two for each branching statement. Every statement, at any depth, has a
segment of the code, inside which its jumps stay and into which no other jump leads. Programs that
one generator lowers in turn share no label. -/
theorem Program.lower_labels_sound (supply : Supply) :
    (∀ program : Program,
      (Quad.definedLabels (program.lower supply).code).Nodup ∧
      (∀ label, label ∈ Quad.definedLabels (program.lower supply).code ↔
        supply.labels ≤ label ∧ label < (program.lower supply).supply.labels) ∧
      (program.lower supply).supply.labels =
        supply.labels + 2 * program.statements.countP Stmt.isBranching ∧
      (program.segments supply).map Segment.stmt = program.statements ∧
      ∀ segment ∈ program.segments supply,
        Quad.Isolated (program.lower supply).code segment.start segment.code ∧
        ∀ target ∈ Quad.jumpTargets segment.code,
          target ∈ Quad.definedLabels segment.code) ∧
    ∀ programs : List Program,
      (Generator.generateEach ⟨[], supply⟩ programs).Pairwise fun first second =>
        List.Disjoint (Quad.definedLabels first) (Quad.definedLabels second) := by
  refine ⟨?_, Generator.pairwise_generate_each Program.disjoint_defined_labels_lower supply⟩
  intro program
  refine ⟨program.nodup_defined_labels_lower supply, program.mem_defined_labels_lower_iff supply,
    Stmt.labels_lower_all program supply, Stmt.map_stmt_segments program 0 supply, ?_⟩
  intro segment member
  refine ⟨Stmt.isolated_segments program supply (Quad.isolated_whole _) segment member, ?_⟩
  intro target jumped
  rw [Segment.code, Stmt.mem_defined_labels_lower_iff]
  exact segment.stmt.jump_targets_lower_subset segment.supply jumped

def nestedLoops : Program :=
  [.forLoop ⟨"i", default⟩ (.integer "0" default) (.integer "9" default) (.integer "1" default)
    [.ifElse
      (.compare .greater default (.identifier "i" default) (.integer "4" default) default)
      [.input ⟨"j", default⟩ default,
        .doWhile
          [.assign ⟨"j", default⟩ (.negate (.identifier "j" default) default) default]
          (.compare .less default (.identifier "j" default) (.integer "0" default) default)
          default]
      [.output none [⟨"i", default⟩] default] default]
    default]

def repetitionSegment : Segment :=
  ⟨9, .doWhile
    [.assign ⟨"j", default⟩ (.negate (.identifier "j" default) default) default]
    (.compare .less default (.identifier "j" default) (.integer "0" default) default) default,
    ⟨4, 4⟩⟩

theorem lower_labels_sound_nested_loops :
    repetitionSegment ∈ nestedLoops.segments .fresh ∧
      4 ∈ Quad.jumpTargets repetitionSegment.code ∧
      Quad.Isolated (nestedLoops.lower .fresh).code 9 repetitionSegment.code ∧
      4 ∈ Quad.definedLabels repetitionSegment.code := by
  have member : repetitionSegment ∈ nestedLoops.segments .fresh :=
    List.mem_iff_getElem?.mpr ⟨3, rfl⟩
  have jumped : 4 ∈ Quad.jumpTargets repetitionSegment.code := by decide
  have sound := ((Program.lower_labels_sound .fresh).1 nestedLoops).2.2.2.2 repetitionSegment member
  exact ⟨member, jumped, sound.1, sound.2 4 jumped⟩

end ThreeAddress
