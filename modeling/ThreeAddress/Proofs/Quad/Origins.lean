import ThreeAddress.Proofs.Quad.Segments

/-!
# Which statement a quadruple comes from

A statement emits some quadruples itself, around those of the statements in its blocks. Main
statement: the code of a program, with the indices, is made up of what its statements, at any depth,
emit themselves.
-/

namespace ThreeAddress

set_option autoImplicit false

namespace Quad

/-- What stands before and behind a block of `gap` quadruples, each quadruple with its index. -/
def around (start : Nat) (before : List Quad) (gap : Nat) (behind : List Quad) :
    List (Quad × Nat) :=
  before.zipIdx start ++ behind.zipIdx (start + before.length + gap)

@[simp] theorem map_fst_around (start : Nat) (before : List Quad) (gap : Nat)
    (behind : List Quad) : (around start before gap behind).map Prod.fst = before ++ behind := by
  rw [around, List.map_append, List.zipIdx_map_fst, List.zipIdx_map_fst]

/-- A block may be taken out of a code, and with it what `rest` has taken out of it. -/
theorem perm_out {start : Nat} {before inside rest : List Quad}
    {block own later : List (Quad × Nat)}
    (inner : (inside.zipIdx (start + before.length)).Perm block)
    (behind : (rest.zipIdx (start + before.length + inside.length)).Perm (own ++ later)) :
    ((before ++ inside ++ rest).zipIdx start).Perm
      ((before.zipIdx start ++ own) ++ (block ++ later)) := by
  rw [List.perm_iff_count]
  intro entry
  have inner := inner.count_eq entry
  have behind := behind.count_eq entry
  rw [List.zipIdx_append, List.zipIdx_append, List.length_append, ← Nat.add_assoc]
  simp only [List.count_append] at behind ⊢
  omega

theorem perm_around {start : Nat} {before inside : List Quad} (behind : List Quad)
    {block : List (Quad × Nat)} (inner : (inside.zipIdx (start + before.length)).Perm block) :
    ((before ++ inside ++ behind).zipIdx start).Perm
      (around start before inside.length behind ++ block) := by
  have nothing : (behind.zipIdx (start + before.length + inside.length)).Perm
      (behind.zipIdx (start + before.length + inside.length) ++ []) := by
    rw [List.append_nil]
  have out := perm_out inner nothing
  rw [List.append_nil] at out
  exact out

end Quad

/-- The quadruples that a statement emits itself, with their indices: all but those of its
blocks. -/
def Segment.own (segment : Segment) : List (Quad × Nat) :=
  let supply := segment.supply
  match segment.stmt with
  | .scalar .. | .array .. | .constant .. | .assign .. | .input .. | .output .. =>
      segment.code.zipIdx segment.start
  | .ifThen condition body _ =>
      let test := condition.lower supply.temps
      let inside := Stmt.lowerAll ⟨test.next, supply.labels + 2⟩ body
      Quad.around segment.start (test.code ++ [.branch .jumpIfZero test.value supply.labels])
        inside.code.length
        [.jump (supply.labels + 1), .label supply.labels, .label (supply.labels + 1)]
  | .ifElse condition body alternative _ =>
      let test := condition.lower supply.temps
      let inside := Stmt.lowerAll ⟨test.next, supply.labels + 2⟩ body
      let other := Stmt.lowerAll inside.supply alternative
      (test.code ++ [Quad.branch .jumpIfZero test.value supply.labels]).zipIdx segment.start ++
        Quad.around (segment.start + (test.code.length + 1 + inside.code.length))
          [.jump (supply.labels + 1), .label supply.labels] other.code.length
          [.label (supply.labels + 1)]
  | .doWhile body condition _ =>
      let inside := Stmt.lowerAll ⟨supply.temps, supply.labels + 2⟩ body
      let test := condition.lower inside.supply.temps
      Quad.around segment.start [.label supply.labels] inside.code.length
        (test.code ++
          [.branch .jumpIfTrue test.value supply.labels, .label (supply.labels + 1)])
  | .forLoop counter first last step body _ =>
      let bound := last.lower (first.lower supply.temps).next
      let stride := step.lower (bound.next + 1)
      let inside := Stmt.lowerAll ⟨stride.next + 2, supply.labels + 2⟩ body
      Quad.around segment.start (Stmt.countHead supply counter first last step)
        inside.code.length (Stmt.countTail supply counter stride.next inside.supply.temps)

mutual

/-- A statement emits its own quadruples and those of the statements in its blocks. -/
theorem Stmt.zipIdx_lower_perm (stmt : Stmt) (start : Nat) (supply : Supply) :
    ((stmt.lower supply).code.zipIdx start).Perm
      (Segment.own ⟨start, stmt, supply⟩ ++
        (stmt.blockSegments start supply).flatMap Segment.own) := by
  match stmt with
  | .scalar .. | .array .. | .constant .. | .assign .. | .input .. | .output .. =>
      simp only [Stmt.blockSegments, List.flatMap_nil, List.append_nil]
      exact .refl _
  | .ifThen condition body place =>
      let test := condition.lower supply.temps
      have inside := Stmt.zipIdx_lower_all_perm body (start + (test.code.length + 1))
        ⟨test.next, supply.labels + 2⟩
      apply Quad.perm_around
      rw [List.length_append]
      exact inside
  | .ifElse condition body alternative place =>
      let test := condition.lower supply.temps
      let entry : Supply := ⟨test.next, supply.labels + 2⟩
      let between := Stmt.lowerAll entry body
      have inside := Stmt.zipIdx_lower_all_perm body (start + (test.code.length + 1)) entry
      have other := Stmt.zipIdx_lower_all_perm alternative
        (start + (test.code.length + 1 + between.code.length + 2)) between.supply
      have whole : (Stmt.lower supply (.ifElse condition body alternative place)).code =
          (test.code ++ [.branch .jumpIfZero test.value supply.labels]) ++ between.code ++
            ([.jump (supply.labels + 1), .label supply.labels] ++
              (Stmt.lowerAll between.supply alternative).code ++ [.label (supply.labels + 1)]) := by
        simp [Stmt.lower, test, between, entry]
      rw [whole, Stmt.blockSegments, List.flatMap_append]
      apply Quad.perm_out
      · rw [List.length_append]
        exact inside
      · rw [List.length_append, Nat.add_assoc]
        exact Quad.perm_around _ other
  | .doWhile body condition place =>
      let entry : Supply := ⟨supply.temps, supply.labels + 2⟩
      let test := condition.lower (Stmt.lowerAll entry body).supply.temps
      have inside := Stmt.zipIdx_lower_all_perm body (start + 1) entry
      have whole : (Stmt.lower supply (.doWhile body condition place)).code =
          [.label supply.labels] ++ (Stmt.lowerAll entry body).code ++
            (test.code ++
              [.branch .jumpIfTrue test.value supply.labels, .label (supply.labels + 1)]) := by
        simp [Stmt.lower, test, entry]
      rw [whole]
      exact Quad.perm_around _ inside
  | .forLoop counter first last step body place =>
      let bound := last.lower (first.lower supply.temps).next
      let stride := step.lower (bound.next + 1)
      have inside := Stmt.zipIdx_lower_all_perm body
        (start + (Stmt.countHead supply counter first last step).length)
        ⟨stride.next + 2, supply.labels + 2⟩
      have whole := Quad.perm_around (Stmt.countTail supply counter stride.next
        (Stmt.lowerAll ⟨stride.next + 2, supply.labels + 2⟩ body).supply.temps) inside
      rw [Stmt.length_count_head] at whole
      rw [Stmt.lower_for_loop_around]
      exact whole

/-- Statements emit their own quadruples, at any depth, and no others. -/
theorem Stmt.zipIdx_lower_all_perm (stmts : List Stmt) (start : Nat) (supply : Supply) :
    ((Stmt.lowerAll supply stmts).code.zipIdx start).Perm
      ((Stmt.segments start supply stmts).flatMap Segment.own) := by
  match stmts with
  | [] => exact .refl _
  | first :: rest =>
      have here := first.zipIdx_lower_perm start supply
      have later := Stmt.zipIdx_lower_all_perm rest (start + (first.lower supply).code.length)
        (first.lower supply).supply
      rw [Stmt.segments, List.flatMap_cons, List.flatMap_append, ← List.append_assoc]
      rw [Stmt.lowerAll, List.zipIdx_append]
      exact here.append later

end

/-- Every place of the code holds a quadruple that one of the statements emits itself. -/
theorem Program.mem_own_iff (program : Program) (supply : Supply) (quad : Quad) (index : Nat) :
    (∃ segment ∈ program.segments supply, (quad, index) ∈ segment.own) ↔
      (program.lower supply).code[index]? = some quad := by
  have whole := (Stmt.zipIdx_lower_all_perm program 0 supply).mem_iff (a := (quad, index))
  rw [List.mk_mem_zipIdx_iff_getElem?, List.mem_flatMap] at whole
  exact whole.symm

/-- What a test finds in the code, it finds in what the statements emit themselves. -/
theorem Program.filterMap_lower_perm {Found : Type} (find? : Quad → Option Found)
    (program : Program) (supply : Supply) :
    ((program.lower supply).code.filterMap find?).Perm
      ((program.segments supply).flatMap fun segment =>
        (segment.own.map Prod.fst).filterMap find?) := by
  have whole := ((Stmt.zipIdx_lower_all_perm program 0 supply).map Prod.fst).filterMap find?
  rw [List.zipIdx_map_fst, List.map_flatMap, List.filterMap_flatMap] at whole
  exact whole

end ThreeAddress
