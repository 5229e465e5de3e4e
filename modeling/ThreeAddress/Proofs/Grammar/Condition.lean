import ThreeAddress.Syntax.Condition
import ThreeAddress.Proofs.Grammar.Expression

/-!
# Reading conditions

Disjunctions of conjunctions of atoms, grouped to the left. An atom is a comparison, a condition in
parentheses, or an exclamation mark and the whole condition behind it. Where a parenthesis opens,
both of the first two may begin; the condition in parentheses is tried first, and if it fails the
failure told is that of the comparison.
-/

namespace ThreeAddress

set_option autoImplicit false

namespace Grammar

def compareOp : (tokens : List Token) → Read tokens.length (CompareOp × Position)
  | [] => .fail ⟨.comparison, []⟩
  | first :: rest =>
      match CompareOp.ofKind? first.kind with
      | some op =>
          .ok ⟨(op, first.place.position), first.place.span, rest, Reading.behind_lt first rest⟩
      | none => .fail ⟨.comparison, first :: rest⟩

def comparison (tokens : List Token) : Read tokens.length Cond :=
  (expression tokens).andThen fun left =>
    (compareOp left.rest).andThen fun op =>
      (expression op.rest).map fun right =>
        .compare op.value.1 op.value.2 left.value right.value
          (left.value.place.join right.value.place)

mutual

def condition (tokens : List Token) : Read tokens.length Cond :=
  (conjunction tokens).andTail fun first => orTail first.value first.last first.rest
termination_by 6 * tokens.length + 4
decreasing_by
  · omega
  · have := first.shorter
    omega

def orTail (left : Cond) (last : Span) (tokens : List Token) : Read (tokens.length + 1) Cond :=
  match tokens with
  | [] => .ok ⟨left, last, [], Reading.nothing_lt⟩
  | first :: rest =>
      if first.kind = .keyword .orWord then
        ((conjunction rest).andTail fun right =>
          orTail (left.joinOr right.value) right.last right.rest).widen
            (Reading.behind_le_succ first rest)
      else .ok ⟨left, last, first :: rest, Reading.all_lt first rest⟩
termination_by 6 * tokens.length + 5
decreasing_by
  all_goals simp only [List.length_cons]
  · omega
  · have := right.shorter
    omega

def conjunction (tokens : List Token) : Read tokens.length Cond :=
  (conditionAtom tokens).andTail fun first => andTail first.value first.last first.rest
termination_by 6 * tokens.length + 2
decreasing_by
  · omega
  · have := first.shorter
    omega

def andTail (left : Cond) (last : Span) (tokens : List Token) : Read (tokens.length + 1) Cond :=
  match tokens with
  | [] => .ok ⟨left, last, [], Reading.nothing_lt⟩
  | first :: rest =>
      if first.kind = .keyword .andWord then
        ((conditionAtom rest).andTail fun right =>
          andTail (left.joinAnd right.value) right.last right.rest).widen
            (Reading.behind_le_succ first rest)
      else .ok ⟨left, last, first :: rest, Reading.all_lt first rest⟩
termination_by 6 * tokens.length + 3
decreasing_by
  all_goals simp only [List.length_cons]
  · omega
  · have := right.shorter
    omega

def conditionAtom (tokens : List Token) : Read tokens.length Cond :=
  match tokens with
  | [] => comparison []
  | first :: rest =>
      if first.kind = .mark .bang then
        ((condition rest).map fun inner =>
          .not inner.value (first.place.upTo inner.last)).widen (Reading.behind_le first rest)
      else if first.kind = .mark .leftParen then
        match parenCondition first rest with
        | .ok reading => (Read.ok reading).widen (Reading.behind_le first rest)
        | .fail _ => comparison (first :: rest)
      else comparison (first :: rest)
termination_by 6 * tokens.length
decreasing_by
  all_goals
    simp only [List.length_cons]
    omega

/-- A condition and a closing parenthesis, behind the parenthesis `first` that opens them. -/
def parenCondition (first : Token) (tokens : List Token) : Read tokens.length Cond :=
  (condition tokens).andThen fun inner =>
    (sign .rightParen inner.rest).map fun close =>
      .paren inner.value (first.place.upTo close.last)
termination_by 6 * tokens.length + 5
decreasing_by omega

end

end Grammar

end ThreeAddress
