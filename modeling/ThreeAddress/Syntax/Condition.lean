import ThreeAddress.Syntax.Expression

/-!
# Parsing conditions

Disjunctions of conjunctions of atoms, grouped to the left. An atom is a comparison, a condition in
parentheses, or an exclamation mark and the whole condition behind it. Where a parenthesis opens,
both of the first two may begin. The condition in parentheses is tried first; if it fails, the
cursor it left is dropped for the one saved in front of it, and the failure told is that of the
comparison.
-/

namespace ThreeAddress

set_option autoImplicit false

def CompareOp.ofKind? : TokenKind → Option CompareOp
  | .mark .less => some .less
  | .mark .greater => some .greater
  | .mark .lessEqual => some .lessEqual
  | .mark .greaterEqual => some .greaterEqual
  | .mark .equalEqual => some .equal
  | .mark .notEqual => some .notEqual
  | _ => none

def TokenKind.isComparison (kind : TokenKind) : Bool :=
  (CompareOp.ofKind? kind).isSome

theorem CompareOp.ne_end_of_of_kind {kind : TokenKind} {op : CompareOp}
    (compares : CompareOp.ofKind? kind = some op) : kind ≠ .endOfFile := by
  rintro rfl
  cases compares

namespace Cursor

variable {tokens : List Token}

def compareOp (cursor : Cursor tokens) : Attempt tokens cursor.remaining (CompareOp × Position) :=
  match compares : CompareOp.ofKind? cursor.current.kind with
  | some op =>
      .done ⟨(op, cursor.current.place.position), cursor.advance,
        remaining_advance_lt rfl (CompareOp.ne_end_of_of_kind compares)⟩
  | none => cursor.reject .comparison

def comparison (cursor : Cursor tokens) : Attempt tokens cursor.remaining Cond :=
  cursor.expression.andThen fun left =>
    left.cursor.compareOp.andThen fun op =>
      op.cursor.expression.map fun right =>
        .compare op.value.1 op.value.2 left.value right.value
          (left.value.place.join right.value.place)

mutual

def condition (cursor : Cursor tokens) : Attempt tokens cursor.remaining Cond :=
  (conjunction cursor).andTail fun first => orTail first.value first.cursor
termination_by 6 * cursor.remaining + 4
decreasing_by
  · omega
  · have := first.shorter
    omega

def orTail (left : Cond) (cursor : Cursor tokens) : Attempt tokens (cursor.remaining + 1) Cond :=
  if cursor.current.kind = .keyword .orWord then
    ((conjunction cursor.advance).andTail fun right =>
      orTail (left.joinOr right.value) right.cursor).widen
        (Nat.le_succ_of_le cursor.remaining_advance_le)
  else .done ⟨left, cursor, Nat.lt_succ_self _⟩
termination_by 6 * cursor.remaining + 5
decreasing_by
  all_goals have := cursor.remaining_advance_le
  · omega
  · have := right.shorter
    omega

def conjunction (cursor : Cursor tokens) : Attempt tokens cursor.remaining Cond :=
  (conditionAtom cursor).andTail fun first => andTail first.value first.cursor
termination_by 6 * cursor.remaining + 2
decreasing_by
  · omega
  · have := first.shorter
    omega

def andTail (left : Cond) (cursor : Cursor tokens) : Attempt tokens (cursor.remaining + 1) Cond :=
  if cursor.current.kind = .keyword .andWord then
    ((conditionAtom cursor.advance).andTail fun right =>
      andTail (left.joinAnd right.value) right.cursor).widen
        (Nat.le_succ_of_le cursor.remaining_advance_le)
  else .done ⟨left, cursor, Nat.lt_succ_self _⟩
termination_by 6 * cursor.remaining + 3
decreasing_by
  all_goals have := cursor.remaining_advance_le
  · omega
  · have := right.shorter
    omega

def conditionAtom (cursor : Cursor tokens) : Attempt tokens cursor.remaining Cond :=
  if bang : cursor.current.kind = .mark .bang then
    ((condition cursor.advance).map fun inner =>
      .not inner.value (inner.cursor.placeFrom cursor.current)).widen
        (Nat.le_of_lt (remaining_advance_lt bang TokenKind.noConfusion))
  else if cursor.current.kind = .mark .leftParen then
    match parenCondition cursor with
    | .done move => .done move
    -- `cursor` is the saved one: the index and the span go back to it together
    | .failed _ _ => comparison cursor
  else comparison cursor
termination_by 6 * cursor.remaining + 1
decreasing_by
  · have := remaining_advance_lt bang TokenKind.noConfusion
    omega
  · omega

def parenCondition (cursor : Cursor tokens) : Attempt tokens cursor.remaining Cond :=
  (cursor.sign .leftParen).andThen fun first =>
    (condition first.cursor).andThen fun inner =>
      (inner.cursor.sign .rightParen).map fun close =>
        .paren inner.value (close.cursor.placeFrom first.value)
termination_by 6 * cursor.remaining
decreasing_by
  have := first.shorter
  omega

end

end Cursor

end ThreeAddress
