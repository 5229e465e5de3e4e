import ThreeAddress.Syntax.Cursor

/-!
# Parsing expressions

Sums of products of possibly negated atoms, grouped to the left. A minus sign in front of an atom
binds tighter than every operator between two operands.
-/

namespace ThreeAddress

set_option autoImplicit false

def BinaryOp.ofSum? : TokenKind → Option BinaryOp
  | .mark .plus => some .add
  | .mark .minus => some .sub
  | _ => none

def BinaryOp.ofProduct? : TokenKind → Option BinaryOp
  | .mark .star => some .mul
  | .mark .slash => some .div
  | _ => none

namespace Cursor

variable {tokens : List Token}

mutual

def expression (cursor : Cursor tokens) : Attempt tokens cursor.remaining Expr :=
  (product cursor).andTail fun first => sumTail first.value first.cursor
termination_by 6 * cursor.remaining + 4
decreasing_by
  · omega
  · have := first.shorter
    omega

/-- The further terms of a sum that starts with `left`. -/
def sumTail (left : Expr) (cursor : Cursor tokens) : Attempt tokens (cursor.remaining + 1) Expr :=
  match BinaryOp.ofSum? cursor.current.kind with
  | none => .done ⟨left, cursor, Nat.lt_succ_self _⟩
  | some op =>
      ((product cursor.advance).andTail fun right =>
        sumTail (.join op left right.value) right.cursor).widen
          (Nat.le_succ_of_le cursor.remaining_advance_le)
termination_by 6 * cursor.remaining + 5
decreasing_by
  all_goals have := cursor.remaining_advance_le
  · omega
  · have := right.shorter
    omega

def product (cursor : Cursor tokens) : Attempt tokens cursor.remaining Expr :=
  (unary cursor).andTail fun first => productTail first.value first.cursor
termination_by 6 * cursor.remaining + 2
decreasing_by
  · omega
  · have := first.shorter
    omega

def productTail (left : Expr) (cursor : Cursor tokens) :
    Attempt tokens (cursor.remaining + 1) Expr :=
  match BinaryOp.ofProduct? cursor.current.kind with
  | none => .done ⟨left, cursor, Nat.lt_succ_self _⟩
  | some op =>
      ((unary cursor.advance).andTail fun right =>
        productTail (.join op left right.value) right.cursor).widen
          (Nat.le_succ_of_le cursor.remaining_advance_le)
termination_by 6 * cursor.remaining + 3
decreasing_by
  all_goals have := cursor.remaining_advance_le
  · omega
  · have := right.shorter
    omega

def unary (cursor : Cursor tokens) : Attempt tokens cursor.remaining Expr :=
  if minus : cursor.current.kind = .mark .minus then
    ((unary cursor.advance).map fun operand =>
      .negate operand.value (operand.cursor.placeFrom cursor.current)).widen
        (Nat.le_of_lt (remaining_advance_lt minus TokenKind.noConfusion))
  else atom cursor
termination_by 6 * cursor.remaining + 1
decreasing_by
  · have := remaining_advance_lt minus TokenKind.noConfusion
    omega
  · omega

def atom (cursor : Cursor tokens) : Attempt tokens cursor.remaining Expr :=
  match found : cursor.current.kind with
  | .integer text =>
      .done ⟨.integer text (cursor.advance.placeFrom cursor.current), cursor.advance,
        remaining_lt_of_integer found⟩
  | .float text =>
      .done ⟨.float text (cursor.advance.placeFrom cursor.current), cursor.advance,
        remaining_advance_lt found TokenKind.noConfusion⟩
  | .identifier name =>
      if cursor.advance.current.kind = .mark .leftBracket then
        ((expression cursor.advance.advance).andThen fun index =>
          (index.cursor.sign .rightBracket).map fun close =>
            .element ⟨name, cursor.current.place⟩ index.value
              (close.cursor.placeFrom cursor.current)).widen
                (Nat.le_trans cursor.advance.remaining_advance_le cursor.remaining_advance_le)
      else
        .done ⟨.identifier name (cursor.advance.placeFrom cursor.current), cursor.advance,
          remaining_advance_lt found TokenKind.noConfusion⟩
  | .mark .leftParen =>
      ((expression cursor.advance).andThen fun inner =>
        (inner.cursor.sign .rightParen).map fun close =>
          .paren inner.value (close.cursor.placeFrom cursor.current)).widen
            cursor.remaining_advance_le
  | _ => cursor.reject .expression
termination_by 6 * cursor.remaining
decreasing_by
  all_goals have := remaining_advance_lt found TokenKind.noConfusion
  · have := cursor.advance.remaining_advance_le
    omega
  · omega

end

end Cursor

end ThreeAddress
