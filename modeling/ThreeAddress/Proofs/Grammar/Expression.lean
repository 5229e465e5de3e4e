import ThreeAddress.Syntax.Expression
import ThreeAddress.Proofs.Grammar.Reading

/-!
# Reading expressions

Sums of products of possibly negated atoms, grouped to the left. A minus sign in front of an atom
binds tighter than every operator between two operands.
-/

namespace ThreeAddress

set_option autoImplicit false

namespace Grammar

mutual

def expression (tokens : List Token) : Read tokens.length Expr :=
  (product tokens).andTail fun first => sumTail first.value first.last first.rest
termination_by 6 * tokens.length + 4
decreasing_by
  · omega
  · have := first.shorter
    omega

/-- The further terms of a sum that starts with `left`, which ends at `last`. -/
def sumTail (left : Expr) (last : Span) (tokens : List Token) : Read (tokens.length + 1) Expr :=
  match tokens with
  | [] => .ok ⟨left, last, [], Reading.nothing_lt⟩
  | first :: rest =>
      match BinaryOp.ofSum? first.kind with
      | none => .ok ⟨left, last, first :: rest, Reading.all_lt first rest⟩
      | some op =>
          ((product rest).andTail fun right =>
            sumTail (.join op left right.value) right.last right.rest).widen
              (Reading.behind_le_succ first rest)
termination_by 6 * tokens.length + 5
decreasing_by
  all_goals simp only [List.length_cons]
  · omega
  · have := right.shorter
    omega

def product (tokens : List Token) : Read tokens.length Expr :=
  (unary tokens).andTail fun first => productTail first.value first.last first.rest
termination_by 6 * tokens.length + 2
decreasing_by
  · omega
  · have := first.shorter
    omega

def productTail (left : Expr) (last : Span) (tokens : List Token) :
    Read (tokens.length + 1) Expr :=
  match tokens with
  | [] => .ok ⟨left, last, [], Reading.nothing_lt⟩
  | first :: rest =>
      match BinaryOp.ofProduct? first.kind with
      | none => .ok ⟨left, last, first :: rest, Reading.all_lt first rest⟩
      | some op =>
          ((unary rest).andTail fun right =>
            productTail (.join op left right.value) right.last right.rest).widen
              (Reading.behind_le_succ first rest)
termination_by 6 * tokens.length + 3
decreasing_by
  all_goals simp only [List.length_cons]
  · omega
  · have := right.shorter
    omega

def unary (tokens : List Token) : Read tokens.length Expr :=
  match tokens with
  | [] => .fail ⟨.expression, []⟩
  | first :: rest =>
      if first.kind = .mark .minus then
        ((unary rest).map fun operand =>
          .negate operand.value (first.place.upTo operand.last)).widen (Reading.behind_le first rest)
      else atom (first :: rest)
termination_by 6 * tokens.length + 1
decreasing_by
  all_goals
    simp only [List.length_cons]
    omega

def atom (tokens : List Token) : Read tokens.length Expr :=
  match tokens with
  | [] => .fail ⟨.expression, []⟩
  | first :: rest =>
      match first.kind with
      | .integer text =>
          .ok ⟨.integer text first.place, first.place.span, rest, Reading.behind_lt first rest⟩
      | .float text =>
          .ok ⟨.float text first.place, first.place.span, rest, Reading.behind_lt first rest⟩
      | .identifier name =>
          match rest with
          | [] =>
              .ok ⟨.identifier name first.place, first.place.span, [],
                Reading.behind_last_lt first⟩
          | bracket :: inside =>
              if bracket.kind = .mark .leftBracket then
                ((expression inside).andThen fun index =>
                  (sign .rightBracket index.rest).map fun close =>
                    .element ⟨name, first.place⟩ index.value (first.place.upTo close.last)).widen
                      (Reading.behind_second_le first bracket inside)
              else
                .ok ⟨.identifier name first.place, first.place.span, bracket :: inside,
                  Reading.behind_first_lt first bracket inside⟩
      | .mark .leftParen =>
          ((expression rest).andThen fun inner =>
            (sign .rightParen inner.rest).map fun close =>
              .paren inner.value (first.place.upTo close.last)).widen (Reading.behind_le first rest)
      | _ => .fail ⟨.expression, first :: rest⟩
termination_by 6 * tokens.length
decreasing_by
  all_goals
    simp only [List.length_cons]
    omega

end

end Grammar

end ThreeAddress
