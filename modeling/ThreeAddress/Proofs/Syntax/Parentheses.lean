import ThreeAddress.Proofs.Syntax.Unparse

/-!
# An opening parenthesis starts one thing only

Behind a parenthesis that opens, a condition and an expression can both be read. What stands up to
the parenthesis that closes it decides which of them it is: a condition has a comparison there and
an expression has none. So no text is both.
-/

namespace ThreeAddress

set_option autoImplicit false

/-- The kinds up to a closing parenthesis that `depth` open ones do not account for. -/
def beforeClose : Nat → List TokenKind → List TokenKind
  | _, [] => []
  | depth, .mark .leftParen :: rest => .mark .leftParen :: beforeClose (depth + 1) rest
  | 0, .mark .rightParen :: _ => []
  | depth + 1, .mark .rightParen :: rest => .mark .rightParen :: beforeClose depth rest
  | depth, kind :: rest => kind :: beforeClose depth rest

/-- Every parenthesis has its partner, so a search for a closing one passes over all of them. -/
def Balanced (kinds : List TokenKind) : Prop :=
  ∀ depth rest, beforeClose depth (kinds ++ rest) = kinds ++ beforeClose depth rest

namespace Balanced

theorem nil : Balanced [] := by
  intro depth rest
  rfl

theorem cons {kind : TokenKind} {kinds : List TokenKind} (notLeft : kind ≠ .mark .leftParen)
    (notRight : kind ≠ .mark .rightParen) (balanced : Balanced kinds) :
    Balanced (kind :: kinds) := by
  intro depth rest
  rw [List.cons_append, List.cons_append, beforeClose.eq_def]
  split
  · rename_i same
    cases same
  · rename_i same
    cases same
    exact absurd rfl notLeft
  · rename_i same
    cases same
    exact absurd rfl notRight
  · rename_i same
    cases same
    exact absurd rfl notRight
  · rename_i same
    cases same
    rw [balanced]

theorem append {left right : List TokenKind} (first : Balanced left) (second : Balanced right) :
    Balanced (left ++ right) := by
  intro depth rest
  rw [List.append_assoc, first, second, List.append_assoc]

theorem parens {kinds : List TokenKind} (balanced : Balanced kinds) :
    Balanced (.mark .leftParen :: (kinds ++ [.mark .rightParen])) := by
  intro depth rest
  rw [List.cons_append, List.append_assoc, List.singleton_append, beforeClose, balanced,
    beforeClose]
  simp

/-- What stands before a closing parenthesis is known from what stands around it. -/
theorem eq_of_close {left right : List TokenKind} (first : Balanced left)
    (second : Balanced right) {behind other : List TokenKind}
    (same : left ++ .mark .rightParen :: behind = right ++ .mark .rightParen :: other) :
    left = right := by
  have closed := congrArg (beforeClose 0) same
  simpa [first 0, second 0, beforeClose] using closed

end Balanced

namespace Expr

theorem balanced_unparse (expr : Expr) : Balanced expr.unparse := by
  induction expr with
  | identifier | integer | float => exact .cons nofun nofun .nil
  | element array index place ih =>
      exact .cons nofun nofun (.cons nofun nofun (ih.append (.cons nofun nofun .nil)))
  | paren inner place ih => exact ih.parens
  | negate inner place ih => exact .cons nofun nofun ih
  | binary op left right place ihLeft ihRight =>
      refine ihLeft.append (.cons ?_ ?_ ihRight)
      · cases op <;> exact nofun
      · cases op <;> exact nofun

/-- No comparison stands in an expression. -/
theorem is_comparison_of_mem_unparse (expr : Expr) :
    ∀ kind ∈ expr.unparse, kind.isComparison = false := by
  induction expr with
  | identifier | integer | float =>
      simp [unparse, TokenKind.isComparison, CompareOp.ofKind?]
  | element array index place ih =>
      simp only [unparse, List.mem_cons, List.mem_append, List.not_mem_nil, or_false]
      rintro kind (rfl | rfl | member | rfl)
      · rfl
      · rfl
      · exact ih kind member
      · rfl
  | paren inner place ih =>
      simp only [unparse, List.mem_cons, List.mem_append, List.not_mem_nil, or_false]
      rintro kind (rfl | member | rfl)
      · rfl
      · exact ih kind member
      · rfl
  | negate inner place ih =>
      simp only [unparse, List.mem_cons]
      rintro kind (rfl | member)
      · rfl
      · exact ih kind member
  | binary op left right place ihLeft ihRight =>
      simp only [unparse, List.mem_append, List.mem_cons]
      rintro kind (member | rfl | member)
      · exact ihLeft kind member
      · cases op <;> rfl
      · exact ihRight kind member

/-- An expression that starts with a parenthesis starts with an expression in parentheses. -/
theorem exists_of_unparse_left_paren (expr : Expr) {rest : List TokenKind}
    (starts : expr.unparse = .mark .leftParen :: rest) :
    ∃ inner more, rest = unparse inner ++ .mark .rightParen :: more := by
  induction expr generalizing rest with
  | identifier | integer | float | element | negate => cases starts
  | paren inner place ih =>
      cases starts
      exact ⟨inner, [], rfl⟩
  | binary op left right place ihLeft ihRight =>
      rw [unparse] at starts
      rcases List.append_eq_cons_iff.mp starts with ⟨_, operator⟩ | ⟨more, first, behind⟩
      · cases op <;> cases operator
      · obtain ⟨inner, between, same⟩ := ihLeft first
        exact ⟨inner, between ++ op.kind :: right.unparse, by rw [behind, same]; simp⟩

end Expr

namespace Cond

theorem balanced_unparse (cond : Cond) : Balanced cond.unparse := by
  induction cond with
  | compare op position left right place =>
      refine left.balanced_unparse.append (.cons ?_ ?_ right.balanced_unparse)
      · cases op <;> exact nofun
      · cases op <;> exact nofun
  | and left right place ihLeft ihRight => exact ihLeft.append (.cons nofun nofun ihRight)
  | or left right place ihLeft ihRight => exact ihLeft.append (.cons nofun nofun ihRight)
  | not inner place ih => exact .cons nofun nofun ih
  | paren inner place ih => exact ih.parens

/-- A comparison stands in every condition. -/
theorem exists_comparison_mem_unparse (cond : Cond) :
    ∃ kind ∈ cond.unparse, kind.isComparison = true := by
  induction cond with
  | compare op position left right place =>
      refine ⟨op.kind, by simp [unparse], ?_⟩
      cases op <;> rfl
  | and left right place ih _ | or left right place ih _ =>
      obtain ⟨kind, member, compares⟩ := ih
      exact ⟨kind, by simp [unparse, member], compares⟩
  | not inner place ih | paren inner place ih =>
      obtain ⟨kind, member, compares⟩ := ih
      exact ⟨kind, by simp [unparse, member], compares⟩

/-- What a parenthesis closes is not both a condition and an expression. -/
theorem unparse_close_ne (cond : Cond) (expr : Expr) (behind other : List TokenKind) :
    cond.unparse ++ .mark .rightParen :: behind ≠
      expr.unparse ++ .mark .rightParen :: other := by
  intro same
  have inside := cond.balanced_unparse.eq_of_close expr.balanced_unparse same
  obtain ⟨kind, member, compares⟩ := cond.exists_comparison_mem_unparse
  rw [inside] at member
  rw [expr.is_comparison_of_mem_unparse kind member] at compares
  cases compares

end Cond

end ThreeAddress
