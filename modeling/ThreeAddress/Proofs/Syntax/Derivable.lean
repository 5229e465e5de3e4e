import ThreeAddress.Proofs.Syntax.Rules
import ThreeAddress.Proofs.Syntax.Unparse

/-!
# Canonical trees are derivable

What a canonical tree unparses to is derivable from the nonterminals of the levels that the tree
stands on. Chains are written from the left in the rules and grow to the right in the trees, so a
tree with an operator lengthens the chain of its left operand.
-/

namespace ThreeAddress

set_option autoImplicit false

open Phrase

namespace Expr

structure Derivable (expr : Expr) : Prop where
  factor : expr.isFactor → (Phrase.rule .unary).Derives expr.unparse
  term : expr.isTerm → (Phrase.rule .term).Derives expr.unparse
  sum : (Phrase.rule .expression).Derives expr.unparse

theorem Derivable.of_term {expr : Expr}
    (factor : expr.isFactor → (Phrase.rule .unary).Derives expr.unparse)
    (term : (Phrase.rule .term).Derives expr.unparse) : expr.Derivable :=
  ⟨factor, fun _ => term, .rule term.alone⟩

theorem Derivable.of_unary {expr : Expr} (unary : (Phrase.rule .unary).Derives expr.unparse) :
    expr.Derivable :=
  .of_term (fun _ => unary) (.rule unary.alone)

theorem Derivable.of_atom {expr : Expr}
    (atom : (Nonterminal.production .atom).Derives expr.unparse) : expr.Derivable :=
  .of_unary (.rule (.right (.rule atom)))

theorem derivable (expr : Expr) (canonical : expr.Canonical) : expr.Derivable := by
  induction expr with
  | identifier name place => exact .of_atom (.left (.right (.token .identifier)))
  | integer text place => exact .of_atom (.left (.left (.left (.left (.token .integer)))))
  | float text place => exact .of_atom (.left (.left (.left (.right (.token .float)))))
  | element array index place ih =>
      exact .of_atom (.left (.left (.right (.token_cons .identifier
        (.sign_cons ((ih canonical).sum.in_order_cons (.sign_cons .empty)))))))
  | paren inner place ih =>
      exact .of_atom (.right (.sign_cons ((ih canonical).sum.in_order_cons (.sign_cons .empty))))
  | negate inner place ih =>
      have operand := (ih canonical.1).factor canonical.2
      exact .of_unary (.rule (.left (.sign_cons operand.single)))
  | binary op left right place ihLeft ihRight =>
      obtain ⟨canonicalLeft, canonicalRight, levels⟩ := canonical
      have first := ihLeft canonicalLeft
      have second := ihRight canonicalRight
      cases op with
      | mul =>
          cases first.term levels.1 with
          | rule chain =>
              exact .of_term nofun (.rule (chain.chain (.left (.token .exactly))
                (second.factor levels.2)))
      | div =>
          cases first.term levels.1 with
          | rule chain =>
              exact .of_term nofun (.rule (chain.chain (.right (.token .exactly))
                (second.factor levels.2)))
      | add =>
          cases first.sum with
          | rule chain =>
              exact ⟨nofun, nofun, .rule (chain.chain (.left (.token .exactly))
                (second.term levels))⟩
      | sub =>
          cases first.sum with
          | rule chain =>
              exact ⟨nofun, nofun, .rule (chain.chain (.right (.token .exactly))
                (second.term levels))⟩

end Expr

theorem CompareOp.derivable (op : CompareOp) : (Phrase.rule .cmpOp).Derives [op.kind] := by
  cases op with
  | less => exact .rule (.left (.left (.left (.left (.left (.token .exactly))))))
  | greater => exact .rule (.left (.left (.left (.left (.right (.token .exactly))))))
  | lessEqual => exact .rule (.left (.left (.left (.right (.token .exactly)))))
  | greaterEqual => exact .rule (.left (.left (.right (.token .exactly))))
  | equal => exact .rule (.left (.right (.token .exactly)))
  | notEqual => exact .rule (.right (.token .exactly))

theorem DataType.derivable (type : DataType) : (Phrase.rule .dataType).Derives [type.kind] := by
  cases type with
  | int => exact .rule (.left (.token .exactly))
  | float => exact .rule (.right (.token .exactly))

namespace Cond

structure Derivable (cond : Cond) : Prop where
  atom : cond.isAtom → (Phrase.rule .condAtom).Derives cond.unparse
  conjunction : cond.isConjunction → (Phrase.rule .andCond).Derives cond.unparse
  disjunction : (Phrase.rule .orCond).Derives cond.unparse

theorem Derivable.of_atom {cond : Cond}
    (atom : (Nonterminal.production .condAtom).Derives cond.unparse) : cond.Derivable := by
  have conjunction : (Phrase.rule .andCond).Derives cond.unparse := .rule (Derives.rule atom).alone
  exact ⟨fun _ => .rule atom, fun _ => conjunction, .rule conjunction.alone⟩

/-- A condition derives from the nonterminal of conditions. -/
theorem Derivable.condition {cond : Cond} (derivable : cond.Derivable) :
    (Phrase.rule .condition).Derives cond.unparse :=
  .rule derivable.disjunction

theorem derivable (cond : Cond) (canonical : cond.Canonical) : cond.Derivable := by
  induction cond with
  | compare op position left right place =>
      exact .of_atom (.right ((left.derivable canonical.1).sum.in_order_cons
        (op.derivable.in_order_cons (right.derivable canonical.2).sum.single)))
  | and left right place ihLeft ihRight =>
      obtain ⟨canonicalLeft, canonicalRight, chain, atom, _⟩ := canonical
      cases (ihLeft canonicalLeft).conjunction chain with
      | rule first =>
          have conjunction : (Phrase.rule .andCond).Derives _ :=
            .rule (first.chain (.token .exactly) ((ihRight canonicalRight).atom atom))
          exact ⟨nofun, fun _ => conjunction, .rule conjunction.alone⟩
  | or left right place ihLeft ihRight =>
      obtain ⟨canonicalLeft, canonicalRight, chain, _⟩ := canonical
      cases (ihLeft canonicalLeft).disjunction with
      | rule first =>
          exact ⟨nofun, nofun, .rule (first.chain (.token .exactly)
            ((ihRight canonicalRight).conjunction chain))⟩
  | not inner place ih =>
      exact .of_atom (.left (.left (.sign_cons (ih canonical).condition.single)))
  | paren inner place ih =>
      exact .of_atom (.left (.right (.sign_cons
        ((ih canonical).condition.in_order_cons (.sign_cons .empty)))))

end Cond

theorem Ident.derivable_unparse_tail (names : List Ident) :
    (Phrase.many (inOrder [sign .comma, .token .identifier])).Derives
      (Ident.unparseTail names) := by
  induction names with
  | nil => exact .none
  | cons name names ih => exact .more (.sign_cons (.token_cons .identifier .empty)) ih

/-- What an output has between its parentheses: a text and further names, or one name. -/
theorem Stmt.derivable_unparse_items {text : Option String} {names : List Ident}
    (single : text = none → names.length = 1) :
    (inOrder [.token .string, .many (inOrder [sign .comma, .token .identifier])] |||
      Phrase.token .identifier).Derives (Stmt.unparseItems text names) := by
  cases text with
  | some text => exact .left (.token_cons .string (Ident.derivable_unparse_tail names).single)
  | none =>
      obtain ⟨name, rfl⟩ := List.length_eq_one_iff.mp (single rfl)
      exact .right (.token .identifier)

mutual

theorem Stmt.derivable (stmt : Stmt) (canonical : stmt.Canonical) :
    (Phrase.rule .statement).Derives stmt.unparse := by
  match stmt with
  | .scalar name type place =>
      refine .rule (.left (.left (.left (.left (.left (.left (.left (.left (.rule ?_)))))))))
      exact .word_cons (.token_cons .identifier (.sign_cons
        (type.derivable.in_order_cons (.sign_cons .empty))))
  | .array name element size position place =>
      refine .rule (.left (.left (.left (.left (.left (.left (.left (.right (.rule ?_)))))))))
      exact .word_cons (.token_cons .identifier (.sign_cons (.sign_cons
        (element.derivable.in_order_cons (.sign_cons (.token_cons .integer
          (.sign_cons (.sign_cons .empty))))))))
  | .constant name type position value place =>
      simp only [Stmt.unparse, List.append_assoc]
      refine .rule (.left (.left (.left (.left (.left (.left (.right (.rule ?_))))))))
      exact .word_cons (.word_cons (.token_cons .identifier (.sign_cons
        (type.derivable.in_order_cons (.sign_cons
          ((value.derivable canonical).sum.in_order_cons (.sign_cons .empty)))))))
  | .assign target value place =>
      simp only [Stmt.unparse, List.append_assoc]
      refine .rule (.left (.left (.left (.left (.left (.right (.rule ?_)))))))
      exact .token_cons .identifier (.sign_cons
        ((value.derivable canonical).sum.in_order_cons (.sign_cons .empty)))
  | .ifThen condition body place =>
      have inside := Stmt.derivable_all body canonical.2
      have without : (inOrder (word .elseWord :: block)).optional.Derives [] := .right .empty
      simp only [Stmt.unparse, List.append_assoc]
      refine .rule (.left (.left (.left (.left (.right (.rule ?_))))))
      exact .word_cons (.sign_cons ((condition.derivable canonical.1).condition.in_order_cons
        (.sign_cons (.word_cons (.sign_cons (inside.in_order_cons
          (.sign_cons without.single)))))))
  | .ifElse condition body otherwise place =>
      obtain ⟨canonicalTest, canonicalBody, canonicalElse⟩ := canonical
      have inside := Stmt.derivable_all body canonicalBody
      have other := Stmt.derivable_all otherwise canonicalElse
      have alternative : (inOrder (word .elseWord :: block)).optional.Derives _ :=
        .left (.word_cons (.sign_cons (other.in_order_cons (.sign_cons .empty))))
      simp only [Stmt.unparse, List.append_assoc]
      refine .rule (.left (.left (.left (.left (.right (.rule ?_))))))
      exact .word_cons (.sign_cons ((condition.derivable canonicalTest).condition.in_order_cons
        (.sign_cons (.word_cons (.sign_cons (inside.in_order_cons
          (.sign_cons alternative.single)))))))
  | .doWhile body condition place =>
      have inside := Stmt.derivable_all body canonical.1
      simp only [Stmt.unparse, List.append_assoc]
      refine .rule (.left (.left (.left (.right (.rule ?_)))))
      exact .word_cons (.sign_cons (inside.in_order_cons (.sign_cons (.word_cons (.sign_cons
        ((condition.derivable canonical.2).condition.in_order_cons
          (.sign_cons (.sign_cons .empty))))))))
  | .forLoop counter low high step body place =>
      obtain ⟨canonicalLow, canonicalHigh, canonicalStep, canonicalBody⟩ := canonical
      have inside := Stmt.derivable_all body canonicalBody
      simp only [Stmt.unparse, List.append_assoc]
      refine .rule (.left (.left (.right (.rule ?_))))
      exact .word_cons (.token_cons .identifier (.word_cons
        ((low.derivable canonicalLow).sum.in_order_cons (.word_cons
          ((high.derivable canonicalHigh).sum.in_order_cons (.word_cons
            ((step.derivable canonicalStep).sum.in_order_cons (.sign_cons
              (inside.in_order_cons (.sign_cons .empty))))))))))
  | .input target place =>
      refine .rule (.left (.right (.rule ?_)))
      exact .word_cons (.sign_cons (.token_cons .identifier (.sign_cons (.sign_cons .empty))))
  | .output text names place =>
      simp only [Stmt.unparse, List.append_assoc]
      refine .rule (.right (.rule ?_))
      exact .word_cons (.sign_cons ((Stmt.derivable_unparse_items canonical).in_order_cons
        (.sign_cons (.sign_cons .empty))))

theorem Stmt.derivable_all (stmts : List Stmt) (canonical : Stmt.CanonicalAll stmts) :
    (Phrase.many (.rule .statement)).Derives (Stmt.unparseAll stmts) := by
  match stmts with
  | [] => exact .none
  | first :: rest =>
      exact .more (first.derivable canonical.1) (Stmt.derivable_all rest canonical.2)

end

end ThreeAddress
