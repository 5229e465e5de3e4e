import ThreeAddress.Proofs.Syntax.Readings

/-!
# What is read is what was written

Every reading that succeeds has taken exactly the tokens that its tree unparses to, and the tree is
canonical. The proofs follow the recursion of the grammar. For conditions they also say what
cannot come next: behind a conjunction stands no `AND`, and behind a condition or a negation no
connective at all.
-/

namespace ThreeAddress

set_option autoImplicit false

theorem BinaryOp.of_sum?_eq_some_iff (kind : TokenKind) (op : BinaryOp) :
    BinaryOp.ofSum? kind = some op ↔ kind = op.kind ∧ op.isMultiplicative = false := by
  constructor
  · intro found
    rw [BinaryOp.ofSum?.eq_def] at found
    split at found <;> cases found <;> exact ⟨rfl, rfl⟩
  · rintro ⟨rfl, additive⟩
    cases op with
    | add | sub => rfl
    | mul | div => cases additive

theorem BinaryOp.of_product?_eq_some_iff (kind : TokenKind) (op : BinaryOp) :
    BinaryOp.ofProduct? kind = some op ↔ kind = op.kind ∧ op.isMultiplicative = true := by
  constructor
  · intro found
    rw [BinaryOp.ofProduct?.eq_def] at found
    split at found <;> cases found <;> exact ⟨rfl, rfl⟩
  · rintro ⟨rfl, multiplicative⟩
    cases op with
    | mul | div => rfl
    | add | sub => cases multiplicative

namespace Grammar

open Read

mutual

theorem expression_ensures (tokens : List Token) :
    (expression tokens).Ensures fun expr rest =>
      Token.kinds tokens = expr.unparse ++ rest ∧ expr.Canonical := by
  rw [expression]
  refine (product_ensures tokens).and_tail fun first ⟨written, canonical, _⟩ => ?_
  rw [written]
  exact sum_tail_ensures first.value first.last first.rest canonical
termination_by 6 * tokens.length + 4
decreasing_by
  · omega
  · have := first.shorter
    omega

theorem sum_tail_ensures (left : Expr) (last : Span) (tokens : List Token)
    (canonical : left.Canonical) :
    (sumTail left last tokens).Ensures fun expr rest =>
      left.unparse ++ Token.kinds tokens = expr.unparse ++ rest ∧ expr.Canonical := by
  match tokens with
  | [] =>
      rw [sumTail]
      exact .of_ok ⟨rfl, canonical⟩
  | first :: rest =>
      rw [sumTail]
      split
      · exact .of_ok ⟨rfl, canonical⟩
      · rename_i op found
        obtain ⟨same, additive⟩ := (BinaryOp.of_sum?_eq_some_iff first.kind op).mp found
        refine ((product_ensures rest).and_tail fun right ⟨written, operand, term⟩ => ?_).widen _
        have joined : (Expr.join op left right.value).Canonical := by
          simp [Expr.join, Expr.Canonical, additive, canonical, operand, term]
        have further := sum_tail_ensures (.join op left right.value) right.last right.rest joined
        simpa [Expr.join, Expr.unparse, written, same] using further
termination_by 6 * tokens.length + 5
decreasing_by
  all_goals simp only [List.length_cons]
  · omega
  · have := right.shorter
    omega

theorem product_ensures (tokens : List Token) :
    (product tokens).Ensures fun expr rest =>
      Token.kinds tokens = expr.unparse ++ rest ∧ expr.Canonical ∧ expr.isTerm := by
  rw [product]
  refine (unary_ensures tokens).and_tail fun first ⟨written, canonical, factor⟩ => ?_
  rw [written]
  exact product_tail_ensures first.value first.last first.rest canonical
    (Expr.is_term_of_is_factor factor)
termination_by 6 * tokens.length + 2
decreasing_by
  · omega
  · have := first.shorter
    omega

theorem product_tail_ensures (left : Expr) (last : Span) (tokens : List Token)
    (canonical : left.Canonical) (term : left.isTerm) :
    (productTail left last tokens).Ensures fun expr rest =>
      left.unparse ++ Token.kinds tokens = expr.unparse ++ rest ∧ expr.Canonical ∧
        expr.isTerm := by
  match tokens with
  | [] =>
      rw [productTail]
      exact .of_ok ⟨rfl, canonical, term⟩
  | first :: rest =>
      rw [productTail]
      split
      · exact .of_ok ⟨rfl, canonical, term⟩
      · rename_i op found
        obtain ⟨same, multiplicative⟩ := (BinaryOp.of_product?_eq_some_iff first.kind op).mp found
        refine ((unary_ensures rest).and_tail fun right ⟨written, operand, factor⟩ => ?_).widen _
        have joined : (Expr.join op left right.value).Canonical := by
          simp [Expr.join, Expr.Canonical, multiplicative, canonical, operand, term, factor]
        have further := product_tail_ensures (.join op left right.value) right.last right.rest
          joined multiplicative
        simpa [Expr.join, Expr.unparse, written, same] using further
termination_by 6 * tokens.length + 3
decreasing_by
  all_goals simp only [List.length_cons]
  · omega
  · have := right.shorter
    omega

theorem unary_ensures (tokens : List Token) :
    (unary tokens).Ensures fun expr rest =>
      Token.kinds tokens = expr.unparse ++ rest ∧ expr.Canonical ∧ expr.isFactor := by
  match tokens with
  | [] =>
      rw [unary]
      exact .of_fail _
  | first :: rest =>
      rw [unary]
      split
      · rename_i minus
        refine ((unary_ensures rest).map fun operand ⟨written, canonical, factor⟩ => ?_).widen _
        exact ⟨by simp [Expr.unparse, minus, written], ⟨canonical, factor⟩, rfl⟩
      · exact atom_ensures (first :: rest)
termination_by 6 * tokens.length + 1
decreasing_by
  all_goals
    simp only [List.length_cons]
    omega

theorem atom_ensures (tokens : List Token) :
    (atom tokens).Ensures fun expr rest =>
      Token.kinds tokens = expr.unparse ++ rest ∧ expr.Canonical ∧ expr.isFactor := by
  match tokens with
  | [] =>
      rw [atom]
      exact .of_fail _
  | first :: rest =>
      rw [atom.eq_def]
      simp only
      split
      · rename_i text same
        exact .of_ok ⟨by simp [Expr.unparse, same], trivial, rfl⟩
      · rename_i text same
        exact .of_ok ⟨by simp [Expr.unparse, same], trivial, rfl⟩
      · rename_i name same
        split
        · exact .of_ok ⟨by simp [Expr.unparse, same], trivial, rfl⟩
        · rename_i bracket inside
          split
          · rename_i opened
            refine ((expression_ensures inside).and_then fun index ⟨written, canonical⟩ =>
              (sign_ensures .rightBracket index.rest).map fun close closed => ?_).widen _
            refine ⟨?_, canonical, rfl⟩
            simp [Expr.unparse, Ident.kind, same, opened, written, closed]
          · exact .of_ok ⟨by simp [Expr.unparse, same], trivial, rfl⟩
      · rename_i opened
        refine ((expression_ensures rest).and_then fun inner ⟨written, canonical⟩ =>
          (sign_ensures .rightParen inner.rest).map fun close closed => ?_).widen _
        exact ⟨by simp [Expr.unparse, opened, written, closed], canonical, rfl⟩
      · exact .of_fail _
termination_by 6 * tokens.length
decreasing_by
  · rename_i shape _
    rw [shape]
    simp only [List.length_cons]
    omega
  · simp only [List.length_cons]
    omega

end

theorem comparison_ensures (tokens : List Token) :
    (comparison tokens).Ensures fun cond rest =>
      Token.kinds tokens = cond.unparse ++ rest ∧ cond.Canonical ∧ cond.isAtom ∧
        ¬ cond.endsOpen := by
  rw [comparison]
  refine (expression_ensures tokens).and_then fun left ⟨before, canonicalLeft⟩ =>
    (compare_op_ensures left.rest).and_then fun op sign =>
      (expression_ensures op.rest).map fun right ⟨behind, canonicalRight⟩ => ?_
  refine ⟨?_, ⟨canonicalLeft, canonicalRight⟩, rfl, Bool.false_ne_true⟩
  simp [Cond.unparse, before, sign, behind]

mutual

theorem condition_ensures (tokens : List Token) :
    (condition tokens).Ensures fun cond rest =>
      Token.kinds tokens = cond.unparse ++ rest ∧ cond.Canonical ∧
        BindsBelow TokenKind.connective 1 rest := by
  rw [condition]
  refine (conjunction_ensures tokens).and_tail
    fun first ⟨written, canonical, _, noAnd, closed⟩ => ?_
  rw [written]
  exact or_tail_ensures first.value first.last first.rest canonical noAnd closed
termination_by 6 * tokens.length + 4
decreasing_by
  · omega
  · have := first.shorter
    omega

theorem or_tail_ensures (left : Cond) (last : Span) (tokens : List Token)
    (canonical : left.Canonical)
    (noAnd : BindsBelow TokenKind.connective 2 (Token.kinds tokens))
    (closed : left.endsOpen → BindsBelow TokenKind.connective 1 (Token.kinds tokens)) :
    (orTail left last tokens).Ensures fun cond rest =>
      left.unparse ++ Token.kinds tokens = cond.unparse ++ rest ∧ cond.Canonical ∧
        BindsBelow TokenKind.connective 1 rest := by
  match tokens with
  | [] =>
      rw [orTail]
      exact .of_ok ⟨rfl, canonical, .nil⟩
  | first :: rest =>
      rw [orTail]
      split
      · rename_i or
        have shut : ¬ left.endsOpen := by
          intro ends
          exact (closed ends).head_ne (by decide) or
        refine ((conjunction_ensures rest).and_tail
          fun right ⟨written, operand, chain, noAnd, closed⟩ => ?_).widen _
        have joined : (left.joinOr right.value).Canonical :=
          ⟨canonical, operand, chain, shut⟩
        have further := or_tail_ensures (left.joinOr right.value) right.last right.rest joined
          noAnd closed
        simpa [Cond.joinOr, Cond.unparse, written, or] using further
      · rename_i other
        refine .of_ok ⟨rfl, canonical, .cons ?_⟩
        have weak := noAnd.head
        rw [TokenKind.connective.eq_def] at weak ⊢
        split at weak <;> simp_all
termination_by 6 * tokens.length + 5
decreasing_by
  all_goals simp only [List.length_cons]
  · omega
  · have := right.shorter
    omega

theorem conjunction_ensures (tokens : List Token) :
    (conjunction tokens).Ensures fun cond rest =>
      Token.kinds tokens = cond.unparse ++ rest ∧ cond.Canonical ∧ cond.isConjunction ∧
        BindsBelow TokenKind.connective 2 rest ∧
        (cond.endsOpen → BindsBelow TokenKind.connective 1 rest) := by
  rw [conjunction]
  refine (condition_atom_ensures tokens).and_tail fun first ⟨written, canonical, atom, closed⟩ => ?_
  rw [written]
  exact and_tail_ensures first.value first.last first.rest canonical
    (Cond.is_conjunction_of_is_atom atom) closed
termination_by 6 * tokens.length + 2
decreasing_by
  · omega
  · have := first.shorter
    omega

theorem and_tail_ensures (left : Cond) (last : Span) (tokens : List Token)
    (canonical : left.Canonical) (chain : left.isConjunction)
    (closed : left.endsOpen → BindsBelow TokenKind.connective 1 (Token.kinds tokens)) :
    (andTail left last tokens).Ensures fun cond rest =>
      left.unparse ++ Token.kinds tokens = cond.unparse ++ rest ∧ cond.Canonical ∧
        cond.isConjunction ∧ BindsBelow TokenKind.connective 2 rest ∧
        (cond.endsOpen → BindsBelow TokenKind.connective 1 rest) := by
  match tokens with
  | [] =>
      rw [andTail]
      exact .of_ok ⟨rfl, canonical, chain, .nil, fun _ => .nil⟩
  | first :: rest =>
      rw [andTail]
      split
      · rename_i and
        have shut : ¬ left.endsOpen := by
          intro ends
          exact (closed ends).head_ne (by decide) and
        refine ((condition_atom_ensures rest).and_tail
          fun right ⟨written, operand, atom, closed⟩ => ?_).widen _
        have joined : (left.joinAnd right.value).Canonical :=
          ⟨canonical, operand, chain, atom, shut⟩
        have further := and_tail_ensures (left.joinAnd right.value) right.last right.rest joined
          rfl closed
        simpa [Cond.joinAnd, Cond.unparse, written, and] using further
      · rename_i other
        refine .of_ok ⟨rfl, canonical, chain, .cons ?_, closed⟩
        rw [TokenKind.connective.eq_def]
        split <;> simp_all
termination_by 6 * tokens.length + 3
decreasing_by
  all_goals simp only [List.length_cons]
  · omega
  · have := right.shorter
    omega

theorem condition_atom_ensures (tokens : List Token) :
    (conditionAtom tokens).Ensures fun cond rest =>
      Token.kinds tokens = cond.unparse ++ rest ∧ cond.Canonical ∧ cond.isAtom ∧
        (cond.endsOpen → BindsBelow TokenKind.connective 1 rest) := by
  have compared : ∀ tokens, (comparison tokens).Ensures fun cond rest =>
      Token.kinds tokens = cond.unparse ++ rest ∧ cond.Canonical ∧ cond.isAtom ∧
        (cond.endsOpen → BindsBelow TokenKind.connective 1 rest) := by
    intro tokens reading done
    obtain ⟨written, canonical, atom, shut⟩ := comparison_ensures tokens reading done
    exact ⟨written, canonical, atom, fun ends => absurd ends shut⟩
  match tokens with
  | [] =>
      rw [conditionAtom]
      exact compared []
  | first :: rest =>
      rw [conditionAtom]
      split
      · rename_i bang
        refine ((condition_ensures rest).map fun inner ⟨written, canonical, below⟩ => ?_).widen _
        exact ⟨by simp [Cond.unparse, written, bang], canonical, rfl, fun _ => below⟩
      · split
        · rename_i opened
          split
          · rename_i reading took
            obtain ⟨inner, place, same, canonical, written⟩ :=
              paren_condition_ensures first rest reading took
            refine Ensures.widen (.of_ok ?_) _
            rw [same]
            exact ⟨by simp [Cond.unparse, opened, written], canonical, rfl, nofun⟩
          · exact compared (first :: rest)
        · exact compared (first :: rest)
termination_by 6 * tokens.length
decreasing_by
  all_goals
    simp only [List.length_cons]
    omega

theorem paren_condition_ensures (first : Token) (tokens : List Token) :
    (parenCondition first tokens).Ensures fun cond rest =>
      ∃ inner place, cond = .paren inner place ∧ inner.Canonical ∧
        Token.kinds tokens = inner.unparse ++ .mark .rightParen :: rest := by
  rw [parenCondition]
  refine (condition_ensures tokens).and_then fun inner ⟨written, canonical, _⟩ =>
    (sign_ensures .rightParen inner.rest).map fun close closed => ?_
  exact ⟨inner.value, _, rfl, canonical, by rw [written, closed]⟩
termination_by 6 * tokens.length + 5
decreasing_by omega

end

end Grammar

/-- The statement is what the tokens of these kinds spell up to the rest. -/
def Stmt.Spelled (kinds : List TokenKind) (stmt : Stmt) (rest : List TokenKind) : Prop :=
  kinds = stmt.unparse ++ rest ∧ stmt.Canonical

namespace Grammar

theorem declared_type_ensures (first : Token) (name : Ident) (tokens : List Token) :
    (declaredType first name tokens).Ensures
      (Stmt.Spelled (.keyword .letWord :: name.kind :: .mark .colon :: Token.kinds tokens)) := by
  cases tokens with
  | nil => exact .of_fail _
  | cons bracket inside =>
      rw [declaredType]
      split
      · rename_i opened
        refine ((data_type_ensures inside).and_then fun element typed =>
          (sign_ensures .semicolon element.rest).and_then fun divider divided =>
            (array_size_ensures divider.rest).and_then fun size sized =>
              (sign_ensures .rightBracket size.rest).and_then fun close closed =>
                (sign_ensures .semicolon close.rest).map fun stop stopped => ?_).widen _
        exact ⟨by simp [Stmt.unparse, opened, typed, divided, sized, closed, stopped], trivial⟩
      · refine (data_type_ensures (bracket :: inside)).and_then fun type typed =>
          (sign_ensures .semicolon type.rest).map fun stop stopped => ?_
        exact ⟨by simp [Stmt.unparse, typed, stopped], trivial⟩

theorem declaration_ensures (first : Token) (tokens : List Token) :
    (declaration first tokens).Ensures
      (Stmt.Spelled (.keyword .letWord :: Token.kinds tokens)) := by
  rw [declaration]
  refine (ident_ensures tokens).and_then fun name named =>
    (sign_ensures .colon name.rest).and_then fun colon divided => ?_
  rw [named, divided]
  exact declared_type_ensures first name.value colon.rest

theorem constant_declaration_ensures (first : Token) (tokens : List Token) :
    (constantDeclaration first tokens).Ensures
      (Stmt.Spelled (.keyword .defineWord :: Token.kinds tokens)) := by
  rw [constantDeclaration]
  refine (word_ensures .constWord tokens).and_then fun const started =>
    (ident_ensures const.rest).and_then fun name named =>
      (sign_ensures .colon name.rest).and_then fun colon divided =>
        (data_type_ensures colon.rest).and_then fun type typed =>
          (sign_ensures .equal type.rest).and_then fun equal becomes =>
            (expression_ensures equal.rest).and_then fun value ⟨written, canonical⟩ =>
              (sign_ensures .semicolon value.rest).map fun stop stopped => ?_
  refine ⟨?_, canonical⟩
  simp [Stmt.unparse, started, named, divided, typed, becomes, written, stopped]

theorem assignment_ensures (first : Token) (name : String) (tokens : List Token) :
    (assignment first name tokens).Ensures
      (Stmt.Spelled (.identifier name :: Token.kinds tokens)) := by
  rw [assignment]
  refine (sign_ensures .colonEqual tokens).and_then fun sign becomes =>
    (expression_ensures sign.rest).and_then fun value ⟨written, canonical⟩ =>
      (sign_ensures .semicolon value.rest).map fun stop stopped => ?_
  exact ⟨by simp [Stmt.unparse, Ident.kind, becomes, written, stopped], canonical⟩

theorem input_ensures (first : Token) (tokens : List Token) :
    (input first tokens).Ensures (Stmt.Spelled (.keyword .inputWord :: Token.kinds tokens)) := by
  rw [input]
  refine (sign_ensures .leftParen tokens).and_then fun lparen opened =>
    (ident_ensures lparen.rest).and_then fun target named =>
      (sign_ensures .rightParen target.rest).and_then fun rparen closed =>
        (sign_ensures .semicolon rparen.rest).map fun stop stopped => ?_
  exact ⟨by simp [Stmt.unparse, opened, named, closed, stopped], trivial⟩

theorem comma_names_ensures (last : Span) (tokens : List Token) :
    (commaNames last tokens).Ensures fun names rest =>
      Token.kinds tokens = Ident.unparseTail names ++ rest := by
  match tokens with
  | [] =>
      rw [commaNames]
      exact .of_ok rfl
  | comma :: rest =>
      rw [commaNames]
      split
      · rename_i separated
        refine ((ident_ensures rest).and_tail fun name named =>
          (comma_names_ensures name.last name.rest).map fun names written => ?_).widen _
        simp [Ident.unparseTail, separated, named, written]
      · exact .of_ok rfl
termination_by tokens.length
decreasing_by
  have := name.shorter
  simp only [List.length_cons]
  omega

theorem output_items_ensures (tokens : List Token) :
    (outputItems tokens).Ensures fun items rest =>
      Token.kinds tokens = Stmt.unparseItems items.1 items.2 ++ rest ∧
        (items.1 = none → items.2.length = 1) := by
  cases tokens with
  | nil => exact .of_fail _
  | cons first rest =>
      rw [outputItems]
      split
      · rename_i text quoted
        refine ((comma_names_ensures first.place.span rest).map fun names written => ?_).widen _
        exact ⟨by simp [Stmt.unparseItems, quoted, written], by simp⟩
      · refine (ident_ensures (first :: rest)).map fun name named => ?_
        exact ⟨by simp [Stmt.unparseItems, Ident.unparseTail, named], fun _ => rfl⟩

theorem output_ensures (first : Token) (tokens : List Token) :
    (output first tokens).Ensures
      (Stmt.Spelled (.keyword .outputWord :: Token.kinds tokens)) := by
  rw [output]
  refine (sign_ensures .leftParen tokens).and_then fun lparen opened =>
    (output_items_ensures lparen.rest).and_then fun items ⟨written, single⟩ =>
      (sign_ensures .rightParen items.rest).and_then fun rparen closed =>
        (sign_ensures .semicolon rparen.rest).map fun stop stopped => ?_
  exact ⟨by simp [Stmt.unparse, opened, written, closed, stopped], single⟩

mutual

theorem statement_ensures (tokens : List Token) :
    (statement tokens).Ensures (Stmt.Spelled (Token.kinds tokens)) := by
  match tokens with
  | [] =>
      rw [statement]
      exact .of_fail _
  | first :: rest =>
      rw [statement, Token.kinds_cons]
      split
      · rename_i same
        exact same ▸ (declaration_ensures first rest).widen _
      · rename_i same
        exact same ▸ (constant_declaration_ensures first rest).widen _
      · rename_i name same
        exact same ▸ (assignment_ensures first name rest).widen _
      · rename_i same
        exact same ▸ (conditional_ensures first rest).widen _
      · rename_i same
        exact same ▸ (do_while_ensures first rest).widen _
      · rename_i same
        exact same ▸ (for_loop_ensures first rest).widen _
      · rename_i same
        exact same ▸ (input_ensures first rest).widen _
      · rename_i same
        exact same ▸ (output_ensures first rest).widen _
      · exact .of_fail _
termination_by 4 * tokens.length
decreasing_by
  all_goals
    simp only [List.length_cons]
    omega

theorem conditional_ensures (first : Token) (tokens : List Token) :
    (conditional first tokens).Ensures
      (Stmt.Spelled (.keyword .ifWord :: Token.kinds tokens)) := by
  rw [conditional]
  refine (sign_ensures .leftParen tokens).and_then fun lparen opened =>
    (condition_ensures lparen.rest).and_then fun test ⟨written, canonical, _⟩ =>
      (sign_ensures .rightParen test.rest).and_then fun rparen closed =>
        (word_ensures .thenWord rparen.rest).and_then fun keyword started =>
          (block_ensures keyword.rest).and_tail fun body ⟨inside, canonicalBody⟩ => ?_
  have further := alternative_ensures first test.value body.value body.last body.rest canonical
    canonicalBody
  simpa [opened, written, closed, started, inside] using further
termination_by 4 * tokens.length + 3
decreasing_by
  all_goals
    have := lparen.shorter
    have := test.shorter
    have := rparen.shorter
    have := keyword.shorter
  · omega
  · have := body.shorter
    omega

theorem alternative_ensures (first : Token) (test : Cond) (body : List Stmt) (last : Span)
    (tokens : List Token) (canonical : test.Canonical) (canonicalBody : Stmt.CanonicalAll body) :
    (alternative first test body last tokens).Ensures
      (Stmt.Spelled ([.keyword .ifWord, .mark .leftParen] ++ test.unparse ++
        [.mark .rightParen, .keyword .thenWord, .mark .leftBrace] ++ Stmt.unparseAll body ++
        .mark .rightBrace :: Token.kinds tokens)) := by
  match tokens with
  | [] =>
      rw [alternative]
      exact .of_ok ⟨by simp [Stmt.unparse], canonical, canonicalBody⟩
  | keyword :: rest =>
      rw [alternative]
      split
      · rename_i same
        refine ((block_ensures rest).map fun otherwise ⟨inside, canonicalOther⟩ => ?_).widen _
        exact ⟨by simp [Stmt.unparse, same, inside], canonical, canonicalBody, canonicalOther⟩
      · exact .of_ok ⟨by simp [Stmt.unparse], canonical, canonicalBody⟩
termination_by 4 * tokens.length + 3
decreasing_by
  simp only [List.length_cons]
  omega

theorem do_while_ensures (first : Token) (tokens : List Token) :
    (doWhile first tokens).Ensures (Stmt.Spelled (.keyword .doWord :: Token.kinds tokens)) := by
  rw [doWhile]
  refine (block_ensures tokens).and_then fun body ⟨inside, canonicalBody⟩ =>
    (word_ensures .whileWord body.rest).and_then fun keyword ended =>
      (sign_ensures .leftParen keyword.rest).and_then fun lparen opened =>
        (condition_ensures lparen.rest).and_then fun test ⟨written, canonical, _⟩ =>
          (sign_ensures .rightParen test.rest).and_then fun rparen closed =>
            (sign_ensures .semicolon rparen.rest).map fun stop stopped => ?_
  refine ⟨?_, canonicalBody, canonical⟩
  simp [Stmt.unparse, inside, ended, opened, written, closed, stopped]
termination_by 4 * tokens.length + 3
decreasing_by omega

theorem for_loop_ensures (first : Token) (tokens : List Token) :
    (forLoop first tokens).Ensures (Stmt.Spelled (.keyword .forWord :: Token.kinds tokens)) := by
  rw [forLoop]
  refine (ident_ensures tokens).and_then fun counter named =>
    (word_ensures .fromWord counter.rest).and_then fun fromWord started =>
      (expression_ensures fromWord.rest).and_then fun low ⟨lower, canonicalLow⟩ =>
        (word_ensures .toWord low.rest).and_then fun toWord bounded =>
          (expression_ensures toWord.rest).and_then fun high ⟨upper, canonicalHigh⟩ =>
            (word_ensures .stepWord high.rest).and_then fun stepWord stepped =>
              (expression_ensures stepWord.rest).and_then fun step ⟨stride, canonicalStep⟩ =>
                (block_ensures step.rest).map fun body ⟨inside, canonicalBody⟩ => ?_
  refine ⟨?_, canonicalLow, canonicalHigh, canonicalStep, canonicalBody⟩
  simp [Stmt.unparse, named, started, lower, bounded, upper, stepped, stride, inside]
termination_by 4 * tokens.length + 3
decreasing_by
  have := counter.shorter
  have := fromWord.shorter
  have := low.shorter
  have := toWord.shorter
  have := high.shorter
  have := stepWord.shorter
  have := step.shorter
  omega

theorem block_ensures (tokens : List Token) :
    (block tokens).Ensures fun body rest =>
      Token.kinds tokens =
          .mark .leftBrace :: (Stmt.unparseAll body ++ .mark .rightBrace :: rest) ∧
        Stmt.CanonicalAll body := by
  have opening : ((sign .leftBrace tokens).andTail fun lbrace =>
      blockItems lbrace.last lbrace.rest).Ensures fun body rest =>
        Token.kinds tokens = .mark .leftBrace :: (Stmt.unparseAll body ++ rest) ∧
          Stmt.CanonicalAll body := by
    refine (sign_ensures .leftBrace tokens).and_tail fun lbrace opened => ?_
    rw [opened]
    simpa using block_items_ensures lbrace.last lbrace.rest
  rw [block]
  refine opening.and_then fun body ⟨written, canonical⟩ =>
    (sign_ensures .rightBrace body.rest).map fun close closed => ?_
  exact ⟨by rw [written, closed], canonical⟩
termination_by 4 * tokens.length + 2
decreasing_by
  have := lbrace.shorter
  omega

theorem block_items_ensures (last : Span) (tokens : List Token) :
    (blockItems last tokens).Ensures fun body rest =>
      Token.kinds tokens = Stmt.unparseAll body ++ rest ∧ Stmt.CanonicalAll body := by
  match tokens with
  | [] =>
      rw [blockItems]
      exact .of_ok ⟨rfl, trivial⟩
  | first :: rest =>
      rw [blockItems]
      split
      · exact .of_ok ⟨rfl, trivial⟩
      · refine ((statement_ensures (first :: rest)).and_tail fun item ⟨written, canonical⟩ =>
          (block_items_ensures item.last item.rest).map
            fun items ⟨behind, canonicalRest⟩ => ?_).widen _
        exact ⟨by rw [written, behind]; simp [Stmt.unparseAll], canonical, canonicalRest⟩
termination_by 4 * tokens.length + 1
decreasing_by
  · omega
  · have := item.shorter
    omega

end

end Grammar

end ThreeAddress
