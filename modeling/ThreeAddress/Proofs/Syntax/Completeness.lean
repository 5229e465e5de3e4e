import ThreeAddress.Proofs.Syntax.Parentheses
import ThreeAddress.Proofs.Syntax.Soundness

/-!
# What is written is read back

From the tokens that a canonical tree unparses to, the grammar reads that tree again, but for its
places, and stops behind it if what comes next does not bind to it. A chain of operands is read
from the left, so a chain is said to be readable when reading it comes down to reading on behind
it, with the tree of the chain in hand.
-/

namespace ThreeAddress

set_option autoImplicit false

open Grammar Read

namespace Expr

/-- The tree but for its places, in front of exactly `tail`. -/
def ReadAs (expr : Expr) (tail : List TokenKind) (read : Expr) (rest : List TokenKind) : Prop :=
  read.unplaced = expr.unplaced ∧ rest = tail

def FactorReadable (expr : Expr) : Prop :=
  ∀ ⦃tokens tail⦄, Token.kinds tokens = expr.unparse ++ tail →
    BindsBelow TokenKind.operator 3 tail → (unary tokens).Achieves (expr.ReadAs tail)

def TermReadable (expr : Expr) : Prop :=
  ∀ ⦃tokens tail⦄ (post : Expr → List TokenKind → Prop),
    Token.kinds tokens = expr.unparse ++ tail → BindsBelow TokenKind.operator 3 tail →
    (∀ left last rest, left.unplaced = expr.unplaced → Token.kinds rest = tail →
      (productTail left last rest).Achieves post) →
    (product tokens).Achieves post

def SumReadable (expr : Expr) : Prop :=
  ∀ ⦃tokens tail⦄ (post : Expr → List TokenKind → Prop),
    Token.kinds tokens = expr.unparse ++ tail → BindsBelow TokenKind.operator 2 tail →
    (∀ left last rest, left.unplaced = expr.unplaced → Token.kinds rest = tail →
      (sumTail left last rest).Achieves post) →
    (expression tokens).Achieves post

/-- A product ends where no factor follows. -/
theorem product_tail_stops {left expr : Expr} (same : left.unplaced = expr.unplaced) (last : Span)
    {tokens : List Token} {tail : List TokenKind} (behind : Token.kinds tokens = tail)
    (below : BindsBelow TokenKind.operator 2 tail) :
    (productTail left last tokens).Achieves (expr.ReadAs tail) := by
  cases tokens with
  | nil =>
      rw [productTail]
      exact ⟨_, rfl, same, behind⟩
  | cons first rest =>
      have none : BinaryOp.ofProduct? first.kind = none := by
        rw [← behind] at below
        have weak := below.head
        rw [BinaryOp.ofProduct?.eq_def]
        split <;> simp_all [TokenKind.operator]
      rw [productTail, none]
      exact ⟨_, rfl, same, behind⟩

/-- A sum ends where no term follows. -/
theorem sum_tail_stops {left expr : Expr} (same : left.unplaced = expr.unplaced) (last : Span)
    {tokens : List Token} {tail : List TokenKind} (behind : Token.kinds tokens = tail)
    (below : BindsBelow TokenKind.operator 1 tail) :
    (sumTail left last tokens).Achieves (expr.ReadAs tail) := by
  cases tokens with
  | nil =>
      rw [sumTail]
      exact ⟨_, rfl, same, behind⟩
  | cons first rest =>
      have none : BinaryOp.ofSum? first.kind = none := by
        rw [← behind] at below
        have weak := below.head
        rw [BinaryOp.ofSum?.eq_def]
        split <;> simp_all [TokenKind.operator]
      rw [sumTail, none]
      exact ⟨_, rfl, same, behind⟩

theorem FactorReadable.term {expr : Expr} (readable : expr.FactorReadable) :
    expr.TermReadable := by
  intro tokens tail post written below further
  rw [product]
  refine (readable written below).and_tail fun first ⟨same, behind⟩ => ?_
  exact further first.value first.last first.rest same behind

theorem TermReadable.alone {expr : Expr} (readable : expr.TermReadable) {tokens : List Token}
    {tail : List TokenKind} (written : Token.kinds tokens = expr.unparse ++ tail)
    (below : BindsBelow TokenKind.operator 2 tail) :
    (product tokens).Achieves (expr.ReadAs tail) :=
  readable _ written (below.mono (by decide)) fun _ last _ same behind =>
    product_tail_stops same last behind below

theorem TermReadable.sum {expr : Expr} (readable : expr.TermReadable) : expr.SumReadable := by
  intro tokens tail post written below further
  rw [expression]
  refine (readable.alone written below).and_tail fun first ⟨same, behind⟩ => ?_
  exact further first.value first.last first.rest same behind

theorem unplaced_join {op : BinaryOp} {left right first second : Expr}
    (sameLeft : first.unplaced = left.unplaced) (sameRight : second.unplaced = right.unplaced)
    (place : Place) :
    (join op first second).unplaced = (binary op left right place).unplaced := by
  rw [join, unplaced, unplaced, sameLeft, sameRight]

theorem TermReadable.product {left right : Expr} (first : left.TermReadable)
    (second : right.FactorReadable) {op : BinaryOp} (multiplicative : op.isMultiplicative)
    (place : Place) : (binary op left right place).TermReadable := by
  intro tokens tail post written below further
  rw [unparse, List.append_assoc, List.cons_append] at written
  have tighter : TokenKind.operator op.kind < 3 := by cases op <;> decide
  refine first post written (.cons tighter) fun read last rest same behind => ?_
  obtain ⟨sign, operand, rfl, kind, behind⟩ := Token.exists_of_kinds_eq_cons behind
  rw [productTail, (BinaryOp.of_product?_eq_some_iff _ op).mpr ⟨kind, multiplicative⟩]
  refine ((second behind below).and_tail fun factor ⟨sameFactor, behind⟩ => ?_).widen _
  exact further _ factor.last factor.rest (unplaced_join same sameFactor place) behind

theorem SumReadable.sum {left right : Expr} (first : left.SumReadable)
    (second : right.TermReadable) {op : BinaryOp} (additive : op.isMultiplicative = false)
    (place : Place) : (binary op left right place).SumReadable := by
  intro tokens tail post written below further
  rw [unparse, List.append_assoc, List.cons_append] at written
  have weaker : TokenKind.operator op.kind < 2 := by
    cases op with
    | add | sub => decide
    | mul | div => cases additive
  refine first post written (.cons weaker) fun read last rest same behind => ?_
  obtain ⟨sign, operand, rfl, kind, behind⟩ := Token.exists_of_kinds_eq_cons behind
  rw [sumTail, (BinaryOp.of_sum?_eq_some_iff _ op).mpr ⟨kind, additive⟩]
  refine ((second.alone behind below).and_tail fun term ⟨sameTerm, behind⟩ => ?_).widen _
  exact further _ term.last term.rest (unplaced_join same sameTerm place) behind

theorem SumReadable.expression_achieves {expr : Expr} (readable : expr.SumReadable)
    {tokens : List Token} {tail : List TokenKind}
    (written : Token.kinds tokens = expr.unparse ++ tail)
    (below : BindsBelow TokenKind.operator 1 tail) :
    (expression tokens).Achieves (expr.ReadAs tail) :=
  readable _ written (below.mono (by decide)) fun _ last _ same behind =>
    sum_tail_stops same last behind below

/-- An expression is not empty, and no `!` starts it. -/
theorem unparse_starts (expr : Expr) :
    expr.unparse ≠ [] ∧
      ∀ tail rest : List TokenKind, expr.unparse ++ tail ≠ .mark .bang :: rest := by
  induction expr with
  | identifier | integer | float | element | paren | negate => simp [unparse, Ident.kind]
  | binary op left right place ihLeft _ =>
      refine ⟨by simp [unparse], fun tail rest => ?_⟩
      rw [unparse, List.append_assoc]
      exact ihLeft.2 _ rest

/-- What is not a minus sign starts an atom. -/
theorem unary_of_ne_minus {first : Token} (other : first.kind ≠ .mark .minus)
    (rest : List Token) : unary (first :: rest) = atom (first :: rest) := by
  rw [unary, if_neg other]

theorem identifier_readable (name : String) (place : Place) :
    (identifier name place).FactorReadable := by
  intro tokens tail written below
  obtain ⟨first, rest, rfl, kind, behind⟩ := Token.exists_of_kinds_eq_cons written
  rw [unary_of_ne_minus (by simp [kind])]
  cases rest with
  | nil =>
      simp only [atom, kind]
      exact ⟨_, rfl, rfl, behind⟩
  | cons bracket inside =>
      have other : bracket.kind ≠ .mark .leftBracket := by
        change Token.kinds (bracket :: inside) = tail at behind
        rw [← behind] at below
        exact below.head_ne (by decide)
      simp only [atom, kind, if_neg other]
      exact ⟨_, rfl, rfl, behind⟩

theorem integer_readable (text : String) (place : Place) :
    (integer text place).FactorReadable := by
  intro tokens tail written below
  obtain ⟨first, rest, rfl, kind, behind⟩ := Token.exists_of_kinds_eq_cons written
  rw [unary_of_ne_minus (by simp [kind])]
  simp only [atom, kind]
  exact ⟨_, rfl, rfl, behind⟩

theorem float_readable (text : String) (place : Place) : (float text place).FactorReadable := by
  intro tokens tail written below
  obtain ⟨first, rest, rfl, kind, behind⟩ := Token.exists_of_kinds_eq_cons written
  rw [unary_of_ne_minus (by simp [kind])]
  simp only [atom, kind]
  exact ⟨_, rfl, rfl, behind⟩

theorem SumReadable.element {index : Expr} (readable : index.SumReadable) (array : Ident)
    (place : Place) : (element array index place).FactorReadable := by
  intro tokens tail written below
  simp only [unparse, List.cons_append, List.append_assoc, List.nil_append] at written
  obtain ⟨first, rest, rfl, kind, behind⟩ := Token.exists_of_kinds_eq_cons written
  obtain ⟨bracket, inside, rfl, opened, behind⟩ := Token.exists_of_kinds_eq_cons behind
  rw [Ident.kind] at kind
  rw [unary_of_ne_minus (by simp [kind])]
  simp only [atom, kind, if_pos opened]
  refine ((readable.expression_achieves behind (.cons (by decide))).and_then
    fun read ⟨same, behind⟩ => (sign_achieves behind).map fun close behind => ?_).widen _
  exact ⟨by simp [unplaced, Ident.unplaced, same], behind⟩

theorem SumReadable.paren {inner : Expr} (readable : inner.SumReadable) (place : Place) :
    (paren inner place).FactorReadable := by
  intro tokens tail written below
  simp only [unparse, List.cons_append, List.append_assoc, List.nil_append] at written
  obtain ⟨first, rest, rfl, opened, behind⟩ := Token.exists_of_kinds_eq_cons written
  rw [unary_of_ne_minus (by simp [opened])]
  simp only [atom, opened]
  refine ((readable.expression_achieves behind (.cons (by decide))).and_then
    fun read ⟨same, behind⟩ => (sign_achieves behind).map fun close behind => ?_).widen _
  exact ⟨by simp [unplaced, same], behind⟩

theorem FactorReadable.negate {inner : Expr} (readable : inner.FactorReadable) (place : Place) :
    (negate inner place).FactorReadable := by
  intro tokens tail written below
  obtain ⟨first, rest, rfl, minus, behind⟩ := Token.exists_of_kinds_eq_cons written
  rw [unary, if_pos minus]
  refine ((readable behind below).map fun operand ⟨same, behind⟩ => ?_).widen _
  exact ⟨by simp [unplaced, same], behind⟩

structure Readable (expr : Expr) : Prop where
  factor : expr.isFactor → expr.FactorReadable
  term : expr.isTerm → expr.TermReadable
  sum : expr.SumReadable

theorem FactorReadable.readable {expr : Expr} (readable : expr.FactorReadable) : expr.Readable :=
  ⟨fun _ => readable, fun _ => readable.term, readable.term.sum⟩

theorem readable (expr : Expr) (canonical : expr.Canonical) : expr.Readable := by
  induction expr with
  | identifier name place => exact (identifier_readable name place).readable
  | integer text place => exact (integer_readable text place).readable
  | float text place => exact (float_readable text place).readable
  | element array index place ih => exact ((ih canonical).sum.element array place).readable
  | paren inner place ih => exact ((ih canonical).sum.paren place).readable
  | negate inner place ih =>
      exact (((ih canonical.1).factor canonical.2).negate place).readable
  | binary op left right place ihLeft ihRight =>
      obtain ⟨canonicalLeft, canonicalRight, levels⟩ := canonical
      have first := ihLeft canonicalLeft
      have second := ihRight canonicalRight
      cases multiplicative : op.isMultiplicative with
      | true =>
          rw [if_pos multiplicative] at levels
          have product := (first.term levels.1).product (second.factor levels.2)
            multiplicative place
          exact ⟨nofun, fun _ => product, product.sum⟩
      | false =>
          rw [if_neg (by simp [multiplicative])] at levels
          refine ⟨nofun, fun term => ?_, first.sum.sum (second.term levels) multiplicative place⟩
          rw [isTerm, multiplicative] at term
          cases term

end Expr

/-- An expression is read back from what it unparses to. -/
theorem Grammar.expression_achieves {expr : Expr} (canonical : expr.Canonical)
    {tokens : List Token} {tail : List TokenKind}
    (written : Token.kinds tokens = expr.unparse ++ tail)
    (below : BindsBelow TokenKind.operator 1 tail) :
    (expression tokens).Achieves (expr.ReadAs tail) :=
  (expr.readable canonical).sum.expression_achieves written below

namespace Cond

def ReadAs (cond : Cond) (tail : List TokenKind) (read : Cond) (rest : List TokenKind) : Prop :=
  read.unplaced = cond.unplaced ∧ rest = tail

/-- What may stand behind a condition: nothing that binds to its last operand, and no connective
if a negation would take it. -/
def Follows (cond : Cond) (tail : List TokenKind) : Prop :=
  BindsBelow TokenKind.operator 1 tail ∧
    (cond.endsOpen → BindsBelow TokenKind.connective 1 tail)

def AtomReadable (cond : Cond) : Prop :=
  ∀ ⦃tokens tail⦄, Token.kinds tokens = cond.unparse ++ tail → cond.Follows tail →
    (conditionAtom tokens).Achieves (cond.ReadAs tail)

def ConjunctionReadable (cond : Cond) : Prop :=
  ∀ ⦃tokens tail⦄ (post : Cond → List TokenKind → Prop),
    Token.kinds tokens = cond.unparse ++ tail → cond.Follows tail →
    (∀ left last rest, left.unplaced = cond.unplaced → Token.kinds rest = tail →
      (Grammar.andTail left last rest).Achieves post) →
    (conjunction tokens).Achieves post

def DisjunctionReadable (cond : Cond) : Prop :=
  ∀ ⦃tokens tail⦄ (post : Cond → List TokenKind → Prop),
    Token.kinds tokens = cond.unparse ++ tail → cond.Follows tail →
    BindsBelow TokenKind.connective 2 tail →
    (∀ left last rest, left.unplaced = cond.unplaced → Token.kinds rest = tail →
      (orTail left last rest).Achieves post) →
    (condition tokens).Achieves post

attribute [local simp] unplaced

/-- A conjunction ends where no `AND` follows. -/
theorem and_tail_stops {left cond : Cond} (same : left.unplaced = cond.unplaced) (last : Span)
    {tokens : List Token} {tail : List TokenKind} (behind : Token.kinds tokens = tail)
    (below : BindsBelow TokenKind.connective 2 tail) :
    (Grammar.andTail left last tokens).Achieves (cond.ReadAs tail) := by
  cases tokens with
  | nil =>
      rw [Grammar.andTail]
      exact ⟨_, rfl, same, behind⟩
  | cons first rest =>
      have other : first.kind ≠ .keyword .andWord := by
        rw [← behind] at below
        exact below.head_ne (by decide)
      rw [Grammar.andTail, if_neg other]
      exact ⟨_, rfl, same, behind⟩

/-- A disjunction ends where no `OR` follows. -/
theorem or_tail_stops {left cond : Cond} (same : left.unplaced = cond.unplaced) (last : Span)
    {tokens : List Token} {tail : List TokenKind} (behind : Token.kinds tokens = tail)
    (below : BindsBelow TokenKind.connective 1 tail) :
    (orTail left last tokens).Achieves (cond.ReadAs tail) := by
  cases tokens with
  | nil =>
      rw [orTail]
      exact ⟨_, rfl, same, behind⟩
  | cons first rest =>
      have other : first.kind ≠ .keyword .orWord := by
        rw [← behind] at below
        exact below.head_ne (by decide)
      rw [orTail, if_neg other]
      exact ⟨_, rfl, same, behind⟩

theorem AtomReadable.conjunction {cond : Cond} (readable : cond.AtomReadable) :
    cond.ConjunctionReadable := by
  intro tokens tail post written follows further
  rw [Grammar.conjunction]
  refine (readable written follows).and_tail fun first ⟨same, behind⟩ => ?_
  exact further first.value first.last first.rest same behind

theorem ConjunctionReadable.alone {cond : Cond} (readable : cond.ConjunctionReadable)
    {tokens : List Token} {tail : List TokenKind}
    (written : Token.kinds tokens = cond.unparse ++ tail) (follows : cond.Follows tail)
    (below : BindsBelow TokenKind.connective 2 tail) :
    (conjunction tokens).Achieves (cond.ReadAs tail) :=
  readable _ written follows fun _ last _ same behind => and_tail_stops same last behind below

theorem ConjunctionReadable.disjunction {cond : Cond} (readable : cond.ConjunctionReadable) :
    cond.DisjunctionReadable := by
  intro tokens tail post written follows below further
  rw [condition]
  refine (readable.alone written follows below).and_tail fun first ⟨same, behind⟩ => ?_
  exact further first.value first.last first.rest same behind

theorem ConjunctionReadable.and {left right : Cond} (first : left.ConjunctionReadable)
    (second : right.AtomReadable) (shut : ¬ left.endsOpen) (place : Place) :
    (and left right place).ConjunctionReadable := by
  intro tokens tail post written follows further
  rw [unparse, List.append_assoc, List.cons_append] at written
  have between : left.Follows (.keyword .andWord :: (right.unparse ++ tail)) :=
    ⟨.cons (by decide), fun ends => absurd ends shut⟩
  refine first post written between fun read last rest same behind => ?_
  obtain ⟨keyword, operand, rfl, kind, behind⟩ := Token.exists_of_kinds_eq_cons behind
  rw [Grammar.andTail, if_pos kind]
  refine ((second behind follows).and_tail fun atom ⟨sameAtom, behind⟩ => ?_).widen _
  refine further _ atom.last atom.rest ?_ behind
  rw [joinAnd, unplaced, unplaced, same, sameAtom]

theorem DisjunctionReadable.or {left right : Cond} (first : left.DisjunctionReadable)
    (second : right.ConjunctionReadable) (shut : ¬ left.endsOpen) (place : Place) :
    (or left right place).DisjunctionReadable := by
  intro tokens tail post written follows below further
  rw [unparse, List.append_assoc, List.cons_append] at written
  have between : left.Follows (.keyword .orWord :: (right.unparse ++ tail)) :=
    ⟨.cons (by decide), fun ends => absurd ends shut⟩
  refine first post written between (.cons (by decide)) fun read last rest same behind => ?_
  obtain ⟨keyword, operand, rfl, kind, behind⟩ := Token.exists_of_kinds_eq_cons behind
  rw [orTail, if_pos kind]
  refine ((second.alone behind follows below).and_tail fun chain ⟨sameChain, behind⟩ => ?_).widen _
  refine further _ chain.last chain.rest ?_ behind
  rw [joinOr, unplaced, unplaced, same, sameChain]

theorem DisjunctionReadable.condition_achieves {cond : Cond} (readable : cond.DisjunctionReadable)
    {tokens : List Token} {tail : List TokenKind}
    (written : Token.kinds tokens = cond.unparse ++ tail)
    (operand : BindsBelow TokenKind.operator 1 tail)
    (below : BindsBelow TokenKind.connective 1 tail) :
    (condition tokens).Achieves (cond.ReadAs tail) :=
  readable _ written ⟨operand, fun _ => below⟩ (below.mono (by decide))
    fun _ last _ same behind => or_tail_stops same last behind below

theorem DisjunctionReadable.not {inner : Cond} (readable : inner.DisjunctionReadable)
    (place : Place) : (not inner place).AtomReadable := by
  intro tokens tail written follows
  obtain ⟨first, rest, rfl, bang, behind⟩ := Token.exists_of_kinds_eq_cons written
  rw [conditionAtom, if_pos bang]
  refine ((readable.condition_achieves behind follows.1 (follows.2 rfl)).map
    fun read ⟨same, behind⟩ => ?_).widen _
  exact ⟨by simp [same], behind⟩

theorem DisjunctionReadable.paren {inner : Cond} (readable : inner.DisjunctionReadable)
    (place : Place) : (paren inner place).AtomReadable := by
  intro tokens tail written follows
  simp only [unparse, List.cons_append, List.append_assoc, List.nil_append] at written
  obtain ⟨first, rest, rfl, opened, behind⟩ := Token.exists_of_kinds_eq_cons written
  have inside : (parenCondition first rest).Achieves ((Cond.paren inner place).ReadAs tail) := by
    rw [parenCondition]
    refine (readable.condition_achieves behind (.cons (by decide)) (.cons (by decide))).and_then
      fun read ⟨same, behind⟩ => (sign_achieves behind).map fun close behind => ?_
    exact ⟨by simp [same], behind⟩
  obtain ⟨reading, took, read⟩ := inside
  have other : first.kind ≠ .mark .bang := by simp [opened]
  rw [conditionAtom, if_neg other, if_pos opened, took]
  exact Achieves.widen ⟨reading, rfl, read⟩ _

theorem comparison_achieves {left right : Expr} (canonicalLeft : left.Canonical)
    (canonicalRight : right.Canonical) (op : CompareOp) (position : Position) (place : Place)
    {tokens : List Token} {tail : List TokenKind}
    (written : Token.kinds tokens = left.unparse ++ op.kind :: (right.unparse ++ tail))
    (below : BindsBelow TokenKind.operator 1 tail) :
    (comparison tokens).Achieves ((compare op position left right place).ReadAs tail) := by
  have weaker : TokenKind.operator op.kind < 1 := by cases op <;> decide
  rw [comparison]
  refine (expression_achieves canonicalLeft written (.cons weaker)).and_then
    fun first lefts => (compare_op_achieves lefts.2).and_then
      fun sign signs => (expression_achieves canonicalRight signs.2 below).map
        fun second rights => ?_
  exact ⟨by simp [lefts.1, signs.1, rights.1], rights.2⟩

/-- Where a comparison starts with a parenthesis, no condition in parentheses can be read. -/
theorem paren_condition_fails {left : Expr} {first : Token} {rest : List Token}
    {tail : List TokenKind}
    (written : Token.kinds (first :: rest) = left.unparse ++ tail)
    (opened : first.kind = .mark .leftParen) (starts : left.unparse ≠ []) :
    ∃ failure, parenCondition first rest = .fail failure := by
  obtain ⟨kind, more, shape⟩ := List.exists_cons_of_ne_nil starts
  rw [shape, Token.kinds_cons, List.cons_append, List.cons.injEq, opened] at written
  obtain ⟨rfl, behind⟩ := written
  obtain ⟨inner, further, same⟩ := left.exists_of_unparse_left_paren shape
  cases took : parenCondition first rest with
  | fail failure => exact ⟨failure, rfl⟩
  | ok reading =>
      obtain ⟨cond, _, _, _, inside⟩ := paren_condition_ensures first rest reading took
      rw [inside, same, List.append_assoc, List.cons_append] at behind
      exact absurd behind (cond.unparse_close_ne inner _ _)

theorem compare_readable {left right : Expr} (canonicalLeft : left.Canonical)
    (canonicalRight : right.Canonical) (op : CompareOp) (position : Position) (place : Place) :
    (compare op position left right place).AtomReadable := by
  intro tokens tail written follows
  rw [unparse, List.append_assoc, List.cons_append] at written
  have compared := comparison_achieves canonicalLeft canonicalRight op position place written
    follows.1
  cases tokens with
  | nil =>
      rw [conditionAtom]
      exact compared
  | cons first rest =>
      obtain ⟨starts, noBang⟩ := left.unparse_starts
      have other : first.kind ≠ .mark .bang := by
        intro bang
        rw [Token.kinds_cons, bang] at written
        exact noBang _ _ written.symm
      rw [conditionAtom, if_neg other]
      by_cases opened : first.kind = .mark .leftParen
      · obtain ⟨failure, fails⟩ := paren_condition_fails written opened starts
        rw [if_pos opened, fails]
        exact compared
      · rw [if_neg opened]
        exact compared

structure Readable (cond : Cond) : Prop where
  atom : cond.isAtom → cond.AtomReadable
  conjunction : cond.isConjunction → cond.ConjunctionReadable
  disjunction : cond.DisjunctionReadable

theorem AtomReadable.readable {cond : Cond} (readable : cond.AtomReadable) : cond.Readable :=
  ⟨fun _ => readable, fun _ => readable.conjunction, readable.conjunction.disjunction⟩

theorem readable (cond : Cond) (canonical : cond.Canonical) : cond.Readable := by
  induction cond with
  | compare op position left right place =>
      exact (compare_readable canonical.1 canonical.2 op position place).readable
  | and left right place ihLeft ihRight =>
      obtain ⟨canonicalLeft, canonicalRight, chain, atom, shut⟩ := canonical
      have conjunction := ((ihLeft canonicalLeft).conjunction chain).and
        ((ihRight canonicalRight).atom atom) shut place
      exact ⟨nofun, fun _ => conjunction, conjunction.disjunction⟩
  | or left right place ihLeft ihRight =>
      obtain ⟨canonicalLeft, canonicalRight, chain, shut⟩ := canonical
      exact ⟨nofun, nofun, (ihLeft canonicalLeft).disjunction.or
        ((ihRight canonicalRight).conjunction chain) shut place⟩
  | not inner place ih => exact ((ih canonical).disjunction.not place).readable
  | paren inner place ih => exact ((ih canonical).disjunction.paren place).readable

end Cond

/-- A condition is read back from what it unparses to. -/
theorem Grammar.condition_achieves {cond : Cond} (canonical : cond.Canonical)
    {tokens : List Token} {tail : List TokenKind}
    (written : Token.kinds tokens = cond.unparse ++ tail)
    (operand : BindsBelow TokenKind.operator 1 tail)
    (below : BindsBelow TokenKind.connective 1 tail) :
    (condition tokens).Achieves (cond.ReadAs tail) :=
  (cond.readable canonical).disjunction.condition_achieves written operand below

end ThreeAddress
