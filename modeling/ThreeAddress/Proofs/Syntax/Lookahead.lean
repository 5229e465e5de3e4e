import ThreeAddress.Proofs.Syntax.Extents
import ThreeAddress.Proofs.Syntax.Forks

/-!
# The grammar reads from left to right

Every reading of the grammar goes by the tokens in front of it: where two token lists fork, so do
the readings of them, each along the phrase that its nonterminal stands for. A parenthesis where a
condition begins is the one place at which a reading looks further. It is read as a condition first,
and if that fails, as the operand of a comparison, which stops at the token that tells them apart.
-/

namespace ThreeAddress

set_option autoImplicit false

open Phrase

namespace Grammar

variable {ours theirs : List Token}

theorem token_forks (limit : Nat) (kind : TokenKind) :
    Forks ours theirs limit id (.token (.exactly kind)) (token kind) := by
  refine .of_head rfl fun first => ?_
  by_cases same : first.kind = kind
  · simp only [token, same, ↓reduceIte]
    exact .take (.of_eq same)
  · simp only [token, same, ↓reduceIte]
    exact .refuse

theorem sign_forks (limit : Nat) (mark : Mark) :
    Forks ours theirs limit id (Phrase.sign mark) (sign mark) :=
  token_forks limit (.mark mark)

theorem word_forks (limit : Nat) (keyword : Keyword) :
    Forks ours theirs limit id (Phrase.word keyword) (word keyword) :=
  token_forks limit (.keyword keyword)

theorem ident_forks (limit : Nat) :
    Forks ours theirs limit id (.token .identifier) ident := by
  refine .of_head rfl fun first => ?_
  cases kind : first.kind with
  | identifier name =>
      simp only [ident, kind]
      exact .take (kind ▸ .identifier)
  | keyword | mark | integer | float | string | endOfFile =>
      simp only [ident, kind]
      exact .refuse

theorem array_size_forks (limit : Nat) :
    Forks ours theirs limit id (.token .integer) arraySize := by
  refine .of_head rfl fun first => ?_
  cases kind : first.kind with
  | integer text =>
      simp only [arraySize, kind]
      exact .take (kind ▸ .integer)
  | keyword | mark | identifier | float | string | endOfFile =>
      simp only [arraySize, kind]
      exact .refuse

theorem data_type_forks (limit : Nat) :
    Forks ours theirs limit id (.rule .dataType) dataType := by
  refine .of_head rfl fun first => ?_
  by_cases int : first.kind = .keyword .intWord
  · simp only [dataType, int]
    exact (Forks.take (.of_eq int)).imp fun _ derives => .rule (.left derives)
  · by_cases float : first.kind = .keyword .floatWord
    · simp only [dataType, float]
      exact (Forks.take (.of_eq float)).imp fun _ derives => .rule (.right derives)
    · simp only [dataType]
      exact .refuse

theorem compare_op_forks (limit : Nat) :
    Forks ours theirs limit id (.rule .cmpOp) compareOp := by
  refine .of_head rfl fun first => ?_
  cases found : CompareOp.ofKind? first.kind with
  | none =>
      simp only [compareOp, found]
      exact .refuse
  | some op =>
      have same := (CompareOp.of_kind?_eq_some_iff first.kind op).mp found
      simp only [compareOp, found]
      refine (Forks.take (.of_eq same)).imp ?_
      intro written derives
      cases derives with
      | token has =>
          cases has
          exact op.derivable

/-! ## Expressions -/

theorem sum_tail_forks {limit : Nat} (terms : Forks ours theirs limit id (.rule .term) product) :
    ForksFor ours theirs limit
      (.many (inOrder [Phrase.sign .plus ||| Phrase.sign .minus, .rule .term]))
      fun left : Expr × Span => sumTail left.1 left.2 := by
  refine terms.chain (fun left => by rw [sumTail]; rfl) fun first => ?_
  cases found : BinaryOp.ofSum? first.kind with
  | none =>
      left
      intro i rest
      simp only [sumTail, found]
      rfl
  | some op =>
      right
      obtain ⟨same, additive⟩ := (BinaryOp.of_sum?_eq_some_iff first.kind op).mp found
      refine ⟨?_, fun i rest right => (.join op i.1 right.value, right.last), ?_⟩
      · rw [same]
        cases op with
        | add => exact .left (.token .exactly)
        | sub => exact .right (.token .exactly)
        | mul | div => cases additive
      · intro i rest
        simp only [sumTail, found, Read.ending_widen]

theorem product_tail_forks {limit : Nat}
    (factors : Forks ours theirs limit id (.rule .unary) unary) :
    ForksFor ours theirs limit
      (.many (inOrder [Phrase.sign .star ||| Phrase.sign .slash, .rule .unary]))
      fun left : Expr × Span => productTail left.1 left.2 := by
  refine factors.chain (fun left => by rw [productTail]; rfl) fun first => ?_
  cases found : BinaryOp.ofProduct? first.kind with
  | none =>
      left
      intro i rest
      simp only [productTail, found]
      rfl
  | some op =>
      right
      obtain ⟨same, multiplicative⟩ := (BinaryOp.of_product?_eq_some_iff first.kind op).mp found
      refine ⟨?_, fun i rest right => (.join op i.1 right.value, right.last), ?_⟩
      · rw [same]
        cases op with
        | mul => exact .left (.token .exactly)
        | div => exact .right (.token .exactly)
        | add | sub => cases multiplicative
      · intro i rest
        simp only [productTail, found, Read.ending_widen]

theorem product_forks {limit : Nat} (factors : Forks ours theirs limit id (.rule .unary) unary) :
    Forks ours theirs limit id (.rule .term) product := by
  rw [funext product.eq_1]
  exact (factors.with_tail (product_tail_forks factors)).imp fun _ derives => .rule derives

theorem expression_of_product {limit : Nat}
    (terms : Forks ours theirs limit id (.rule .term) product) :
    Forks ours theirs limit id (.rule .expression) expression := by
  rw [funext expression.eq_1]
  exact (terms.with_tail (sum_tail_forks terms)).imp fun _ derives => .rule derives

theorem unary_forks {limit : Nat} (atoms : Forks ours theirs limit id (.rule .atom) atom) :
    Forks ours theirs limit id (.rule .unary) unary := by
  induction limit with
  | zero => exact .of_zero _
  | succ limit ih =>
      refine .of_head (by rw [unary]; rfl) fun first => ?_
      by_cases minus : first.kind = .mark .minus
      · simp only [unary, minus, ↓reduceIte]
        have operand := (ih (atoms.mono (Nat.le_succ limit))).single
        exact (operand.map.widen.behind (.of_eq minus)).imp fun _ derives =>
          .rule (.left derives)
      · simp only [unary, minus, ↓reduceIte]
        exact atoms.on.imp fun _ derives => .rule (.right derives)

theorem atom_forks {limit : Nat} (inner : Forks ours theirs limit id (.rule .expression) expression) :
    Forks ours theirs (limit + 1) id (.rule .atom) atom := by
  refine .of_head (by rw [atom]; rfl) fun first => ?_
  cases kind : first.kind with
  | integer text =>
      simp only [atom, kind]
      exact (Forks.take (kind ▸ .integer)).imp fun _ derives =>
        .rule (.left (.left (.left (.left derives))))
  | float text =>
      simp only [atom, kind]
      exact (Forks.take (kind ▸ .float)).imp fun _ derives =>
        .rule (.left (.left (.left (.right derives))))
  | identifier name =>
      simp only [atom, kind]
      have named : TokenClass.identifier.Has first.kind := kind ▸ .identifier
      refine Forks.imp (.behind named
        (?_ : Forks ours theirs limit id (inOrder [Phrase.sign .leftBracket, .rule .expression,
          Phrase.sign .rightBracket] ||| .empty) _)) fun _ derives => ?_
      · refine .of_head rfl fun bracket => ?_
        by_cases opened : bracket.kind = .mark .leftBracket
        · simp only [opened, ↓reduceIte]
          exact Forks.imp (.cons (.of_eq opened) (.widen (inner.on.and_then
            (.single (.map (sign_forks limit .rightBracket).on))))) fun _ derives => .left derives
        · simp only [opened, ↓reduceIte]
          exact Forks.stay.imp fun _ derives => .right derives
      · cases derives.distrib with
        | left element => exact .rule (.left (.left (.right element)))
        | right alone =>
            cases alone with
            | both name nothing =>
                cases nothing
                rw [List.append_nil]
                exact .rule (.left (.right name))
  | mark sign =>
      cases sign with
      | leftParen =>
          simp only [atom, kind]
          exact Forks.imp (.behind (.of_eq kind) (.widen (inner.on.and_then
            (.single (.map (sign_forks limit .rightParen).on))))) fun _ derives =>
              .rule (.right derives)
      | _ =>
          simp only [atom, kind]
          exact .refuse
  | keyword | string | endOfFile =>
      simp only [atom, kind]
      exact .refuse

theorem expression_forks (limit : Nat) :
    Forks ours theirs limit id (.rule .expression) expression := by
  induction limit with
  | zero => exact .of_zero _
  | succ limit ih => exact expression_of_product (product_forks (unary_forks (atom_forks ih)))

/-! ## Conditions -/

theorem comparison_forks (limit : Nat) :
    Forks ours theirs limit id
      (inOrder [.rule .expression, .rule .cmpOp, .rule .expression]) comparison := by
  rw [funext comparison.eq_1]
  exact (expression_forks limit).and_then ((compare_op_forks limit).on.and_then
    (.single (.map (expression_forks limit).on)))

theorem or_tail_forks {limit : Nat}
    (parts : Forks ours theirs limit id (.rule .andCond) conjunction) :
    ForksFor ours theirs limit (.many (inOrder [Phrase.word .orWord, .rule .andCond]))
      fun left : Cond × Span => orTail left.1 left.2 := by
  refine parts.chain (fun left => by rw [orTail]; rfl) fun first => ?_
  by_cases between : first.kind = .keyword .orWord
  · refine .inr ⟨.token (.of_eq between), fun i rest right =>
      (i.1.joinOr right.value, right.last), fun i rest => ?_⟩
    simp only [orTail, between, ↓reduceIte, Read.ending_widen]
  · refine .inl fun i rest => ?_
    simp only [orTail, between, ↓reduceIte]
    rfl

theorem and_tail_forks {limit : Nat}
    (parts : Forks ours theirs limit id (.rule .condAtom) conditionAtom) :
    ForksFor ours theirs limit (.many (inOrder [Phrase.word .andWord, .rule .condAtom]))
      fun left : Cond × Span => andTail left.1 left.2 := by
  refine parts.chain (fun left => by rw [andTail]; rfl) fun first => ?_
  by_cases between : first.kind = .keyword .andWord
  · refine .inr ⟨.token (.of_eq between), fun i rest right =>
      (i.1.joinAnd right.value, right.last), fun i rest => ?_⟩
    simp only [andTail, between, ↓reduceIte, Read.ending_widen]
  · refine .inl fun i rest => ?_
    simp only [andTail, between, ↓reduceIte]
    rfl

theorem conjunction_forks {limit : Nat}
    (atoms : Forks ours theirs limit id (.rule .condAtom) conditionAtom) :
    Forks ours theirs limit id (.rule .andCond) conjunction := by
  rw [funext conjunction.eq_1]
  exact (atoms.with_tail (and_tail_forks atoms)).imp fun _ derives => .rule derives

theorem condition_of_conjunction {limit : Nat}
    (parts : Forks ours theirs limit id (.rule .andCond) conjunction) :
    Forks ours theirs limit id (.rule .condition) condition := by
  rw [funext condition.eq_1]
  exact (parts.with_tail (or_tail_forks parts)).imp fun _ derives => .rule (.rule derives)

theorem paren_condition_forks {limit : Nat} (first : Token)
    (inner : Forks ours theirs limit id (.rule .condition) condition) :
    Forks ours theirs limit id (inOrder [.rule .condition, Phrase.sign .rightParen])
      (parenCondition first) := by
  rw [funext (parenCondition.eq_1 first)]
  exact inner.and_then (.single (.map (sign_forks limit .rightParen).on))

/-! ### Where a parenthesis opens -/

/-- No expression stands at the head of the tokens, and the token that shows it tells a condition in
parentheses from an operand. -/
def FailsInGroup (tokens : List Token) : Prop :=
  ∃ front next behind, tokens = front ++ next :: behind ∧
    OpensGroup (Token.kinds front) next.kind ∧
    (expression tokens).ending = .failed (next :: behind)

theorem ending_expression_of_atom {first : Token} (unsigned : first.kind ≠ .mark .minus)
    {rest left : List Token} (ended : (atom (first :: rest)).ending = .failed left) :
    (expression (first :: rest)).ending = .failed left := by
  rw [expression, product, unary, if_neg unsigned]
  exact Read.ending_and_tail_of_failed (Read.ending_and_tail_of_failed ended)

theorem ending_expression_of_paren {first : Token} (opened : first.kind = .mark .leftParen)
    {rest left : List Token}
    (ended : ((expression rest).andThen fun inner =>
      (sign .rightParen inner.rest).map fun close =>
        Expr.paren inner.value (first.place.upTo close.last)).ending = .failed left) :
    (expression (first :: rest)).ending = .failed left := by
  apply ending_expression_of_atom
  · rw [opened]
    decide
  · simpa only [atom, opened, Read.ending_widen] using ended

/-- A comparison can be read behind the parenthesis. -/
theorem fails_in_group_of_comparison {first : Token} (opened : first.kind = .mark .leftParen)
    {rest : List Token} {reading : Reading rest.length Cond}
    (done : comparison rest = .ok reading) : FailsInGroup (first :: rest) := by
  rw [comparison] at done
  obtain ⟨left, took, _, further, _⟩ := Read.and_then_eq_ok done
  obtain ⟨op, compared, _⟩ := Read.and_then_eq_ok further
  obtain ⟨front, split, _, _, stands⟩ := (expression_takes [] rest).done left took
  have canonical := (expression_ensures rest left took).2
  have found := compare_op_ensures left.rest op compared
  obtain ⟨next, behind, tail, kind, _⟩ := Token.exists_of_kinds_eq_cons found
  refine ⟨first :: front, next, behind, by rw [split, tail]; rfl, ?_, ?_⟩
  · rw [Token.kinds_cons, opened, kind, stands.written]
    exact .comparison _ (left.value.derivable canonical).sum
  · apply ending_expression_of_paren opened
    have wrong : next.kind ≠ .mark .rightParen := by
      rw [kind]
      cases op.value.1 <;> decide
    rw [took, Read.andThen, Read.ending_widen, Read.ending_map, tail, sign, token, if_neg wrong]
    rfl

theorem condition_atom_eq_ok {tokens : List Token} {reading : Reading tokens.length Cond}
    (done : conditionAtom tokens = .ok reading) :
    (∃ first rest, tokens = first :: rest ∧ first.kind = .mark .bang) ∨
      (∃ first rest inner, tokens = first :: rest ∧ first.kind = .mark .leftParen ∧
        parenCondition first rest = .ok inner) ∨
      ∃ reading, comparison tokens = .ok reading := by
  cases tokens with
  | nil =>
      rw [conditionAtom] at done
      exact .inr (.inr ⟨reading, done⟩)
  | cons first rest =>
      rw [conditionAtom] at done
      split at done
      · rename_i bang
        exact .inl ⟨first, rest, rfl, bang⟩
      · split at done
        · rename_i opened
          split at done
          · rename_i inner grouped
            exact .inr (.inl ⟨first, rest, inner, rfl, opened, grouped⟩)
          · exact .inr (.inr ⟨reading, done⟩)
        · exact .inr (.inr ⟨reading, done⟩)

theorem condition_atom_of_paren_condition {first : Token} {rest : List Token}
    {reading : Reading rest.length Cond} (done : parenCondition first rest = .ok reading) :
    ∃ atom, conditionAtom rest = .ok atom := by
  rw [parenCondition] at done
  obtain ⟨inner, whole, _⟩ := Read.and_then_eq_ok done
  rw [condition] at whole
  obtain ⟨part, joined, _⟩ := Read.and_tail_eq_ok whole
  rw [conjunction] at joined
  obtain ⟨atom, took, _⟩ := Read.and_tail_eq_ok joined
  exact ⟨atom, took⟩

theorem fails_in_group_of_bang {first second : Token} (opened : first.kind = .mark .leftParen)
    (bang : second.kind = .mark .bang) (rest : List Token) :
    FailsInGroup (first :: second :: rest) := by
  refine ⟨[first], second, rest, rfl, ?_, ?_⟩
  · rw [Token.kinds_cons, opened, bang]
    exact .negation
  · apply ending_expression_of_paren opened
    apply Read.ending_and_then_of_failed
    apply ending_expression_of_atom
    · rw [bang]
      decide
    · simp only [atom, bang]
      rfl

theorem FailsInGroup.deeper {first : Token} (opened : first.kind = .mark .leftParen)
    {rest : List Token} (fails : FailsInGroup rest) : FailsInGroup (first :: rest) := by
  obtain ⟨front, next, behind, split, opens, ended⟩ := fails
  refine ⟨first :: front, next, behind, by rw [split]; rfl, ?_, ?_⟩
  · rw [Token.kinds_cons, opened]
    exact opens.deeper
  · exact ending_expression_of_paren opened (Read.ending_and_then_of_failed ended)

/-- A condition in parentheses is no operand. The induction goes over the parentheses that open at
its head, up to a comparison or a negation. -/
theorem fails_in_group_of_paren_condition {first : Token} (opened : first.kind = .mark .leftParen)
    {rest : List Token} {reading : Reading rest.length Cond}
    (done : parenCondition first rest = .ok reading) : FailsInGroup (first :: rest) := by
  induction rest generalizing first with
  | nil =>
      obtain ⟨atom, took⟩ := condition_atom_of_paren_condition done
      rw [conditionAtom] at took
      exact fails_in_group_of_comparison opened took
  | cons second others ih =>
      obtain ⟨atom, took⟩ := condition_atom_of_paren_condition done
      rcases condition_atom_eq_ok took with ⟨_, _, same, bang⟩ | ⟨_, _, inner, same, group, grouped⟩ |
        ⟨_, compared⟩
      · cases same
        exact fails_in_group_of_bang opened bang others
      · cases same
        exact (ih group grouped).deeper opened
      · exact fails_in_group_of_comparison opened compared

theorem FailsInGroup.comparison {tokens : List Token} (fails : FailsInGroup tokens) :
    ∃ front next behind, tokens = front ++ next :: behind ∧
      OpensGroup (Token.kinds front) next.kind ∧
      (comparison tokens).ending = .failed (next :: behind) := by
  obtain ⟨front, next, behind, split, opens, ended⟩ := fails
  exact ⟨front, next, behind, split, opens, Read.ending_and_then_of_failed ended⟩

section Paren

variable {limit : Nat} {first : Token}

theorem ending_condition_atom_of_ok (opened : first.kind = .mark .leftParen) {rest : List Token}
    {reading : Reading rest.length Cond} (done : parenCondition first rest = .ok reading) :
    (conditionAtom (first :: rest)).ending = (parenCondition first rest).ending := by
  rw [conditionAtom, if_neg (by simp [opened]), if_pos opened, done, Read.ending_widen]

theorem ending_condition_atom_of_fail (opened : first.kind = .mark .leftParen) {rest : List Token}
    {failure : Failure} (failed : parenCondition first rest = .fail failure) :
    (conditionAtom (first :: rest)).ending = (comparison (first :: rest)).ending := by
  rw [conditionAtom, if_neg (by simp [opened]), if_pos opened, failed]

/-- Our condition in parentheses was given up and theirs was read: the comparison that was tried in
its place fails where theirs does, at the token that tells the two apart. -/
theorem shown_of_given_up {others common : List Token}
    (there : first :: others = common ++ theirs) (fails : FailsInGroup (first :: others))
    {ending other : Read.Ending}
    (forked : Read.Ending.Forked ours theirs (.rule .condAtom) common ending
      (comparison (first :: others)).ending) :
    Read.Ending.Forked ours theirs (.rule .condAtom) common ending other := by
  obtain ⟨before, next, behind, parts, opens, ended⟩ := fails.comparison
  rw [ended] at forked
  cases forked with
  | done front split derives our their => cases their
  | failed front split begins our their =>
      obtain ⟨rfl, rfl⟩ := List.cons.inj (Read.Ending.failed.inj their)
      have same : before = front := by
        rw [there, split, List.append_assoc] at parts
        exact (List.append_cancel_right parts).symm
      subst same
      exact .shown before split ⟨[], _, rfl, admits_group_cond_atom, opens⟩ our
  | shown front split shows our => exact .shown front split shows our
  | past short => exact .past short

theorem condition_atom_at_paren (opened : first.kind = .mark .leftParen)
    (inner : Forks ours theirs limit id (.rule .condition) condition) :
    Forks ours theirs (limit + 1) (fun rest => first :: rest) (.rule .condAtom)
      fun rest => conditionAtom (first :: rest) := by
  have groups : Forks ours theirs (limit + 1) (fun rest => first :: rest) (.rule .condAtom)
      (parenCondition first) :=
    ((paren_condition_forks first inner).behind (.of_eq opened)).imp fun _ derives =>
      .rule (.left (.right derives))
  have comparisons : Forks ours theirs (limit + 1) (fun rest => first :: rest) (.rule .condAtom)
      fun rest => comparison (first :: rest) :=
    (comparison_forks (limit + 1)).on.imp fun _ derives => .rule (.right derives)
  constructor
  · intro rest short
    cases ended : parenCondition first rest with
    | ok reading =>
        rw [ending_condition_atom_of_ok opened ended]
        exact groups.within rest short
    | fail failure =>
        rw [ending_condition_atom_of_fail opened ended]
        exact comparisons.within rest short
  · intro rest others common here there short
    cases ended : parenCondition first rest with
    | ok reading =>
        rw [ending_condition_atom_of_ok opened ended]
        cases groups.forked rest others common here there short with
        | done front split derives our their =>
            obtain ⟨twin, endedToo, _⟩ := Read.exists_of_ending_done their
            rw [ending_condition_atom_of_ok opened endedToo]
            exact .done front split derives our their
        | failed front split begins our their =>
            rw [ended] at our
            cases our
        | shown front split shows our =>
            rw [ended] at our
            cases our
        | past behind => exact .past behind
    | fail failure =>
        have forked := comparisons.forked rest others common here there short
        rw [ending_condition_atom_of_fail opened ended]
        cases endedToo : parenCondition first others with
        | fail twin =>
            rw [ending_condition_atom_of_fail opened endedToo]
            exact forked
        | ok twin =>
            exact shown_of_given_up there (fails_in_group_of_paren_condition opened endedToo) forked

end Paren

theorem condition_atom_forks {limit : Nat}
    (inner : Forks ours theirs limit id (.rule .condition) condition) :
    Forks ours theirs (limit + 1) id (.rule .condAtom) conditionAtom := by
  refine .of_head ?_ fun first => ?_
  · have comparisons : Forks ours theirs 1 id _ comparison := comparison_forks 1
    rw [conditionAtom]
    exact List.eq_nil_of_length_eq_zero (Nat.le_zero.mp (comparisons.within [] Nat.zero_lt_one))
  · by_cases bang : first.kind = .mark .bang
    · simp only [conditionAtom, bang, ↓reduceIte]
      exact Forks.imp (.behind (.of_eq bang) (.widen (.map inner.on.single))) fun _ derives =>
        .rule (.left (.left derives))
    · by_cases opened : first.kind = .mark .leftParen
      · exact condition_atom_at_paren opened inner
      · simp only [conditionAtom, bang, opened, ↓reduceIte]
        exact (comparison_forks (limit + 1)).on.imp fun _ derives => .rule (.right derives)

theorem condition_forks (limit : Nat) :
    Forks ours theirs limit id (.rule .condition) condition := by
  induction limit with
  | zero => exact .of_zero _
  | succ limit ih =>
      exact condition_of_conjunction (conjunction_forks (condition_atom_forks ih))

/-! ## Statements -/

/-- What follows the colon of a declaration: a type, or an element type and a size. -/
def declared : Phrase :=
  inOrder [.rule .dataType, Phrase.sign .semicolon] |||
    inOrder [Phrase.sign .leftBracket, .rule .dataType, Phrase.sign .semicolon, .token .integer,
      Phrase.sign .rightBracket, Phrase.sign .semicolon]

theorem declared_type_forks (limit : Nat) (first : Token) :
    ForksFor ours theirs limit declared (declaredType first) := by
  refine .of_first (fun _ => rfl) fun bracket => ?_
  by_cases opened : bracket.kind = .mark .leftBracket
  · simp only [declaredType, opened, ↓reduceIte]
    exact Forks.imp (.cons (.of_eq opened) (.widen ((data_type_forks limit).on.and_then
      ((sign_forks limit .semicolon).on.and_then ((array_size_forks limit).on.and_then
        ((sign_forks limit .rightBracket).on.and_then
          (.single (.map (sign_forks limit .semicolon).on)))))))) fun _ derives => .right derives
  · simp only [declaredType, opened, ↓reduceIte]
    exact Forks.imp ((data_type_forks limit).on.and_then
      (.single (.map (sign_forks limit .semicolon).on))) fun _ derives => .left derives

theorem declaration_forks (limit : Nat) (first : Token) :
    Forks ours theirs limit id (.both (.token .identifier) (.both (Phrase.sign .colon) declared))
      (declaration first) := by
  rw [funext (declaration.eq_1 first)]
  exact (ident_forks limit).and_then ((sign_forks limit .colon).on.and_then
    (Forks.carry (declared_type_forks limit first) _ fun _ => rfl))

theorem derives_of_declared {written : List TokenKind}
    (derives : (Phrase.both (Phrase.word .letWord) (.both (.token .identifier)
      (.both (Phrase.sign .colon) declared))).Derives written) :
    (Phrase.rule .statement).Derives written := by
  cases derives with
  | both keyword named =>
      cases named with
      | both name typed =>
          cases typed with
          | both colon type =>
              cases type with
              | left scalar =>
                  exact .rule (.left (.left (.left (.left (.left (.left (.left (.left
                    (.rule (keyword.both (name.both (colon.both scalar))))))))))))
              | right array =>
                  exact .rule (.left (.left (.left (.left (.left (.left (.left (.right
                    (.rule (keyword.both (name.both (colon.both array))))))))))))

theorem constant_declaration_forks (limit : Nat) (first : Token) :
    Forks ours theirs limit id
      (inOrder [Phrase.word .constWord, .token .identifier, Phrase.sign .colon, .rule .dataType,
        Phrase.sign .equal, .rule .expression, Phrase.sign .semicolon])
      (constantDeclaration first) := by
  rw [funext (constantDeclaration.eq_1 first)]
  exact (word_forks limit .constWord).and_then ((ident_forks limit).on.and_then
    ((sign_forks limit .colon).on.and_then ((data_type_forks limit).on.and_then
      ((sign_forks limit .equal).on.and_then ((expression_forks limit).on.and_then
        (.single (.map (sign_forks limit .semicolon).on)))))))

theorem assignment_forks (limit : Nat) (first : Token) (name : String) :
    Forks ours theirs limit id
      (inOrder [Phrase.sign .colonEqual, .rule .expression, Phrase.sign .semicolon])
      (assignment first name) := by
  rw [funext (assignment.eq_1 first name)]
  exact (sign_forks limit .colonEqual).and_then ((expression_forks limit).on.and_then
    (.single (.map (sign_forks limit .semicolon).on)))

theorem input_forks (limit : Nat) (first : Token) :
    Forks ours theirs limit id
      (inOrder [Phrase.sign .leftParen, .token .identifier, Phrase.sign .rightParen,
        Phrase.sign .semicolon])
      (input first) := by
  rw [funext (input.eq_1 first)]
  exact (sign_forks limit .leftParen).and_then ((ident_forks limit).on.and_then
    ((sign_forks limit .rightParen).on.and_then
      (.single (.map (sign_forks limit .semicolon).on))))

theorem comma_names_forks (limit : Nat) :
    ForksFor ours theirs limit (.many (inOrder [Phrase.sign .comma, .token .identifier]))
      commaNames := by
  refine (ident_forks limit).chain (fun last => by rw [commaNames]; rfl) fun comma => ?_
  by_cases separated : comma.kind = .mark .comma
  · refine .inr ⟨.token (.of_eq separated), fun last rest name => name.last, fun last rest => ?_⟩
    simp only [commaNames, separated, ↓reduceIte, Read.ending_widen]
    cases ident rest with
    | fail failure => rfl
    | ok name => simp only [Read.andTail, Read.ending_widen, Read.ending_map]
  · refine .inl fun last rest => ?_
    simp only [commaNames, separated, ↓reduceIte]
    rfl

theorem output_items_forks (limit : Nat) :
    Forks ours theirs limit id
      (inOrder [.token .string, .many (inOrder [Phrase.sign .comma, .token .identifier])] |||
        .token .identifier)
      outputItems := by
  refine .of_head rfl fun first => ?_
  cases kind : first.kind with
  | string text =>
      have quoted : TokenClass.string.Has first.kind := kind ▸ .string
      simp only [outputItems, kind]
      exact Forks.imp (.cons quoted (.widen (.map (.single (Forks.comap (comma_names_forks limit)
        fun rest => (first.place.span, rest)))))) fun _ derives => .left derives
  | keyword | mark | identifier | integer | float | endOfFile =>
      simp only [outputItems, kind]
      exact Forks.imp (.map (ident_forks limit).on) fun _ derives => .right derives

theorem output_forks (limit : Nat) (first : Token) :
    Forks ours theirs limit id
      (inOrder [Phrase.sign .leftParen,
        inOrder [.token .string, .many (inOrder [Phrase.sign .comma, .token .identifier])] |||
          .token .identifier,
        Phrase.sign .rightParen, Phrase.sign .semicolon])
      (output first) := by
  rw [funext (output.eq_1 first)]
  exact (sign_forks limit .leftParen).and_then ((output_items_forks limit).on.and_then
    ((sign_forks limit .rightParen).on.and_then
      (.single (.map (sign_forks limit .semicolon).on))))

section Blocks

variable {limit : Nat}

theorem block_items_forks (statements : Forks ours theirs limit id (.rule .statement) statement) :
    ForksFor ours theirs limit (.many (.rule .statement)) blockItems := by
  induction limit with
  | zero => exact Forks.of_zero _
  | succ limit ih =>
      have items := ih (statements.mono (Nat.le_succ limit))
      refine .of_first (fun last => by rw [blockItems]; rfl) fun first => ?_
      by_cases ends : first.kind = .mark .rightBrace ∨ first.kind = .endOfFile
      · simp only [blockItems, ends, ↓reduceIte]
        refine Forks.stay.imp fun _ nothing => ?_
        cases nothing
        exact .none
      · simp only [blockItems, ends, ↓reduceIte]
        refine Forks.imp
          (.widen (statements.on.and_tail_shorter (.map (Forks.carry items _ fun _ => rfl))))
          fun _ derives => ?_
        cases derives with
        | both item others => exact .more item others

theorem block_forks (statements : Forks ours theirs limit id (.rule .statement) statement) :
    Forks ours theirs limit id (inOrder Phrase.block) block := by
  rw [funext block.eq_1]
  exact Forks.imp (((sign_forks limit .leftBrace).and_tail
    (Forks.carry (block_items_forks statements) _ fun _ => rfl)).and_then
      (.single (.map (sign_forks limit .rightBrace).on))) fun _ => .assoc

variable (blocks : Forks ours theirs limit id (inOrder Phrase.block) block) (first : Token)
include blocks

theorem alternative_forks :
    ForksFor ours theirs limit
      (Phrase.optional (inOrder (Phrase.word .elseWord :: Phrase.block)))
      fun given : Cond × List Stmt × Span => alternative first given.1 given.2.1 given.2.2 := by
  refine .of_first (fun given => by rw [alternative]; rfl) fun keyword => ?_
  by_cases otherwise : keyword.kind = .keyword .elseWord
  · simp only [alternative, otherwise, ↓reduceIte]
    exact Forks.imp (.cons (.of_eq otherwise) (.widen (.map blocks.on))) fun _ derives =>
      .left derives
  · simp only [alternative, otherwise, ↓reduceIte]
    exact Forks.stay.imp fun _ derives => .right derives

theorem conditional_forks :
    Forks ours theirs limit id
      (inOrder ([Phrase.sign .leftParen, .rule .condition, Phrase.sign .rightParen,
        Phrase.word .thenWord] ++ Phrase.block ++
          [Phrase.optional (inOrder (Phrase.word .elseWord :: Phrase.block))]))
      (conditional first) := by
  rw [funext (conditional.eq_1 first)]
  refine (sign_forks limit .leftParen).and_then ((condition_forks limit).on.and_then
    ((sign_forks limit .rightParen).on.and_then ((word_forks limit .thenWord).on.and_then
      (Forks.imp (blocks.on.and_tail (.single ?_)) fun _ => .in_order_append Phrase.block [_]))))
  exact Forks.carry (alternative_forks blocks first) (fun p =>
    (p.start.start.start.reading.value, p.reading.value, p.reading.last)) fun _ => rfl

theorem do_while_forks :
    Forks ours theirs limit id
      (inOrder (Phrase.block ++ [Phrase.word .whileWord, Phrase.sign .leftParen, .rule .condition,
        Phrase.sign .rightParen, Phrase.sign .semicolon]))
      (doWhile first) := by
  rw [funext (doWhile.eq_1 first)]
  exact Forks.imp (blocks.and_then ((word_forks limit .whileWord).on.and_then
    ((sign_forks limit .leftParen).on.and_then ((condition_forks limit).on.and_then
      ((sign_forks limit .rightParen).on.and_then
        (.single (.map (sign_forks limit .semicolon).on))))))) fun _ =>
          .in_order_append Phrase.block [_, _, _, _, _]

theorem for_loop_forks :
    Forks ours theirs limit id
      (inOrder ([.token .identifier, Phrase.word .fromWord, .rule .expression,
        Phrase.word .toWord, .rule .expression, Phrase.word .stepWord, .rule .expression] ++
          Phrase.block))
      (forLoop first) := by
  rw [funext (forLoop.eq_1 first)]
  exact (ident_forks limit).and_then ((word_forks limit .fromWord).on.and_then
    ((expression_forks limit).on.and_then ((word_forks limit .toWord).on.and_then
      ((expression_forks limit).on.and_then ((word_forks limit .stepWord).on.and_then
        ((expression_forks limit).on.and_then (.map blocks.on)))))))

omit first in
theorem statement_of_block : Forks ours theirs (limit + 1) id (.rule .statement) statement := by
  refine .of_head (by rw [statement]; rfl) fun first => ?_
  cases kind : first.kind with
  | identifier name =>
      have named : TokenClass.identifier.Has first.kind := kind ▸ .identifier
      simp only [statement, kind]
      exact Forks.imp (.behind named (.widen (assignment_forks limit first name).on))
        fun _ derives => .rule (.left (.left (.left (.left (.left (.right (.rule derives)))))))
  | keyword word =>
      have begun := TokenClass.Has.of_eq kind
      cases word with
      | letWord =>
          simp only [statement, kind]
          exact Forks.imp (.behind begun (.widen (declaration_forks limit first).on))
            fun _ => derives_of_declared
      | defineWord =>
          simp only [statement, kind]
          exact Forks.imp (.behind begun (.widen (constant_declaration_forks limit first).on))
            fun _ derives =>
              .rule (.left (.left (.left (.left (.left (.left (.right (.rule derives))))))))
      | ifWord =>
          simp only [statement, kind]
          exact Forks.imp (.behind begun (.widen (conditional_forks blocks first).on))
            fun _ derives => .rule (.left (.left (.left (.left (.right (.rule derives))))))
      | doWord =>
          simp only [statement, kind]
          exact Forks.imp (.behind begun (.widen (do_while_forks blocks first).on))
            fun _ derives => .rule (.left (.left (.left (.right (.rule derives)))))
      | forWord =>
          simp only [statement, kind]
          exact Forks.imp (.behind begun (.widen (for_loop_forks blocks first).on))
            fun _ derives => .rule (.left (.left (.right (.rule derives))))
      | inputWord =>
          simp only [statement, kind]
          exact Forks.imp (.behind begun (.widen (input_forks limit first).on))
            fun _ derives => .rule (.left (.right (.rule derives)))
      | outputWord =>
          simp only [statement, kind]
          exact Forks.imp (.behind begun (.widen (output_forks limit first).on))
            fun _ derives => .rule (.right (.rule derives))
      | _ =>
          simp only [statement, kind]
          exact .refuse
  | mark | integer | float | string | endOfFile =>
      simp only [statement, kind]
      exact .refuse

end Blocks

theorem statement_forks (limit : Nat) :
    Forks ours theirs limit id (.rule .statement) statement := by
  induction limit with
  | zero => exact .of_zero _
  | succ limit ih => exact statement_of_block (block_forks ih)

end Grammar

end ThreeAddress
