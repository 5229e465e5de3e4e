import ThreeAddress.Syntax.Parser
import ThreeAddress.Proofs.Grammar.Statement

/-!
# Attempts of a cursor follow the readings of the grammar

A cursor carries the span of the token taken last from one attempt into the next, and an attempt
that fails leaves it at whatever it took. The readings of the grammar know only the tokens ahead.
Here every attempt is shown to end as the reading of the tokens ahead of its cursor does, with the
same tree, the same last span and the same tokens left, whatever span the cursor brought along. So
no place in a tree is taken from a token in front of the cursor.
-/

namespace ThreeAddress

set_option autoImplicit false

@[simp] theorem Span.merge_self (span : Span) : span.merge span = span := by
  simp [Span.merge]

@[simp] theorem Place.up_to_span (place : Place) : place.upTo place.span = place := by
  simp [Place.upTo]

namespace Cursor

variable {tokens : List Token}

theorem current_of_rest_nil {cursor : Cursor tokens} (ahead : cursor.rest = []) :
    cursor.current = Token.endBehind none := by
  rw [current, ahead, List.headD_nil]

theorem current_of_rest_cons {cursor : Cursor tokens} {first : Token} {others : List Token}
    (ahead : cursor.rest = first :: others) : cursor.current = first := by
  rw [current, ahead, List.headD_cons]

theorem rest_eq_cons {cursor : Cursor tokens} {kind : TokenKind}
    (found : cursor.current.kind = kind) (goesOn : kind ≠ .endOfFile) :
    cursor.rest = cursor.current :: cursor.advance.rest := by
  subst found
  have inside := index_lt_of_current goesOn
  have ahead : cursor.rest = tokens[cursor.index] :: tokens.drop (cursor.index + 1) :=
    List.drop_eq_getElem_cons inside
  rw [advance, dif_neg goesOn, current_of_rest_cons ahead]
  exact ahead

theorem previous_advance (cursor : Cursor tokens) :
    cursor.advance.previous = cursor.current.place.span := by
  rw [advance]
  split <;> rfl

@[simp] theorem place_from_current (cursor : Cursor tokens) :
    cursor.advance.placeFrom cursor.current = cursor.current.place := by
  rw [placeFrom, previous_advance, Place.up_to_span]

end Cursor

namespace Attempt

variable {tokens : List Token} {α β γ δ : Type} {bound wider : Nat}

/-- The attempt ends as the reading does: with a value that `finish` makes the one read, once it
knows the span taken last, and in front of the same tokens. After a failure nothing is said of the
span taken last. -/
inductive Follows (finish : α → Span → β) : Attempt tokens bound α → Read wider β → Prop
  | done (move : Move tokens bound α) (shorter : move.cursor.rest.length < wider) :
      Follows finish (.done move)
        (.ok ⟨finish move.value move.cursor.previous, move.cursor.previous, move.cursor.rest,
          shorter⟩)
  | failed (expected : Expected) (cursor : Cursor tokens) :
      Follows finish (.failed ⟨expected, cursor.current⟩ cursor) (.fail ⟨expected, cursor.rest⟩)

/-- A value that needs no place. -/
def asIs (value : α) (_ : Span) : α :=
  value

/-- The statement that starts with `first`. -/
def placedAt (first : Token) (kind : Place → Stmt) (last : Span) : Stmt :=
  kind (first.place.upTo last)

namespace Follows

variable {attempt : Attempt tokens bound α} {read : Read wider β} {finish : α → Span → β}

theorem widen_attempt {larger : Nat} (follows : Follows finish attempt read)
    (within : bound ≤ larger) : Follows finish (attempt.widen within) read := by
  cases follows with
  | done move shorter =>
      exact .done ⟨move.value, move.cursor, Nat.lt_of_lt_of_le move.shorter within⟩ shorter
  | failed expected cursor => exact .failed expected cursor

theorem widen_read {larger : Nat} (follows : Follows finish attempt read)
    (within : wider ≤ larger) : Follows finish attempt (read.widen within) := by
  cases follows with
  | done move shorter => exact .done move (Nat.lt_of_lt_of_le shorter within)
  | failed expected cursor => exact .failed expected cursor

theorem widen {larger further : Nat} (follows : Follows finish attempt read)
    (within : bound ≤ larger) (inside : wider ≤ further) :
    Follows finish (attempt.widen within) (read.widen inside) :=
  (follows.widen_attempt within).widen_read inside

theorem map {finishNext : γ → Span → δ} {f : Move tokens bound α → γ} {g : Reading wider β → δ}
    (follows : Follows finish attempt read)
    (agree : ∀ (move : Move tokens bound α) (shorter : move.cursor.rest.length < wider),
      finishNext (f move) move.cursor.previous =
        g ⟨finish move.value move.cursor.previous, move.cursor.previous, move.cursor.rest,
          shorter⟩) :
    Follows finishNext (attempt.map f) (read.map g) := by
  cases follows with
  | done move shorter =>
      rw [Read.map, ← agree move shorter]
      exact .done ⟨f move, move.cursor, move.shorter⟩ shorter
  | failed expected cursor => exact .failed expected cursor

theorem and_then {finishNext : γ → Span → δ}
    {next : (move : Move tokens bound α) → Attempt tokens move.cursor.remaining γ}
    {nextRead : (reading : Reading wider β) → Read reading.rest.length δ}
    (follows : Follows finish attempt read)
    (step : ∀ (move : Move tokens bound α) (shorter : move.cursor.rest.length < wider),
      Follows finishNext (next move)
        (nextRead ⟨finish move.value move.cursor.previous, move.cursor.previous,
          move.cursor.rest, shorter⟩)) :
    Follows finishNext (attempt.andThen next) (read.andThen nextRead) := by
  cases follows with
  | done move shorter =>
      exact (step move shorter).widen (Nat.le_of_lt move.shorter) (Nat.le_of_lt shorter)
  | failed expected cursor => exact .failed expected cursor

theorem and_tail {finishNext : γ → Span → δ}
    {next : (move : Move tokens bound α) → Attempt tokens (move.cursor.remaining + 1) γ}
    {nextRead : (reading : Reading wider β) → Read (reading.rest.length + 1) δ}
    (follows : Follows finish attempt read)
    (step : ∀ (move : Move tokens bound α) (shorter : move.cursor.rest.length < wider),
      Follows finishNext (next move)
        (nextRead ⟨finish move.value move.cursor.previous, move.cursor.previous,
          move.cursor.rest, shorter⟩)) :
    Follows finishNext (attempt.andTail next) (read.andTail nextRead) := by
  cases follows with
  | done move shorter =>
      exact (step move shorter).widen move.shorter shorter
  | failed expected cursor => exact .failed expected cursor

theorem taken {cursor : Cursor tokens} {value : α}
    {shorter : cursor.advance.remaining < bound} {fewer : cursor.advance.rest.length < wider} :
    Follows asIs (.done ⟨value, cursor.advance, shorter⟩)
      (.ok ⟨value, cursor.current.place.span, cursor.advance.rest, fewer⟩) := by
  rw [← cursor.previous_advance]
  exact .done ⟨value, cursor.advance, shorter⟩ fewer

theorem placed {attempt : Attempt tokens bound (Place → Stmt)} {read : Read wider Stmt}
    {first : Token} (follows : Follows (placedAt first) attempt read) :
    Follows asIs (attempt.map fun kind => kind.value (kind.cursor.placeFrom first)) read := by
  cases follows with
  | done move shorter =>
      exact .done ⟨move.value (move.cursor.placeFrom first), move.cursor, move.shorter⟩ shorter
  | failed expected cursor => exact .failed expected cursor

end Follows

end Attempt

namespace Cursor

open Attempt

variable {tokens : List Token}

theorem expect_follows (cursor : Cursor tokens) (kind : TokenKind) (goesOn : kind ≠ .endOfFile) :
    Follows asIs (cursor.expect kind goesOn) (Grammar.token kind cursor.rest) := by
  rw [expect]
  split
  case isTrue found =>
    rw [rest_eq_cons found goesOn, Grammar.token, if_pos found]
    exact .taken
  case isFalse other =>
    have failing : Grammar.token kind cursor.rest = .fail ⟨.token kind, cursor.rest⟩ := by
      cases ahead : cursor.rest with
      | nil => rfl
      | cons first others => rw [Grammar.token, if_neg (current_of_rest_cons ahead ▸ other)]
    rw [failing]
    exact .failed _ cursor

theorem sign_follows (cursor : Cursor tokens) (mark : Mark) :
    Follows asIs (cursor.sign mark) (Grammar.sign mark cursor.rest) :=
  cursor.expect_follows _ _

theorem word_follows (cursor : Cursor tokens) (keyword : Keyword) :
    Follows asIs (cursor.word keyword) (Grammar.word keyword cursor.rest) :=
  cursor.expect_follows _ _

theorem ident_follows (cursor : Cursor tokens) :
    Follows asIs cursor.ident (Grammar.ident cursor.rest) := by
  rw [ident]
  split
  next name found =>
    rw [rest_eq_cons found TokenKind.noConfusion, Grammar.ident]
    simp only [found]
    exact .taken
  next other =>
    have failing : Grammar.ident cursor.rest = .fail ⟨.identifier, cursor.rest⟩ := by
      cases ahead : cursor.rest with
      | nil => rfl
      | cons first others =>
          rw [Grammar.ident]
          split
          next name named => exact (other name (current_of_rest_cons ahead ▸ named)).elim
          next => rfl
    rw [failing]
    exact .failed _ cursor

theorem data_type_follows (cursor : Cursor tokens) :
    Follows asIs cursor.dataType (Grammar.dataType cursor.rest) := by
  rw [dataType]
  split
  next found =>
    rw [rest_eq_cons found TokenKind.noConfusion, Grammar.dataType]
    simp only [found]
    exact .taken
  next notInt =>
    split
    next found =>
      rw [rest_eq_cons found TokenKind.noConfusion, Grammar.dataType]
      simp only [found]
      exact .taken
    next notFloat =>
      have failing : Grammar.dataType cursor.rest = .fail ⟨.dataType, cursor.rest⟩ := by
        cases ahead : cursor.rest with
        | nil => rfl
        | cons first others =>
            rw [Grammar.dataType]
            split
            next found => exact (notInt (current_of_rest_cons ahead ▸ found)).elim
            next found => exact (notFloat (current_of_rest_cons ahead ▸ found)).elim
            next => rfl
      rw [failing]
      exact .failed _ cursor

theorem sum_tail_at_end {left : Expr} {cursor : Cursor tokens}
    (ends : BinaryOp.ofSum? cursor.current.kind = none) :
    Grammar.sumTail left cursor.previous cursor.rest =
      .ok ⟨left, cursor.previous, cursor.rest, Nat.lt_succ_self _⟩ := by
  cases ahead : cursor.rest with
  | nil => rw [Grammar.sumTail]
  | cons first others =>
      rw [current_of_rest_cons ahead] at ends
      rw [Grammar.sumTail]
      simp only [ends]

theorem product_tail_at_end {left : Expr} {cursor : Cursor tokens}
    (ends : BinaryOp.ofProduct? cursor.current.kind = none) :
    Grammar.productTail left cursor.previous cursor.rest =
      .ok ⟨left, cursor.previous, cursor.rest, Nat.lt_succ_self _⟩ := by
  cases ahead : cursor.rest with
  | nil => rw [Grammar.productTail]
  | cons first others =>
      rw [current_of_rest_cons ahead] at ends
      rw [Grammar.productTail]
      simp only [ends]

theorem unary_without_minus {cursor : Cursor tokens}
    (plain : cursor.current.kind ≠ .mark .minus) :
    Grammar.unary cursor.rest = Grammar.atom cursor.rest := by
  cases ahead : cursor.rest with
  | nil => rw [Grammar.unary, Grammar.atom]
  | cons first others =>
      rw [current_of_rest_cons ahead] at plain
      rw [Grammar.unary, if_neg plain]

theorem atom_without_bracket {cursor : Cursor tokens} {name : String}
    (found : cursor.current.kind = .identifier name)
    (plain : cursor.advance.current.kind ≠ .mark .leftBracket) :
    Grammar.atom (cursor.current :: cursor.advance.rest) =
      .ok ⟨.identifier name cursor.current.place, cursor.current.place.span, cursor.advance.rest,
        Reading.behind_lt _ _⟩ := by
  rw [Grammar.atom]
  simp only [found]
  cases ahead : cursor.advance.rest with
  | nil => rfl
  | cons first others =>
      rw [current_of_rest_cons ahead] at plain
      simp only [if_neg plain]

mutual

theorem expression_follows (cursor : Cursor tokens) :
    Follows asIs cursor.expression (Grammar.expression cursor.rest) := by
  rw [expression, Grammar.expression]
  exact (product_follows cursor).and_tail fun first _ => sum_tail_follows first.value first.cursor
termination_by 6 * cursor.remaining + 4
decreasing_by
  · omega
  · have := first.shorter
    omega

theorem sum_tail_follows (left : Expr) (cursor : Cursor tokens) :
    Follows asIs (cursor.sumTail left)
      (Grammar.sumTail left cursor.previous cursor.rest) := by
  rw [sumTail]
  split
  next ends =>
    rw [sum_tail_at_end ends]
    exact .done ⟨left, cursor, _⟩ _
  next op adds =>
    have goesOn : cursor.current.kind ≠ .endOfFile := by
      intro ends
      rw [ends] at adds
      cases adds
    rw [rest_eq_cons rfl goesOn, Grammar.sumTail]
    simp only [adds]
    exact ((product_follows cursor.advance).and_tail fun right _ =>
      sum_tail_follows (.join op left right.value) right.cursor).widen _ _
termination_by 6 * cursor.remaining + 5
decreasing_by
  all_goals have := cursor.remaining_advance_le
  · omega
  · have := right.shorter
    omega

theorem product_follows (cursor : Cursor tokens) :
    Follows asIs cursor.product (Grammar.product cursor.rest) := by
  rw [product, Grammar.product]
  exact (unary_follows cursor).and_tail fun first _ => product_tail_follows first.value first.cursor
termination_by 6 * cursor.remaining + 2
decreasing_by
  · omega
  · have := first.shorter
    omega

theorem product_tail_follows (left : Expr) (cursor : Cursor tokens) :
    Follows asIs (cursor.productTail left)
      (Grammar.productTail left cursor.previous cursor.rest) := by
  rw [productTail]
  split
  next ends =>
    rw [product_tail_at_end ends]
    exact .done ⟨left, cursor, _⟩ _
  next op multiplies =>
    have goesOn : cursor.current.kind ≠ .endOfFile := by
      intro ends
      rw [ends] at multiplies
      cases multiplies
    rw [rest_eq_cons rfl goesOn, Grammar.productTail]
    simp only [multiplies]
    exact ((unary_follows cursor.advance).and_tail fun right _ =>
      product_tail_follows (.join op left right.value) right.cursor).widen _ _
termination_by 6 * cursor.remaining + 3
decreasing_by
  all_goals have := cursor.remaining_advance_le
  · omega
  · have := right.shorter
    omega

theorem unary_follows (cursor : Cursor tokens) :
    Follows asIs cursor.unary (Grammar.unary cursor.rest) := by
  rw [unary]
  split
  next minus =>
    have fewer := remaining_advance_lt minus TokenKind.noConfusion
    rw [rest_eq_cons minus TokenKind.noConfusion, Grammar.unary, if_pos minus]
    exact ((unary_follows cursor.advance).map fun _ _ => rfl).widen _ _
  next plain =>
    rw [unary_without_minus plain]
    exact atom_follows cursor
termination_by 6 * cursor.remaining + 1
decreasing_by all_goals omega

theorem atom_follows (cursor : Cursor tokens) :
    Follows asIs cursor.atom (Grammar.atom cursor.rest) := by
  rw [atom]
  split
  next text found =>
    rw [rest_eq_cons found TokenKind.noConfusion, Grammar.atom]
    simp only [found, place_from_current]
    exact .taken
  next text found =>
    rw [rest_eq_cons found TokenKind.noConfusion, Grammar.atom]
    simp only [found, place_from_current]
    exact .taken
  next name found =>
    have fewer := remaining_advance_lt found TokenKind.noConfusion
    have fewest := cursor.advance.remaining_advance_le
    rw [rest_eq_cons found TokenKind.noConfusion]
    split
    next bracket =>
      rw [rest_eq_cons bracket TokenKind.noConfusion, Grammar.atom]
      simp only [found, if_pos bracket]
      exact ((expression_follows cursor.advance.advance).and_then fun index _ =>
        (index.cursor.sign_follows _).map fun _ _ => rfl).widen _ _
    next plain =>
      rw [atom_without_bracket found plain, place_from_current]
      exact .taken
  next found =>
    have fewer := remaining_advance_lt found TokenKind.noConfusion
    rw [rest_eq_cons found TokenKind.noConfusion, Grammar.atom]
    simp only [found]
    exact ((expression_follows cursor.advance).and_then fun inner _ =>
      (inner.cursor.sign_follows _).map fun _ _ => rfl).widen _ _
  next notInteger notFloat notName notParen =>
    have failing : Grammar.atom cursor.rest = .fail ⟨.expression, cursor.rest⟩ := by
      cases ahead : cursor.rest with
      | nil => rw [Grammar.atom]
      | cons first others =>
          rw [current_of_rest_cons ahead] at notInteger notFloat notName notParen
          rw [Grammar.atom]
          split <;> simp_all
    rw [failing]
    exact .failed _ cursor
termination_by 6 * cursor.remaining
decreasing_by all_goals omega

end

theorem compare_op_follows (cursor : Cursor tokens) :
    Follows asIs cursor.compareOp (Grammar.compareOp cursor.rest) := by
  rw [compareOp]
  split
  next op compares =>
    rw [rest_eq_cons rfl (CompareOp.ne_end_of_of_kind compares), Grammar.compareOp]
    simp only [compares]
    exact .taken
  next other =>
    have failing : Grammar.compareOp cursor.rest = .fail ⟨.comparison, cursor.rest⟩ := by
      cases ahead : cursor.rest with
      | nil => rfl
      | cons first others =>
          rw [current_of_rest_cons ahead] at other
          rw [Grammar.compareOp]
          simp only [other]
    rw [failing]
    exact .failed _ cursor

theorem comparison_follows (cursor : Cursor tokens) :
    Follows asIs cursor.comparison (Grammar.comparison cursor.rest) :=
  cursor.expression_follows.and_then fun left _ =>
    left.cursor.compare_op_follows.and_then fun op _ =>
      op.cursor.expression_follows.map fun _ _ => rfl

theorem or_tail_at_end {left : Cond} {cursor : Cursor tokens}
    (ends : cursor.current.kind ≠ .keyword .orWord) :
    Grammar.orTail left cursor.previous cursor.rest =
      .ok ⟨left, cursor.previous, cursor.rest, Nat.lt_succ_self _⟩ := by
  cases ahead : cursor.rest with
  | nil => rw [Grammar.orTail]
  | cons first others =>
      rw [current_of_rest_cons ahead] at ends
      rw [Grammar.orTail, if_neg ends]

theorem and_tail_at_end {left : Cond} {cursor : Cursor tokens}
    (ends : cursor.current.kind ≠ .keyword .andWord) :
    Grammar.andTail left cursor.previous cursor.rest =
      .ok ⟨left, cursor.previous, cursor.rest, Nat.lt_succ_self _⟩ := by
  cases ahead : cursor.rest with
  | nil => rw [Grammar.andTail]
  | cons first others =>
      rw [current_of_rest_cons ahead] at ends
      rw [Grammar.andTail, if_neg ends]

theorem condition_atom_compares {cursor : Cursor tokens}
    (notBang : cursor.current.kind ≠ .mark .bang)
    (notParen : cursor.current.kind ≠ .mark .leftParen) :
    Grammar.conditionAtom cursor.rest = Grammar.comparison cursor.rest := by
  cases ahead : cursor.rest with
  | nil => rw [Grammar.conditionAtom]
  | cons first others =>
      rw [current_of_rest_cons ahead] at notBang notParen
      rw [Grammar.conditionAtom, if_neg notBang, if_neg notParen]

/-- Behind a token that was looked at before it is taken. -/
theorem expect_and_then {α : Type} {cursor : Cursor tokens} {kind : TokenKind}
    {goesOn : kind ≠ .endOfFile} (found : cursor.current.kind = kind)
    (next : (move : Move tokens cursor.remaining Token) →
      Attempt tokens move.cursor.remaining α) :
    (cursor.expect kind goesOn).andThen next =
      (next ⟨cursor.current, cursor.advance, remaining_advance_lt found goesOn⟩).widen
        (Nat.le_of_lt (remaining_advance_lt found goesOn)) := by
  rw [expect, dif_pos found]
  rfl

mutual

theorem condition_follows (cursor : Cursor tokens) :
    Follows asIs cursor.condition (Grammar.condition cursor.rest) := by
  rw [condition, Grammar.condition]
  exact (conjunction_follows cursor).and_tail fun first _ =>
    or_tail_follows first.value first.cursor
termination_by 6 * cursor.remaining + 4
decreasing_by
  · omega
  · have := first.shorter
    omega

theorem or_tail_follows (left : Cond) (cursor : Cursor tokens) :
    Follows asIs (cursor.orTail left) (Grammar.orTail left cursor.previous cursor.rest) := by
  rw [orTail]
  split
  next goesOn =>
    rw [rest_eq_cons goesOn TokenKind.noConfusion, Grammar.orTail, if_pos goesOn]
    exact ((conjunction_follows cursor.advance).and_tail fun right _ =>
      or_tail_follows (left.joinOr right.value) right.cursor).widen _ _
  next ends =>
    rw [or_tail_at_end ends]
    exact .done ⟨left, cursor, _⟩ _
termination_by 6 * cursor.remaining + 5
decreasing_by
  all_goals have := cursor.remaining_advance_le
  · omega
  · have := right.shorter
    omega

theorem conjunction_follows (cursor : Cursor tokens) :
    Follows asIs cursor.conjunction (Grammar.conjunction cursor.rest) := by
  rw [conjunction, Grammar.conjunction]
  exact (condition_atom_follows cursor).and_tail fun first _ =>
    and_tail_follows first.value first.cursor
termination_by 6 * cursor.remaining + 2
decreasing_by
  · omega
  · have := first.shorter
    omega

theorem and_tail_follows (left : Cond) (cursor : Cursor tokens) :
    Follows asIs (cursor.andTail left) (Grammar.andTail left cursor.previous cursor.rest) := by
  rw [andTail]
  split
  next goesOn =>
    rw [rest_eq_cons goesOn TokenKind.noConfusion, Grammar.andTail, if_pos goesOn]
    exact ((condition_atom_follows cursor.advance).and_tail fun right _ =>
      and_tail_follows (left.joinAnd right.value) right.cursor).widen _ _
  next ends =>
    rw [and_tail_at_end ends]
    exact .done ⟨left, cursor, _⟩ _
termination_by 6 * cursor.remaining + 3
decreasing_by
  all_goals have := cursor.remaining_advance_le
  · omega
  · have := right.shorter
    omega

theorem condition_atom_follows (cursor : Cursor tokens) :
    Follows asIs cursor.conditionAtom (Grammar.conditionAtom cursor.rest) := by
  rw [conditionAtom]
  split
  next bang =>
    have fewer := remaining_advance_lt bang TokenKind.noConfusion
    rw [rest_eq_cons bang TokenKind.noConfusion, Grammar.conditionAtom, if_pos bang]
    exact ((condition_follows cursor.advance).map fun _ _ => rfl).widen _ _
  next notBang =>
    split
    next paren =>
      have ahead := rest_eq_cons paren TokenKind.noConfusion
      have inner := paren_condition_follows cursor paren
      have compares := cursor.comparison_follows
      rw [ahead] at compares
      rw [ahead, Grammar.conditionAtom, if_neg notBang, if_pos paren]
      -- the two attempts fail together, and then both compare from the saved cursor on
      generalize cursor.parenCondition = attempt at inner
      generalize Grammar.parenCondition cursor.current cursor.advance.rest = read at inner
      cases inner with
      | done move shorter => exact (Follows.done move shorter).widen_read _
      | failed expected stale => exact compares
    next notParen =>
      rw [condition_atom_compares notBang notParen]
      exact cursor.comparison_follows
termination_by 6 * cursor.remaining + 1
decreasing_by all_goals omega

theorem paren_condition_follows (cursor : Cursor tokens)
    (paren : cursor.current.kind = .mark .leftParen) :
    Follows asIs cursor.parenCondition
      (Grammar.parenCondition cursor.current cursor.advance.rest) := by
  have fewer := remaining_advance_lt paren TokenKind.noConfusion
  rw [parenCondition, Grammar.parenCondition, sign, expect_and_then paren]
  exact ((condition_follows cursor.advance).and_then fun inner _ =>
    (inner.cursor.sign_follows _).map fun _ _ => rfl).widen_attempt _
termination_by 6 * cursor.remaining
decreasing_by omega

end

theorem array_size_follows (cursor : Cursor tokens) :
    Follows asIs cursor.arraySize (Grammar.arraySize cursor.rest) := by
  rw [arraySize]
  split
  next text found =>
    rw [rest_eq_cons found TokenKind.noConfusion, Grammar.arraySize]
    simp only [found]
    exact .taken
  next other =>
    have failing : Grammar.arraySize cursor.rest = .fail ⟨.arraySize, cursor.rest⟩ := by
      cases ahead : cursor.rest with
      | nil => rfl
      | cons first others =>
          rw [Grammar.arraySize]
          split
          next text found => exact (other text (current_of_rest_cons ahead ▸ found)).elim
          next => rfl
    rw [failing]
    exact .failed _ cursor

theorem declared_type_follows (first : Token) (name : Ident) (cursor : Cursor tokens) :
    Follows (placedAt first) (cursor.declaredType name)
      (Grammar.declaredType first name cursor.rest) := by
  rw [declaredType]
  split
  next bracket =>
    rw [rest_eq_cons bracket TokenKind.noConfusion, Grammar.declaredType]
    simp only [if_pos bracket]
    exact (cursor.advance.data_type_follows.and_then fun element _ =>
      (element.cursor.sign_follows _).and_then fun divider _ =>
        divider.cursor.array_size_follows.and_then fun size _ =>
          (size.cursor.sign_follows _).and_then fun close _ =>
            (close.cursor.sign_follows _).map fun _ _ => rfl).widen _ _
  next plain =>
    have scalar : Follows (placedAt first)
        (cursor.dataType.andThen fun type =>
          (type.cursor.sign .semicolon).map fun _ => .scalar name type.value)
        ((Grammar.dataType cursor.rest).andThen fun type =>
          (Grammar.sign .semicolon type.rest).map fun stop =>
            .scalar name type.value (first.place.upTo stop.last)) :=
      cursor.data_type_follows.and_then fun type _ =>
        (type.cursor.sign_follows _).map fun _ _ => rfl
    cases ahead : cursor.rest with
    | nil =>
        rw [ahead] at scalar
        exact scalar
    | cons bracket inside =>
        rw [current_of_rest_cons ahead] at plain
        rw [ahead] at scalar
        rw [Grammar.declaredType]
        simp only [if_neg plain]
        exact scalar

theorem declaration_follows {cursor : Cursor tokens}
    (found : cursor.current.kind = .keyword .letWord) :
    Follows (placedAt cursor.current) cursor.declaration
      (Grammar.declaration cursor.current cursor.advance.rest) := by
  rw [declaration, Grammar.declaration, word, expect_and_then found]
  exact (cursor.advance.ident_follows.and_then fun name _ =>
    (name.cursor.sign_follows _).and_then fun colon _ =>
      colon.cursor.declared_type_follows _ name.value).widen_attempt _

theorem position_of_rest (cursor : Cursor tokens) :
    Grammar.positionOf cursor.rest = cursor.current.place.position := by
  cases ahead : cursor.rest with
  | nil =>
      rw [current_of_rest_nil ahead]
      rfl
  | cons first others =>
      rw [current_of_rest_cons ahead]
      rfl

theorem constant_declaration_follows {cursor : Cursor tokens}
    (found : cursor.current.kind = .keyword .defineWord) :
    Follows (placedAt cursor.current) cursor.constantDeclaration
      (Grammar.constantDeclaration cursor.current cursor.advance.rest) := by
  rw [constantDeclaration, Grammar.constantDeclaration, word, expect_and_then found]
  exact ((cursor.advance.word_follows _).and_then fun const _ =>
    const.cursor.ident_follows.and_then fun name _ =>
      (name.cursor.sign_follows _).and_then fun colon _ =>
        colon.cursor.data_type_follows.and_then fun type _ =>
          (type.cursor.sign_follows _).and_then fun equal _ =>
            equal.cursor.expression_follows.and_then fun value _ =>
              (value.cursor.sign_follows _).map fun _ _ => by
                rw [position_of_rest]
                rfl).widen_attempt _

theorem assignment_follows {cursor : Cursor tokens} {name : String}
    (found : cursor.current.kind = .identifier name) :
    Follows (placedAt cursor.current) cursor.assignment
      (Grammar.assignment cursor.current name cursor.advance.rest) := by
  have target : cursor.ident = .done ⟨⟨name, cursor.current.place⟩, cursor.advance,
      remaining_advance_lt found TokenKind.noConfusion⟩ := by
    rw [ident]
    split
    next other same =>
      cases found.symm.trans same
      rfl
    next other => exact (other name found).elim
  rw [assignment, target, Grammar.assignment]
  exact ((cursor.advance.sign_follows _).and_then fun becomes _ =>
    becomes.cursor.expression_follows.and_then fun value _ =>
      (value.cursor.sign_follows _).map fun _ _ => rfl).widen_attempt cursor.remaining_advance_le

theorem input_follows {cursor : Cursor tokens}
    (found : cursor.current.kind = .keyword .inputWord) :
    Follows (placedAt cursor.current) cursor.input
      (Grammar.input cursor.current cursor.advance.rest) := by
  rw [input, Grammar.input, word, expect_and_then found]
  exact ((cursor.advance.sign_follows _).and_then fun lparen _ =>
    lparen.cursor.ident_follows.and_then fun target _ =>
      (target.cursor.sign_follows _).and_then fun rparen _ =>
        (rparen.cursor.sign_follows _).map fun _ _ => rfl).widen_attempt _

theorem comma_names_follows (cursor : Cursor tokens) :
    Follows asIs cursor.commaNames (Grammar.commaNames cursor.previous cursor.rest) := by
  rw [commaNames]
  split
  next comma =>
    rw [rest_eq_cons comma TokenKind.noConfusion, Grammar.commaNames, if_pos comma]
    exact (cursor.advance.ident_follows.and_tail fun name _ =>
      (comma_names_follows name.cursor).map fun _ _ => rfl).widen _ _
  next ends =>
    have reading : Grammar.commaNames cursor.previous cursor.rest =
        .ok ⟨[], cursor.previous, cursor.rest, Nat.lt_succ_self _⟩ := by
      cases ahead : cursor.rest with
      | nil => rw [Grammar.commaNames]
      | cons first others =>
          rw [current_of_rest_cons ahead] at ends
          rw [Grammar.commaNames, if_neg ends]
    rw [reading]
    exact .done ⟨[], cursor, _⟩ _
termination_by cursor.remaining
decreasing_by
  have := name.shorter
  have := cursor.remaining_advance_le
  omega

theorem output_items_follows (cursor : Cursor tokens) :
    Follows asIs cursor.outputItems (Grammar.outputItems cursor.rest) := by
  rw [outputItems]
  split
  next text found =>
    have names := cursor.advance.comma_names_follows
    rw [previous_advance] at names
    rw [rest_eq_cons found TokenKind.noConfusion, Grammar.outputItems]
    simp only [found]
    exact (names.map fun _ _ => rfl).widen _ _
  next other =>
    have name : Follows asIs (cursor.ident.map fun name => (none, [name.value]))
        ((Grammar.ident cursor.rest).map fun name => ((none : Option String), [name.value])) :=
      cursor.ident_follows.map fun _ _ => rfl
    cases ahead : cursor.rest with
    | nil =>
        rw [ahead] at name
        exact name
    | cons first others =>
        rw [ahead] at name
        rw [Grammar.outputItems]
        split
        next text found => exact (other text (current_of_rest_cons ahead ▸ found)).elim
        next => exact name

theorem output_follows {cursor : Cursor tokens}
    (found : cursor.current.kind = .keyword .outputWord) :
    Follows (placedAt cursor.current) cursor.output
      (Grammar.output cursor.current cursor.advance.rest) := by
  rw [output, Grammar.output, word, expect_and_then found]
  exact ((cursor.advance.sign_follows _).and_then fun lparen _ =>
    lparen.cursor.output_items_follows.and_then fun items _ =>
      (items.cursor.sign_follows _).and_then fun rparen _ =>
        (rparen.cursor.sign_follows _).map fun _ _ => rfl).widen_attempt _

mutual

theorem statement_follows (cursor : Cursor tokens) :
    Follows asIs cursor.statement (Grammar.statement cursor.rest) := by
  rw [statement]
  split
  next found =>
    rw [rest_eq_cons found TokenKind.noConfusion, Grammar.statement]
    simp only [found]
    exact (declaration_follows found).placed.widen_read _
  next found =>
    rw [rest_eq_cons found TokenKind.noConfusion, Grammar.statement]
    simp only [found]
    exact (constant_declaration_follows found).placed.widen_read _
  next name found =>
    rw [rest_eq_cons found TokenKind.noConfusion, Grammar.statement]
    simp only [found]
    exact (assignment_follows found).placed.widen_read _
  next found =>
    rw [rest_eq_cons found TokenKind.noConfusion, Grammar.statement]
    simp only [found]
    exact (conditional_follows cursor found).placed.widen_read _
  next found =>
    rw [rest_eq_cons found TokenKind.noConfusion, Grammar.statement]
    simp only [found]
    exact (do_while_follows cursor found).placed.widen_read _
  next found =>
    rw [rest_eq_cons found TokenKind.noConfusion, Grammar.statement]
    simp only [found]
    exact (for_loop_follows cursor found).placed.widen_read _
  next found =>
    rw [rest_eq_cons found TokenKind.noConfusion, Grammar.statement]
    simp only [found]
    exact (input_follows found).placed.widen_read _
  next found =>
    rw [rest_eq_cons found TokenKind.noConfusion, Grammar.statement]
    simp only [found]
    exact (output_follows found).placed.widen_read _
  next =>
    have failing : Grammar.statement cursor.rest = .fail ⟨.statement, cursor.rest⟩ := by
      cases ahead : cursor.rest with
      | nil => rw [Grammar.statement]
      | cons first others =>
          rw [Grammar.statement]
          have here := current_of_rest_cons ahead
          split <;> simp_all
    rw [failing]
    exact .failed _ cursor
termination_by 5 * cursor.remaining + 1
decreasing_by all_goals omega

theorem conditional_follows (cursor : Cursor tokens)
    (found : cursor.current.kind = .keyword .ifWord) :
    Follows (placedAt cursor.current) cursor.conditional
      (Grammar.conditional cursor.current cursor.advance.rest) := by
  have fewer := remaining_advance_lt found TokenKind.noConfusion
  rw [conditional, Grammar.conditional, word, expect_and_then found]
  exact ((cursor.advance.sign_follows _).and_then fun lparen _ =>
    lparen.cursor.condition_follows.and_then fun test _ =>
      (test.cursor.sign_follows _).and_then fun rparen _ =>
        (rparen.cursor.word_follows _).and_then fun thenWord _ =>
          (block_follows thenWord.cursor).and_tail fun body _ =>
            alternative_follows cursor.current test.value body.value body.cursor).widen_attempt _
termination_by 5 * cursor.remaining
decreasing_by
  all_goals
    have := lparen.shorter
    have := test.shorter
    have := rparen.shorter
    have := thenWord.shorter
  · omega
  · have := body.shorter
    omega

theorem alternative_follows (first : Token) (test : Cond) (body : List Stmt)
    (cursor : Cursor tokens) :
    Follows (placedAt first) (cursor.alternative test body)
      (Grammar.alternative first test body cursor.previous cursor.rest) := by
  rw [alternative]
  split
  next found =>
    rw [rest_eq_cons found TokenKind.noConfusion, Grammar.alternative, if_pos found]
    exact ((block_follows cursor.advance).map fun _ _ => rfl).widen _ _
  next ends =>
    have reading : Grammar.alternative first test body cursor.previous cursor.rest =
        .ok ⟨.ifThen test body (first.place.upTo cursor.previous), cursor.previous, cursor.rest,
          Nat.lt_succ_self _⟩ := by
      cases ahead : cursor.rest with
      | nil => rw [Grammar.alternative]
      | cons keyword others =>
          rw [current_of_rest_cons ahead] at ends
          rw [Grammar.alternative, if_neg ends]
    rw [reading]
    exact .done ⟨Stmt.ifThen test body, cursor, _⟩ _
termination_by 5 * cursor.remaining + 4
decreasing_by
  have := cursor.remaining_advance_le
  omega

theorem do_while_follows (cursor : Cursor tokens)
    (found : cursor.current.kind = .keyword .doWord) :
    Follows (placedAt cursor.current) cursor.doWhile
      (Grammar.doWhile cursor.current cursor.advance.rest) := by
  have fewer := remaining_advance_lt found TokenKind.noConfusion
  rw [doWhile, Grammar.doWhile, word, expect_and_then found]
  exact ((block_follows cursor.advance).and_then fun body _ =>
    (body.cursor.word_follows _).and_then fun whileWord _ =>
      (whileWord.cursor.sign_follows _).and_then fun lparen _ =>
        lparen.cursor.condition_follows.and_then fun test _ =>
          (test.cursor.sign_follows _).and_then fun rparen _ =>
            (rparen.cursor.sign_follows _).map fun _ _ => rfl).widen_attempt _
termination_by 5 * cursor.remaining
decreasing_by omega

theorem for_loop_follows (cursor : Cursor tokens)
    (found : cursor.current.kind = .keyword .forWord) :
    Follows (placedAt cursor.current) cursor.forLoop
      (Grammar.forLoop cursor.current cursor.advance.rest) := by
  have fewer := remaining_advance_lt found TokenKind.noConfusion
  rw [forLoop, Grammar.forLoop, word, expect_and_then found]
  exact (cursor.advance.ident_follows.and_then fun counter _ =>
    (counter.cursor.word_follows _).and_then fun fromWord _ =>
      fromWord.cursor.expression_follows.and_then fun low _ =>
        (low.cursor.word_follows _).and_then fun toWord _ =>
          toWord.cursor.expression_follows.and_then fun high _ =>
            (high.cursor.word_follows _).and_then fun stepWord _ =>
              stepWord.cursor.expression_follows.and_then fun step _ =>
                (block_follows step.cursor).map fun _ _ => rfl).widen_attempt _
termination_by 5 * cursor.remaining
decreasing_by
  have := counter.shorter
  have := fromWord.shorter
  have := low.shorter
  have := toWord.shorter
  have := high.shorter
  have := stepWord.shorter
  have := step.shorter
  omega

theorem block_follows (cursor : Cursor tokens) :
    Follows asIs cursor.block (Grammar.block cursor.rest) := by
  rw [block, Grammar.block]
  exact ((cursor.sign_follows _).and_tail fun lbrace _ =>
    block_items_follows lbrace.cursor).and_then fun body _ =>
      (body.cursor.sign_follows _).map fun _ _ => rfl
termination_by 5 * cursor.remaining + 3
decreasing_by
  have := lbrace.shorter
  omega

theorem block_items_follows (cursor : Cursor tokens) :
    Follows asIs cursor.blockItems (Grammar.blockItems cursor.previous cursor.rest) := by
  rw [blockItems]
  split
  next ends =>
    have reading : Grammar.blockItems cursor.previous cursor.rest =
        .ok ⟨[], cursor.previous, cursor.rest, Nat.lt_succ_self _⟩ := by
      cases ahead : cursor.rest with
      | nil => rw [Grammar.blockItems]
      | cons first others =>
          rw [current_of_rest_cons ahead] at ends
          rw [Grammar.blockItems, if_pos ends]
    rw [reading]
    exact .done ⟨[], cursor, _⟩ _
  next goesOn =>
    have ahead := rest_eq_cons rfl fun ends => goesOn (.inr ends)
    have first := statement_follows cursor
    rw [ahead] at first
    rw [ahead, Grammar.blockItems, if_neg goesOn]
    exact (first.and_tail fun item _ =>
      (block_items_follows item.cursor).map fun _ _ => rfl).widen _ _
termination_by 5 * cursor.remaining + 2
decreasing_by
  · omega
  · have := item.shorter
    omega

end

theorem outcome_at_end {cursor : Cursor tokens} (ends : cursor.current.kind = .endOfFile) :
    Grammar.outcome cursor.rest = (.ok [], cursor.rest) := by
  apply Grammar.outcome_of_ok
  cases ahead : cursor.rest with
  | nil => rw [Grammar.program]
  | cons first others =>
      rw [current_of_rest_cons ahead] at ends
      rw [Grammar.program, if_pos ends]

/-- What a cursor parses, and where it stops, depends on the tokens ahead of it alone. -/
theorem program_follows (cursor : Cursor tokens) :
    (cursor.program.1, cursor.program.2.rest) = Grammar.outcome cursor.rest := by
  rw [program]
  split
  next ends => rw [outcome_at_end ends]
  next goesOn =>
    have first := cursor.statement_follows
    rw [rest_eq_cons rfl goesOn] at first ⊢
    generalize cursor.statement = attempt at first
    generalize read : Grammar.statement (cursor.current :: cursor.advance.rest) = reading at first
    cases first with
    | failed expected later => rw [Grammar.outcome_of_statement_fail goesOn read]; rfl
    | done item shorter =>
        rw [Grammar.outcome_of_statement_ok goesOn read, ← program_follows item.cursor]
        rfl
termination_by cursor.remaining
decreasing_by exact item.shorter

end Cursor

namespace Parser

def rest (parser : Parser) : List Token :=
  parser.cursor.rest

theorem rest_of_tokens (tokens : List Token) :
    (Parser.ofTokens tokens).rest = Token.closeList tokens :=
  rfl

/-- A parse goes by the tokens from the index on, whatever was taken before them. -/
theorem parse_outcome (parser : Parser) :
    (parser.parse.1, parser.parse.2.rest) = Grammar.outcome parser.rest :=
  parser.cursor.program_follows

variable {parser later : Parser} {front behind : List Token}

theorem length_rest (parser : Parser) :
    parser.index + parser.rest.length = parser.tokens.length := by
  have inside : parser.index ≤ parser.tokens.length := parser.cursor.inside
  have size : parser.rest.length = parser.tokens.length - parser.index := List.length_drop
  omega

theorem index_of_rest (same : later.tokens = parser.tokens)
    (split : parser.rest = front ++ later.rest) : later.index = parser.index + front.length := by
  have size := congrArg List.length split
  have whole := parser.length_rest
  have left := later.length_rest
  rw [List.length_append] at size
  rw [same] at left
  omega

end Parser

theorem parse_tokens_eq (tokens : List Token) :
    parseTokens tokens = (Grammar.outcome (Token.closeList tokens)).1 :=
  congrArg Prod.fst (Parser.ofTokens tokens).parse_outcome

end ThreeAddress
