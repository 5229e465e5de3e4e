import ThreeAddress.Proofs.Syntax.Completeness
import ThreeAddress.Proofs.Grammar.Refinement

/-!
# A choice that makes no difference

Where a parenthesis opens in a condition, a condition in parentheses is tried first, and a
comparison only if that fails. No token list has both there. So a reader that chooses in another
way, at every parenthesis, which of the two it reads, reads the same conditions with the same trees.
-/

namespace ThreeAddress

set_option autoImplicit false

namespace Read

variable {α β : Type} {bound wider : Nat}

def Gives (read : Read bound α) (value : α) (last : Span) (rest : List Token) : Prop :=
  ∃ reading, read = .ok reading ∧ reading.value = value ∧ reading.last = last ∧ reading.rest = rest

variable {read : Read bound α} {other : Read bound β} {value : β} {last : Span} {rest : List Token}

theorem gives_ok_iff {reading : Reading bound β} :
    (Read.ok reading).Gives value last rest ↔
      reading.value = value ∧ reading.last = last ∧ reading.rest = rest := by
  constructor
  · rintro ⟨_, same, told⟩
    cases same
    exact told
  · exact fun told => ⟨reading, rfl, told⟩

theorem Gives.shorter (gives : other.Gives value last rest) :
    rest.length < bound := by
  obtain ⟨reading, _, _, _, rfl⟩ := gives
  exact reading.shorter

theorem not_gives_fail {failure : Failure} :
    ¬ (Read.fail failure : Read bound β).Gives value last rest := by
  rintro ⟨_, same, _⟩
  cases same

theorem gives_widen_iff (within : bound ≤ wider) :
    (other.widen within).Gives value last rest ↔ other.Gives value last rest := by
  cases other with
  | ok reading => rw [gives_ok_iff, widen, gives_ok_iff]
  | fail failure => exact iff_of_false not_gives_fail not_gives_fail

theorem gives_map_iff {f : Reading bound α → β} :
    (read.map f).Gives value last rest ↔
      ∃ reading, read = .ok reading ∧ f reading = value ∧ reading.last = last ∧
        reading.rest = rest := by
  cases read with
  | fail failure =>
      refine iff_of_false not_gives_fail ?_
      rintro ⟨_, same, _⟩
      cases same
  | ok reading =>
      rw [map, gives_ok_iff]
      constructor
      · exact fun told => ⟨reading, rfl, told⟩
      · rintro ⟨_, same, told⟩
        cases same
        exact told

/-- A first reading, and another one that is given its value and its end. -/
theorem gives_and_tail_iff (tail : α → Span → (tokens : List Token) → Read (tokens.length + 1) β) :
    (read.andTail fun first => tail first.value first.last first.rest).Gives value last rest ↔
      ∃ first stop mid, read.Gives first stop mid ∧
        (tail first stop mid).Gives value last rest := by
  cases read with
  | fail failure =>
      refine iff_of_false not_gives_fail ?_
      rintro ⟨_, _, _, first, _⟩
      exact not_gives_fail first
  | ok reading =>
      rw [andTail, gives_widen_iff]
      constructor
      · exact fun behind => ⟨_, _, _, ⟨reading, rfl, rfl, rfl, rfl⟩, behind⟩
      · rintro ⟨_, _, _, ⟨_, same, rfl, rfl, rfl⟩, behind⟩
        cases same
        exact behind

end Read

namespace Grammar

open Read

/-- A condition in parentheses and a comparison cannot both be read where a parenthesis opens. -/
theorem comparison_ne_ok_of_paren_condition {first : Token} {rest : List Token}
    (opened : first.kind = .mark .leftParen) {group : Reading rest.length Cond}
    (grouped : parenCondition first rest = .ok group)
    (compared : Reading (first :: rest).length Cond) :
    comparison (first :: rest) ≠ .ok compared := by
  intro done
  rw [comparison] at done
  obtain ⟨left, took, _⟩ := and_then_eq_ok done
  obtain ⟨written, _⟩ := expression_ensures (first :: rest) left took
  obtain ⟨failure, fails⟩ := Cond.paren_condition_fails written opened left.value.unparse_starts.1
  rw [fails] at grouped
  cases grouped

theorem sign_gives_iff (mark : Mark) (tokens : List Token) {token : Token} {last : Span}
    {rest : List Token} :
    (sign mark tokens).Gives token last rest ↔
      tokens = token :: rest ∧ token.kind = .mark mark ∧ token.place.span = last := by
  cases tokens with
  | nil =>
      refine iff_of_false not_gives_fail ?_
      rintro ⟨same, _⟩
      cases same
  | cons first others =>
      rw [sign, Grammar.token]
      split
      · rename_i kind
        rw [gives_ok_iff]
        constructor
        · rintro ⟨rfl, rfl, rfl⟩
          exact ⟨rfl, kind, rfl⟩
        · rintro ⟨same, _, rfl⟩
          cases same
          exact ⟨rfl, rfl, rfl⟩
      · rename_i kind
        refine iff_of_false not_gives_fail ?_
        rintro ⟨same, found, _⟩
        cases same
        exact kind found

variable {cond : Cond} {last : Span} {rest : List Token}

theorem paren_condition_gives_iff (first : Token) (tokens : List Token) :
    (parenCondition first tokens).Gives cond last rest ↔
      ∃ inner stop close, (condition tokens).Gives inner stop (close :: rest) ∧
        close.kind = .mark .rightParen ∧ close.place.span = last ∧
        .paren inner (first.place.upTo last) = cond := by
  rw [parenCondition]
  cases condition tokens with
  | fail failure =>
      refine iff_of_false not_gives_fail ?_
      rintro ⟨_, _, _, inside, _⟩
      exact not_gives_fail inside
  | ok inner =>
      rw [Read.andThen, gives_widen_iff, gives_map_iff]
      constructor
      · rintro ⟨close, done, rfl, rfl, rfl⟩
        obtain ⟨behind, kind, span⟩ :=
          (sign_gives_iff .rightParen inner.rest).mp ⟨close, done, rfl, rfl, rfl⟩
        exact ⟨_, _, close.value, ⟨inner, rfl, rfl, rfl, behind⟩, kind, span, rfl⟩
      · rintro ⟨_, _, close, ⟨_, same, rfl, rfl, behind⟩, kind, rfl, rfl⟩
        cases same
        obtain ⟨reading, done, _, span, left⟩ :=
          (sign_gives_iff .rightParen inner.rest).mpr ⟨behind, kind, rfl⟩
        exact ⟨reading, done, by rw [span], span, left⟩

/-- No comparison starts with an exclamation mark. -/
theorem not_comparison_of_bang {first : Token} (bang : first.kind = .mark .bang)
    (behind : List Token) : ¬ (comparison (first :: behind)).Gives cond last rest := by
  rintro ⟨reading, done, _⟩
  rw [comparison] at done
  obtain ⟨left, took, _⟩ := and_then_eq_ok done
  obtain ⟨written, _⟩ := expression_ensures (first :: behind) left took
  rw [Token.kinds_cons, bang] at written
  exact left.value.unparse_starts.2 _ _ written.symm

/-- At an atom of a condition the alternatives are open: whichever can be read is read. -/
theorem condition_atom_gives_iff (first : Token) (behind : List Token) :
    (conditionAtom (first :: behind)).Gives cond last rest ↔
      (first.kind = .mark .bang ∧ ∃ inner, (condition behind).Gives inner last rest ∧
        .not inner (first.place.upTo last) = cond) ∨
      (first.kind = .mark .leftParen ∧ (parenCondition first behind).Gives cond last rest) ∨
      (comparison (first :: behind)).Gives cond last rest := by
  rw [conditionAtom]
  by_cases bang : first.kind = .mark .bang
  · rw [if_pos bang, gives_widen_iff, gives_map_iff]
    simp only [bang, TokenKind.mark.injEq, reduceCtorEq, not_comparison_of_bang bang, true_and,
      false_and, or_false]
    constructor
    · rintro ⟨reading, done, rfl, rfl, rfl⟩
      exact ⟨_, ⟨reading, done, rfl, rfl, rfl⟩, rfl⟩
    · rintro ⟨_, ⟨reading, done, rfl, rfl, rfl⟩, rfl⟩
      exact ⟨reading, done, rfl, rfl, rfl⟩
  · rw [if_neg bang]
    by_cases opened : first.kind = .mark .leftParen
    · rw [if_pos opened]
      simp only [opened, TokenKind.mark.injEq, reduceCtorEq, true_and, false_and, false_or]
      split
      · rename_i group grouped
        have noComparison : ¬ (comparison (first :: behind)).Gives cond last rest := by
          rintro ⟨compared, done, _⟩
          exact comparison_ne_ok_of_paren_condition opened grouped compared done
        rw [gives_widen_iff, grouped]
        simp only [noComparison, or_false]
      · rename_i failure failed
        rw [failed]
        simp only [not_gives_fail, false_or]
    · rw [if_neg opened]
      simp only [bang, opened, false_and, false_or]

end Grammar

inductive Connective where
  | or
  | and

namespace Connective

def keyword : Connective → Keyword
  | .or => .orWord
  | .and => .andWord

def join : Connective → Cond → Cond → Cond
  | .or => Cond.joinOr
  | .and => Cond.joinAnd

def chain : Connective → (tokens : List Token) → Read tokens.length Cond
  | .or => Grammar.condition
  | .and => Grammar.conjunction

def chainTail : Connective → Cond → Span → (tokens : List Token) → Read (tokens.length + 1) Cond
  | .or => Grammar.orTail
  | .and => Grammar.andTail

def link : Connective → (tokens : List Token) → Read tokens.length Cond
  | .or => Grammar.conjunction
  | .and => Grammar.conditionAtom

theorem chain_eq (connective : Connective) (tokens : List Token) :
    connective.chain tokens = (connective.link tokens).andTail fun first =>
      connective.chainTail first.value first.last first.rest := by
  cases connective with
  | or =>
      rw [chain, Grammar.condition]
      rfl
  | and =>
      rw [chain, Grammar.conjunction]
      rfl

variable (connective : Connective) (left : Cond) (last : Span)

theorem chain_tail_nil :
    connective.chainTail left last [] = .ok ⟨left, last, [], Reading.nothing_lt⟩ := by
  cases connective with
  | or => rw [chainTail, Grammar.orTail]
  | and => rw [chainTail, Grammar.andTail]

theorem chain_tail_cons (first : Token) (rest : List Token) :
    connective.chainTail left last (first :: rest) =
      if first.kind = .keyword connective.keyword then
        ((connective.link rest).andTail fun right =>
          connective.chainTail (connective.join left right.value) right.last right.rest).widen
            (Reading.behind_le_succ first rest)
      else .ok ⟨left, last, first :: rest, Reading.all_lt first rest⟩ := by
  cases connective with
  | or =>
      rw [chainTail, Grammar.orTail]
      rfl
  | and =>
      rw [chainTail, Grammar.andTail]
      rfl

def Follows (tokens : List Token) : Prop :=
  tokens.head?.map Token.kind = some (.keyword connective.keyword)

theorem follows_cons_iff (first : Token) (rest : List Token) :
    connective.Follows (first :: rest) ↔ first.kind = .keyword connective.keyword := by
  simp [Follows]

variable {cond : Cond} {stop : Span} {rest : List Token}

theorem chain_gives_iff (tokens : List Token) :
    (connective.chain tokens).Gives cond stop rest ↔
      ∃ first next mid, (connective.link tokens).Gives first next mid ∧
        (connective.chainTail first next mid).Gives cond stop rest := by
  rw [chain_eq]
  exact Read.gives_and_tail_iff connective.chainTail

/-- A chain goes on if the connective comes next, and only then. -/
theorem chain_tail_gives_iff (first : Token) (behind : List Token) :
    (connective.chainTail left last (first :: behind)).Gives cond stop rest ↔
      (first.kind ≠ .keyword connective.keyword ∧ left = cond ∧ last = stop ∧
        first :: behind = rest) ∨
      (first.kind = .keyword connective.keyword ∧ ∃ right next mid,
        (connective.link behind).Gives right next mid ∧
        (connective.chainTail (connective.join left right) next mid).Gives cond stop rest) := by
  rw [chain_tail_cons]
  by_cases goesOn : first.kind = .keyword connective.keyword
  · rw [if_pos goesOn, Read.gives_widen_iff]
    simp only [goesOn, ne_eq, not_true, false_and, false_or, true_and]
    exact Read.gives_and_tail_iff fun right => connective.chainTail (connective.join left right)
  · rw [if_neg goesOn, Read.gives_ok_iff]
    simp only [goesOn, ne_eq, not_false_eq_true, true_and, false_and, or_false]

end Connective

inductive CondPart where
  | chain (connective : Connective)
  /-- What may follow in a chain that has been read as `left`, up to `last`. -/
  | tail (connective : Connective) (left : Cond) (last : Span)
  | atom

def Connective.linkPart : Connective → CondPart
  | .or => .chain .and
  | .and => .atom

def Connective.level : Connective → Nat
  | .or => 2
  | .and => 1

/-- How far a part is above an atom that starts at the same token. -/
def CondPart.level : CondPart → Nat
  | .chain connective => connective.level
  | .tail _ _ _ | .atom => 0

theorem CondPart.level_tail (connective : Connective) (left : Cond) (before : Span) :
    (CondPart.tail connective left before).level = 0 :=
  rfl

theorem Connective.level_link_part_lt (connective : Connective) :
    connective.linkPart.level < (CondPart.chain connective).level := by
  cases connective <;> decide

theorem Connective.level_le (connective : Connective) :
    (CondPart.chain connective).level ≤ 2 := by
  cases connective <;> decide

/-- Which of the alternatives a reader follows where a parenthesis opens. It may follow both. -/
structure Choice where
  group : Token → List Token → Prop
  comparison : Token → List Token → Prop

namespace Choice

/-- An alternative is given up only where the other one can be read. -/
structure Fair (choice : Choice) : Prop where
  group : ∀ opening behind, opening.kind = .mark .leftParen →
    (∀ compared, Grammar.comparison (opening :: behind) ≠ .ok compared) →
      choice.group opening behind
  comparison : ∀ opening behind, opening.kind = .mark .leftParen →
    (∀ grouped, Grammar.parenCondition opening behind ≠ .ok grouped) →
      choice.comparison opening behind

def both : Choice where
  group := fun _ _ => True
  comparison := fun _ _ => True

/-- The other order: a comparison first, and a condition in parentheses only if that fails. -/
def comparisonFirst : Choice where
  group := fun opening behind =>
    ∀ compared, Grammar.comparison (opening :: behind) ≠ .ok compared
  comparison := fun _ _ => True

theorem fair_both : both.Fair :=
  ⟨fun _ _ _ _ => trivial, fun _ _ _ _ => trivial⟩

theorem fair_comparison_first : comparisonFirst.Fair :=
  ⟨fun _ _ _ failed => failed, fun _ _ _ _ => trivial⟩

end Choice

/-- A condition that can be read from the front of the tokens, where it ends and what is left, if
the alternatives at a parenthesis are chosen in this way. -/
inductive MayRead (choice : Choice) : CondPart → List Token → Cond → Span → List Token → Prop
  | chain {connective : Connective} {tokens mid rest : List Token} {first cond : Cond}
      {next last : Span} : MayRead choice connective.linkPart tokens first next mid →
      MayRead choice (.tail connective first next) mid cond last rest →
      MayRead choice (.chain connective) tokens cond last rest
  | stop {connective : Connective} {tokens : List Token} {left : Cond} {last : Span} :
      ¬ connective.Follows tokens →
      MayRead choice (.tail connective left last) tokens left last tokens
  | more {connective : Connective} {keyword : Token} {tokens mid rest : List Token}
      {left right cond : Cond} {before next last : Span} :
      keyword.kind = .keyword connective.keyword →
      MayRead choice connective.linkPart tokens right next mid →
      MayRead choice (.tail connective (connective.join left right) next) mid cond last rest →
      MayRead choice (.tail connective left before) (keyword :: tokens) cond last rest
  | not {bang : Token} {tokens rest : List Token} {inner : Cond} {last : Span} :
      bang.kind = .mark .bang → MayRead choice (.chain .or) tokens inner last rest →
      MayRead choice .atom (bang :: tokens) (.not inner (bang.place.upTo last)) last rest
  | group {opening close : Token} {tokens rest : List Token} {inner : Cond} {last : Span} :
      opening.kind = .mark .leftParen →
      MayRead choice (.chain .or) tokens inner last (close :: rest) →
      close.kind = .mark .rightParen → choice.group opening tokens →
      MayRead choice .atom (opening :: tokens) (.paren inner (opening.place.upTo close.place.span))
        close.place.span rest
  | comparison {tokens rest : List Token} {cond : Cond} {last : Span} :
      (Grammar.comparison tokens).Gives cond last rest →
      (∀ opening behind, tokens = opening :: behind → opening.kind = .mark .leftParen →
        choice.comparison opening behind) →
      MayRead choice .atom tokens cond last rest

namespace CondPart

/-- What a part is read as, with the alternatives tried in their order. -/
def Gives (tokens : List Token) (cond : Cond) (last : Span) (rest : List Token) : CondPart → Prop
  | .chain connective => (connective.chain tokens).Gives cond last rest
  | .tail connective left before => (connective.chainTail left before tokens).Gives cond last rest
  | .atom => (Grammar.conditionAtom tokens).Gives cond last rest

theorem gives_link_part {connective : Connective} {tokens : List Token} {cond : Cond} {last : Span}
    {rest : List Token} :
    connective.linkPart.Gives tokens cond last rest ↔
      (connective.link tokens).Gives cond last rest := by
  cases connective <;> exact Iff.rfl

end CondPart

namespace MayRead

variable {choice : Choice} {part : CondPart} {tokens rest : List Token} {cond : Cond} {last : Span}

/-- Whatever choices lead to a reading, the one that is made leads to it too. -/
theorem gives (may : MayRead choice part tokens cond last rest) :
    part.Gives tokens cond last rest := by
  induction may with
  | chain _ _ first behind =>
      exact (Connective.chain_gives_iff _ _).mpr
        ⟨_, _, _, CondPart.gives_link_part.mp first, behind⟩
  | @stop connective tokens left last stops =>
      cases tokens with
      | nil =>
          rw [CondPart.Gives, Connective.chain_tail_nil, Read.gives_ok_iff]
          exact ⟨rfl, rfl, rfl⟩
      | cons first behind =>
          rw [Connective.follows_cons_iff] at stops
          exact (Connective.chain_tail_gives_iff _ _ _ _ _).mpr (.inl ⟨stops, rfl, rfl, rfl⟩)
  | more goesOn _ _ right behind =>
      exact (Connective.chain_tail_gives_iff _ _ _ _ _).mpr
        (.inr ⟨goesOn, _, _, _, CondPart.gives_link_part.mp right, behind⟩)
  | not bang _ inner =>
      exact (Grammar.condition_atom_gives_iff _ _).mpr (.inl ⟨bang, _, inner, rfl⟩)
  | group opened _ closed _ inner =>
      refine (Grammar.condition_atom_gives_iff _ _).mpr (.inr (.inl ⟨opened, ?_⟩))
      exact (Grammar.paren_condition_gives_iff _ _).mpr ⟨_, _, _, inner, closed, rfl, rfl⟩
  | @comparison tokens _ _ _ compared _ =>
      cases tokens with
      | nil =>
          rw [CondPart.Gives, Grammar.conditionAtom]
          exact compared
      | cons first behind =>
          exact (Grammar.condition_atom_gives_iff _ _).mpr (.inr (.inr compared))

/-- The reading that is made is one that every fair choice leads to. -/
theorem of_gives (fair : choice.Fair) (gives : part.Gives tokens cond last rest) :
    MayRead choice part tokens cond last rest := by
  -- A part calls parts behind a token that was taken, and at the same token only lower ones.
  induction size : 3 * tokens.length + part.level using Nat.strongRecOn
    generalizing part tokens cond last rest with
  | ind size ih =>
      subst size
      cases part with
      | chain connective =>
          obtain ⟨first, next, mid, link, behind⟩ := (connective.chain_gives_iff tokens).mp gives
          have shorter := link.shorter
          have lower := connective.level_link_part_lt
          have front := ih _ (by omega) (CondPart.gives_link_part.mpr link) rfl
          exact .chain front (ih _ (by rw [CondPart.level_tail]; omega) behind rfl)
      | tail connective left before =>
          cases tokens with
          | nil =>
              rw [CondPart.Gives, Connective.chain_tail_nil, Read.gives_ok_iff] at gives
              obtain ⟨rfl, rfl, rfl⟩ := gives
              refine .stop ?_
              intro follows
              cases follows
          | cons first others =>
              rcases (connective.chain_tail_gives_iff left before first others).mp gives with
                ⟨other, rfl, rfl, rfl⟩ | ⟨goesOn, right, next, mid, link, behind⟩
              · refine .stop ?_
                rw [Connective.follows_cons_iff]
                exact other
              · have shorter := link.shorter
                have lower := connective.level_link_part_lt
                have level := connective.level_le
                have operand := ih _ (by rw [List.length_cons]; omega)
                  (CondPart.gives_link_part.mpr link) rfl
                refine .more goesOn operand (ih _ ?_ behind rfl)
                rw [CondPart.level_tail, List.length_cons]
                omega
      | atom =>
          cases tokens with
          | nil =>
              rw [CondPart.Gives, Grammar.conditionAtom] at gives
              exact .comparison gives (by intro _ _ same; cases same)
          | cons first behind =>
              have level := Connective.or.level_le
              rcases (Grammar.condition_atom_gives_iff first behind).mp gives with
                ⟨bang, inner, inside, rfl⟩ | ⟨opened, grouped⟩ | compared
              · refine .not bang (ih _ ?_ inside rfl)
                rw [List.length_cons]
                omega
              · obtain ⟨inner, stop, close, inside, closed, rfl, rfl⟩ :=
                  (Grammar.paren_condition_gives_iff first behind).mp grouped
                obtain ⟨group, done, _⟩ := grouped
                refine .group opened (ih _ ?_ inside rfl) closed (fair.group first behind opened
                  (Grammar.comparison_ne_ok_of_paren_condition opened done))
                rw [List.length_cons]
                omega
              · refine .comparison compared ?_
                intro opening others same opened
                cases same
                apply fair.comparison first behind opened
                intro group grouped
                obtain ⟨reading, done, _⟩ := compared
                exact Grammar.comparison_ne_ok_of_paren_condition opened grouped reading done

end MayRead

namespace Attempt

variable {tokens : List Token} {α : Type} {bound wider : Nat} {attempt : Attempt tokens bound α}
  {value : α} {last : Span} {rest : List Token}

/-- The attempt succeeds with this value, takes `last` last and leaves `rest`. -/
def Gives (attempt : Attempt tokens bound α) (value : α) (last : Span) (rest : List Token) :
    Prop :=
  ∃ move, attempt = .done move ∧ move.value = value ∧ move.cursor.previous = last ∧
    move.cursor.rest = rest

theorem gives_done_iff {move : Move tokens bound α} :
    (Attempt.done move).Gives value last rest ↔
      move.value = value ∧ move.cursor.previous = last ∧ move.cursor.rest = rest := by
  constructor
  · rintro ⟨_, same, told⟩
    cases same
    exact told
  · exact fun told => ⟨move, rfl, told⟩

theorem not_gives_failed {error : SyntaxError} {cursor : Cursor tokens} :
    ¬ (Attempt.failed error cursor : Attempt tokens bound α).Gives value last rest := by
  rintro ⟨_, same, _⟩
  cases same

instance [DecidableEq α] : Decidable (attempt.Gives value last rest) :=
  match attempt with
  | .done _ => decidable_of_iff _ gives_done_iff.symm
  | .failed _ _ => .isFalse not_gives_failed

namespace Follows

variable {read : Read wider α}

theorem gives_iff (follows : Follows asIs attempt read) :
    attempt.Gives value last rest ↔ read.Gives value last rest := by
  cases follows with
  | done move shorter => rw [gives_done_iff, Read.gives_ok_iff, asIs]
  | failed expected cursor => exact iff_of_false not_gives_failed Read.not_gives_fail

theorem exists_ok {move : Move tokens bound α} (follows : Follows asIs attempt read)
    (done : attempt = .done move) : ∃ reading, read = .ok reading := by
  cases follows with
  | done move shorter => exact ⟨_, rfl⟩
  | failed expected cursor => cases done

end Follows

end Attempt

/-- Where a parenthesis opens, a condition in parentheses and a comparison are never both there, and
so conditions are parsed alike, tree by tree, however the two are chosen between. -/
theorem Cursor.parenthesis_choice_free {tokens : List Token} (cursor : Cursor tokens) :
    (cursor.current.kind = .mark .leftParen →
      ¬ ∃ group compared, cursor.parenCondition = .done group ∧
        cursor.comparison = .done compared) ∧
    ∀ choice : Choice, choice.Fair → ∀ cond last rest,
      cursor.condition.Gives cond last rest ↔
        MayRead choice (.chain .or) cursor.rest cond last rest := by
  constructor
  · rintro opened ⟨group, compared, grouped, done⟩
    obtain ⟨inside, read⟩ := (cursor.paren_condition_follows opened).exists_ok grouped
    have follows := cursor.comparison_follows
    rw [rest_eq_cons opened TokenKind.noConfusion] at follows
    obtain ⟨whole, compares⟩ := follows.exists_ok done
    exact Grammar.comparison_ne_ok_of_paren_condition opened read _ compares
  · intro choice fair cond last rest
    rw [cursor.condition_follows.gives_iff]
    constructor
    · intro gives
      have whole : (CondPart.chain .or).Gives cursor.rest cond last rest := gives
      exact MayRead.of_gives fair whole
    · intro may
      exact may.gives

namespace Cursor

/-- Two parentheses open here, the first one around a condition, the second around an operand. -/
def operandInGroup : List Token :=
  [⟨.mark .leftParen, ⟨⟨0, 1⟩, ⟨1, 1⟩⟩⟩, ⟨.mark .leftParen, ⟨⟨1, 2⟩, ⟨1, 2⟩⟩⟩,
    ⟨.identifier "a", ⟨⟨2, 3⟩, ⟨1, 3⟩⟩⟩, ⟨.mark .rightParen, ⟨⟨3, 4⟩, ⟨1, 4⟩⟩⟩,
    ⟨.mark .less, ⟨⟨4, 5⟩, ⟨1, 5⟩⟩⟩, ⟨.integer "1", ⟨⟨5, 6⟩, ⟨1, 6⟩⟩⟩,
    ⟨.mark .rightParen, ⟨⟨6, 7⟩, ⟨1, 7⟩⟩⟩]

def comparisonInGroup : Cond :=
  .compare .less ⟨1, 5⟩ (.paren (.identifier "a" ⟨⟨2, 3⟩, ⟨1, 3⟩⟩) ⟨⟨1, 4⟩, ⟨1, 2⟩⟩)
    (.integer "1" ⟨⟨5, 6⟩, ⟨1, 6⟩⟩) ⟨⟨1, 6⟩, ⟨1, 2⟩⟩

/-- At the second parenthesis, with some other span taken before it than that of the first. -/
def behindFirst : Cursor operandInGroup :=
  ⟨1, ⟨8, 9⟩, by decide⟩

theorem parenthesis_choice_free_operand_in_group :
    MayRead .comparisonFirst (.chain .or) operandInGroup
      (.paren comparisonInGroup ⟨⟨0, 7⟩, ⟨1, 1⟩⟩) ⟨6, 7⟩ [] ∧
    MayRead .both (.chain .or) operandInGroup
      (.paren comparisonInGroup ⟨⟨0, 7⟩, ⟨1, 1⟩⟩) ⟨6, 7⟩ [] ∧
    behindFirst.comparison.Gives comparisonInGroup ⟨5, 6⟩ (operandInGroup.drop 6) ∧
    ∀ group, behindFirst.parenCondition ≠ .done group := by
  have parsed : (Cursor.start operandInGroup).condition.Gives
      (.paren comparisonInGroup ⟨⟨0, 7⟩, ⟨1, 1⟩⟩) ⟨6, 7⟩ [] := by
    decide +kernel
  have compares : behindFirst.comparison.Gives comparisonInGroup ⟨5, 6⟩
      (operandInGroup.drop 6) := by
    decide +kernel
  have free := (parenthesis_choice_free (Cursor.start operandInGroup)).2
  refine ⟨(free _ Choice.fair_comparison_first _ _ _).mp parsed,
    (free _ Choice.fair_both _ _ _).mp parsed, compares, ?_⟩
  intro group grouped
  obtain ⟨compared, done, _⟩ := compares
  exact (parenthesis_choice_free behindFirst).1 rfl ⟨group, compared, grouped, done⟩

end Cursor

end ThreeAddress
