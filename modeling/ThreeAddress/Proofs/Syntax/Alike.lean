import ThreeAddress.Proofs.Syntax.Readings
import ThreeAddress.Proofs.Grammar.Refinement

/-!
# Reading does not look at places

Two token lists of the same kinds are read alike: both readings succeed with trees that differ in
their places alone, or both fail with the same expectation at tokens of the same kinds.
-/

namespace ThreeAddress

set_option autoImplicit false

namespace Read

variable {α β γ δ : Type} {bound wider other broader : Nat}

/-- Two readings end alike, as far as `view` shows what they read. -/
inductive Alike (view : α → γ) : Read bound α → Read other α → Prop
  | done {first : Reading bound α} {second : Reading other α} :
      view first.value = view second.value →
      Token.kinds first.rest = Token.kinds second.rest → Alike view (.ok first) (.ok second)
  | failed {first second : Failure} :
      first.expected = second.expected → Token.kinds first.rest = Token.kinds second.rest →
      Alike view (.fail first) (.fail second)

namespace Alike

variable {view : α → γ} {left : Read bound α} {right : Read other α}

theorem widen (alike : Alike view left right) (within : bound ≤ wider) (inside : other ≤ broader) :
    Alike view (left.widen within) (right.widen inside) := by
  cases alike with
  | done value rest => exact .done value rest
  | failed expected rest => exact .failed expected rest

theorem map {shown : β → δ} {f : Reading bound α → β} {g : Reading other α → β}
    (alike : Alike view left right)
    (follows : ∀ first second, view first.value = view second.value →
      shown (f first) = shown (g second)) :
    Alike shown (left.map f) (right.map g) := by
  cases alike with
  | done value rest => exact .done (follows _ _ value) rest
  | failed expected rest => exact .failed expected rest

theorem and_then {shown : β → δ} {next : (reading : Reading bound α) → Read reading.rest.length β}
    {further : (reading : Reading other α) → Read reading.rest.length β}
    (alike : Alike view left right)
    (follows : ∀ first second, view first.value = view second.value →
      Token.kinds first.rest = Token.kinds second.rest →
      Alike shown (next first) (further second)) :
    Alike shown (left.andThen next) (right.andThen further) := by
  cases alike with
  | @done first second value rest =>
      exact (follows first second value rest).widen (Nat.le_of_lt first.shorter)
        (Nat.le_of_lt second.shorter)
  | failed expected rest => exact .failed expected rest

theorem and_tail {shown : β → δ}
    {next : (reading : Reading bound α) → Read (reading.rest.length + 1) β}
    {further : (reading : Reading other α) → Read (reading.rest.length + 1) β}
    (alike : Alike view left right)
    (follows : ∀ first second, view first.value = view second.value →
      Token.kinds first.rest = Token.kinds second.rest →
      Alike shown (next first) (further second)) :
    Alike shown (left.andTail next) (right.andTail further) := by
  cases alike with
  | @done first second value rest =>
      exact (follows first second value rest).widen first.shorter second.shorter
  | failed expected rest => exact .failed expected rest

end Alike

end Read

namespace Grammar

open Read

section

variable {tokens others : List Token}

/-- A reading that goes by the kind of the first token. -/
theorem alike_of_first {α γ : Type} {view : α → γ}
    {read : (tokens : List Token) → Read tokens.length α}
    (same : Token.kinds tokens = Token.kinds others) (nothing : Alike view (read []) (read []))
    (decides : ∀ first twin rest behind, twin.kind = first.kind →
      Token.kinds rest = Token.kinds behind →
      Token.kinds (first :: rest) = Token.kinds (twin :: behind) →
      Alike view (read (first :: rest)) (read (twin :: behind))) :
    Alike view (read tokens) (read others) := by
  cases tokens with
  | nil =>
      cases List.map_eq_nil_iff.mp same.symm
      exact nothing
  | cons first rest =>
      obtain ⟨twin, behind, rfl, kind, sameRest⟩ := Token.exists_of_kinds_eq_cons same.symm
      exact decides first twin rest behind kind sameRest.symm same

theorem token_alike (kind : TokenKind) (same : Token.kinds tokens = Token.kinds others) :
    Alike Token.kind (token kind tokens) (token kind others) := by
  refine alike_of_first same (.failed rfl rfl) fun first twin rest behind kinds sameRest same => ?_
  rw [token, token, kinds]
  split
  · exact .done kinds.symm sameRest
  · exact .failed rfl same

theorem sign_alike (mark : Mark) (same : Token.kinds tokens = Token.kinds others) :
    Alike Token.kind (sign mark tokens) (sign mark others) :=
  token_alike _ same

theorem word_alike (keyword : Keyword) (same : Token.kinds tokens = Token.kinds others) :
    Alike Token.kind (word keyword tokens) (word keyword others) :=
  token_alike _ same

theorem ident_alike (same : Token.kinds tokens = Token.kinds others) :
    Alike Ident.unplaced (ident tokens) (ident others) := by
  refine alike_of_first same (.failed rfl rfl) fun first twin rest behind kinds sameRest same => ?_
  rw [ident, ident, kinds]
  split
  · exact .done rfl sameRest
  · exact .failed rfl same

theorem data_type_alike (same : Token.kinds tokens = Token.kinds others) :
    Alike id (dataType tokens) (dataType others) := by
  refine alike_of_first same (.failed rfl rfl) fun first twin rest behind kinds sameRest same => ?_
  rw [dataType, dataType, kinds]
  split
  · exact .done rfl sameRest
  · exact .done rfl sameRest
  · exact .failed rfl same

theorem array_size_alike (same : Token.kinds tokens = Token.kinds others) :
    Alike Prod.fst (arraySize tokens) (arraySize others) := by
  refine alike_of_first same (.failed rfl rfl) fun first twin rest behind kinds sameRest same => ?_
  rw [arraySize, arraySize, kinds]
  split
  · exact .done rfl sameRest
  · exact .failed rfl same

theorem compare_op_alike (same : Token.kinds tokens = Token.kinds others) :
    Alike Prod.fst (compareOp tokens) (compareOp others) := by
  refine alike_of_first same (.failed rfl rfl) fun first twin rest behind kinds sameRest same => ?_
  rw [compareOp, compareOp, kinds]
  split
  · exact .done rfl sameRest
  · exact .failed rfl same

end

/-! ## Expressions -/

mutual

theorem expression_alike (tokens others : List Token)
    (same : Token.kinds tokens = Token.kinds others) :
    Alike Expr.unplaced (expression tokens) (expression others) := by
  rw [expression, expression]
  exact (product_alike tokens others same).and_tail fun first second value rest =>
    sum_tail_alike value rest
termination_by 6 * tokens.length + 4
decreasing_by
  · omega
  · have := first.shorter
    omega

theorem sum_tail_alike {left twin : Expr} {last ending : Span} {tokens others : List Token}
    (value : left.unplaced = twin.unplaced) (same : Token.kinds tokens = Token.kinds others) :
    Alike Expr.unplaced (sumTail left last tokens) (sumTail twin ending others) := by
  match tokens with
  | [] =>
      cases List.map_eq_nil_iff.mp same.symm
      rw [sumTail, sumTail]
      exact .done value rfl
  | first :: rest =>
      obtain ⟨other, behind, rfl, kind, sameRest⟩ := Token.exists_of_kinds_eq_cons same.symm
      rw [sumTail, sumTail, kind]
      split
      · exact .done value same
      · rename_i op _
        refine .widen ?_ _ _
        refine (product_alike rest behind sameRest.symm).and_tail
          fun right second operand further => ?_
        exact sum_tail_alike (by simp only [Expr.join, Expr.unplaced, value, operand]) further
termination_by 6 * tokens.length + 5
decreasing_by
  all_goals simp only [List.length_cons]
  · omega
  · have := right.shorter
    omega

theorem product_alike (tokens others : List Token)
    (same : Token.kinds tokens = Token.kinds others) :
    Alike Expr.unplaced (product tokens) (product others) := by
  rw [product, product]
  exact (unary_alike tokens others same).and_tail fun first second value rest =>
    product_tail_alike value rest
termination_by 6 * tokens.length + 2
decreasing_by
  · omega
  · have := first.shorter
    omega

theorem product_tail_alike {left twin : Expr} {last ending : Span} {tokens others : List Token}
    (value : left.unplaced = twin.unplaced) (same : Token.kinds tokens = Token.kinds others) :
    Alike Expr.unplaced (productTail left last tokens) (productTail twin ending others) := by
  match tokens with
  | [] =>
      cases List.map_eq_nil_iff.mp same.symm
      rw [productTail, productTail]
      exact .done value rfl
  | first :: rest =>
      obtain ⟨other, behind, rfl, kind, sameRest⟩ := Token.exists_of_kinds_eq_cons same.symm
      rw [productTail, productTail, kind]
      split
      · exact .done value same
      · rename_i op _
        refine .widen ?_ _ _
        refine (unary_alike rest behind sameRest.symm).and_tail
          fun right second operand further => ?_
        exact product_tail_alike (by simp only [Expr.join, Expr.unplaced, value, operand]) further
termination_by 6 * tokens.length + 3
decreasing_by
  all_goals simp only [List.length_cons]
  · omega
  · have := right.shorter
    omega

theorem unary_alike (tokens others : List Token)
    (same : Token.kinds tokens = Token.kinds others) :
    Alike Expr.unplaced (unary tokens) (unary others) := by
  match tokens with
  | [] =>
      cases List.map_eq_nil_iff.mp same.symm
      rw [unary]
      exact .failed rfl rfl
  | first :: rest =>
      obtain ⟨twin, behind, rfl, kind, sameRest⟩ := Token.exists_of_kinds_eq_cons same.symm
      rw [unary, unary, kind]
      split
      · refine .widen ?_ _ _
        exact (unary_alike rest behind sameRest.symm).map fun operand second value => by
          simp only [Expr.unplaced, value]
      · exact atom_alike (first :: rest) (twin :: behind) same
termination_by 6 * tokens.length + 1
decreasing_by
  all_goals
    simp only [List.length_cons]
    omega

theorem atom_alike (tokens others : List Token)
    (same : Token.kinds tokens = Token.kinds others) :
    Alike Expr.unplaced (atom tokens) (atom others) := by
  match tokens with
  | [] =>
      cases List.map_eq_nil_iff.mp same.symm
      rw [atom]
      exact .failed rfl rfl
  | first :: rest =>
      obtain ⟨twin, behind, rfl, kind, sameRest⟩ := Token.exists_of_kinds_eq_cons same.symm
      rw [atom.eq_def, atom.eq_def]
      simp only [kind]
      split
      · exact .done rfl sameRest.symm
      · exact .done rfl sameRest.symm
      · rename_i name named
        cases opening : rest with
        | nil =>
            rw [opening] at sameRest
            cases List.map_eq_nil_iff.mp sameRest
            exact .done rfl rfl
        | cons bracket inside =>
            rw [opening] at sameRest
            obtain ⟨other, within, rfl, shape, sameInside⟩ :=
              Token.exists_of_kinds_eq_cons sameRest
            simp only [shape]
            split
            · refine .widen ?_ _ _
              refine (expression_alike inside within sameInside.symm).and_then
                fun index second value further => (sign_alike .rightBracket further).map
                  fun close other _ => ?_
              simp only [Expr.unplaced, Ident.unplaced, value]
            · exact .done rfl sameRest.symm
      · refine .widen ?_ _ _
        refine (expression_alike rest behind sameRest.symm).and_then
          fun inner second value further => (sign_alike .rightParen further).map
            fun close other _ => ?_
        simp only [Expr.unplaced, value]
      · exact .failed rfl same
termination_by 6 * tokens.length
decreasing_by
  · rw [opening]
    simp only [List.length_cons]
    omega
  · simp only [List.length_cons]
    omega

end

/-! ## Conditions -/

theorem comparison_alike {tokens others : List Token}
    (same : Token.kinds tokens = Token.kinds others) :
    Alike Cond.unplaced (comparison tokens) (comparison others) := by
  rw [comparison, comparison]
  refine (expression_alike tokens others same).and_then fun left twin first further =>
    (compare_op_alike further).and_then fun op sign compared remaining =>
      (expression_alike op.rest sign.rest remaining).map fun right other second => ?_
  simp only [Cond.unplaced, first, compared, second]

mutual

theorem condition_alike (tokens others : List Token)
    (same : Token.kinds tokens = Token.kinds others) :
    Alike Cond.unplaced (condition tokens) (condition others) := by
  rw [condition, condition]
  exact (conjunction_alike tokens others same).and_tail fun first second value rest =>
    or_tail_alike value rest
termination_by 6 * tokens.length + 4
decreasing_by
  · omega
  · have := first.shorter
    omega

theorem or_tail_alike {left twin : Cond} {last ending : Span} {tokens others : List Token}
    (value : left.unplaced = twin.unplaced) (same : Token.kinds tokens = Token.kinds others) :
    Alike Cond.unplaced (orTail left last tokens) (orTail twin ending others) := by
  match tokens with
  | [] =>
      cases List.map_eq_nil_iff.mp same.symm
      rw [orTail, orTail]
      exact .done value rfl
  | first :: rest =>
      obtain ⟨other, behind, rfl, kind, sameRest⟩ := Token.exists_of_kinds_eq_cons same.symm
      rw [orTail, orTail, kind]
      split
      · refine .widen ?_ _ _
        refine (conjunction_alike rest behind sameRest.symm).and_tail
          fun right second operand further => ?_
        exact or_tail_alike (by simp only [Cond.joinOr, Cond.unplaced, value, operand]) further
      · exact .done value same
termination_by 6 * tokens.length + 5
decreasing_by
  all_goals simp only [List.length_cons]
  · omega
  · have := right.shorter
    omega

theorem conjunction_alike (tokens others : List Token)
    (same : Token.kinds tokens = Token.kinds others) :
    Alike Cond.unplaced (conjunction tokens) (conjunction others) := by
  rw [conjunction, conjunction]
  exact (condition_atom_alike tokens others same).and_tail fun first second value rest =>
    and_tail_alike value rest
termination_by 6 * tokens.length + 2
decreasing_by
  · omega
  · have := first.shorter
    omega

theorem and_tail_alike {left twin : Cond} {last ending : Span} {tokens others : List Token}
    (value : left.unplaced = twin.unplaced) (same : Token.kinds tokens = Token.kinds others) :
    Alike Cond.unplaced (andTail left last tokens) (andTail twin ending others) := by
  match tokens with
  | [] =>
      cases List.map_eq_nil_iff.mp same.symm
      rw [andTail, andTail]
      exact .done value rfl
  | first :: rest =>
      obtain ⟨other, behind, rfl, kind, sameRest⟩ := Token.exists_of_kinds_eq_cons same.symm
      rw [andTail, andTail, kind]
      split
      · refine .widen ?_ _ _
        refine (condition_atom_alike rest behind sameRest.symm).and_tail
          fun right second operand further => ?_
        exact and_tail_alike (by simp only [Cond.joinAnd, Cond.unplaced, value, operand]) further
      · exact .done value same
termination_by 6 * tokens.length + 3
decreasing_by
  all_goals simp only [List.length_cons]
  · omega
  · have := right.shorter
    omega

theorem condition_atom_alike (tokens others : List Token)
    (same : Token.kinds tokens = Token.kinds others) :
    Alike Cond.unplaced (conditionAtom tokens) (conditionAtom others) := by
  match tokens with
  | [] =>
      cases List.map_eq_nil_iff.mp same.symm
      rw [conditionAtom]
      exact comparison_alike rfl
  | first :: rest =>
      obtain ⟨twin, behind, rfl, kind, sameRest⟩ := Token.exists_of_kinds_eq_cons same.symm
      rw [conditionAtom, conditionAtom, kind]
      split
      · refine .widen ?_ _ _
        exact (condition_alike rest behind sameRest.symm).map fun inner second value => by
          simp only [Cond.unplaced, value]
      · split
        -- Both try the condition in parentheses, and both succeed with it or neither does.
        · have inside := paren_condition_alike first twin rest behind sameRest.symm
          generalize parenCondition first rest = one at inside ⊢
          generalize parenCondition twin behind = two at inside ⊢
          cases inside with
          | done value further => exact Alike.widen (.done value further) _ _
          | failed _ _ => exact comparison_alike same
        · exact comparison_alike same
termination_by 6 * tokens.length
decreasing_by
  all_goals
    simp only [List.length_cons]
    omega

theorem paren_condition_alike (first twin : Token) (tokens others : List Token)
    (same : Token.kinds tokens = Token.kinds others) :
    Alike Cond.unplaced (parenCondition first tokens) (parenCondition twin others) := by
  rw [parenCondition, parenCondition]
  refine (condition_alike tokens others same).and_then fun inner second value further =>
    (sign_alike .rightParen further).map fun close other _ => ?_
  simp only [Cond.unplaced, value]
termination_by 6 * tokens.length + 5
decreasing_by omega

end

/-! ## Statements -/

section

variable {tokens others : List Token}

theorem declared_type_alike (first twin : Token) {name other : Ident}
    (named : name.unplaced = other.unplaced) (same : Token.kinds tokens = Token.kinds others) :
    Alike Stmt.unplaced (declaredType first name tokens) (declaredType twin other others) := by
  cases tokens with
  | nil =>
      cases List.map_eq_nil_iff.mp same.symm
      exact .failed rfl rfl
  | cons bracket inside =>
      obtain ⟨opening, within, rfl, kind, sameInside⟩ := Token.exists_of_kinds_eq_cons same.symm
      rw [declaredType, declaredType, kind]
      split
      · refine .widen ?_ _ _
        refine (data_type_alike sameInside.symm).and_then fun element _ typed further =>
          (sign_alike .semicolon further).and_then fun divider _ _ further =>
            (array_size_alike further).and_then fun size _ sized further =>
              (sign_alike .rightBracket further).and_then fun close _ _ further =>
                (sign_alike .semicolon further).map fun stop _ _ => ?_
        simp only [id] at typed
        simp only [Stmt.unplaced, named, typed, sized]
      · refine (data_type_alike same).and_then fun type _ typed further =>
          (sign_alike .semicolon further).map fun stop _ _ => ?_
        simp only [id] at typed
        simp only [Stmt.unplaced, named, typed]

theorem declaration_alike (first twin : Token) (same : Token.kinds tokens = Token.kinds others) :
    Alike Stmt.unplaced (declaration first tokens) (declaration twin others) := by
  rw [declaration, declaration]
  exact (ident_alike same).and_then fun name _ named further =>
    (sign_alike .colon further).and_then fun colon _ _ further =>
      declared_type_alike first twin named further

theorem constant_declaration_alike (first twin : Token)
    (same : Token.kinds tokens = Token.kinds others) :
    Alike Stmt.unplaced (constantDeclaration first tokens) (constantDeclaration twin others) := by
  rw [constantDeclaration, constantDeclaration]
  refine (word_alike .constWord same).and_then fun const _ _ further =>
    (ident_alike further).and_then fun name _ named further =>
      (sign_alike .colon further).and_then fun colon _ _ further =>
        (data_type_alike further).and_then fun type _ typed further =>
          (sign_alike .equal further).and_then fun equal _ _ further =>
            (expression_alike _ _ further).and_then fun value _ computed further =>
              (sign_alike .semicolon further).map fun stop _ _ => ?_
  simp only [id] at typed
  simp only [Stmt.unplaced, named, typed, computed]

theorem assignment_alike (first twin : Token) (name : String)
    (same : Token.kinds tokens = Token.kinds others) :
    Alike Stmt.unplaced (assignment first name tokens) (assignment twin name others) := by
  rw [assignment, assignment]
  refine (sign_alike .colonEqual same).and_then fun becomes _ _ further =>
    (expression_alike _ _ further).and_then fun value _ computed further =>
      (sign_alike .semicolon further).map fun stop _ _ => ?_
  simp only [Stmt.unplaced, Ident.unplaced, computed]

theorem input_alike (first twin : Token) (same : Token.kinds tokens = Token.kinds others) :
    Alike Stmt.unplaced (input first tokens) (input twin others) := by
  rw [input, input]
  refine (sign_alike .leftParen same).and_then fun lparen _ _ further =>
    (ident_alike further).and_then fun target _ named further =>
      (sign_alike .rightParen further).and_then fun rparen _ _ further =>
        (sign_alike .semicolon further).map fun stop _ _ => ?_
  simp only [Stmt.unplaced, named]

end

theorem comma_names_alike {last ending : Span} {tokens others : List Token}
    (same : Token.kinds tokens = Token.kinds others) :
    Alike (List.map Ident.unplaced) (commaNames last tokens) (commaNames ending others) := by
  match tokens with
  | [] =>
      cases List.map_eq_nil_iff.mp same.symm
      rw [commaNames, commaNames]
      exact .done rfl rfl
  | comma :: rest =>
      obtain ⟨other, behind, rfl, kind, sameRest⟩ := Token.exists_of_kinds_eq_cons same.symm
      rw [commaNames, commaNames, kind]
      split
      · refine .widen ?_ _ _
        refine (ident_alike sameRest.symm).and_tail fun name _ named further =>
          (comma_names_alike further).map fun names _ listed => ?_
        simp only [List.map_cons, named, listed]
      · exact .done rfl same
termination_by tokens.length
decreasing_by
  have := name.shorter
  simp only [List.length_cons]
  omega

theorem output_items_alike {tokens others : List Token}
    (same : Token.kinds tokens = Token.kinds others) :
    Alike (fun items : Option String × List Ident => (items.1, items.2.map Ident.unplaced))
      (outputItems tokens) (outputItems others) := by
  refine alike_of_first same (.failed rfl rfl) fun first twin rest behind kind sameRest same => ?_
  rw [outputItems, outputItems, kind]
  split
  · refine .widen ?_ _ _
    exact (comma_names_alike sameRest).map fun names _ listed => by rw [listed]
  · exact (ident_alike same).map fun name _ named => by simp only [List.map_cons, List.map_nil, named]

theorem output_alike (first twin : Token) {tokens others : List Token}
    (same : Token.kinds tokens = Token.kinds others) :
    Alike Stmt.unplaced (output first tokens) (output twin others) := by
  rw [output, output]
  refine (sign_alike .leftParen same).and_then fun lparen _ _ further =>
    (output_items_alike further).and_then fun items _ listed further =>
      (sign_alike .rightParen further).and_then fun rparen _ _ further =>
        (sign_alike .semicolon further).map fun stop _ _ => ?_
  obtain ⟨text, names⟩ := Prod.mk.inj listed
  simp only [Stmt.unplaced, text, names]

mutual

theorem statement_alike (tokens others : List Token)
    (same : Token.kinds tokens = Token.kinds others) :
    Alike Stmt.unplaced (statement tokens) (statement others) := by
  match tokens with
  | [] =>
      cases List.map_eq_nil_iff.mp same.symm
      rw [statement]
      exact .failed rfl rfl
  | first :: rest =>
      obtain ⟨twin, behind, rfl, kind, further⟩ := Token.exists_of_kinds_eq_cons same.symm
      rw [statement, statement, kind]
      split
      · exact (declaration_alike first twin further.symm).widen _ _
      · exact (constant_declaration_alike first twin further.symm).widen _ _
      · exact (assignment_alike first twin _ further.symm).widen _ _
      · exact (conditional_alike first twin rest behind further.symm).widen _ _
      · exact (do_while_alike first twin rest behind further.symm).widen _ _
      · exact (for_loop_alike first twin rest behind further.symm).widen _ _
      · exact (input_alike first twin further.symm).widen _ _
      · exact (output_alike first twin further.symm).widen _ _
      · exact .failed rfl same
termination_by 4 * tokens.length
decreasing_by
  all_goals
    simp only [List.length_cons]
    omega

theorem conditional_alike (first twin : Token) (tokens others : List Token)
    (same : Token.kinds tokens = Token.kinds others) :
    Alike Stmt.unplaced (conditional first tokens) (conditional twin others) := by
  rw [conditional, conditional]
  exact (sign_alike .leftParen same).and_then fun lparen _ _ further =>
    (condition_alike _ _ further).and_then fun test _ tested further =>
      (sign_alike .rightParen further).and_then fun rparen _ _ further =>
        (word_alike .thenWord further).and_then fun keyword _ _ further =>
          (block_alike _ _ further).and_tail fun body _ enclosed further =>
            alternative_alike first twin tested enclosed further
termination_by 4 * tokens.length + 3
decreasing_by
  all_goals
    have := lparen.shorter
    have := test.shorter
    have := rparen.shorter
    have := keyword.shorter
  · omega
  · have := body.shorter
    omega

theorem alternative_alike (first twin : Token) {test compared : Cond} {body inside : List Stmt}
    {last ending : Span} {tokens others : List Token} (tested : test.unplaced = compared.unplaced)
    (enclosed : Stmt.unplacedAll body = Stmt.unplacedAll inside)
    (same : Token.kinds tokens = Token.kinds others) :
    Alike Stmt.unplaced (alternative first test body last tokens)
      (alternative twin compared inside ending others) := by
  match tokens with
  | [] =>
      cases List.map_eq_nil_iff.mp same.symm
      rw [alternative, alternative]
      exact .done (by simp only [Stmt.unplaced, tested, enclosed]) rfl
  | keyword :: rest =>
      obtain ⟨other, behind, rfl, kind, sameRest⟩ := Token.exists_of_kinds_eq_cons same.symm
      rw [alternative, alternative, kind]
      split
      · refine .widen ?_ _ _
        exact (block_alike rest behind sameRest.symm).map fun otherwise _ follows => by
          simp only [Stmt.unplaced, tested, enclosed, follows]
      · exact .done (by simp only [Stmt.unplaced, tested, enclosed]) same
termination_by 4 * tokens.length + 3
decreasing_by
  simp only [List.length_cons]
  omega

theorem do_while_alike (first twin : Token) (tokens others : List Token)
    (same : Token.kinds tokens = Token.kinds others) :
    Alike Stmt.unplaced (doWhile first tokens) (doWhile twin others) := by
  rw [doWhile, doWhile]
  refine (block_alike tokens others same).and_then fun body _ enclosed further =>
    (word_alike .whileWord further).and_then fun keyword _ _ further =>
      (sign_alike .leftParen further).and_then fun lparen _ _ further =>
        (condition_alike _ _ further).and_then fun test _ tested further =>
          (sign_alike .rightParen further).and_then fun rparen _ _ further =>
            (sign_alike .semicolon further).map fun stop _ _ => ?_
  simp only [Stmt.unplaced, enclosed, tested]
termination_by 4 * tokens.length + 3
decreasing_by omega

theorem for_loop_alike (first twin : Token) (tokens others : List Token)
    (same : Token.kinds tokens = Token.kinds others) :
    Alike Stmt.unplaced (forLoop first tokens) (forLoop twin others) := by
  rw [forLoop, forLoop]
  refine (ident_alike same).and_then fun counter _ named further =>
    (word_alike .fromWord further).and_then fun fromWord _ _ further =>
      (expression_alike _ _ further).and_then fun low _ lower further =>
        (word_alike .toWord further).and_then fun toWord _ _ further =>
          (expression_alike _ _ further).and_then fun high _ upper further =>
            (word_alike .stepWord further).and_then fun stepWord _ _ further =>
              (expression_alike _ _ further).and_then fun step _ stride further =>
                (block_alike _ _ further).map fun body _ enclosed => ?_
  simp only [Stmt.unplaced, named, lower, upper, stride, enclosed]
termination_by 4 * tokens.length + 3
decreasing_by
  have := counter.shorter
  have := fromWord.shorter
  have := low.shorter
  have := toWord.shorter
  have := high.shorter
  have := stepWord.shorter
  have := step.shorter
  omega

theorem block_alike (tokens others : List Token)
    (same : Token.kinds tokens = Token.kinds others) :
    Alike Stmt.unplacedAll (block tokens) (block others) := by
  have opening : Alike Stmt.unplacedAll
      ((sign .leftBrace tokens).andTail fun lbrace => blockItems lbrace.last lbrace.rest)
      ((sign .leftBrace others).andTail fun lbrace => blockItems lbrace.last lbrace.rest) :=
    (sign_alike .leftBrace same).and_tail fun lbrace _ _ further => block_items_alike further
  rw [block, block]
  exact opening.and_then fun body _ enclosed further =>
    (sign_alike .rightBrace further).map fun _ _ _ => enclosed
termination_by 4 * tokens.length + 2
decreasing_by
  have := lbrace.shorter
  omega

theorem block_items_alike {last ending : Span} {tokens others : List Token}
    (same : Token.kinds tokens = Token.kinds others) :
    Alike Stmt.unplacedAll (blockItems last tokens) (blockItems ending others) := by
  match tokens with
  | [] =>
      cases List.map_eq_nil_iff.mp same.symm
      rw [blockItems, blockItems]
      exact .done rfl rfl
  | first :: rest =>
      obtain ⟨twin, behind, rfl, kind, _⟩ := Token.exists_of_kinds_eq_cons same.symm
      rw [blockItems, blockItems, kind]
      split
      · exact .done rfl same
      · refine .widen ?_ _ _
        refine (statement_alike (first :: rest) (twin :: behind) same).and_tail
          fun item _ read further => (block_items_alike further).map fun items _ others => ?_
        simp only [Stmt.unplacedAll, read, others]
termination_by 4 * tokens.length + 1
decreasing_by
  · omega
  · have := item.shorter
    omega

end

/-- Two programs are read alike: both are read, or both fail at tokens of the same kinds. -/
theorem program_alike (tokens others : List Token)
    (same : Token.kinds tokens = Token.kinds others) :
    (∃ first second, Grammar.program tokens = .ok first ∧ Grammar.program others = .ok second ∧
        first.1.unplaced = second.1.unplaced) ∨
      ∃ first second, Grammar.program tokens = .error first ∧
        Grammar.program others = .error second ∧ first.expected = second.expected ∧
        Token.kinds first.rest = Token.kinds second.rest := by
  match tokens with
  | [] =>
      cases List.map_eq_nil_iff.mp same.symm
      rw [Grammar.program]
      exact .inl ⟨_, _, rfl, rfl, rfl⟩
  | first :: rest =>
      obtain ⟨twin, behind, rfl, kind, _⟩ := Token.exists_of_kinds_eq_cons same.symm
      rw [Grammar.program, Grammar.program, kind]
      split
      · exact .inl ⟨_, _, rfl, rfl, rfl⟩
      · have heads := statement_alike (first :: rest) (twin :: behind) same
        generalize statement (first :: rest) = one at heads ⊢
        generalize statement (twin :: behind) = two at heads ⊢
        cases heads with
        | failed expected further => exact .inr ⟨_, _, rfl, rfl, expected, further⟩
        | @done item other read further =>
            rcases program_alike item.rest other.rest further with
              ⟨left, right, done, also, alike⟩ | ⟨left, right, failed, also, alike⟩
            · simp only [done, also]
              refine .inl ⟨_, _, rfl, rfl, ?_⟩
              rw [Program.unplaced] at alike ⊢
              simp only [Stmt.unplacedAll, read, alike, Program.unplaced]
            · simp only [failed, also]
              exact .inr ⟨_, _, rfl, rfl, alike⟩
termination_by tokens.length
decreasing_by exact item.shorter

end Grammar

theorem Token.kinds_close_list {tokens others : List Token}
    (same : kinds tokens = kinds others) : kinds (closeList tokens) = kinds (closeList others) := by
  have last : tokens.getLast?.map Token.kind = others.getLast?.map Token.kind := by
    rw [← List.getLast?_map, ← List.getLast?_map]
    exact congrArg List.getLast? same
  rw [closeList, closeList]
  cases ends : tokens.getLast? with
  | none =>
      rw [ends, Option.map_none, eq_comm, Option.map_eq_none_iff] at last
      rw [last]
  | some token =>
      rw [ends, Option.map_some, eq_comm, Option.map_eq_some_iff] at last
      obtain ⟨twin, stops, kind⟩ := last
      have both : twin.isEnd = token.isEnd := by rw [isEnd, isEnd, kind]
      simp only [stops, both]
      split
      · exact same
      · rw [kinds_append, kinds_append, same]
        rfl

/-- Token lists of the same kinds spell programs that differ in places alone, or have the same
syntax error. -/
theorem parse_tokens_alike {tokens others : List Token}
    (same : Token.kinds tokens = Token.kinds others) :
    (∃ program twin, parseTokens tokens = .ok program ∧ parseTokens others = .ok twin ∧
        program.unplaced = twin.unplaced) ∨
      ∃ error twin, parseTokens tokens = .error error ∧ parseTokens others = .error twin ∧
        error.expected = twin.expected ∧ error.found.kind = twin.found.kind := by
  have closed := Token.kinds_close_list same
  simp only [parse_tokens_eq, Grammar.outcome]
  rcases Grammar.program_alike _ _ closed with
    ⟨left, right, done, also, alike⟩ | ⟨left, right, failed, also, expected, further⟩
  · simp only [done, also]
    exact .inl ⟨_, _, rfl, rfl, alike⟩
  · simp only [failed, also]
    refine .inr ⟨_, _, rfl, rfl, expected, ?_⟩
    cases remains : left.rest with
    | nil =>
        rw [remains] at further
        rw [List.map_eq_nil_iff.mp further.symm]
    | cons first rest =>
        rw [remains] at further
        obtain ⟨twin, behind, shape, kind, _⟩ := Token.exists_of_kinds_eq_cons further.symm
        rw [shape]
        exact kind.symm

end ThreeAddress
