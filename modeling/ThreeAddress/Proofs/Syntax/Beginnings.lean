import ThreeAddress.Proofs.Syntax.Derivable

/-!
# Beginnings

A list of token kinds begins a phrase if it can be continued to something that the phrase derives.
Where a parenthesis opens in a condition, what follows may turn out to be an operand or a condition
of its own; the token that tells the two apart is an operator of comparison or an exclamation mark.
-/

namespace ThreeAddress

set_option autoImplicit false

open Phrase

theorem TokenClass.exists_has (kinds : TokenClass) : ∃ kind, kinds.Has kind := by
  cases kinds with
  | exactly kind => exact ⟨kind, .exactly⟩
  | identifier => exact ⟨_, @Has.identifier ""⟩
  | integer => exact ⟨_, @Has.integer ""⟩
  | float => exact ⟨_, @Has.float ""⟩
  | string => exact ⟨_, @Has.string ""⟩

namespace Phrase

def Inhabited (phrase : Phrase) : Prop := ∃ written, phrase.Derives written

theorem Inhabited.rule {name : Nonterminal} (inhabited : name.production.Inhabited) :
    (Phrase.rule name).Inhabited := by
  obtain ⟨written, derives⟩ := inhabited
  exact ⟨written, .rule derives⟩

theorem Inhabited.both {first second : Phrase} (before : first.Inhabited)
    (behind : second.Inhabited) : (Phrase.both first second).Inhabited := by
  obtain ⟨_, first⟩ := before
  obtain ⟨_, second⟩ := behind
  exact ⟨_, first.both second⟩

theorem Inhabited.in_order {phrases : List Phrase}
    (all : ∀ phrase ∈ phrases, phrase.Inhabited) : (Phrase.inOrder phrases).Inhabited := by
  induction phrases with
  | nil => exact ⟨_, .empty⟩
  | cons first rest ih =>
      rw [List.forall_mem_cons] at all
      exact all.1.both (ih all.2)

@[simp] theorem inhabited_word (keyword : Keyword) : (word keyword).Inhabited :=
  ⟨_, .token .exactly⟩

@[simp] theorem inhabited_sign (mark : Mark) : (sign mark).Inhabited :=
  ⟨_, .token .exactly⟩

@[simp] theorem inhabited_token (kinds : TokenClass) : (Phrase.token kinds).Inhabited := by
  obtain ⟨kind, has⟩ := kinds.exists_has
  exact ⟨_, .token has⟩

@[simp] theorem inhabited_many (body : Phrase) : (Phrase.many body).Inhabited :=
  ⟨_, .none⟩

@[simp] theorem inhabited_empty : Phrase.empty.Inhabited :=
  ⟨_, .empty⟩

@[simp] theorem inhabited_either (first second : Phrase) :
    (first ||| second).Inhabited ↔ first.Inhabited ∨ second.Inhabited := by
  constructor
  · rintro ⟨written, derives⟩
    cases derives with
    | left derives => exact .inl ⟨written, derives⟩
    | right derives => exact .inr ⟨written, derives⟩
  · rintro (⟨written, derives⟩ | ⟨written, derives⟩)
    · exact ⟨written, .left derives⟩
    · exact ⟨written, .right derives⟩

end Phrase

theorem Nonterminal.inhabited (name : Nonterminal) : (Phrase.rule name).Inhabited := by
  let operand := Expr.identifier "" default
  let comparison := Cond.compare .less default operand operand default
  let statement := Stmt.input ⟨"", default⟩ default
  have operandDerivable : operand.Derivable := operand.derivable trivial
  have comparisonDerivable : comparison.Derivable := comparison.derivable ⟨trivial, trivial⟩
  have expression : (Phrase.rule .expression).Inhabited := ⟨_, operandDerivable.sum⟩
  have condition : (Phrase.rule .condition).Inhabited := ⟨_, comparisonDerivable.condition⟩
  have type : (Phrase.rule .dataType).Inhabited := ⟨_, DataType.int.derivable⟩
  cases name with
  | program => exact .rule (.in_order (by simp))
  | statement => exact ⟨_, statement.derivable trivial⟩
  | varDecl | arrayDecl => exact .rule (.in_order (by simp [type]))
  | constDecl => exact .rule (.in_order (by simp [type, expression]))
  | assignment => exact .rule (.in_order (by simp [expression]))
  | ifStmt => exact .rule (.in_order (by simp [block, Phrase.optional, condition]))
  | doWhile => exact .rule (.in_order (by simp [block, condition]))
  | forLoop => exact .rule (.in_order (by simp [block, expression]))
  | input => exact .rule (.in_order (by simp))
  | output => exact .rule (.in_order (by simp))
  | condition => exact condition
  | orCond => exact ⟨_, comparisonDerivable.disjunction⟩
  | andCond => exact ⟨_, comparisonDerivable.conjunction rfl⟩
  | condAtom => exact ⟨_, comparisonDerivable.atom rfl⟩
  | expression => exact expression
  | term => exact ⟨_, operandDerivable.term rfl⟩
  | unary => exact ⟨_, operandDerivable.factor rfl⟩
  | atom => exact .rule ⟨_, .left (.right (.token (@TokenClass.Has.identifier "")))⟩
  | dataType => exact type
  | cmpOp => exact ⟨_, CompareOp.less.derivable⟩

namespace Phrase

theorem inhabited (phrase : Phrase) : phrase.Inhabited := by
  induction phrase with
  | token kinds => exact inhabited_token kinds
  | rule name => exact name.inhabited
  | empty => exact inhabited_empty
  | both first second ihFirst ihSecond => exact ihFirst.both ihSecond
  | either first second ih => exact (inhabited_either first second).mpr (.inl ih)
  | many body => exact inhabited_many body

/-- The list can be continued to one that the phrase derives. -/
def Begins (phrase : Phrase) (written : List TokenKind) : Prop :=
  ∃ more, phrase.Derives (written ++ more)

theorem Derives.begins {phrase : Phrase} {written : List TokenKind}
    (derives : phrase.Derives written) : phrase.Begins written :=
  ⟨[], by rwa [List.append_nil]⟩

theorem begins_nil (phrase : Phrase) : phrase.Begins [] := phrase.inhabited

theorem Begins.of_append {phrase : Phrase} {front behind : List TokenKind}
    (begins : phrase.Begins (front ++ behind)) : phrase.Begins front := by
  obtain ⟨more, derives⟩ := begins
  exact ⟨behind ++ more, by rwa [← List.append_assoc]⟩

/-- Behind `before`, whatever begins `inner` goes on with `outer`. -/
def Leads (outer : Phrase) (before : List TokenKind) (inner : Phrase) : Prop :=
  ∀ written, inner.Begins written → outer.Begins (before ++ written)

theorem leads_of_derives {outer inner : Phrase}
    (within : ∀ written, inner.Derives written → outer.Derives written) :
    outer.Leads [] inner := by
  rintro written ⟨more, derives⟩
  exact ⟨more, within _ derives⟩

theorem leads_first (first second : Phrase) : (Phrase.both first second).Leads [] first := by
  rintro written ⟨more, derives⟩
  obtain ⟨behind, others⟩ := second.inhabited
  exact ⟨more ++ behind, by simpa using derives.both others⟩

theorem leads_second {first : Phrase} {before : List TokenKind} (derives : first.Derives before)
    (second : Phrase) : (Phrase.both first second).Leads before second := by
  rintro written ⟨more, others⟩
  exact ⟨more, by simpa using derives.both others⟩

/-! ## Conditions in parentheses -/

/-- Any condition in parentheses may stand behind `before`. -/
def AdmitsGroup (phrase : Phrase) (before : List TokenKind) : Prop :=
  ∀ inside, (Phrase.rule .condition).Derives inside →
    phrase.Begins (before ++ .mark .leftParen :: (inside ++ [.mark .rightParen]))

/-- In a condition in parentheses that has begun, `kind` is the first token that no operand in
parentheses could have there: the operator of a comparison behind its left side, or an exclamation
mark. -/
inductive OpensGroup : List TokenKind → TokenKind → Prop
  | comparison {operand : List TokenKind} (op : CompareOp) :
      (Phrase.rule .expression).Derives operand →
      OpensGroup (.mark .leftParen :: operand) op.kind
  | negation : OpensGroup [.mark .leftParen] (.mark .bang)
  | deeper {group : List TokenKind} {kind : TokenKind} :
      OpensGroup group kind → OpensGroup (.mark .leftParen :: group) kind

theorem OpensGroup.kind_cases {group : List TokenKind} {kind : TokenKind}
    (opens : OpensGroup group kind) : (∃ op : CompareOp, kind = op.kind) ∨ kind = .mark .bang := by
  induction opens with
  | comparison op _ => exact .inl ⟨op, rfl⟩
  | negation => exact .inr rfl
  | deeper _ ih => exact ih

/-- At the end of `front`, in a condition in parentheses at a place that admits one, `kind` shows
that it is a condition. -/
def ShowsGroup (phrase : Phrase) (front : List TokenKind) (kind : TokenKind) : Prop :=
  ∃ before group, front = before ++ group ∧ phrase.AdmitsGroup before ∧ OpensGroup group kind

theorem derives_condition {written : List TokenKind}
    (derives : (Nonterminal.production .condAtom).Derives written) :
    (Phrase.rule .condition).Derives written :=
  .rule (.rule (Derives.alone (.rule (Derives.alone (.rule derives)))))

/-- A comparison of an operand with itself. -/
theorem derives_comparison {operand : List TokenKind}
    (derives : (Phrase.rule .expression).Derives operand) (op : CompareOp) :
    (Phrase.rule .condition).Derives (operand ++ op.kind :: operand) :=
  derives_condition (.right (derives.in_order_cons (op.derivable.in_order_cons derives.single)))

theorem derives_group {inside : List TokenKind}
    (derives : (Phrase.rule .condition).Derives inside) :
    (Phrase.rule .condAtom).Derives (.mark .leftParen :: (inside ++ [.mark .rightParen])) :=
  .rule (.left (.right (.sign_cons (derives.in_order_cons (.sign_cons .empty)))))

theorem admits_group_cond_atom : (Phrase.rule .condAtom).AdmitsGroup [] := by
  intro inside derives
  exact (derives_group derives).begins

theorem OpensGroup.exists_group {group : List TokenKind} {kind : TokenKind}
    (opens : OpensGroup group kind) :
    ∃ inside more, (Phrase.rule .condition).Derives inside ∧
      .mark .leftParen :: (inside ++ [.mark .rightParen]) = group ++ kind :: more := by
  induction opens with
  | @comparison operand op derives =>
      refine ⟨_, operand ++ [.mark .rightParen], derives_comparison derives op, ?_⟩
      simp
  | negation =>
      obtain ⟨inside, derives⟩ := Nonterminal.inhabited .condition
      refine ⟨_, inside ++ [.mark .rightParen], derives_condition (.left (.left (.sign_cons
        derives.single))), rfl⟩
  | @deeper group kind opens ih =>
      obtain ⟨inside, more, derives, same⟩ := ih
      cases derives_group derives with
      | rule group =>
          refine ⟨_, more ++ [.mark .rightParen], derives_condition group, ?_⟩
          simp [same]

theorem ShowsGroup.begins {phrase : Phrase} {front : List TokenKind} {kind : TokenKind}
    (shows : phrase.ShowsGroup front kind) : phrase.Begins (front ++ [kind]) := by
  obtain ⟨before, group, rfl, admits, opens⟩ := shows
  obtain ⟨inside, more, derives, same⟩ := opens.exists_group
  have whole := admits inside derives
  rw [same] at whole
  have begins : phrase.Begins ((before ++ group ++ [kind]) ++ more) := by simpa using whole
  exact begins.of_append

theorem ShowsGroup.of_leads {outer inner : Phrase} {before front : List TokenKind}
    {kind : TokenKind} (shows : inner.ShowsGroup front kind) (leads : outer.Leads before inner) :
    outer.ShowsGroup (before ++ front) kind := by
  obtain ⟨start, group, rfl, admits, opens⟩ := shows
  refine ⟨before ++ start, group, (List.append_assoc ..).symm, ?_, opens⟩
  intro inside derives
  rw [List.append_assoc]
  exact leads _ (admits inside derives)

end Phrase

end ThreeAddress
