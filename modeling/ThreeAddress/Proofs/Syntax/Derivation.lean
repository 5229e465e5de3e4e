import ThreeAddress.Proofs.Syntax.Derivable
import ThreeAddress.Proofs.Syntax.RoundTrip

/-!
# The parser accepts the grammar

For everything derivable there is a canonical tree. This is not obvious for conditions, where the
grammar is ambiguous: a derivation may end a negation before a connective, but the canonical tree
has the connective inside the negation. Main statement: a token list is parsed exactly when it is
derivable.
-/

namespace ThreeAddress

set_option autoImplicit false

/-- A chain grows from its first item by one part at a time, whatever an item is. -/
theorem exists_chain {Tree : Type} (unparse : Tree → List TokenKind) (good : Tree → Prop)
    {isPart : List TokenKind → Prop}
    (join : ∀ left part, good left → isPart part →
      ∃ tree, good tree ∧ unparse tree = unparse left ++ part)
    (parts : List (List TokenKind)) (all : ∀ part ∈ parts, isPart part) (first : Tree)
    (start : good first) :
    ∃ tree, good tree ∧ unparse tree = unparse first ++ parts.flatten := by
  induction parts generalizing first with
  | nil => exact ⟨first, start, by simp⟩
  | cons part parts ih =>
      obtain ⟨next, longer, joined⟩ := join first part start (all part List.mem_cons_self)
      obtain ⟨tree, done, same⟩ :=
        ih (fun other member => all other (List.mem_cons_of_mem _ member)) next longer
      exact ⟨tree, done, by rw [same, joined, List.flatten_cons, List.append_assoc]⟩

namespace Cond

/-- Puts something behind a condition: inside its last negation, if it ends with one. -/
def absorb (attach : Cond → Cond) : Cond → Cond
  | .not inner place => .not (inner.absorb attach) place
  | .and left right place =>
      if right.endsOpen then .and left (right.absorb attach) place
      else attach (.and left right place)
  | .or left right place =>
      if right.endsOpen then .or left (right.absorb attach) place
      else attach (.or left right place)
  | .compare op position left right place => attach (.compare op position left right place)
  | .paren inner place => attach (.paren inner place)

theorem absorb_of_not_ends_open (attach : Cond → Cond) {cond : Cond} (shut : ¬ cond.endsOpen) :
    cond.absorb attach = attach cond := by
  cases cond with
  | not inner place => exact absurd rfl shut
  | and left right place => exact if_neg shut
  | or left right place => exact if_neg shut
  | compare | paren => rfl

/-- What ends with a negation keeps its outer form. -/
theorem absorb_levels (attach : Cond → Cond) {cond : Cond} (ends : cond.endsOpen) :
    (cond.absorb attach).isAtom = cond.isAtom ∧
      (cond.absorb attach).isConjunction = cond.isConjunction := by
  cases cond with
  | not inner place => exact ⟨rfl, rfl⟩
  | and left right place =>
      rw [endsOpen] at ends
      rw [absorb, if_pos ends]
      exact ⟨rfl, rfl⟩
  | or left right place =>
      rw [endsOpen] at ends
      rw [absorb, if_pos ends]
      exact ⟨rfl, rfl⟩
  | compare | paren => cases ends

theorem unparse_absorb {attach : Cond → Cond} {part : List TokenKind}
    (attached : ∀ cond, (attach cond).unparse = cond.unparse ++ part) (cond : Cond) :
    (cond.absorb attach).unparse = cond.unparse ++ part := by
  induction cond with
  | not inner place ih => simp [absorb, unparse, ih]
  | and left right place _ ih =>
      rw [absorb]
      split
      · simp [unparse, ih]
      · exact attached _
  | or left right place _ ih =>
      rw [absorb]
      split
      · simp [unparse, ih]
      · exact attached _
  | compare | paren => exact attached _

theorem canonical_absorb {attach : Cond → Cond}
    (attached : ∀ cond, cond.Canonical → ¬ cond.endsOpen → (attach cond).Canonical) (cond : Cond)
    (canonical : cond.Canonical) : (cond.absorb attach).Canonical := by
  induction cond with
  | not inner place ih => exact ih canonical
  | and left right place _ ih =>
      rw [absorb]
      split
      · rename_i ends
        obtain ⟨canonicalLeft, canonicalRight, chain, atom, shut⟩ := canonical
        exact ⟨canonicalLeft, ih canonicalRight, chain,
          (absorb_levels attach ends).1.trans atom, shut⟩
      · rename_i shut
        exact attached _ canonical shut
  | or left right place _ ih =>
      rw [absorb]
      split
      · rename_i ends
        obtain ⟨canonicalLeft, canonicalRight, chain, shut⟩ := canonical
        exact ⟨canonicalLeft, ih canonicalRight,
          (absorb_levels attach ends).2.trans chain, shut⟩
      · rename_i shut
        exact attached _ canonical shut
  | compare | paren => exact attached _ canonical Bool.false_ne_true

/-- An atom behind an `AND` belongs to the last alternative. -/
def attachAnd (atom : Cond) : Cond → Cond
  | .or left right place => .or left (right.joinAnd atom) place
  | cond => cond.joinAnd atom

theorem unparse_attach_and (atom cond : Cond) :
    (attachAnd atom cond).unparse = cond.unparse ++ .keyword .andWord :: atom.unparse := by
  cases cond with
  | or left right place => simp [attachAnd, joinAnd, unparse]
  | compare | and | not | paren => rfl

theorem canonical_attach_and {atom cond : Cond} (canonicalAtom : atom.Canonical)
    (isAtom : atom.isAtom) (canonical : cond.Canonical) (shut : ¬ cond.endsOpen) :
    (attachAnd atom cond).Canonical := by
  cases cond with
  | or left right place =>
      obtain ⟨canonicalLeft, canonicalRight, chain, shutLeft⟩ := canonical
      exact ⟨canonicalLeft, ⟨canonicalRight, canonicalAtom, chain, isAtom, shut⟩, rfl, shutLeft⟩
  | compare | and | not | paren => exact ⟨canonical, canonicalAtom, rfl, isAtom, shut⟩

/-- A conjunction and a further atom make a conjunction, read as the grammar reads it. -/
theorem exists_and {left atom : Cond} (canonicalLeft : left.Canonical)
    (chain : left.isConjunction) (canonicalAtom : atom.Canonical) (isAtom : atom.isAtom) :
    ∃ cond : Cond, (cond.Canonical ∧ cond.isConjunction) ∧
      cond.unparse = left.unparse ++ .keyword .andWord :: atom.unparse := by
  refine ⟨left.absorb (attachAnd atom), ⟨?_, ?_⟩, unparse_absorb (unparse_attach_and atom) left⟩
  · exact canonical_absorb (fun _ => canonical_attach_and canonicalAtom isAtom) left canonicalLeft
  · by_cases ends : left.endsOpen
    · exact (absorb_levels _ ends).2.trans chain
    · rw [absorb_of_not_ends_open _ ends]
      cases left with
      | or => cases chain
      | compare | and | not | paren => rfl

/-- A disjunction and a further conjunction make a disjunction, read as the grammar reads it. -/
theorem exists_or {left right : Cond} (canonicalLeft : left.Canonical)
    (canonicalRight : right.Canonical) (chain : right.isConjunction) :
    ∃ cond : Cond, cond.Canonical ∧
      cond.unparse = left.unparse ++ .keyword .orWord :: right.unparse := by
  have attached : ∀ cond : Cond, cond.Canonical → ¬ cond.endsOpen →
      (cond.joinOr right).Canonical := by
    intro cond canonical shut
    exact ⟨canonical, canonicalRight, chain, shut⟩
  exact ⟨left.absorb (·.joinOr right), canonical_absorb attached left canonicalLeft,
    unparse_absorb (fun _ => rfl) left⟩

end Cond

/-- The trees that a nonterminal stands for, given by what they unparse to. -/
def Nonterminal.Tree : Nonterminal → List TokenKind → Prop
  | .program, written =>
      ∃ program : Program, program.Canonical ∧ written = program.unparse ++ [.endOfFile]
  | .statement, written | .varDecl, written | .arrayDecl, written | .constDecl, written
  | .assignment, written | .ifStmt, written | .doWhile, written | .forLoop, written
  | .input, written | .output, written =>
      ∃ stmt : Stmt, stmt.Canonical ∧ written = stmt.unparse
  | .condition, written | .orCond, written =>
      ∃ cond : Cond, cond.Canonical ∧ written = cond.unparse
  | .andCond, written =>
      ∃ cond : Cond, (cond.Canonical ∧ cond.isConjunction) ∧ written = cond.unparse
  | .condAtom, written =>
      ∃ cond : Cond, (cond.Canonical ∧ cond.isAtom) ∧ written = cond.unparse
  | .expression, written => ∃ expr : Expr, expr.Canonical ∧ written = expr.unparse
  | .term, written =>
      ∃ expr : Expr, (expr.Canonical ∧ expr.isTerm) ∧ written = expr.unparse
  | .unary, written | .atom, written =>
      ∃ expr : Expr, (expr.Canonical ∧ expr.isFactor) ∧ written = expr.unparse
  | .dataType, written => ∃ type : DataType, written = [type.kind]
  | .cmpOp, written => ∃ op : CompareOp, written = [op.kind]

/-- Statements one after another are the statements of a block. -/
theorem Stmt.exists_all (parts : List (List TokenKind))
    (all : ∀ part ∈ parts, Nonterminal.Tree .statement part) :
    ∃ stmts, Stmt.CanonicalAll stmts ∧ parts.flatten = Stmt.unparseAll stmts := by
  induction parts with
  | nil => exact ⟨[], trivial, rfl⟩
  | cons part parts ih =>
      obtain ⟨stmt, canonical, rfl⟩ := all part List.mem_cons_self
      obtain ⟨stmts, canonicalRest, same⟩ :=
        ih fun other member => all other (List.mem_cons_of_mem _ member)
      exact ⟨stmt :: stmts, ⟨canonical, canonicalRest⟩, by rw [List.flatten_cons, same]; rfl⟩

namespace Nonterminal

open Phrase

variable {written : List TokenKind}

/-- The operator between the terms of a sum. -/
theorem exists_additive (allowed : (sign .plus ||| sign .minus).Allows Tree written) :
    ∃ op : BinaryOp, op.isMultiplicative = false ∧ written = [op.kind] := by
  rcases allowed with plus | minus
  · exact ⟨.add, rfl, allows_sign.mp plus⟩
  · exact ⟨.sub, rfl, allows_sign.mp minus⟩

/-- The operator between the factors of a product. -/
theorem exists_multiplicative (allowed : (sign .star ||| sign .slash).Allows Tree written) :
    ∃ op : BinaryOp, op.isMultiplicative = true ∧ written = [op.kind] := by
  rcases allowed with star | slash
  · exact ⟨.mul, rfl, allows_sign.mp star⟩
  · exact ⟨.div, rfl, allows_sign.mp slash⟩

theorem tree_expression (allowed : (production .expression).Allows Tree written) :
    Tree .expression written := by
  obtain ⟨_, _, rfl, ⟨first, ⟨canonical, _⟩, rfl⟩, _, _, rfl, ⟨parts, rfl, all⟩, rfl⟩ := allowed
  have join : ∀ (left : Expr) (part : List TokenKind), left.Canonical →
      (inOrder [sign .plus ||| sign .minus, .rule .term]).Allows Tree part →
      ∃ tree : Expr, tree.Canonical ∧ tree.unparse = left.unparse ++ part := by
    rintro left _ canonicalLeft
      ⟨_, _, rfl, operator, _, _, rfl, ⟨right, ⟨canonicalRight, term⟩, rfl⟩, rfl⟩
    obtain ⟨op, additive, rfl⟩ := exists_additive operator
    refine ⟨.binary op left right default, ?_, by simp [Expr.unparse]⟩
    simp [Expr.Canonical, additive, canonicalLeft, canonicalRight, term]
  obtain ⟨tree, done, same⟩ := exists_chain Expr.unparse _ join parts all first canonical
  exact ⟨tree, done, by simp [same]⟩

theorem tree_term (allowed : (production .term).Allows Tree written) : Tree .term written := by
  obtain ⟨_, _, rfl, ⟨first, ⟨canonical, factor⟩, rfl⟩, _, _, rfl, ⟨parts, rfl, all⟩, rfl⟩ :=
    allowed
  have join : ∀ (left : Expr) (part : List TokenKind), (left.Canonical ∧ left.isTerm) →
      (inOrder [sign .star ||| sign .slash, .rule .unary]).Allows Tree part →
      ∃ tree : Expr, (tree.Canonical ∧ tree.isTerm) ∧ tree.unparse = left.unparse ++ part := by
    rintro left _ ⟨canonicalLeft, term⟩
      ⟨_, _, rfl, operator, _, _, rfl, ⟨right, ⟨canonicalRight, factor⟩, rfl⟩, rfl⟩
    obtain ⟨op, multiplicative, rfl⟩ := exists_multiplicative operator
    refine ⟨.binary op left right default, ⟨?_, multiplicative⟩, by simp [Expr.unparse]⟩
    simp [Expr.Canonical, multiplicative, canonicalLeft, canonicalRight, term, factor]
  obtain ⟨tree, done, same⟩ := exists_chain Expr.unparse _ join parts all first
    ⟨canonical, Expr.is_term_of_is_factor factor⟩
  exact ⟨tree, done, by simp [same]⟩

theorem tree_unary (allowed : (production .unary).Allows Tree written) : Tree .unary written := by
  rcases allowed with ⟨_, _, rfl, minus, _, _, rfl, ⟨inner, good, rfl⟩, rfl⟩ | atom
  · cases allows_sign.mp minus
    exact ⟨.negate inner default, ⟨good, rfl⟩, by simp [Expr.unparse]⟩
  · exact atom

theorem tree_atom (allowed : (production .atom).Allows Tree written) : Tree .atom written := by
  rcases allowed with (((⟨_, ⟨⟩, rfl⟩ | ⟨_, ⟨⟩, rfl⟩) | indexed) | ⟨_, ⟨⟩, rfl⟩) | paren
  · exact ⟨.integer _ default, ⟨trivial, rfl⟩, rfl⟩
  · exact ⟨.float _ default, ⟨trivial, rfl⟩, rfl⟩
  · obtain ⟨_, _, rfl, ⟨_, ⟨⟩, rfl⟩, _, _, rfl, opened, _, _, rfl, ⟨index, canonical, rfl⟩, _, _,
      rfl, closed, rfl⟩ := indexed
    cases allows_sign.mp opened
    cases allows_sign.mp closed
    exact ⟨.element ⟨_, default⟩ index default, ⟨canonical, rfl⟩, rfl⟩
  · exact ⟨.identifier _ default, ⟨trivial, rfl⟩, rfl⟩
  · obtain ⟨_, _, rfl, opened, _, _, rfl, ⟨inner, canonical, rfl⟩, _, _, rfl, closed, rfl⟩ := paren
    cases allows_sign.mp opened
    cases allows_sign.mp closed
    exact ⟨.paren inner default, ⟨canonical, rfl⟩, rfl⟩

theorem tree_and_cond (allowed : (production .andCond).Allows Tree written) :
    Tree .andCond written := by
  obtain ⟨_, _, rfl, ⟨first, ⟨canonical, atom⟩, rfl⟩, _, _, rfl, ⟨parts, rfl, all⟩, rfl⟩ := allowed
  have join : ∀ (left : Cond) (part : List TokenKind), (left.Canonical ∧ left.isConjunction) →
      (inOrder [word .andWord, .rule .condAtom]).Allows Tree part →
      ∃ tree : Cond, (tree.Canonical ∧ tree.isConjunction) ∧
        tree.unparse = left.unparse ++ part := by
    rintro left _ ⟨canonicalLeft, chain⟩
      ⟨_, _, rfl, keyword, _, _, rfl, ⟨right, ⟨canonicalRight, atom⟩, rfl⟩, rfl⟩
    cases allows_word.mp keyword
    simpa using Cond.exists_and canonicalLeft chain canonicalRight atom
  obtain ⟨tree, done, same⟩ := exists_chain Cond.unparse _ join parts all first
    ⟨canonical, Cond.is_conjunction_of_is_atom atom⟩
  exact ⟨tree, done, by simp [same]⟩

theorem tree_or_cond (allowed : (production .orCond).Allows Tree written) :
    Tree .orCond written := by
  obtain ⟨_, _, rfl, ⟨first, ⟨canonical, _⟩, rfl⟩, _, _, rfl, ⟨parts, rfl, all⟩, rfl⟩ := allowed
  have join : ∀ (left : Cond) (part : List TokenKind), left.Canonical →
      (inOrder [word .orWord, .rule .andCond]).Allows Tree part →
      ∃ tree : Cond, tree.Canonical ∧ tree.unparse = left.unparse ++ part := by
    rintro left _ canonicalLeft
      ⟨_, _, rfl, keyword, _, _, rfl, ⟨right, ⟨canonicalRight, chain⟩, rfl⟩, rfl⟩
    cases allows_word.mp keyword
    simpa using Cond.exists_or canonicalLeft canonicalRight chain
  obtain ⟨tree, done, same⟩ := exists_chain Cond.unparse _ join parts all first canonical
  exact ⟨tree, done, by simp [same]⟩

theorem tree_cond_atom (allowed : (production .condAtom).Allows Tree written) :
    Tree .condAtom written := by
  rcases allowed with (negated | paren) | compared
  · obtain ⟨_, _, rfl, bang, _, _, rfl, ⟨inner, canonical, rfl⟩, rfl⟩ := negated
    cases allows_sign.mp bang
    exact ⟨.not inner default, ⟨canonical, rfl⟩, by simp [Cond.unparse]⟩
  · obtain ⟨_, _, rfl, opened, _, _, rfl, ⟨inner, canonical, rfl⟩, _, _, rfl, closed, rfl⟩ := paren
    cases allows_sign.mp opened
    cases allows_sign.mp closed
    exact ⟨.paren inner default, ⟨canonical, rfl⟩, rfl⟩
  · obtain ⟨_, _, rfl, ⟨left, canonicalLeft, rfl⟩, _, _, rfl, ⟨op, rfl⟩, _, _, rfl,
      ⟨right, canonicalRight, rfl⟩, rfl⟩ := compared
    exact ⟨.compare op default left right default, ⟨⟨canonicalLeft, canonicalRight⟩, rfl⟩,
      by simp [Cond.unparse]⟩

theorem tree_data_type (allowed : (production .dataType).Allows Tree written) :
    Tree .dataType written := by
  rcases allowed with int | float
  · exact ⟨.int, allows_word.mp int⟩
  · exact ⟨.float, allows_word.mp float⟩

theorem tree_cmp_op (allowed : (production .cmpOp).Allows Tree written) :
    Tree .cmpOp written := by
  rcases allowed with ((((less | greater) | lessEqual) | greaterEqual) | equal) | notEqual
  · exact ⟨.less, allows_sign.mp less⟩
  · exact ⟨.greater, allows_sign.mp greater⟩
  · exact ⟨.lessEqual, allows_sign.mp lessEqual⟩
  · exact ⟨.greaterEqual, allows_sign.mp greaterEqual⟩
  · exact ⟨.equal, allows_sign.mp equal⟩
  · exact ⟨.notEqual, allows_sign.mp notEqual⟩

theorem tree_var_decl (allowed : (production .varDecl).Allows Tree written) :
    Tree .varDecl written := by
  unfold production at allowed
  simp only [allows_cons, allows_nil, allows_word, allows_sign,
    allows_identifier] at allowed
  obtain ⟨_, _, rfl, rfl, _, _, rfl, ⟨name, rfl⟩, _, _, rfl, rfl, _, _, rfl, ⟨type, rfl⟩, _, _,
    rfl, rfl, rfl⟩ := allowed
  exact ⟨.scalar ⟨name, default⟩ type default, trivial, rfl⟩

theorem tree_array_decl (allowed : (production .arrayDecl).Allows Tree written) :
    Tree .arrayDecl written := by
  unfold production at allowed
  simp only [allows_cons, allows_nil, allows_word, allows_sign,
    allows_identifier] at allowed
  obtain ⟨_, _, rfl, rfl, _, _, rfl, ⟨name, rfl⟩, _, _, rfl, rfl, _, _, rfl, rfl, _, _, rfl,
    ⟨type, rfl⟩, _, _, rfl, rfl, _, _, rfl, ⟨_, ⟨⟩, rfl⟩, _, _, rfl, rfl, _, _, rfl, rfl, rfl⟩ :=
    allowed
  exact ⟨.array ⟨name, default⟩ type _ default default, trivial, rfl⟩

theorem tree_const_decl (allowed : (production .constDecl).Allows Tree written) :
    Tree .constDecl written := by
  unfold production at allowed
  simp only [allows_cons, allows_nil, allows_word, allows_sign,
    allows_identifier] at allowed
  obtain ⟨_, _, rfl, rfl, _, _, rfl, rfl, _, _, rfl, ⟨name, rfl⟩, _, _, rfl, rfl, _, _, rfl,
    ⟨type, rfl⟩, _, _, rfl, rfl, _, _, rfl, ⟨value, canonical, rfl⟩, _, _, rfl, rfl, rfl⟩ :=
    allowed
  exact ⟨.constant ⟨name, default⟩ type default value default, canonical, by
    simp [Stmt.unparse, Ident.kind]⟩

theorem tree_assignment (allowed : (production .assignment).Allows Tree written) :
    Tree .assignment written := by
  unfold production at allowed
  simp only [allows_cons, allows_nil, allows_sign, allows_identifier] at allowed
  obtain ⟨_, _, rfl, ⟨name, rfl⟩, _, _, rfl, rfl, _, _, rfl, ⟨value, canonical, rfl⟩, _, _, rfl,
    rfl, rfl⟩ := allowed
  exact ⟨.assign ⟨name, default⟩ value default, canonical, by simp [Stmt.unparse, Ident.kind]⟩

theorem tree_if_stmt (allowed : (production .ifStmt).Allows Tree written) :
    Tree .ifStmt written := by
  unfold production at allowed
  simp only [block, Phrase.optional, List.cons_append, List.nil_append, allows_cons,
    allows_nil, allows_word, allows_sign, allows_either] at allowed
  obtain ⟨_, _, rfl, rfl, _, _, rfl, rfl, _, _, rfl, ⟨test, canonical, rfl⟩, _, _, rfl, rfl, _, _,
    rfl, rfl, _, _, rfl, rfl, _, _, rfl, ⟨parts, rfl, all⟩, _, _, rfl, rfl, _, _, rfl, other,
    rfl⟩ := allowed
  obtain ⟨body, canonicalBody, inside⟩ := Stmt.exists_all parts all
  rcases other with ⟨_, _, rfl, rfl, _, _, rfl, rfl, _, _, rfl, ⟨parts, rfl, all⟩, _, _, rfl,
    rfl, rfl⟩ | rfl
  · obtain ⟨otherwise, canonicalElse, insideElse⟩ := Stmt.exists_all parts all
    exact ⟨.ifElse test body otherwise default, ⟨canonical, canonicalBody, canonicalElse⟩, by
      simp [Stmt.unparse, inside, insideElse]⟩
  · exact ⟨.ifThen test body default, ⟨canonical, canonicalBody⟩, by
      simp [Stmt.unparse, inside]⟩

theorem tree_do_while (allowed : (production .doWhile).Allows Tree written) :
    Tree .doWhile written := by
  unfold production at allowed
  simp only [block, List.cons_append, List.nil_append, allows_cons, allows_nil,
    allows_word, allows_sign] at allowed
  obtain ⟨_, _, rfl, rfl, _, _, rfl, rfl, _, _, rfl, ⟨parts, rfl, all⟩, _, _, rfl, rfl, _, _, rfl,
    rfl, _, _, rfl, rfl, _, _, rfl, ⟨test, canonical, rfl⟩, _, _, rfl, rfl, _, _, rfl, rfl,
    rfl⟩ := allowed
  obtain ⟨body, canonicalBody, inside⟩ := Stmt.exists_all parts all
  exact ⟨.doWhile body test default, ⟨canonicalBody, canonical⟩, by
    simp [Stmt.unparse, inside]⟩

theorem tree_for_loop (allowed : (production .forLoop).Allows Tree written) :
    Tree .forLoop written := by
  unfold production at allowed
  simp only [block, List.cons_append, List.nil_append, allows_cons, allows_nil,
    allows_word, allows_sign, allows_identifier] at allowed
  obtain ⟨_, _, rfl, rfl, _, _, rfl, ⟨counter, rfl⟩, _, _, rfl, rfl, _, _, rfl,
    ⟨low, canonicalLow, rfl⟩, _, _, rfl, rfl, _, _, rfl, ⟨high, canonicalHigh, rfl⟩, _, _, rfl,
    rfl, _, _, rfl, ⟨step, canonicalStep, rfl⟩, _, _, rfl, rfl, _, _, rfl, ⟨parts, rfl, all⟩, _,
    _, rfl, rfl, rfl⟩ := allowed
  obtain ⟨body, canonicalBody, inside⟩ := Stmt.exists_all parts all
  exact ⟨.forLoop ⟨counter, default⟩ low high step body default,
    ⟨canonicalLow, canonicalHigh, canonicalStep, canonicalBody⟩, by
      simp [Stmt.unparse, Ident.kind, inside]⟩

theorem tree_input (allowed : (production .input).Allows Tree written) : Tree .input written := by
  unfold production at allowed
  simp only [allows_cons, allows_nil, allows_word, allows_sign,
    allows_identifier] at allowed
  obtain ⟨_, _, rfl, rfl, _, _, rfl, rfl, _, _, rfl, ⟨target, rfl⟩, _, _, rfl, rfl, _, _, rfl,
    rfl, rfl⟩ := allowed
  exact ⟨.input ⟨target, default⟩ default, trivial, rfl⟩

theorem exists_names (parts : List (List TokenKind))
    (all : ∀ part ∈ parts, (inOrder [sign .comma, .token .identifier]).Allows Tree part) :
    ∃ names, parts.flatten = Ident.unparseTail names := by
  induction parts with
  | nil => exact ⟨[], rfl⟩
  | cons part parts ih =>
      have first := all part List.mem_cons_self
      simp only [allows_cons, allows_nil, allows_sign, allows_identifier] at first
      obtain ⟨_, _, rfl, rfl, _, _, rfl, ⟨name, rfl⟩, rfl⟩ := first
      obtain ⟨names, same⟩ := ih fun other member => all other (List.mem_cons_of_mem _ member)
      exact ⟨⟨name, default⟩ :: names, by rw [List.flatten_cons, same]; rfl⟩

theorem tree_output (allowed : (production .output).Allows Tree written) :
    Tree .output written := by
  unfold production at allowed
  simp only [allows_cons, allows_nil, allows_word, allows_sign, allows_identifier,
    allows_either] at allowed
  obtain ⟨_, _, rfl, rfl, _, _, rfl, rfl, _, _, rfl, items, _, _, rfl, rfl, _, _, rfl, rfl,
    rfl⟩ := allowed
  rcases items with ⟨_, _, rfl, ⟨_, quoted, rfl⟩, _, _, rfl, ⟨parts, rfl, all⟩, rfl⟩ | ⟨name, rfl⟩
  · obtain ⟨names, same⟩ := exists_names parts all
    cases quoted with
    | @string text =>
        exact ⟨.output (some text) names default, nofun, by
          simp [Stmt.unparse, Stmt.unparseItems, same]⟩
  · exact ⟨.output none [⟨name, default⟩] default, fun _ => rfl, rfl⟩

theorem tree_program (allowed : (production .program).Allows Tree written) :
    Tree .program written := by
  obtain ⟨_, _, rfl, ⟨parts, rfl, all⟩, _, _, rfl, ⟨_, ⟨⟩, rfl⟩, rfl⟩ := allowed
  obtain ⟨program, canonical, same⟩ := Stmt.exists_all parts all
  exact ⟨program, canonical, by rw [same]; rfl⟩

/-- Every rule makes trees from trees. -/
theorem tree_of_production (name : Nonterminal) (written : List TokenKind)
    (allowed : name.production.Allows Tree written) : Tree name written := by
  cases name with
  | program => exact tree_program allowed
  | statement =>
      rcases allowed with (((((((stmt | stmt) | stmt) | stmt) | stmt) | stmt) | stmt) | stmt) | stmt
      all_goals exact stmt
  | varDecl => exact tree_var_decl allowed
  | arrayDecl => exact tree_array_decl allowed
  | constDecl => exact tree_const_decl allowed
  | assignment => exact tree_assignment allowed
  | ifStmt => exact tree_if_stmt allowed
  | doWhile => exact tree_do_while allowed
  | forLoop => exact tree_for_loop allowed
  | input => exact tree_input allowed
  | output => exact tree_output allowed
  | condition => exact allowed
  | orCond => exact tree_or_cond allowed
  | andCond => exact tree_and_cond allowed
  | condAtom => exact tree_cond_atom allowed
  | expression => exact tree_expression allowed
  | term => exact tree_term allowed
  | unary => exact tree_unary allowed
  | atom => exact tree_atom allowed
  | dataType => exact tree_data_type allowed
  | cmpOp => exact tree_cmp_op allowed

end Nonterminal

/-- A canonical program derives from the nonterminal of programs. -/
theorem Program.derivable (program : Program) (canonical : program.Canonical) :
    (Phrase.rule .program).Derives (program.unparse ++ [.endOfFile]) :=
  .rule ((Stmt.derivable_all program canonical).in_order_cons (.token_cons .exactly .empty))

/-- A token list with one end of the file, behind it, is parsed exactly when it is derivable. -/
theorem parse_tokens_ok_iff_derives {tokens : List Token} (closed : Token.Closed tokens) :
    (∃ program, parseTokens tokens = .ok program) ↔
      (Phrase.rule .program).Derives (Token.kinds tokens) := by
  constructor
  · rintro ⟨program, done⟩
    obtain ⟨written, canonical⟩ := parse_tokens_sound closed done
    rw [written]
    exact program.derivable canonical
  · intro derives
    obtain ⟨program, canonical, written⟩ := derives.allows Nonterminal.tree_of_production
    obtain ⟨read, done, _⟩ := parse_tokens_complete canonical written
    exact ⟨read, done⟩

theorem parse_tokens_ok_negated_chain :
    Token.Closed (Token.bare (negatedChain.unparse ++ [.endOfFile])) ∧
      ∃ program,
        parseTokens (Token.bare (negatedChain.unparse ++ [.endOfFile])) = .ok program := by
  refine ⟨closed_negated_chain, (parse_tokens_ok_iff_derives closed_negated_chain).mpr ?_⟩
  rw [Token.kinds_bare]
  exact negatedChain.derivable canonical_negated_chain

end ThreeAddress
