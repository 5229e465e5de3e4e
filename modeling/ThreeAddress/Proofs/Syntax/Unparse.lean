import ThreeAddress.Proofs.Grammar.Condition

/-!
# Trees written out

Unparsing turns a tree back into the kinds of its tokens. It writes the parentheses that are nodes
of the tree and adds none, so only a canonical tree can be told from what is written: one in which
every operand binds at least as tight as its operator, and no `!` stands before a connective that
it would take with it.
-/

namespace ThreeAddress

set_option autoImplicit false

def DataType.kind : DataType → TokenKind
  | .int => .keyword .intWord
  | .float => .keyword .floatWord

def BinaryOp.kind : BinaryOp → TokenKind
  | .add => .mark .plus
  | .sub => .mark .minus
  | .mul => .mark .star
  | .div => .mark .slash

def CompareOp.kind : CompareOp → TokenKind
  | .less => .mark .less
  | .greater => .mark .greater
  | .lessEqual => .mark .lessEqual
  | .greaterEqual => .mark .greaterEqual
  | .equal => .mark .equalEqual
  | .notEqual => .mark .notEqual

def Ident.kind (ident : Ident) : TokenKind := .identifier ident.name

def Ident.unplaced (ident : Ident) : Ident := ⟨ident.name, default⟩

namespace Expr

def unparse : Expr → List TokenKind
  | .identifier name _ => [.identifier name]
  | .integer text _ => [.integer text]
  | .float text _ => [.float text]
  | .element array index _ =>
      array.kind :: .mark .leftBracket :: (index.unparse ++ [.mark .rightBracket])
  | .paren inner _ => .mark .leftParen :: (inner.unparse ++ [.mark .rightParen])
  | .negate inner _ => .mark .minus :: inner.unparse
  | .binary op left right _ => left.unparse ++ op.kind :: right.unparse

def unplaced : Expr → Expr
  | .identifier name _ => .identifier name default
  | .integer text _ => .integer text default
  | .float text _ => .float text default
  | .element array index _ => .element array.unplaced index.unplaced default
  | .paren inner _ => .paren inner.unplaced default
  | .negate inner _ => .negate inner.unplaced default
  | .binary op left right _ => .binary op left.unplaced right.unplaced default

/-- A factor of a product: no operator stands between operands. -/
def isFactor : Expr → Bool
  | .binary .. => false
  | _ => true

/-- A term of a sum: no plus or minus stands between operands. -/
def isTerm : Expr → Bool
  | .binary op .. => op.isMultiplicative
  | _ => true

/-- Operators group to the left and bind as tight as they are written. -/
def Canonical : Expr → Prop
  | .identifier .. | .integer .. | .float .. => True
  | .element _ index _ => index.Canonical
  | .paren inner _ => inner.Canonical
  | .negate inner _ => inner.Canonical ∧ inner.isFactor
  | .binary op left right _ =>
      left.Canonical ∧ right.Canonical ∧
        if op.isMultiplicative then left.isTerm ∧ right.isFactor else right.isTerm

theorem is_term_of_is_factor {expr : Expr} (factor : expr.isFactor) : expr.isTerm := by
  cases expr with
  | binary op left right place => cases factor
  | identifier | integer | float | element | paren | negate => rfl

end Expr

namespace Cond

def unparse : Cond → List TokenKind
  | .compare op _ left right _ => left.unparse ++ op.kind :: right.unparse
  | .and left right _ => left.unparse ++ .keyword .andWord :: right.unparse
  | .or left right _ => left.unparse ++ .keyword .orWord :: right.unparse
  | .not inner _ => .mark .bang :: inner.unparse
  | .paren inner _ => .mark .leftParen :: (inner.unparse ++ [.mark .rightParen])

def unplaced : Cond → Cond
  | .compare op _ left right _ => .compare op default left.unplaced right.unplaced default
  | .and left right _ => .and left.unplaced right.unplaced default
  | .or left right _ => .or left.unplaced right.unplaced default
  | .not inner _ => .not inner.unplaced default
  | .paren inner _ => .paren inner.unplaced default

def isAtom : Cond → Bool
  | .and .. | .or .. => false
  | _ => true

/-- An alternative of a disjunction: a chain of atoms, or one of them. -/
def isConjunction : Cond → Bool
  | .or .. => false
  | _ => true

/-- The last atom is a negation, which takes every connective behind it. -/
def endsOpen : Cond → Bool
  | .not .. => true
  | .and _ right _ | .or _ right _ => right.endsOpen
  | .compare .. | .paren .. => false

/-- Connectives group to the left and bind as tight as they are written, and a negation reaches to
the end of its condition. -/
def Canonical : Cond → Prop
  | .compare _ _ left right _ => left.Canonical ∧ right.Canonical
  | .and left right _ =>
      left.Canonical ∧ right.Canonical ∧ left.isConjunction ∧ right.isAtom ∧ ¬ left.endsOpen
  | .or left right _ =>
      left.Canonical ∧ right.Canonical ∧ right.isConjunction ∧ ¬ left.endsOpen
  | .not inner _ | .paren inner _ => inner.Canonical

theorem is_conjunction_of_is_atom {cond : Cond} (atom : cond.isAtom) : cond.isConjunction := by
  cases cond with
  | or left right place => cases atom
  | compare | and | not | paren => rfl

end Cond

def Ident.unparseTail (names : List Ident) : List TokenKind :=
  names.flatMap fun name => [.mark .comma, name.kind]

namespace Stmt

def unparseItems : Option String → List Ident → List TokenKind
  | some text, names => .string text :: Ident.unparseTail names
  | none, first :: names => first.kind :: Ident.unparseTail names
  | none, [] => []

mutual

def unparse : Stmt → List TokenKind
  | .scalar name type _ =>
      [.keyword .letWord, name.kind, .mark .colon, type.kind, .mark .semicolon]
  | .array name element size _ _ =>
      [.keyword .letWord, name.kind, .mark .colon, .mark .leftBracket, element.kind,
        .mark .semicolon, .integer size, .mark .rightBracket, .mark .semicolon]
  | .constant name type _ value _ =>
      [.keyword .defineWord, .keyword .constWord, name.kind, .mark .colon, type.kind,
        .mark .equal] ++ value.unparse ++ [.mark .semicolon]
  | .assign target value _ =>
      [target.kind, .mark .colonEqual] ++ value.unparse ++ [.mark .semicolon]
  | .ifThen condition body _ =>
      [.keyword .ifWord, .mark .leftParen] ++ condition.unparse ++
        [.mark .rightParen, .keyword .thenWord, .mark .leftBrace] ++ unparseAll body ++
        [.mark .rightBrace]
  | .ifElse condition body otherwise _ =>
      [.keyword .ifWord, .mark .leftParen] ++ condition.unparse ++
        [.mark .rightParen, .keyword .thenWord, .mark .leftBrace] ++ unparseAll body ++
        [.mark .rightBrace, .keyword .elseWord, .mark .leftBrace] ++ unparseAll otherwise ++
        [.mark .rightBrace]
  | .doWhile body condition _ =>
      [.keyword .doWord, .mark .leftBrace] ++ unparseAll body ++
        [.mark .rightBrace, .keyword .whileWord, .mark .leftParen] ++ condition.unparse ++
        [.mark .rightParen, .mark .semicolon]
  | .forLoop counter first last step body _ =>
      [.keyword .forWord, counter.kind, .keyword .fromWord] ++ first.unparse ++
        [.keyword .toWord] ++ last.unparse ++ [.keyword .stepWord] ++ step.unparse ++
        [.mark .leftBrace] ++ unparseAll body ++ [.mark .rightBrace]
  | .input target _ =>
      [.keyword .inputWord, .mark .leftParen, target.kind, .mark .rightParen, .mark .semicolon]
  | .output text names _ =>
      [.keyword .outputWord, .mark .leftParen] ++ unparseItems text names ++
        [.mark .rightParen, .mark .semicolon]

def unparseAll : List Stmt → List TokenKind
  | [] => []
  | first :: rest => first.unparse ++ unparseAll rest

end

mutual

def unplaced : Stmt → Stmt
  | .scalar name type _ => .scalar name.unplaced type default
  | .array name element size _ _ => .array name.unplaced element size default default
  | .constant name type _ value _ => .constant name.unplaced type default value.unplaced default
  | .assign target value _ => .assign target.unplaced value.unplaced default
  | .ifThen condition body _ => .ifThen condition.unplaced (unplacedAll body) default
  | .ifElse condition body otherwise _ =>
      .ifElse condition.unplaced (unplacedAll body) (unplacedAll otherwise) default
  | .doWhile body condition _ => .doWhile (unplacedAll body) condition.unplaced default
  | .forLoop counter first last step body _ =>
      .forLoop counter.unplaced first.unplaced last.unplaced step.unplaced (unplacedAll body)
        default
  | .input target _ => .input target.unplaced default
  | .output text names _ => .output text (names.map Ident.unplaced) default

def unplacedAll : List Stmt → List Stmt
  | [] => []
  | first :: rest => first.unplaced :: unplacedAll rest

end

mutual

/-- All expressions and conditions are canonical, and an output without a text has one name. -/
def Canonical : Stmt → Prop
  | .scalar .. | .array .. | .input .. => True
  | .constant _ _ _ value _ | .assign _ value _ => value.Canonical
  | .ifThen condition body _ => condition.Canonical ∧ CanonicalAll body
  | .ifElse condition body otherwise _ =>
      condition.Canonical ∧ CanonicalAll body ∧ CanonicalAll otherwise
  | .doWhile body condition _ => CanonicalAll body ∧ condition.Canonical
  | .forLoop _ first last step body _ =>
      first.Canonical ∧ last.Canonical ∧ step.Canonical ∧ CanonicalAll body
  | .output text names _ => text = none → names.length = 1

def CanonicalAll : List Stmt → Prop
  | [] => True
  | first :: rest => first.Canonical ∧ CanonicalAll rest

end

end Stmt

def Program.unparse (program : Program) : List TokenKind := Stmt.unparseAll program

def Program.unplaced (program : Program) : Program := Stmt.unplacedAll program

def Program.Canonical (program : Program) : Prop := Stmt.CanonicalAll program

end ThreeAddress
