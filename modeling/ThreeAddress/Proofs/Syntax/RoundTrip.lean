import Mathlib.Data.List.Basic
import ThreeAddress.Proofs.Syntax.Completeness
import ThreeAddress.Proofs.Grammar.Refinement

/-!
# Programs and their tokens determine each other

Statements are read back from what they unparse to. Main statement: parsing a token list gives the
one canonical program that unparses to it, and every canonical program is parsed from what it
unparses to.
-/

namespace ThreeAddress

set_option autoImplicit false

open Grammar Read

/-- No statement starts here: the block or the file ends, or an alternative follows. -/
def TokenKind.endsStatements : TokenKind → Bool
  | .keyword .elseWord | .mark .rightBrace | .endOfFile => true
  | _ => false

theorem Stmt.unparse_starts (stmt : Stmt) :
    ∃ kind rest, stmt.unparse = kind :: rest ∧ kind.endsStatements = false := by
  cases stmt <;> exact ⟨_, _, rfl, rfl⟩

namespace Stmt

/-- The statement but for its places, in front of exactly `tail`. -/
def ReadAs (stmt : Stmt) (tail : List TokenKind) (read : Stmt) (rest : List TokenKind) : Prop :=
  read.unplaced = stmt.unplaced ∧ rest = tail

def AllReadAs (stmts : List Stmt) (tail : List TokenKind) (read : List Stmt)
    (rest : List TokenKind) : Prop :=
  unplacedAll read = unplacedAll stmts ∧ rest = tail

end Stmt

attribute [local simp] Stmt.unplaced

namespace Grammar

section Simple

variable {tokens : List Token} {tail : List TokenKind}

theorem scalar_achieves (first : Token) (name : Ident) (type : DataType) (place : Place)
    (written : Token.kinds tokens =
      name.kind :: .mark .colon :: type.kind :: .mark .semicolon :: tail) :
    (declaration first tokens).Achieves ((Stmt.scalar name type place).ReadAs tail) := by
  rw [declaration]
  refine (ident_achieves written).and_then fun target named =>
    (sign_achieves named.2).and_then fun colon behind => ?_
  obtain ⟨word, rest, shape, kind, _⟩ := Token.exists_of_kinds_eq_cons behind
  have plain : word.kind ≠ .mark .leftBracket := by
    rw [kind]
    cases type <;> decide
  rw [shape] at behind ⊢
  rw [declaredType, if_neg plain]
  refine (data_type_achieves behind).and_then fun read typed =>
    (sign_achieves typed.2).map fun stop behind => ?_
  exact ⟨by simp [named.1, typed.1], behind⟩

theorem array_achieves (first : Token) (name : Ident) (element : DataType) (size : String)
    (position : Position) (place : Place)
    (written : Token.kinds tokens = name.kind :: .mark .colon :: .mark .leftBracket ::
      element.kind :: .mark .semicolon :: .integer size :: .mark .rightBracket ::
      .mark .semicolon :: tail) :
    (declaration first tokens).Achieves
      ((Stmt.array name element size position place).ReadAs tail) := by
  rw [declaration]
  refine (ident_achieves written).and_then fun target named =>
    (sign_achieves named.2).and_then fun colon behind => ?_
  obtain ⟨bracket, inside, shape, opened, behind⟩ := Token.exists_of_kinds_eq_cons behind
  rw [shape, declaredType, if_pos opened]
  refine ((data_type_achieves behind).and_then fun read typed =>
    (sign_achieves typed.2).and_then fun divider behind =>
      (array_size_achieves behind).and_then fun count sized =>
        (sign_achieves sized.2).and_then fun close behind =>
          (sign_achieves behind).map fun stop behind => ?_).widen _
  exact ⟨by simp [named.1, typed.1, sized.1], behind⟩

theorem constant_achieves (first : Token) (name : Ident) (type : DataType) (position : Position)
    {value : Expr} (canonical : value.Canonical) (place : Place)
    (written : Token.kinds tokens = .keyword .constWord :: name.kind :: .mark .colon ::
      type.kind :: .mark .equal :: (value.unparse ++ .mark .semicolon :: tail)) :
    (constantDeclaration first tokens).Achieves
      ((Stmt.constant name type position value place).ReadAs tail) := by
  rw [constantDeclaration]
  refine (word_achieves written).and_then fun const behind =>
    (ident_achieves behind).and_then fun target named =>
      (sign_achieves named.2).and_then fun colon behind =>
        (data_type_achieves behind).and_then fun read typed =>
          (sign_achieves typed.2).and_then fun equal behind =>
            (expression_achieves canonical behind (.cons (by decide))).and_then
              fun expr valued => (sign_achieves valued.2).map fun stop behind => ?_
  exact ⟨by simp [named.1, typed.1, valued.1], behind⟩

theorem assign_achieves (first : Token) (target : Ident) {value : Expr}
    (canonical : value.Canonical) (place : Place)
    (written : Token.kinds tokens =
      .mark .colonEqual :: (value.unparse ++ .mark .semicolon :: tail)) :
    (assignment first target.name tokens).Achieves
      ((Stmt.assign target value place).ReadAs tail) := by
  rw [assignment]
  refine (sign_achieves written).and_then fun becomes behind =>
    (expression_achieves canonical behind (.cons (by decide))).and_then
      fun expr valued => (sign_achieves valued.2).map fun stop behind => ?_
  exact ⟨by simp [Ident.unplaced, valued.1], behind⟩

theorem input_achieves (first : Token) (target : Ident) (place : Place)
    (written : Token.kinds tokens =
      .mark .leftParen :: target.kind :: .mark .rightParen :: .mark .semicolon :: tail) :
    (input first tokens).Achieves ((Stmt.input target place).ReadAs tail) := by
  rw [input]
  refine (sign_achieves written).and_then fun lparen behind =>
    (ident_achieves behind).and_then fun name named =>
      (sign_achieves named.2).and_then fun rparen behind =>
        (sign_achieves behind).map fun stop behind => ?_
  exact ⟨by simp [named.1], behind⟩

/-- Names behind commas are read up to the parenthesis that closes them. -/
theorem comma_names_achieves (names : List Ident) (last : Span)
    (written : Token.kinds tokens = Ident.unparseTail names ++ .mark .rightParen :: tail) :
    (commaNames last tokens).Achieves fun read rest =>
      read.map Ident.unplaced = names.map Ident.unplaced ∧ rest = .mark .rightParen :: tail := by
  induction names generalizing tokens last with
  | nil =>
      obtain ⟨close, rest, rfl, closed, behind⟩ := Token.exists_of_kinds_eq_cons written
      rw [commaNames, if_neg (by simp [closed])]
      exact ⟨_, rfl, rfl, by rw [Token.kinds_cons, closed, behind]⟩
  | cons name names ih =>
      obtain ⟨comma, rest, rfl, separated, behind⟩ := Token.exists_of_kinds_eq_cons written
      rw [commaNames, if_pos separated]
      refine ((ident_achieves behind).and_tail fun read named =>
        (ih read.last named.2).map fun others further => ?_).widen _
      exact ⟨by simp [named.1, further.1], further.2⟩

theorem output_items_achieves {text : Option String} {names : List Ident}
    (single : text = none → names.length = 1)
    (written : Token.kinds tokens = Stmt.unparseItems text names ++ .mark .rightParen :: tail) :
    (outputItems tokens).Achieves fun items rest =>
      items.1 = text ∧ items.2.map Ident.unplaced = names.map Ident.unplaced ∧
        rest = .mark .rightParen :: tail := by
  cases text with
  | some text =>
      obtain ⟨first, rest, rfl, quoted, behind⟩ := Token.exists_of_kinds_eq_cons written
      simp only [outputItems, quoted]
      refine ((comma_names_achieves names _ behind).map fun read named => ?_).widen _
      exact ⟨rfl, named⟩
  | none =>
      obtain ⟨name, rfl⟩ := List.length_eq_one_iff.mp (single rfl)
      obtain ⟨first, rest, rfl, kind, _⟩ := Token.exists_of_kinds_eq_cons written
      rw [Ident.kind] at kind
      simp only [outputItems, kind]
      refine (ident_achieves written).map fun read named => ?_
      exact ⟨rfl, by simp [named.1], named.2⟩

theorem output_achieves (first : Token) {text : Option String} {names : List Ident}
    (single : text = none → names.length = 1) (place : Place)
    (written : Token.kinds tokens = .mark .leftParen ::
      (Stmt.unparseItems text names ++ .mark .rightParen :: .mark .semicolon :: tail)) :
    (output first tokens).Achieves ((Stmt.output text names place).ReadAs tail) := by
  rw [output]
  refine (sign_achieves written).and_then fun lparen behind =>
    (output_items_achieves single behind).and_then fun items same =>
      (sign_achieves same.2.2).and_then fun rparen behind =>
        (sign_achieves behind).map fun stop behind => ?_
  exact ⟨by simp [same.1, same.2.1], behind⟩

end Simple

end Grammar

namespace Stmt

/-- No alternative follows a statement but its own. -/
theorem no_else_behind (stmts : List Stmt) {tail : List TokenKind}
    (noElse : ∀ kind ∈ tail.head?, kind ≠ .keyword .elseWord) :
    ∀ kind ∈ (unparseAll stmts ++ tail).head?, kind ≠ .keyword .elseWord := by
  cases stmts with
  | nil => exact noElse
  | cons stmt others =>
      obtain ⟨first, more, starts, opens⟩ := stmt.unparse_starts
      rw [unparseAll, starts]
      rintro kind member rfl
      cases member
      cases opens

def Readable (stmt : Stmt) : Prop :=
  ∀ ⦃tokens tail⦄, Token.kinds tokens = stmt.unparse ++ tail →
    (∀ kind ∈ tail.head?, kind ≠ .keyword .elseWord) →
    (statement tokens).Achieves (stmt.ReadAs tail)

def BlockReadable (stmts : List Stmt) : Prop :=
  ∀ ⦃tokens tail⦄ (last : Span),
    Token.kinds tokens = unparseAll stmts ++ .mark .rightBrace :: tail →
    (blockItems last tokens).Achieves (AllReadAs stmts (.mark .rightBrace :: tail))

namespace BlockReadable

variable {tokens : List Token} {tail : List TokenKind} {body : List Stmt}

theorem block (readable : BlockReadable body)
    (written : Token.kinds tokens =
      .mark .leftBrace :: (unparseAll body ++ .mark .rightBrace :: tail)) :
    (Grammar.block tokens).Achieves (AllReadAs body tail) := by
  rw [Grammar.block]
  refine ((sign_achieves written).and_tail fun lbrace behind =>
    readable lbrace.last behind).and_then fun items ⟨same, behind⟩ =>
      (sign_achieves behind).map fun close behind => ?_
  exact ⟨same, behind⟩

theorem if_then (readable : BlockReadable body) (first : Token) {condition : Cond}
    (canonical : condition.Canonical) (place : Place)
    (noElse : ∀ kind ∈ tail.head?, kind ≠ .keyword .elseWord)
    (written : Token.kinds tokens = .mark .leftParen :: (condition.unparse ++
      .mark .rightParen :: .keyword .thenWord :: .mark .leftBrace ::
        (unparseAll body ++ .mark .rightBrace :: tail))) :
    (conditional first tokens).Achieves ((Stmt.ifThen condition body place).ReadAs tail) := by
  rw [conditional]
  refine (sign_achieves written).and_then fun lparen behind =>
    (condition_achieves canonical behind (.cons (by decide)) (.cons (by decide))).and_then
      fun test ⟨sameTest, behind⟩ => (sign_achieves behind).and_then fun rparen behind =>
        (word_achieves behind).and_then fun keyword behind =>
          (readable.block behind).and_tail fun items ⟨sameBody, behind⟩ => ?_
  cases shape : items.rest with
  | nil =>
      rw [shape] at behind
      rw [alternative]
      exact ⟨_, rfl, by simp [sameTest, sameBody], behind⟩
  | cons next rest =>
      rw [shape] at behind
      have other : next.kind ≠ .keyword .elseWord := noElse next.kind (by rw [← behind]; rfl)
      rw [alternative, if_neg other]
      exact ⟨_, rfl, by simp [sameTest, sameBody], behind⟩

theorem if_else {otherwise : List Stmt} (readable : BlockReadable body)
    (readableElse : BlockReadable otherwise) (first : Token) {condition : Cond}
    (canonical : condition.Canonical) (place : Place)
    (written : Token.kinds tokens = .mark .leftParen :: (condition.unparse ++
      .mark .rightParen :: .keyword .thenWord :: .mark .leftBrace :: (unparseAll body ++
        .mark .rightBrace :: .keyword .elseWord :: .mark .leftBrace ::
          (unparseAll otherwise ++ .mark .rightBrace :: tail)))) :
    (conditional first tokens).Achieves
      ((Stmt.ifElse condition body otherwise place).ReadAs tail) := by
  rw [conditional]
  refine (sign_achieves written).and_then fun lparen behind =>
    (condition_achieves canonical behind (.cons (by decide)) (.cons (by decide))).and_then
      fun test ⟨sameTest, behind⟩ => (sign_achieves behind).and_then fun rparen behind =>
        (word_achieves behind).and_then fun keyword behind =>
          (readable.block behind).and_tail fun items ⟨sameBody, behind⟩ => ?_
  obtain ⟨next, rest, shape, same, behind⟩ := Token.exists_of_kinds_eq_cons behind
  rw [shape, alternative, if_pos same]
  refine ((readableElse.block behind).map fun others ⟨sameElse, behind⟩ => ?_).widen _
  exact ⟨by simp [sameTest, sameBody, sameElse], behind⟩

theorem do_while (readable : BlockReadable body) (first : Token) {condition : Cond}
    (canonical : condition.Canonical) (place : Place)
    (written : Token.kinds tokens = .mark .leftBrace :: (unparseAll body ++
      .mark .rightBrace :: .keyword .whileWord :: .mark .leftParen :: (condition.unparse ++
        .mark .rightParen :: .mark .semicolon :: tail))) :
    (Grammar.doWhile first tokens).Achieves
      ((Stmt.doWhile body condition place).ReadAs tail) := by
  rw [Grammar.doWhile]
  refine (readable.block written).and_then fun items ⟨sameBody, behind⟩ =>
    (word_achieves behind).and_then fun keyword behind =>
      (sign_achieves behind).and_then fun lparen behind =>
        (condition_achieves canonical behind (.cons (by decide)) (.cons (by decide))).and_then
          fun test ⟨sameTest, behind⟩ => (sign_achieves behind).and_then fun rparen behind =>
            (sign_achieves behind).map fun stop behind => ?_
  exact ⟨by simp [sameTest, sameBody], behind⟩

theorem for_loop (readable : BlockReadable body) (first : Token) (counter : Ident)
    {low high step : Expr} (canonicalLow : low.Canonical) (canonicalHigh : high.Canonical)
    (canonicalStep : step.Canonical) (place : Place)
    (written : Token.kinds tokens = counter.kind :: .keyword .fromWord :: (low.unparse ++
      .keyword .toWord :: (high.unparse ++ .keyword .stepWord :: (step.unparse ++
        .mark .leftBrace :: (unparseAll body ++ .mark .rightBrace :: tail))))) :
    (Grammar.forLoop first tokens).Achieves
      ((Stmt.forLoop counter low high step body place).ReadAs tail) := by
  rw [Grammar.forLoop]
  refine (ident_achieves written).and_then fun name ⟨sameName, behind⟩ =>
    (word_achieves behind).and_then fun fromWord behind =>
      (expression_achieves canonicalLow behind (.cons (by decide))).and_then
        fun lower ⟨sameLow, behind⟩ => (word_achieves behind).and_then fun toWord behind =>
          (expression_achieves canonicalHigh behind (.cons (by decide))).and_then
            fun upper ⟨sameHigh, behind⟩ => (word_achieves behind).and_then fun stepWord behind =>
              (expression_achieves canonicalStep behind (.cons (by decide))).and_then
                fun stride ⟨sameStep, behind⟩ => (readable.block behind).map
                  fun items ⟨sameBody, behind⟩ => ?_
  exact ⟨by simp [sameName, sameLow, sameHigh, sameStep, sameBody], behind⟩

end BlockReadable

mutual

theorem readable (stmt : Stmt) (canonical : stmt.Canonical) : stmt.Readable := by
  intro tokens tail written noElse
  match stmt with
  | .scalar name type place =>
      obtain ⟨first, rest, rfl, kind, behind⟩ := Token.exists_of_kinds_eq_cons written
      simp only [statement, kind]
      exact (scalar_achieves first name type place behind).widen _
  | .array name element size position place =>
      obtain ⟨first, rest, rfl, kind, behind⟩ := Token.exists_of_kinds_eq_cons written
      simp only [statement, kind]
      exact (array_achieves first name element size position place behind).widen _
  | .constant name type position value place =>
      simp only [unparse, List.cons_append, List.nil_append, List.append_assoc] at written
      obtain ⟨first, rest, rfl, kind, behind⟩ := Token.exists_of_kinds_eq_cons written
      simp only [statement, kind]
      exact (constant_achieves first name type position canonical place behind).widen _
  | .assign target value place =>
      simp only [unparse, List.cons_append, List.nil_append, List.append_assoc] at written
      obtain ⟨first, rest, rfl, kind, behind⟩ := Token.exists_of_kinds_eq_cons written
      rw [Ident.kind] at kind
      simp only [statement, kind]
      exact (assign_achieves first target canonical place behind).widen _
  | .ifThen condition body place =>
      simp only [unparse, List.cons_append, List.nil_append, List.append_assoc] at written
      obtain ⟨first, rest, rfl, kind, behind⟩ := Token.exists_of_kinds_eq_cons written
      simp only [statement, kind]
      exact ((block_readable body canonical.2).if_then first canonical.1 place noElse
        behind).widen _
  | .ifElse condition body otherwise place =>
      simp only [unparse, List.cons_append, List.nil_append, List.append_assoc] at written
      obtain ⟨first, rest, rfl, kind, behind⟩ := Token.exists_of_kinds_eq_cons written
      simp only [statement, kind]
      exact ((block_readable body canonical.2.1).if_else
        (block_readable otherwise canonical.2.2) first canonical.1 place behind).widen _
  | .doWhile body condition place =>
      simp only [unparse, List.cons_append, List.nil_append, List.append_assoc] at written
      obtain ⟨first, rest, rfl, kind, behind⟩ := Token.exists_of_kinds_eq_cons written
      simp only [statement, kind]
      exact ((block_readable body canonical.1).do_while first canonical.2 place behind).widen _
  | .forLoop counter low high step body place =>
      obtain ⟨canonicalLow, canonicalHigh, canonicalStep, canonicalBody⟩ := canonical
      simp only [unparse, List.cons_append, List.nil_append, List.append_assoc] at written
      obtain ⟨first, rest, rfl, kind, behind⟩ := Token.exists_of_kinds_eq_cons written
      simp only [statement, kind]
      exact ((block_readable body canonicalBody).for_loop first counter canonicalLow
        canonicalHigh canonicalStep place behind).widen _
  | .input target place =>
      obtain ⟨first, rest, rfl, kind, behind⟩ := Token.exists_of_kinds_eq_cons written
      simp only [statement, kind]
      exact (input_achieves first target place behind).widen _
  | .output text names place =>
      simp only [unparse, List.cons_append, List.nil_append, List.append_assoc] at written
      obtain ⟨first, rest, rfl, kind, behind⟩ := Token.exists_of_kinds_eq_cons written
      simp only [statement, kind]
      exact (output_achieves first canonical place behind).widen _

theorem block_readable (stmts : List Stmt) (canonical : CanonicalAll stmts) :
    BlockReadable stmts := by
  intro tokens tail last written
  match stmts with
  | [] =>
      obtain ⟨close, rest, rfl, closed, behind⟩ := Token.exists_of_kinds_eq_cons written
      rw [blockItems, if_pos (.inl closed)]
      exact ⟨_, rfl, rfl, by rw [Token.kinds_cons, closed, behind]⟩
  | stmt :: others =>
      rw [unparseAll, List.append_assoc] at written
      obtain ⟨kind, more, starts, opens⟩ := stmt.unparse_starts
      have shape := written
      rw [starts, List.cons_append] at shape
      obtain ⟨first, rest, rfl, same, _⟩ := Token.exists_of_kinds_eq_cons shape
      have goesOn : ¬ (first.kind = .mark .rightBrace ∨ first.kind = .endOfFile) := by
        rintro (brace | final)
        · rw [← same, brace] at opens
          cases opens
        · rw [← same, final] at opens
          cases opens
      rw [blockItems, if_neg goesOn]
      refine ((readable stmt canonical.1 written ?_).and_tail fun item ⟨sameItem, behind⟩ =>
        (block_readable others canonical.2 item.last behind).map
          fun items ⟨sameItems, behind⟩ => ?_).widen _
      · exact no_else_behind others (by simp)
      · exact ⟨by simp [unplacedAll, sameItem, sameItems], behind⟩

end

end Stmt

/-- The end of the file is no part of what is written. -/
theorem Expr.end_of_file_not_mem_unparse (expr : Expr) : .endOfFile ∉ expr.unparse := by
  induction expr with
  | identifier | integer | float => simp [unparse]
  | element array index place ih => simp [unparse, Ident.kind, ih]
  | paren inner place ih | negate inner place ih => simp [unparse, ih]
  | binary op left right place ihLeft ihRight => cases op <;> simp [unparse, BinaryOp.kind, *]

theorem Cond.end_of_file_not_mem_unparse (cond : Cond) : .endOfFile ∉ cond.unparse := by
  induction cond with
  | compare op position left right place =>
      cases op <;> simp [unparse, CompareOp.kind, Expr.end_of_file_not_mem_unparse]
  | and left right place ihLeft ihRight | or left right place ihLeft ihRight =>
      simp [unparse, ihLeft, ihRight]
  | not inner place ih | paren inner place ih => simp [unparse, ih]

theorem Stmt.end_of_file_not_mem_unparse_items (text : Option String) (names : List Ident) :
    .endOfFile ∉ unparseItems text names := by
  cases text with
  | some text => simp [unparseItems, Ident.unparseTail, Ident.kind]
  | none => cases names <;> simp [unparseItems, Ident.unparseTail, Ident.kind]

theorem DataType.kind_ne_end_of_file (type : DataType) : .endOfFile ≠ type.kind := by
  cases type <;> exact nofun

mutual

theorem Stmt.end_of_file_not_mem_unparse (stmt : Stmt) : .endOfFile ∉ stmt.unparse := by
  match stmt with
  | .scalar name type place => simp [Stmt.unparse, Ident.kind, type.kind_ne_end_of_file]
  | .array name element size position place =>
      simp [Stmt.unparse, Ident.kind, element.kind_ne_end_of_file]
  | .constant name type position value place =>
      simp [Stmt.unparse, Ident.kind, type.kind_ne_end_of_file, value.end_of_file_not_mem_unparse]
  | .assign target value place =>
      simp [Stmt.unparse, Ident.kind, value.end_of_file_not_mem_unparse]
  | .ifThen condition body place =>
      simp [Stmt.unparse, condition.end_of_file_not_mem_unparse,
        Stmt.end_of_file_not_mem_unparse_all body]
  | .ifElse condition body otherwise place =>
      simp [Stmt.unparse, condition.end_of_file_not_mem_unparse,
        Stmt.end_of_file_not_mem_unparse_all body, Stmt.end_of_file_not_mem_unparse_all otherwise]
  | .doWhile body condition place =>
      simp [Stmt.unparse, condition.end_of_file_not_mem_unparse,
        Stmt.end_of_file_not_mem_unparse_all body]
  | .forLoop counter low high step body place =>
      simp [Stmt.unparse, Ident.kind, low.end_of_file_not_mem_unparse,
        high.end_of_file_not_mem_unparse, step.end_of_file_not_mem_unparse,
        Stmt.end_of_file_not_mem_unparse_all body]
  | .input target place => simp [Stmt.unparse, Ident.kind]
  | .output text names place =>
      simp [Stmt.unparse, Stmt.end_of_file_not_mem_unparse_items text names]

theorem Stmt.end_of_file_not_mem_unparse_all (stmts : List Stmt) :
    .endOfFile ∉ Stmt.unparseAll stmts := by
  match stmts with
  | [] => exact List.not_mem_nil
  | first :: rest =>
      simp [Stmt.unparseAll, first.end_of_file_not_mem_unparse,
        Stmt.end_of_file_not_mem_unparse_all rest]

end

namespace Grammar

/-- A program ends in front of an end of the file, or with its tokens. -/
theorem program_ensures (tokens : List Token) {program : Program} {rest : List Token}
    (done : Grammar.program tokens = .ok (program, rest)) :
    Token.kinds tokens = program.unparse ++ Token.kinds rest ∧ program.Canonical ∧
      ∀ kind ∈ (Token.kinds rest).head?, kind = .endOfFile := by
  match tokens with
  | [] =>
      rw [Grammar.program] at done
      cases done
      exact ⟨rfl, trivial, by simp⟩
  | first :: others =>
      rw [Grammar.program] at done
      split at done
      · rename_i final
        cases done
        exact ⟨rfl, trivial, by simp [final]⟩
      · split at done
        · cases done
        · rename_i item took
          obtain ⟨written, canonical⟩ := statement_ensures (first :: others) item took
          cases behind : Grammar.program item.rest with
          | error failure =>
              rw [behind] at done
              cases done
          | ok further =>
              rw [behind] at done
              cases done
              obtain ⟨writtenRest, canonicalRest, final⟩ := program_ensures item.rest behind
              refine ⟨?_, ⟨canonical, canonicalRest⟩, final⟩
              rw [written, writtenRest, ← List.append_assoc]
              rfl
termination_by tokens.length
decreasing_by exact Reading.shorter _

theorem program_achieves (program : Program) (canonical : program.Canonical)
    {tokens : List Token} (written : Token.kinds tokens = program.unparse ++ [.endOfFile]) :
    ∃ read rest, Grammar.program tokens = .ok (read, rest) ∧ read.unplaced = program.unplaced := by
  induction program generalizing tokens with
  | nil =>
      obtain ⟨last, rest, rfl, final, _⟩ := Token.exists_of_kinds_eq_cons written
      exact ⟨[], last :: rest, by rw [Grammar.program, if_pos final], rfl⟩
  | cons stmt others ih =>
      rw [Program.unparse, Stmt.unparseAll, List.append_assoc] at written
      obtain ⟨kind, more, starts, opens⟩ := stmt.unparse_starts
      have shape := written
      rw [starts, List.cons_append] at shape
      obtain ⟨first, rest, rfl, same, _⟩ := Token.exists_of_kinds_eq_cons shape
      have goesOn : first.kind ≠ .endOfFile := by
        intro final
        rw [← same, final] at opens
        cases opens
      obtain ⟨item, took, sameItem, behind⟩ := stmt.readable canonical.1 written
        (Stmt.no_else_behind others (by simp))
      obtain ⟨read, left, done, sameRest⟩ := ih canonical.2 behind
      refine ⟨item.value :: read, left, ?_, ?_⟩
      · rw [Grammar.program, if_neg goesOn, took]
        simp only [done]
        rfl
      · rw [Program.unplaced] at sameRest ⊢
        rw [Stmt.unplacedAll, sameItem, sameRest]
        rfl

end Grammar

namespace Token

/-- The only end of the file is the last token. -/
def Closed (tokens : List Token) : Prop :=
  ∃ body, kinds tokens = body ++ [.endOfFile] ∧ .endOfFile ∉ body

theorem close_list_of_kinds {tokens : List Token} {body : List TokenKind}
    (ends : kinds tokens = body ++ [.endOfFile]) : closeList tokens = tokens := by
  obtain ⟨before, behind, rfl, _, final⟩ := List.map_eq_append_iff.mp ends
  obtain ⟨last, nothing, rfl, kind, empty⟩ := exists_of_kinds_eq_cons final
  rw [List.map_eq_nil_iff.mp empty, closeList, List.getLast?_append]
  simp [kind]

def bare (kinds : List TokenKind) : List Token := kinds.map (⟨·, default⟩)

theorem kinds_bare (body : List TokenKind) : kinds (bare body) = body := by
  simp [kinds, bare, Function.comp_def]

end Token

/-- Tokens with an end of the file behind them are parsed as they stand. -/
theorem parse_tokens_eq_ok_iff {tokens : List Token} {body : List TokenKind}
    (ends : Token.kinds tokens = body ++ [.endOfFile]) (program : Program) :
    parseTokens tokens = .ok program ↔
      ∃ rest, Grammar.program tokens = .ok (program, rest) := by
  rw [parse_tokens_eq, Token.close_list_of_kinds ends, Grammar.outcome]
  cases Grammar.program tokens with
  | ok read => simp [Prod.ext_iff]
  | error failure => simp

theorem parse_tokens_sound {tokens : List Token} (closed : Token.Closed tokens)
    {program : Program} (done : parseTokens tokens = .ok program) :
    Token.kinds tokens = program.unparse ++ [.endOfFile] ∧ program.Canonical := by
  obtain ⟨body, ends, once⟩ := closed
  obtain ⟨rest, read⟩ := (parse_tokens_eq_ok_iff ends program).mp done
  obtain ⟨written, canonical, final⟩ := Grammar.program_ensures tokens read
  refine ⟨?_, canonical⟩
  have clean : .endOfFile ∉ program.unparse := Stmt.end_of_file_not_mem_unparse_all program
  rw [ends] at written
  cases left : Token.kinds rest with
  | nil =>
      rw [left, List.append_nil] at written
      exact absurd (written ▸ List.mem_append_right body List.mem_cons_self) clean
  | cons kind more =>
      rw [left] at written final
      cases final kind rfl
      obtain ⟨rfl, _⟩ := (List.append_cons_inj_of_notMem once List.not_mem_nil).mp written
      exact ends

theorem parse_tokens_complete {program : Program} (canonical : program.Canonical)
    {tokens : List Token} (written : Token.kinds tokens = program.unparse ++ [.endOfFile]) :
    ∃ read, parseTokens tokens = .ok read ∧ read.unplaced = program.unplaced := by
  obtain ⟨read, rest, done, same⟩ := Grammar.program_achieves program canonical written
  exact ⟨read, (parse_tokens_eq_ok_iff written read).mpr ⟨rest, done⟩, same⟩

/-- Parsing and unparsing are inverse to each other between the token lists that are accepted and
the canonical programs, whatever the places are. -/
theorem parse_tokens_unparse_inverse :
    (∀ (tokens : List Token) (program : Program), Token.Closed tokens →
      parseTokens tokens = .ok program →
        program.unparse ++ [.endOfFile] = Token.kinds tokens ∧ program.Canonical) ∧
    (∀ (program : Program) (tokens : List Token), program.Canonical →
      Token.kinds tokens = program.unparse ++ [.endOfFile] →
        ∃ read, parseTokens tokens = .ok read ∧ read.unplaced = program.unplaced) := by
  constructor
  · intro tokens program closed done
    obtain ⟨written, canonical⟩ := parse_tokens_sound closed done
    exact ⟨written.symm, canonical⟩
  · intro program tokens canonical written
    exact parse_tokens_complete canonical written

/-- A program whose condition is `! a < 1 AND (b) > 2`: the negation takes the whole conjunction,
and the parenthesis starts a comparison. -/
def negatedChain : Program :=
  [.ifThen
    (.not
      (.and
        (.compare .less default (.identifier "a" default) (.integer "1" default) default)
        (.compare .greater default (.paren (.identifier "b" default) default)
          (.integer "2" default) default)
        default)
      default)
    [] default]

theorem canonical_negated_chain : negatedChain.Canonical := by
  simp [negatedChain, Program.Canonical, Stmt.CanonicalAll, Stmt.Canonical, Cond.Canonical,
    Expr.Canonical, Cond.isConjunction, Cond.isAtom, Cond.endsOpen]

theorem closed_negated_chain :
    Token.Closed (Token.bare (negatedChain.unparse ++ [.endOfFile])) :=
  ⟨negatedChain.unparse, Token.kinds_bare _, Stmt.end_of_file_not_mem_unparse_all negatedChain⟩

theorem parse_tokens_negated_chain :
    ∃ read, parseTokens (Token.bare (negatedChain.unparse ++ [.endOfFile])) = .ok read ∧
      read.unplaced = negatedChain.unplaced ∧
      read.unparse ++ [.endOfFile] =
        Token.kinds (Token.bare (negatedChain.unparse ++ [.endOfFile])) ∧
      read.Canonical := by
  obtain ⟨read, done, same⟩ := parse_tokens_unparse_inverse.2 negatedChain _
    canonical_negated_chain (Token.kinds_bare _)
  exact ⟨read, done, same, parse_tokens_unparse_inverse.1 _ read closed_negated_chain done⟩

end ThreeAddress
