import ThreeAddress.Syntax.Statement
import ThreeAddress.Proofs.Grammar.Condition

/-!
# Reading statements

The first token of a statement decides which statement it is. A statement ends with a semicolon or
with the brace that closes its last block.
-/

namespace ThreeAddress.Grammar

set_option autoImplicit false

def arraySize : (tokens : List Token) → Read tokens.length (String × Position)
  | [] => .fail ⟨.arraySize, []⟩
  | first :: rest =>
      match first.kind with
      | .integer text =>
          .ok ⟨(text, first.place.position), first.place.span, rest, Reading.behind_lt first rest⟩
      | _ => .fail ⟨.arraySize, first :: rest⟩

/-- What follows the colon of the declaration of `name`, which the token `first` starts: a type, or
an element type and a size in brackets. -/
def declaredType (first : Token) (name : Ident) (tokens : List Token) : Read tokens.length Stmt :=
  match tokens with
  | [] => .fail ⟨.dataType, []⟩
  | bracket :: inside =>
      if bracket.kind = .mark .leftBracket then
        ((dataType inside).andThen fun element =>
          (sign .semicolon element.rest).andThen fun divider =>
            (arraySize divider.rest).andThen fun size =>
              (sign .rightBracket size.rest).andThen fun close =>
                (sign .semicolon close.rest).map fun stop =>
                  .array name element.value size.value.1 size.value.2
                    (first.place.upTo stop.last)).widen (Reading.behind_le bracket inside)
      else
        (dataType (bracket :: inside)).andThen fun type =>
          (sign .semicolon type.rest).map fun stop =>
            .scalar name type.value (first.place.upTo stop.last)

/-- A variable or array declaration behind its keyword `first`. -/
def declaration (first : Token) (tokens : List Token) : Read tokens.length Stmt :=
  (ident tokens).andThen fun name =>
    (sign .colon name.rest).andThen fun colon => declaredType first name.value colon.rest

def positionOf : List Token → Position
  | [] => .first
  | first :: _ => first.place.position

def constantDeclaration (first : Token) (tokens : List Token) : Read tokens.length Stmt :=
  (word .constWord tokens).andThen fun const =>
    (ident const.rest).andThen fun name =>
      (sign .colon name.rest).andThen fun colon =>
        (dataType colon.rest).andThen fun type =>
          (sign .equal type.rest).andThen fun equal =>
            (expression equal.rest).andThen fun value =>
              (sign .semicolon value.rest).map fun stop =>
                .constant name.value type.value (positionOf colon.rest) value.value
                  (first.place.upTo stop.last)

def assignment (first : Token) (name : String) (tokens : List Token) : Read tokens.length Stmt :=
  (sign .colonEqual tokens).andThen fun becomes =>
    (expression becomes.rest).andThen fun value =>
      (sign .semicolon value.rest).map fun stop =>
        .assign ⟨name, first.place⟩ value.value (first.place.upTo stop.last)

def input (first : Token) (tokens : List Token) : Read tokens.length Stmt :=
  (sign .leftParen tokens).andThen fun lparen =>
    (ident lparen.rest).andThen fun target =>
      (sign .rightParen target.rest).andThen fun rparen =>
        (sign .semicolon rparen.rest).map fun stop =>
          .input target.value (first.place.upTo stop.last)

def commaNames (last : Span) (tokens : List Token) : Read (tokens.length + 1) (List Ident) :=
  match tokens with
  | [] => .ok ⟨[], last, [], Reading.nothing_lt⟩
  | comma :: rest =>
      if comma.kind = .mark .comma then
        ((ident rest).andTail fun name =>
          (commaNames name.last name.rest).map fun names =>
            name.value :: names.value).widen (Reading.behind_le_succ comma rest)
      else .ok ⟨[], last, comma :: rest, Reading.all_lt comma rest⟩
termination_by tokens.length
decreasing_by
  have := name.shorter
  simp only [List.length_cons]
  omega

def outputItems (tokens : List Token) : Read tokens.length (Option String × List Ident) :=
  match tokens with
  | [] => .fail ⟨.identifier, []⟩
  | first :: rest =>
      match first.kind with
      | .string text =>
          ((commaNames first.place.span rest).map fun names =>
            (some text, names.value)).widen (Reading.behind_lt first rest)
      | _ => (ident (first :: rest)).map fun name => (none, [name.value])

def output (first : Token) (tokens : List Token) : Read tokens.length Stmt :=
  (sign .leftParen tokens).andThen fun lparen =>
    (outputItems lparen.rest).andThen fun items =>
      (sign .rightParen items.rest).andThen fun rparen =>
        (sign .semicolon rparen.rest).map fun stop =>
          .output items.value.1 items.value.2 (first.place.upTo stop.last)

mutual

def statement (tokens : List Token) : Read tokens.length Stmt :=
  match tokens with
  | [] => .fail ⟨.statement, []⟩
  | first :: rest =>
      match first.kind with
      | .keyword .letWord => (declaration first rest).widen (Reading.behind_le first rest)
      | .keyword .defineWord =>
          (constantDeclaration first rest).widen (Reading.behind_le first rest)
      | .identifier name => (assignment first name rest).widen (Reading.behind_le first rest)
      | .keyword .ifWord => (conditional first rest).widen (Reading.behind_le first rest)
      | .keyword .doWord => (doWhile first rest).widen (Reading.behind_le first rest)
      | .keyword .forWord => (forLoop first rest).widen (Reading.behind_le first rest)
      | .keyword .inputWord => (input first rest).widen (Reading.behind_le first rest)
      | .keyword .outputWord => (output first rest).widen (Reading.behind_le first rest)
      | _ => .fail ⟨.statement, first :: rest⟩
termination_by 4 * tokens.length
decreasing_by
  all_goals
    simp only [List.length_cons]
    omega

def conditional (first : Token) (tokens : List Token) : Read tokens.length Stmt :=
  (sign .leftParen tokens).andThen fun lparen =>
    (condition lparen.rest).andThen fun test =>
      (sign .rightParen test.rest).andThen fun rparen =>
        (word .thenWord rparen.rest).andThen fun keyword =>
          (block keyword.rest).andTail fun body =>
            alternative first test.value body.value body.last body.rest
termination_by 4 * tokens.length + 3
decreasing_by
  all_goals
    have := lparen.shorter
    have := test.shorter
    have := rparen.shorter
    have := keyword.shorter
  · omega
  · have := body.shorter
    omega

def alternative (first : Token) (test : Cond) (body : List Stmt) (last : Span)
    (tokens : List Token) : Read (tokens.length + 1) Stmt :=
  match tokens with
  | [] => .ok ⟨.ifThen test body (first.place.upTo last), last, [], Reading.nothing_lt⟩
  | keyword :: rest =>
      if keyword.kind = .keyword .elseWord then
        ((block rest).map fun otherwise =>
          .ifElse test body otherwise.value (first.place.upTo otherwise.last)).widen
            (Reading.behind_le_succ keyword rest)
      else
        .ok ⟨.ifThen test body (first.place.upTo last), last, keyword :: rest,
          Reading.all_lt keyword rest⟩
termination_by 4 * tokens.length + 3
decreasing_by
  simp only [List.length_cons]
  omega

def doWhile (first : Token) (tokens : List Token) : Read tokens.length Stmt :=
  (block tokens).andThen fun body =>
    (word .whileWord body.rest).andThen fun keyword =>
      (sign .leftParen keyword.rest).andThen fun lparen =>
        (condition lparen.rest).andThen fun test =>
          (sign .rightParen test.rest).andThen fun rparen =>
            (sign .semicolon rparen.rest).map fun stop =>
              .doWhile body.value test.value (first.place.upTo stop.last)
termination_by 4 * tokens.length + 3
decreasing_by omega

def forLoop (first : Token) (tokens : List Token) : Read tokens.length Stmt :=
  (ident tokens).andThen fun counter =>
    (word .fromWord counter.rest).andThen fun fromWord =>
      (expression fromWord.rest).andThen fun low =>
        (word .toWord low.rest).andThen fun toWord =>
          (expression toWord.rest).andThen fun high =>
            (word .stepWord high.rest).andThen fun stepWord =>
              (expression stepWord.rest).andThen fun step =>
                (block step.rest).map fun body =>
                  .forLoop counter.value low.value high.value step.value body.value
                    (first.place.upTo body.last)
termination_by 4 * tokens.length + 3
decreasing_by
  have := counter.shorter
  have := fromWord.shorter
  have := low.shorter
  have := toWord.shorter
  have := high.shorter
  have := stepWord.shorter
  have := step.shorter
  omega

def block (tokens : List Token) : Read tokens.length (List Stmt) :=
  ((sign .leftBrace tokens).andTail fun lbrace => blockItems lbrace.last lbrace.rest).andThen
    fun body => (sign .rightBrace body.rest).map fun _ => body.value
termination_by 4 * tokens.length + 2
decreasing_by
  have := lbrace.shorter
  omega

/-- Statements up to a closing brace or the end of the file. -/
def blockItems (last : Span) (tokens : List Token) : Read (tokens.length + 1) (List Stmt) :=
  match tokens with
  | [] => .ok ⟨[], last, [], Reading.nothing_lt⟩
  | first :: rest =>
      if first.kind = .mark .rightBrace ∨ first.kind = .endOfFile then
        .ok ⟨[], last, first :: rest, Reading.all_lt first rest⟩
      else
        ((statement (first :: rest)).andTail fun item =>
          (blockItems item.last item.rest).map fun items =>
            item.value :: items.value).widen (Reading.all_le first rest)
termination_by 4 * tokens.length + 1
decreasing_by
  · omega
  · have := item.shorter
    omega

end

/-- The statements up to the end of the file, and the tokens from there on. -/
def program (tokens : List Token) : Except Failure (Program × List Token) :=
  match tokens with
  | [] => .ok ([], [])
  | first :: rest =>
      if first.kind = .endOfFile then .ok ([], first :: rest)
      else
        match statement (first :: rest) with
        | .fail failure => .error failure
        | .ok item =>
            (program item.rest).map fun others => (item.value :: others.1, others.2)
termination_by tokens.length
decreasing_by exact item.shorter

/-- The program of the tokens, or the error at the first of the tokens that were not read, and
these tokens. -/
def outcome (tokens : List Token) : Except SyntaxError Program × List Token :=
  match program tokens with
  | .ok (statements, rest) => (.ok statements, rest)
  | .error ⟨expected, rest⟩ => (.error ⟨expected, rest.headD (Token.endBehind none)⟩, rest)

theorem outcome_of_ok {tokens rest : List Token} {statements : Program}
    (read : program tokens = .ok (statements, rest)) : outcome tokens = (.ok statements, rest) := by
  rw [outcome, read]

theorem outcome_of_error {tokens rest : List Token} {expected : Expected}
    (failed : program tokens = .error ⟨expected, rest⟩) :
    outcome tokens = (.error ⟨expected, rest.headD (Token.endBehind none)⟩, rest) := by
  rw [outcome, failed]

section

variable {first : Token} {rest : List Token} (goesOn : first.kind ≠ .endOfFile)

include goesOn

theorem outcome_of_statement_fail {failure : Failure}
    (failed : statement (first :: rest) = .fail failure) :
    outcome (first :: rest) =
      (.error ⟨failure.expected, failure.rest.headD (Token.endBehind none)⟩, failure.rest) := by
  apply outcome_of_error
  rw [program, if_neg goesOn, failed]

theorem outcome_of_statement_ok {item : Reading (first :: rest).length Stmt}
    (read : statement (first :: rest) = .ok item) :
    outcome (first :: rest) =
      ((outcome item.rest).1.map (item.value :: ·), (outcome item.rest).2) := by
  cases others : program item.rest with
  | ok result =>
      rw [outcome_of_ok others]
      apply outcome_of_ok
      rw [program, if_neg goesOn, read]
      simp only [others]
      rfl
  | error failure =>
      rw [outcome_of_error others]
      apply outcome_of_error
      rw [program, if_neg goesOn, read]
      simp only [others]
      rfl

end

end ThreeAddress.Grammar
