import ThreeAddress.Syntax.Condition

/-!
# Parsing statements

The first token of a statement decides which statement it is; the function for that statement takes
it once more. What such a function gives is a statement that still waits for its place, which only
the cursor behind the whole statement tells. A statement ends with a semicolon or with the brace
that closes its last block.
-/

namespace ThreeAddress.Cursor

set_option autoImplicit false

variable {tokens : List Token}

def arraySize (cursor : Cursor tokens) : Attempt tokens cursor.remaining (String × Position) :=
  match found : cursor.current.kind with
  | .integer text =>
      .done ⟨(text, cursor.current.place.position), cursor.advance,
        remaining_lt_of_integer found⟩
  | _ => cursor.reject .arraySize

/-- What follows the colon of the declaration of `name`: a type, or an element type and a size in
brackets. -/
def declaredType (name : Ident) (cursor : Cursor tokens) :
    Attempt tokens cursor.remaining (Place → Stmt) :=
  if cursor.current.kind = .mark .leftBracket then
    (cursor.advance.dataType.andThen fun element =>
      (element.cursor.sign .semicolon).andThen fun divider =>
        divider.cursor.arraySize.andThen fun size =>
          (size.cursor.sign .rightBracket).andThen fun close =>
            (close.cursor.sign .semicolon).map fun _ =>
              .array name element.value size.value.1 size.value.2).widen cursor.remaining_advance_le
  else
    cursor.dataType.andThen fun type =>
      (type.cursor.sign .semicolon).map fun _ => .scalar name type.value

def declaration (cursor : Cursor tokens) : Attempt tokens cursor.remaining (Place → Stmt) :=
  (cursor.word .letWord).andThen fun keyword =>
    keyword.cursor.ident.andThen fun name =>
      (name.cursor.sign .colon).andThen fun colon => colon.cursor.declaredType name.value

def constantDeclaration (cursor : Cursor tokens) : Attempt tokens cursor.remaining (Place → Stmt) :=
  (cursor.word .defineWord).andThen fun define =>
    (define.cursor.word .constWord).andThen fun const =>
      const.cursor.ident.andThen fun name =>
        (name.cursor.sign .colon).andThen fun colon =>
          colon.cursor.dataType.andThen fun type =>
            (type.cursor.sign .equal).andThen fun equal =>
              equal.cursor.expression.andThen fun value =>
                (value.cursor.sign .semicolon).map fun _ =>
                  .constant name.value type.value colon.cursor.current.place.position value.value

def assignment (cursor : Cursor tokens) : Attempt tokens cursor.remaining (Place → Stmt) :=
  cursor.ident.andThen fun target =>
    (target.cursor.sign .colonEqual).andThen fun becomes =>
      becomes.cursor.expression.andThen fun value =>
        (value.cursor.sign .semicolon).map fun _ => .assign target.value value.value

def input (cursor : Cursor tokens) : Attempt tokens cursor.remaining (Place → Stmt) :=
  (cursor.word .inputWord).andThen fun keyword =>
    (keyword.cursor.sign .leftParen).andThen fun lparen =>
      lparen.cursor.ident.andThen fun target =>
        (target.cursor.sign .rightParen).andThen fun rparen =>
          (rparen.cursor.sign .semicolon).map fun _ => .input target.value

def commaNames (cursor : Cursor tokens) : Attempt tokens (cursor.remaining + 1) (List Ident) :=
  if cursor.current.kind = .mark .comma then
    (cursor.advance.ident.andTail fun name =>
      (commaNames name.cursor).map fun names => name.value :: names.value).widen
        (Nat.le_succ_of_le cursor.remaining_advance_le)
  else .done ⟨[], cursor, Nat.lt_succ_self _⟩
termination_by cursor.remaining
decreasing_by
  have := name.shorter
  have := cursor.remaining_advance_le
  omega

/-- What stands between the parentheses of an output: a text and further names, or one name. -/
def outputItems (cursor : Cursor tokens) :
    Attempt tokens cursor.remaining (Option String × List Ident) :=
  match found : cursor.current.kind with
  | .string text =>
      (cursor.advance.commaNames.map fun names => (some text, names.value)).widen
        (remaining_advance_lt found TokenKind.noConfusion)
  | _ => cursor.ident.map fun name => (none, [name.value])

def output (cursor : Cursor tokens) : Attempt tokens cursor.remaining (Place → Stmt) :=
  (cursor.word .outputWord).andThen fun keyword =>
    (keyword.cursor.sign .leftParen).andThen fun lparen =>
      lparen.cursor.outputItems.andThen fun items =>
        (items.cursor.sign .rightParen).andThen fun rparen =>
          (rparen.cursor.sign .semicolon).map fun _ => .output items.value.1 items.value.2

mutual

def statement (cursor : Cursor tokens) : Attempt tokens cursor.remaining Stmt :=
  (match cursor.current.kind with
    | .keyword .letWord => declaration cursor
    | .keyword .defineWord => constantDeclaration cursor
    | .identifier _ => assignment cursor
    | .keyword .ifWord => conditional cursor
    | .keyword .doWord => doWhile cursor
    | .keyword .forWord => forLoop cursor
    | .keyword .inputWord => input cursor
    | .keyword .outputWord => output cursor
    | _ => cursor.reject .statement).map fun kind =>
      kind.value (kind.cursor.placeFrom cursor.current)
termination_by 5 * cursor.remaining + 1
decreasing_by all_goals omega

def conditional (cursor : Cursor tokens) : Attempt tokens cursor.remaining (Place → Stmt) :=
  (cursor.word .ifWord).andThen fun keyword =>
    (keyword.cursor.sign .leftParen).andThen fun lparen =>
      lparen.cursor.condition.andThen fun test =>
        (test.cursor.sign .rightParen).andThen fun rparen =>
          (rparen.cursor.word .thenWord).andThen fun thenWord =>
            (block thenWord.cursor).andTail fun body =>
              alternative test.value body.value body.cursor
termination_by 5 * cursor.remaining
decreasing_by
  all_goals
    have := keyword.shorter
    have := lparen.shorter
    have := test.shorter
    have := rparen.shorter
    have := thenWord.shorter
  · omega
  · have := body.shorter
    omega

def alternative (test : Cond) (body : List Stmt) (cursor : Cursor tokens) :
    Attempt tokens (cursor.remaining + 1) (Place → Stmt) :=
  if cursor.current.kind = .keyword .elseWord then
    ((block cursor.advance).map fun otherwise => .ifElse test body otherwise.value).widen
      (Nat.le_succ_of_le cursor.remaining_advance_le)
  else .done ⟨.ifThen test body, cursor, Nat.lt_succ_self _⟩
termination_by 5 * cursor.remaining + 4
decreasing_by
  have := cursor.remaining_advance_le
  omega

def doWhile (cursor : Cursor tokens) : Attempt tokens cursor.remaining (Place → Stmt) :=
  (cursor.word .doWord).andThen fun doWord =>
    (block doWord.cursor).andThen fun body =>
      (body.cursor.word .whileWord).andThen fun whileWord =>
        (whileWord.cursor.sign .leftParen).andThen fun lparen =>
          lparen.cursor.condition.andThen fun test =>
            (test.cursor.sign .rightParen).andThen fun rparen =>
              (rparen.cursor.sign .semicolon).map fun _ => .doWhile body.value test.value
termination_by 5 * cursor.remaining
decreasing_by
  have := doWord.shorter
  omega

def forLoop (cursor : Cursor tokens) : Attempt tokens cursor.remaining (Place → Stmt) :=
  (cursor.word .forWord).andThen fun keyword =>
    keyword.cursor.ident.andThen fun counter =>
      (counter.cursor.word .fromWord).andThen fun fromWord =>
        fromWord.cursor.expression.andThen fun low =>
          (low.cursor.word .toWord).andThen fun toWord =>
            toWord.cursor.expression.andThen fun high =>
              (high.cursor.word .stepWord).andThen fun stepWord =>
                stepWord.cursor.expression.andThen fun step =>
                  (block step.cursor).map fun body =>
                    .forLoop counter.value low.value high.value step.value body.value
termination_by 5 * cursor.remaining
decreasing_by
  have := keyword.shorter
  have := counter.shorter
  have := fromWord.shorter
  have := low.shorter
  have := toWord.shorter
  have := high.shorter
  have := stepWord.shorter
  have := step.shorter
  omega

def block (cursor : Cursor tokens) : Attempt tokens cursor.remaining (List Stmt) :=
  ((cursor.sign .leftBrace).andTail fun lbrace => blockItems lbrace.cursor).andThen fun body =>
    (body.cursor.sign .rightBrace).map fun _ => body.value
termination_by 5 * cursor.remaining + 3
decreasing_by
  have := lbrace.shorter
  omega

/-- Statements up to a closing brace or the end of the file. -/
def blockItems (cursor : Cursor tokens) : Attempt tokens (cursor.remaining + 1) (List Stmt) :=
  if cursor.current.kind = .mark .rightBrace ∨ cursor.current.kind = .endOfFile then
    .done ⟨[], cursor, Nat.lt_succ_self _⟩
  else
    ((statement cursor).andTail fun item =>
      (blockItems item.cursor).map fun items => item.value :: items.value).widen (Nat.le_succ _)
termination_by 5 * cursor.remaining + 2
decreasing_by
  · omega
  · have := item.shorter
    omega

end

/-- The statements up to the end of the file, and the cursor where they end or break off. -/
def program (cursor : Cursor tokens) : Except SyntaxError Program × Cursor tokens :=
  if cursor.current.kind = .endOfFile then (.ok [], cursor)
  else
    match statement cursor with
    | .failed error later => (.error error, later)
    | .done item =>
        let others := program item.cursor
        (others.1.map (item.value :: ·), others.2)
termination_by cursor.remaining
decreasing_by exact item.shorter

end ThreeAddress.Cursor
