import ThreeAddress.Syntax.Parser

/-!
# The calls of an attempt

An attempt makes calls of other attempts, or of itself, and goes on by what they answer. For each of
them there is a script of that: which calls it makes, in which order and at which cursor, and what
it tells at the end. Nothing in a script bounds how deep the calls may go. Every function of the
grammar answers as its script says.
-/

namespace ThreeAddress

set_option autoImplicit false

abbrev Told (tokens : List Token) (α : Type) := Except SyntaxError α × Cursor tokens

/-- What an attempt tells, without the bound in its type. -/
def Attempt.told {tokens : List Token} {bound : Nat} {α : Type} :
    Attempt tokens bound α → Told tokens α
  | .done move => (.ok move.value, move.cursor)
  | .failed error cursor => (.error error, cursor)

namespace Cursor

inductive Call (tokens : List Token) : Type → Type
  | sign (mark : Mark) (cursor : Cursor tokens) : Call tokens Token
  | word (keyword : Keyword) (cursor : Cursor tokens) : Call tokens Token
  | ident (cursor : Cursor tokens) : Call tokens Ident
  | dataType (cursor : Cursor tokens) : Call tokens DataType
  | arraySize (cursor : Cursor tokens) : Call tokens (String × Position)
  | compareOp (cursor : Cursor tokens) : Call tokens (CompareOp × Position)
  | expression (cursor : Cursor tokens) : Call tokens Expr
  | sumTail (left : Expr) (cursor : Cursor tokens) : Call tokens Expr
  | product (cursor : Cursor tokens) : Call tokens Expr
  | productTail (left : Expr) (cursor : Cursor tokens) : Call tokens Expr
  | unary (cursor : Cursor tokens) : Call tokens Expr
  | atom (cursor : Cursor tokens) : Call tokens Expr
  | comparison (cursor : Cursor tokens) : Call tokens Cond
  | condition (cursor : Cursor tokens) : Call tokens Cond
  | orTail (left : Cond) (cursor : Cursor tokens) : Call tokens Cond
  | conjunction (cursor : Cursor tokens) : Call tokens Cond
  | andTail (left : Cond) (cursor : Cursor tokens) : Call tokens Cond
  | conditionAtom (cursor : Cursor tokens) : Call tokens Cond
  | parenCondition (cursor : Cursor tokens) : Call tokens Cond
  | declaredType (name : Ident) (cursor : Cursor tokens) : Call tokens (Place → Stmt)
  | declaration (cursor : Cursor tokens) : Call tokens (Place → Stmt)
  | constantDeclaration (cursor : Cursor tokens) : Call tokens (Place → Stmt)
  | assignment (cursor : Cursor tokens) : Call tokens (Place → Stmt)
  | input (cursor : Cursor tokens) : Call tokens (Place → Stmt)
  | commaNames (cursor : Cursor tokens) : Call tokens (List Ident)
  | outputItems (cursor : Cursor tokens) : Call tokens (Option String × List Ident)
  | output (cursor : Cursor tokens) : Call tokens (Place → Stmt)
  | statement (cursor : Cursor tokens) : Call tokens Stmt
  | conditional (cursor : Cursor tokens) : Call tokens (Place → Stmt)
  | alternative (test : Cond) (body : List Stmt) (cursor : Cursor tokens) : Call tokens (Place → Stmt)
  | doWhile (cursor : Cursor tokens) : Call tokens (Place → Stmt)
  | forLoop (cursor : Cursor tokens) : Call tokens (Place → Stmt)
  | block (cursor : Cursor tokens) : Call tokens (List Stmt)
  | blockItems (cursor : Cursor tokens) : Call tokens (List Stmt)
  | program (cursor : Cursor tokens) : Call tokens Program

def Call.answer {tokens : List Token} : {α : Type} → Call tokens α → Told tokens α
  | _, .sign mark cursor => (cursor.sign mark).told
  | _, .word keyword cursor => (cursor.word keyword).told
  | _, .ident cursor => cursor.ident.told
  | _, .dataType cursor => cursor.dataType.told
  | _, .arraySize cursor => cursor.arraySize.told
  | _, .compareOp cursor => cursor.compareOp.told
  | _, .expression cursor => cursor.expression.told
  | _, .sumTail left cursor => (cursor.sumTail left).told
  | _, .product cursor => cursor.product.told
  | _, .productTail left cursor => (cursor.productTail left).told
  | _, .unary cursor => cursor.unary.told
  | _, .atom cursor => cursor.atom.told
  | _, .comparison cursor => cursor.comparison.told
  | _, .condition cursor => cursor.condition.told
  | _, .orTail left cursor => (cursor.orTail left).told
  | _, .conjunction cursor => cursor.conjunction.told
  | _, .andTail left cursor => (cursor.andTail left).told
  | _, .conditionAtom cursor => cursor.conditionAtom.told
  | _, .parenCondition cursor => cursor.parenCondition.told
  | _, .declaredType name cursor => (cursor.declaredType name).told
  | _, .declaration cursor => cursor.declaration.told
  | _, .constantDeclaration cursor => cursor.constantDeclaration.told
  | _, .assignment cursor => cursor.assignment.told
  | _, .input cursor => cursor.input.told
  | _, .commaNames cursor => cursor.commaNames.told
  | _, .outputItems cursor => cursor.outputItems.told
  | _, .output cursor => cursor.output.told
  | _, .statement cursor => cursor.statement.told
  | _, .conditional cursor => cursor.conditional.told
  | _, .alternative test body cursor => (cursor.alternative test body).told
  | _, .doWhile cursor => cursor.doWhile.told
  | _, .forLoop cursor => cursor.forLoop.told
  | _, .block cursor => cursor.block.told
  | _, .blockItems cursor => cursor.blockItems.told
  | _, .program cursor => cursor.program

/-- Calls, each of them chosen by what the ones before it told, and what is told at the end. -/
inductive Script (tokens : List Token) (α : Type) : Type 1
  | done (told : Told tokens α) : Script tokens α
  | ask {β : Type} (call : Call tokens β) (next : Told tokens β → Script tokens α) : Script tokens α

namespace Script

variable {tokens : List Token} {α β : Type}

def give (value : α) (cursor : Cursor tokens) : Script tokens α :=
  .done (.ok value, cursor)

def refuse (expected : Expected) (cursor : Cursor tokens) : Script tokens α :=
  .done (.error ⟨expected, cursor.current⟩, cursor)

def pass (call : Call tokens α) : Script tokens α :=
  .ask call .done

def read (call : Call tokens β) (next : β → Cursor tokens → Script tokens α) : Script tokens α :=
  .ask call fun told =>
    match told with
    | (.ok value, cursor) => next value cursor
    | (.error error, cursor) => .done (.error error, cursor)

def chain (first : Call tokens α) (tail : α → Cursor tokens → Call tokens α) : Script tokens α :=
  read first fun left cursor => pass (tail left cursor)

def links (join? : TokenKind → Option (α → α → α)) (link : Cursor tokens → Call tokens α)
    (tail : α → Cursor tokens → Call tokens α) (left : α) (cursor : Cursor tokens) :
    Script tokens α :=
  match join? cursor.current.kind with
  | none => give left cursor
  | some join => read (link cursor.advance) fun right later => pass (tail (join left right) later)

def close (mark : Mark) (cursor : Cursor tokens) (value : Cursor tokens → α) : Script tokens α :=
  read (.sign mark cursor) fun _ later => give (value later) later

/-- What is told in the end, if every call is answered by its function. -/
def told : Script tokens α → Told tokens α
  | .done told => told
  | .ask call next => (next call.answer).told

def calls : Script tokens α → List (Σ β : Type, Call tokens β)
  | .done _ => []
  | .ask call next => ⟨_, call⟩ :: (next call.answer).calls

end Script

def joinsBy (op? : TokenKind → Option BinaryOp) (kind : TokenKind) :
    Option (Expr → Expr → Expr) :=
  (op? kind).map Expr.join

def joins (keyword : Keyword) (join : Cond → Cond → Cond) (kind : TokenKind) :
    Option (Cond → Cond → Cond) :=
  if kind = .keyword keyword then some join else none

section

open Script

variable {tokens : List Token}

def unaryScript (cursor : Cursor tokens) : Script tokens Expr :=
  if cursor.current.kind = .mark .minus then
    read (.unary cursor.advance) fun operand later =>
      give (.negate operand (later.placeFrom cursor.current)) later
  else pass (.atom cursor)

def atomScriptOf (cursor : Cursor tokens) : TokenKind → Script tokens Expr
  | .integer text => give (.integer text (cursor.advance.placeFrom cursor.current)) cursor.advance
  | .float text => give (.float text (cursor.advance.placeFrom cursor.current)) cursor.advance
  | .identifier name =>
      if cursor.advance.current.kind = .mark .leftBracket then
        read (.expression cursor.advance.advance) fun index later =>
          close .rightBracket later fun stop =>
            .element ⟨name, cursor.current.place⟩ index (stop.placeFrom cursor.current)
      else give (.identifier name (cursor.advance.placeFrom cursor.current)) cursor.advance
  | .mark .leftParen =>
      read (.expression cursor.advance) fun inner later =>
        close .rightParen later fun stop => .paren inner (stop.placeFrom cursor.current)
  | _ => refuse .expression cursor

def comparisonScript (cursor : Cursor tokens) : Script tokens Cond :=
  read (.expression cursor) fun left later =>
    read (.compareOp later) fun op later =>
      read (.expression later) fun right later =>
        give (.compare op.1 op.2 left right (left.place.join right.place)) later

def conditionAtomScript (cursor : Cursor tokens) : Script tokens Cond :=
  if cursor.current.kind = .mark .bang then
    read (.condition cursor.advance) fun inner later =>
      give (.not inner (later.placeFrom cursor.current)) later
  else if cursor.current.kind = .mark .leftParen then
    -- if this call fails, its cursor is dropped for the one it started with
    .ask (.parenCondition cursor) fun told =>
      match told with
      | (.ok cond, later) => give cond later
      | (.error _, _) => pass (.comparison cursor)
  else pass (.comparison cursor)

def parenConditionScript (cursor : Cursor tokens) : Script tokens Cond :=
  read (.sign .leftParen cursor) fun first later =>
    read (.condition later) fun inner later =>
      close .rightParen later fun stop => .paren inner (stop.placeFrom first)

def declaredTypeScript (name : Ident) (cursor : Cursor tokens) : Script tokens (Place → Stmt) :=
  if cursor.current.kind = .mark .leftBracket then
    read (.dataType cursor.advance) fun element later =>
      read (.sign .semicolon later) fun _ later =>
        read (.arraySize later) fun size later =>
          read (.sign .rightBracket later) fun _ later =>
            close .semicolon later fun _ => .array name element size.1 size.2
  else
    read (.dataType cursor) fun type later => close .semicolon later fun _ => .scalar name type

def declarationScript (cursor : Cursor tokens) : Script tokens (Place → Stmt) :=
  read (.word .letWord cursor) fun _ later =>
    read (.ident later) fun name later =>
      read (.sign .colon later) fun _ later => pass (.declaredType name later)

def constantDeclarationScript (cursor : Cursor tokens) : Script tokens (Place → Stmt) :=
  read (.word .defineWord cursor) fun _ later =>
    read (.word .constWord later) fun _ later =>
      read (.ident later) fun name later =>
        read (.sign .colon later) fun _ typed =>
          read (.dataType typed) fun type later =>
            read (.sign .equal later) fun _ later =>
              read (.expression later) fun value later =>
                close .semicolon later fun _ =>
                  .constant name type typed.current.place.position value

def assignmentScript (cursor : Cursor tokens) : Script tokens (Place → Stmt) :=
  read (.ident cursor) fun target later =>
    read (.sign .colonEqual later) fun _ later =>
      read (.expression later) fun value later =>
        close .semicolon later fun _ => .assign target value

def inputScript (cursor : Cursor tokens) : Script tokens (Place → Stmt) :=
  read (.word .inputWord cursor) fun _ later =>
    read (.sign .leftParen later) fun _ later =>
      read (.ident later) fun target later =>
        read (.sign .rightParen later) fun _ later =>
          close .semicolon later fun _ => .input target

def commaNamesScript (cursor : Cursor tokens) : Script tokens (List Ident) :=
  if cursor.current.kind = .mark .comma then
    read (.ident cursor.advance) fun name later =>
      read (.commaNames later) fun names later => give (name :: names) later
  else give [] cursor

def outputItemsScriptOf (cursor : Cursor tokens) :
    TokenKind → Script tokens (Option String × List Ident)
  | .string text =>
      read (.commaNames cursor.advance) fun names later => give (some text, names) later
  | _ => read (.ident cursor) fun name later => give (none, [name]) later

def outputScript (cursor : Cursor tokens) : Script tokens (Place → Stmt) :=
  read (.word .outputWord cursor) fun _ later =>
    read (.sign .leftParen later) fun _ later =>
      read (.outputItems later) fun items later =>
        read (.sign .rightParen later) fun _ later =>
          close .semicolon later fun _ => .output items.1 items.2

def statementCall? (cursor : Cursor tokens) : TokenKind → Option (Call tokens (Place → Stmt))
  | .keyword .letWord => some (.declaration cursor)
  | .keyword .defineWord => some (.constantDeclaration cursor)
  | .identifier _ => some (.assignment cursor)
  | .keyword .ifWord => some (.conditional cursor)
  | .keyword .doWord => some (.doWhile cursor)
  | .keyword .forWord => some (.forLoop cursor)
  | .keyword .inputWord => some (.input cursor)
  | .keyword .outputWord => some (.output cursor)
  | _ => none

def statementScript (cursor : Cursor tokens) : Script tokens Stmt :=
  match statementCall? cursor cursor.current.kind with
  | some call => read call fun kind later => give (kind (later.placeFrom cursor.current)) later
  | none => refuse .statement cursor

def conditionalScript (cursor : Cursor tokens) : Script tokens (Place → Stmt) :=
  read (.word .ifWord cursor) fun _ later =>
    read (.sign .leftParen later) fun _ later =>
      read (.condition later) fun test later =>
        read (.sign .rightParen later) fun _ later =>
          read (.word .thenWord later) fun _ later =>
            read (.block later) fun body later => pass (.alternative test body later)

def alternativeScript (test : Cond) (body : List Stmt) (cursor : Cursor tokens) :
    Script tokens (Place → Stmt) :=
  if cursor.current.kind = .keyword .elseWord then
    read (.block cursor.advance) fun otherwise later => give (.ifElse test body otherwise) later
  else give (.ifThen test body) cursor

def doWhileScript (cursor : Cursor tokens) : Script tokens (Place → Stmt) :=
  read (.word .doWord cursor) fun _ later =>
    read (.block later) fun body later =>
      read (.word .whileWord later) fun _ later =>
        read (.sign .leftParen later) fun _ later =>
          read (.condition later) fun test later =>
            read (.sign .rightParen later) fun _ later =>
              close .semicolon later fun _ => .doWhile body test

def forLoopScript (cursor : Cursor tokens) : Script tokens (Place → Stmt) :=
  read (.word .forWord cursor) fun _ later =>
    read (.ident later) fun counter later =>
      read (.word .fromWord later) fun _ later =>
        read (.expression later) fun low later =>
          read (.word .toWord later) fun _ later =>
            read (.expression later) fun high later =>
              read (.word .stepWord later) fun _ later =>
                read (.expression later) fun step later =>
                  read (.block later) fun body later =>
                    give (.forLoop counter low high step body) later

def blockScript (cursor : Cursor tokens) : Script tokens (List Stmt) :=
  read (.sign .leftBrace cursor) fun _ later =>
    read (.blockItems later) fun body later => close .rightBrace later fun _ => body

def blockItemsScript (cursor : Cursor tokens) : Script tokens (List Stmt) :=
  if cursor.current.kind = .mark .rightBrace ∨ cursor.current.kind = .endOfFile then give [] cursor
  else
    read (.statement cursor) fun item later =>
      read (.blockItems later) fun items later => give (item :: items) later

def programScript (cursor : Cursor tokens) : Script tokens Program :=
  if cursor.current.kind = .endOfFile then give [] cursor
  else
    read (.statement cursor) fun item later =>
      read (.program later) fun others later => give (item :: others) later

/-- The script of each function. One that looks at a single token makes no calls. -/
def Call.script : {α : Type} → Call tokens α → Script tokens α
  | _, .sign mark cursor => .done (cursor.sign mark).told
  | _, .word keyword cursor => .done (cursor.word keyword).told
  | _, .ident cursor => .done cursor.ident.told
  | _, .dataType cursor => .done cursor.dataType.told
  | _, .arraySize cursor => .done cursor.arraySize.told
  | _, .compareOp cursor => .done cursor.compareOp.told
  | _, .expression cursor => chain (.product cursor) .sumTail
  | _, .sumTail left cursor => links (joinsBy BinaryOp.ofSum?) .product .sumTail left cursor
  | _, .product cursor => chain (.unary cursor) .productTail
  | _, .productTail left cursor =>
      links (joinsBy BinaryOp.ofProduct?) .unary .productTail left cursor
  | _, .unary cursor => unaryScript cursor
  | _, .atom cursor => atomScriptOf cursor cursor.current.kind
  | _, .comparison cursor => comparisonScript cursor
  | _, .condition cursor => chain (.conjunction cursor) .orTail
  | _, .orTail left cursor => links (joins .orWord Cond.joinOr) .conjunction .orTail left cursor
  | _, .conjunction cursor => chain (.conditionAtom cursor) .andTail
  | _, .andTail left cursor =>
      links (joins .andWord Cond.joinAnd) .conditionAtom .andTail left cursor
  | _, .conditionAtom cursor => conditionAtomScript cursor
  | _, .parenCondition cursor => parenConditionScript cursor
  | _, .declaredType name cursor => declaredTypeScript name cursor
  | _, .declaration cursor => declarationScript cursor
  | _, .constantDeclaration cursor => constantDeclarationScript cursor
  | _, .assignment cursor => assignmentScript cursor
  | _, .input cursor => inputScript cursor
  | _, .commaNames cursor => commaNamesScript cursor
  | _, .outputItems cursor => outputItemsScriptOf cursor cursor.current.kind
  | _, .output cursor => outputScript cursor
  | _, .statement cursor => statementScript cursor
  | _, .conditional cursor => conditionalScript cursor
  | _, .alternative test body cursor => alternativeScript test body cursor
  | _, .doWhile cursor => doWhileScript cursor
  | _, .forLoop cursor => forLoopScript cursor
  | _, .block cursor => blockScript cursor
  | _, .blockItems cursor => blockItemsScript cursor
  | _, .program cursor => programScript cursor

end

end Cursor

/-! ## The functions answer as their scripts say -/

namespace Attempt

open Cursor Cursor.Script

variable {tokens : List Token} {α β : Type} {bound wider : Nat}
  {attempt : Attempt tokens bound β} {call : Call tokens β}

theorem told_widen (attempt : Attempt tokens bound α) (within : bound ≤ wider) :
    (attempt.widen within).told = attempt.told := by
  cases attempt with
  | done move => rfl
  | failed error cursor => rfl

variable {further : β → Cursor tokens → Script tokens α}

theorem told_and_then
    {next : (move : Move tokens bound β) → Attempt tokens move.cursor.remaining α}
    (asked : call.answer = attempt.told)
    (follows : ∀ move, (next move).told = (further move.value move.cursor).told) :
    (attempt.andThen next).told = (Script.read call further).told := by
  rw [Script.read, Script.told, asked]
  cases attempt with
  | done move => exact (told_widen _ (Nat.le_of_lt move.shorter)).trans (follows move)
  | failed error cursor => rfl

theorem told_and_tail
    {next : (move : Move tokens bound β) → Attempt tokens (move.cursor.remaining + 1) α}
    (asked : call.answer = attempt.told)
    (follows : ∀ move, (next move).told = (further move.value move.cursor).told) :
    (attempt.andTail next).told = (Script.read call further).told := by
  rw [Script.read, Script.told, asked]
  cases attempt with
  | done move => exact (told_widen _ move.shorter).trans (follows move)
  | failed error cursor => rfl

theorem told_map {f : Move tokens bound β → α} {value : β → Cursor tokens → α}
    (asked : call.answer = attempt.told)
    (follows : ∀ move, f move = value move.value move.cursor) :
    (attempt.map f).told =
      (Script.read call fun taken later => give (value taken later) later).told := by
  rw [Script.read, Script.told, asked]
  cases attempt with
  | done move =>
      rw [map, follows]
      rfl
  | failed error cursor => rfl

end Attempt

namespace Cursor

open Attempt Script

variable {tokens : List Token}

theorem told_close {α : Type} {mark : Mark} {cursor : Cursor tokens}
    {f : Move tokens cursor.remaining Token → α} {value : Cursor tokens → α}
    (follows : ∀ move, f move = value move.cursor) :
    ((cursor.sign mark).map f).told = (close mark cursor value).told :=
  told_map rfl follows

theorem told_sum_tail (left : Expr) (cursor : Cursor tokens) :
    (cursor.sumTail left).told =
      (links (joinsBy BinaryOp.ofSum?) .product .sumTail left cursor).told := by
  rw [sumTail, links, joinsBy]
  cases BinaryOp.ofSum? cursor.current.kind with
  | none => rfl
  | some op =>
      rw [told_widen]
      exact told_and_tail rfl fun _ => rfl

theorem told_product_tail (left : Expr) (cursor : Cursor tokens) :
    (cursor.productTail left).told =
      (links (joinsBy BinaryOp.ofProduct?) .unary .productTail left cursor).told := by
  rw [productTail, links, joinsBy]
  cases BinaryOp.ofProduct? cursor.current.kind with
  | none => rfl
  | some op =>
      rw [told_widen]
      exact told_and_tail rfl fun _ => rfl

theorem told_unary (cursor : Cursor tokens) : cursor.unary.told = (unaryScript cursor).told := by
  rw [unary, unaryScript]
  split
  · rw [told_widen]
    exact told_map rfl fun _ => rfl
  · rfl

theorem told_atom (cursor : Cursor tokens) :
    cursor.atom.told = (atomScriptOf cursor cursor.current.kind).told := by
  rw [atom]
  split
  next text found =>
    rw [congrArg (atomScriptOf cursor) found]
    rfl
  next text found =>
    rw [congrArg (atomScriptOf cursor) found]
    rfl
  next name found =>
    rw [congrArg (atomScriptOf cursor) found, atomScriptOf]
    split
    · rw [told_widen]
      exact told_and_then rfl fun _ => told_close fun _ => rfl
    · rfl
  next found =>
    rw [congrArg (atomScriptOf cursor) found, told_widen, atomScriptOf]
    exact told_and_then rfl fun _ => told_close fun _ => rfl
  next =>
    rw [atomScriptOf]
    · rfl
    all_goals assumption

theorem told_or_tail (left : Cond) (cursor : Cursor tokens) :
    (cursor.orTail left).told =
      (links (joins .orWord Cond.joinOr) .conjunction .orTail left cursor).told := by
  rw [orTail, links, joins]
  split
  · rw [told_widen]
    exact told_and_tail rfl fun _ => rfl
  · rfl

theorem told_and_tail_loop (left : Cond) (cursor : Cursor tokens) :
    (cursor.andTail left).told =
      (links (joins .andWord Cond.joinAnd) .conditionAtom .andTail left cursor).told := by
  rw [Cursor.andTail, links, joins]
  split
  · rw [told_widen]
    exact told_and_tail rfl fun _ => rfl
  · rfl

theorem told_condition_atom (cursor : Cursor tokens) :
    cursor.conditionAtom.told = (conditionAtomScript cursor).told := by
  rw [conditionAtom, conditionAtomScript]
  split
  · rw [told_widen]
    exact told_map rfl fun _ => rfl
  · split
    · have asked : (Call.parenCondition cursor).answer = cursor.parenCondition.told := rfl
      rw [Script.told, asked]
      cases cursor.parenCondition with
      | done move => rfl
      | failed error later => rfl
    · rfl

theorem told_declared_type (name : Ident) (cursor : Cursor tokens) :
    (cursor.declaredType name).told = (declaredTypeScript name cursor).told := by
  rw [declaredType, declaredTypeScript]
  split
  · rw [told_widen]
    exact told_and_then rfl fun _ => told_and_then rfl fun _ => told_and_then rfl fun _ =>
      told_and_then rfl fun _ => told_close fun _ => rfl
  · exact told_and_then rfl fun _ => told_close fun _ => rfl

theorem told_comma_names (cursor : Cursor tokens) :
    cursor.commaNames.told = (commaNamesScript cursor).told := by
  rw [commaNames, commaNamesScript]
  split
  · rw [told_widen]
    exact told_and_tail rfl fun _ => told_map rfl fun _ => rfl
  · rfl

theorem told_output_items (cursor : Cursor tokens) :
    cursor.outputItems.told = (outputItemsScriptOf cursor cursor.current.kind).told := by
  rw [outputItems]
  split
  next text found =>
    rw [congrArg (outputItemsScriptOf cursor) found, told_widen, outputItemsScriptOf]
    exact told_map rfl fun _ => rfl
  next =>
    rw [outputItemsScriptOf]
    · exact told_map rfl fun _ => rfl
    · assumption

theorem told_statement (cursor : Cursor tokens) :
    cursor.statement.told = (statementScript cursor).told := by
  rw [statement, statementScript]
  generalize cursor.current.kind = kind
  split
  case h_9 =>
    rw [statementCall?]
    · rfl
    all_goals assumption
  all_goals exact told_map rfl fun _ => rfl

theorem told_alternative (test : Cond) (body : List Stmt) (cursor : Cursor tokens) :
    (cursor.alternative test body).told = (alternativeScript test body cursor).told := by
  rw [alternative, alternativeScript]
  split
  · rw [told_widen]
    exact told_map rfl fun _ => rfl
  · rfl

theorem told_block (cursor : Cursor tokens) : cursor.block.told = (blockScript cursor).told := by
  have asked : (Call.sign .leftBrace cursor).answer = (cursor.sign .leftBrace).told := rfl
  rw [block, blockScript, Script.read, Script.told, asked]
  cases cursor.sign .leftBrace with
  | failed error later => rfl
  | done opening =>
      exact told_and_then (told_widen _ opening.shorter).symm fun _ => told_close fun _ => rfl

theorem told_block_items (cursor : Cursor tokens) :
    cursor.blockItems.told = (blockItemsScript cursor).told := by
  rw [blockItems, blockItemsScript]
  split
  · rfl
  · rw [told_widen]
    exact told_and_tail rfl fun _ => told_map rfl fun _ => rfl

theorem told_program (cursor : Cursor tokens) : cursor.program = (programScript cursor).told := by
  rw [program, programScript]
  split
  · rfl
  · have asked : (Call.statement cursor).answer = cursor.statement.told := rfl
    rw [Script.read, Script.told, asked]
    cases cursor.statement with
    | failed error later => rfl
    | done item =>
        have further : (Call.program item.cursor).answer = item.cursor.program := rfl
        simp only [Attempt.told, Script.read, Script.told, further]
        rcases item.cursor.program with ⟨others, later⟩
        cases others with
        | error error => rfl
        | ok others => rfl

/-- Every function of the grammar answers as its script says. -/
theorem Call.answer_eq_told {α : Type} (call : Call tokens α) :
    call.answer = call.script.told := by
  cases call with
  | sign mark cursor => rfl
  | word keyword cursor => rfl
  | ident cursor => rfl
  | dataType cursor => rfl
  | arraySize cursor => rfl
  | compareOp cursor => rfl
  | expression cursor =>
      rw [answer, Cursor.expression]
      exact told_and_tail rfl fun _ => rfl
  | sumTail left cursor => exact told_sum_tail left cursor
  | product cursor =>
      rw [answer, Cursor.product]
      exact told_and_tail rfl fun _ => rfl
  | productTail left cursor => exact told_product_tail left cursor
  | unary cursor => exact told_unary cursor
  | atom cursor => exact told_atom cursor
  | comparison cursor =>
      exact told_and_then rfl fun _ => told_and_then rfl fun _ => told_map rfl fun _ => rfl
  | condition cursor =>
      rw [answer, Cursor.condition]
      exact told_and_tail rfl fun _ => rfl
  | orTail left cursor => exact told_or_tail left cursor
  | conjunction cursor =>
      rw [answer, Cursor.conjunction]
      exact told_and_tail rfl fun _ => rfl
  | andTail left cursor => exact told_and_tail_loop left cursor
  | conditionAtom cursor => exact told_condition_atom cursor
  | parenCondition cursor =>
      rw [answer, Cursor.parenCondition]
      exact told_and_then rfl fun _ => told_and_then rfl fun _ => told_close fun _ => rfl
  | declaredType name cursor => exact told_declared_type name cursor
  | declaration cursor =>
      exact told_and_then rfl fun _ => told_and_then rfl fun _ => told_and_then rfl fun _ => rfl
  | constantDeclaration cursor =>
      exact told_and_then rfl fun _ => told_and_then rfl fun _ => told_and_then rfl fun _ =>
        told_and_then rfl fun _ => told_and_then rfl fun _ => told_and_then rfl fun _ =>
          told_and_then rfl fun _ => told_close fun _ => rfl
  | assignment cursor =>
      exact told_and_then rfl fun _ => told_and_then rfl fun _ => told_and_then rfl fun _ =>
        told_close fun _ => rfl
  | input cursor =>
      exact told_and_then rfl fun _ => told_and_then rfl fun _ => told_and_then rfl fun _ =>
        told_and_then rfl fun _ => told_close fun _ => rfl
  | commaNames cursor => exact told_comma_names cursor
  | outputItems cursor => exact told_output_items cursor
  | output cursor =>
      exact told_and_then rfl fun _ => told_and_then rfl fun _ => told_and_then rfl fun _ =>
        told_and_then rfl fun _ => told_close fun _ => rfl
  | statement cursor => exact told_statement cursor
  | conditional cursor =>
      rw [answer, Cursor.conditional]
      exact told_and_then rfl fun _ => told_and_then rfl fun _ => told_and_then rfl fun _ =>
        told_and_then rfl fun _ => told_and_then rfl fun _ => told_and_tail rfl fun _ => rfl
  | alternative test body cursor => exact told_alternative test body cursor
  | doWhile cursor =>
      rw [answer, Cursor.doWhile]
      exact told_and_then rfl fun _ => told_and_then rfl fun _ => told_and_then rfl fun _ =>
        told_and_then rfl fun _ => told_and_then rfl fun _ => told_and_then rfl fun _ =>
          told_close fun _ => rfl
  | forLoop cursor =>
      rw [answer, Cursor.forLoop]
      exact told_and_then rfl fun _ => told_and_then rfl fun _ => told_and_then rfl fun _ =>
        told_and_then rfl fun _ => told_and_then rfl fun _ => told_and_then rfl fun _ =>
          told_and_then rfl fun _ => told_and_then rfl fun _ => told_map rfl fun _ => rfl
  | block cursor => exact told_block cursor
  | blockItems cursor => exact told_block_items cursor
  | program cursor => exact told_program cursor

end Cursor

end ThreeAddress
