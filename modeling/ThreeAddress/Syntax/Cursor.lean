import ThreeAddress.Syntax.Basic
import ThreeAddress.Token.Basic

/-!
# Where a parser stands

A `Cursor` into a token list has the index of the next token and the span of the token taken last,
from which the tree nodes get their ends. An attempt to parse something leaves a cursor in either
case: behind what it parsed, or at the token it could not take. After a failure that span is of
whatever token happened to be taken last, so it means nothing for the next attempt.

A successful attempt leaves fewer tokens than a bound that its type names, which is what lets the
functions of the grammar call each other.
-/

namespace ThreeAddress

set_option autoImplicit false

/-- What the grammar allows at a place where something else was found. -/
inductive Expected where
  | token (kind : TokenKind)
  | identifier
  | dataType
  | statement
  | arraySize
  | comparison
  | expression
deriving DecidableEq

def Expected.describe : Expected → String
  | .token kind => kind.describe
  | .identifier => "identifier"
  | .dataType => "'Int' or 'Float'"
  | .statement => "statement"
  | .arraySize => "array size"
  | .comparison => "comparison operator"
  | .expression => "expression"

structure SyntaxError where
  expected : Expected
  found : Token
deriving DecidableEq

def SyntaxError.message (error : SyntaxError) : String :=
  s!"expected {error.expected.describe}, found {error.found.kind.describe}"

/-- An end of the file behind `last`, or at the start of an empty text. -/
def Token.endBehind : Option Token → Token
  | none => ⟨.endOfFile, default⟩
  | some last => ⟨.endOfFile, ⟨⟨last.place.span.stop, last.place.span.stop⟩, last.place.position⟩⟩

theorem TokenKind.mark_ne_end (mark : Mark) : TokenKind.mark mark ≠ .endOfFile :=
  TokenKind.noConfusion

theorem TokenKind.keyword_ne_end (keyword : Keyword) : TokenKind.keyword keyword ≠ .endOfFile :=
  TokenKind.noConfusion

structure Cursor (tokens : List Token) where
  index : Nat
  /-- The span of the token taken last, empty before the first one. -/
  previous : Span
  inside : index ≤ tokens.length
deriving DecidableEq

namespace Cursor

variable {tokens : List Token}

def start (tokens : List Token) : Cursor tokens :=
  ⟨0, default, Nat.zero_le _⟩

def rest (cursor : Cursor tokens) : List Token :=
  tokens.drop cursor.index

def remaining (cursor : Cursor tokens) : Nat :=
  tokens.length - cursor.index

def current (cursor : Cursor tokens) : Token :=
  cursor.rest.headD (Token.endBehind none)

theorem index_lt_of_current {cursor : Cursor tokens} (goesOn : cursor.current.kind ≠ .endOfFile) :
    cursor.index < tokens.length := by
  apply Nat.lt_of_not_le
  intro past
  apply goesOn
  rw [current, rest, List.drop_eq_nil_of_le past]
  rfl

/-- Takes the current token. The end of the file is never left behind. -/
def advance (cursor : Cursor tokens) : Cursor tokens :=
  if ends : cursor.current.kind = .endOfFile then
    ⟨cursor.index, cursor.current.place.span, cursor.inside⟩
  else ⟨cursor.index + 1, cursor.current.place.span, index_lt_of_current ends⟩

theorem remaining_advance_le (cursor : Cursor tokens) :
    cursor.advance.remaining ≤ cursor.remaining := by
  rw [advance, remaining, remaining]
  split
  · exact Nat.le_refl _
  · exact Nat.sub_le_sub_left (Nat.le_succ _) _

theorem remaining_advance_lt {cursor : Cursor tokens} {kind : TokenKind}
    (found : cursor.current.kind = kind) (goesOn : kind ≠ .endOfFile) :
    cursor.advance.remaining < cursor.remaining := by
  subst found
  have inside := index_lt_of_current goesOn
  rw [advance, dif_neg goesOn, remaining, remaining]
  exact Nat.sub_succ_lt_self _ _ inside

theorem remaining_lt_of_integer {cursor : Cursor tokens} {text : String}
    (found : cursor.current.kind = .integer text) : cursor.advance.remaining < cursor.remaining :=
  remaining_advance_lt found TokenKind.noConfusion

/-- The place from the token `first` to the end of the token taken last. -/
def placeFrom (cursor : Cursor tokens) (first : Token) : Place :=
  first.place.upTo cursor.previous

end Cursor

structure Move (tokens : List Token) (bound : Nat) (α : Type) where
  value : α
  cursor : Cursor tokens
  shorter : cursor.remaining < bound

inductive Attempt (tokens : List Token) (bound : Nat) (α : Type) where
  | done (move : Move tokens bound α)
  | failed (error : SyntaxError) (cursor : Cursor tokens)

namespace Attempt

variable {tokens : List Token} {α β : Type} {bound wider : Nat}

@[inline] def widen (attempt : Attempt tokens bound α) (within : bound ≤ wider) :
    Attempt tokens wider α :=
  match attempt with
  | .done ⟨value, cursor, shorter⟩ => .done ⟨value, cursor, Nat.lt_of_lt_of_le shorter within⟩
  | .failed error cursor => .failed error cursor

@[inline] def map (attempt : Attempt tokens bound α) (f : Move tokens bound α → β) :
    Attempt tokens bound β :=
  match attempt with
  | .done move => .done ⟨f move, move.cursor, move.shorter⟩
  | .failed error cursor => .failed error cursor

@[inline] def andThen (attempt : Attempt tokens bound α)
    (next : (move : Move tokens bound α) → Attempt tokens move.cursor.remaining β) :
    Attempt tokens bound β :=
  match attempt with
  | .done move => (next move).widen (Nat.le_of_lt move.shorter)
  | .failed error cursor => .failed error cursor

/-- Goes on with an attempt that need not take a token. -/
@[inline] def andTail (attempt : Attempt tokens bound α)
    (next : (move : Move tokens bound α) → Attempt tokens (move.cursor.remaining + 1) β) :
    Attempt tokens bound β :=
  match attempt with
  | .done move => (next move).widen move.shorter
  | .failed error cursor => .failed error cursor

end Attempt

namespace Cursor

variable {tokens : List Token}

def reject {bound : Nat} {α : Type} (cursor : Cursor tokens) (expected : Expected) :
    Attempt tokens bound α :=
  .failed ⟨expected, cursor.current⟩ cursor

def expect (cursor : Cursor tokens) (kind : TokenKind) (goesOn : kind ≠ .endOfFile) :
    Attempt tokens cursor.remaining Token :=
  if found : cursor.current.kind = kind then
    .done ⟨cursor.current, cursor.advance, remaining_advance_lt found goesOn⟩
  else cursor.reject (.token kind)

def sign (cursor : Cursor tokens) (mark : Mark) : Attempt tokens cursor.remaining Token :=
  cursor.expect (.mark mark) (TokenKind.mark_ne_end mark)

def word (cursor : Cursor tokens) (keyword : Keyword) : Attempt tokens cursor.remaining Token :=
  cursor.expect (.keyword keyword) (TokenKind.keyword_ne_end keyword)

def ident (cursor : Cursor tokens) : Attempt tokens cursor.remaining Ident :=
  match found : cursor.current.kind with
  | .identifier name =>
      .done ⟨⟨name, cursor.current.place⟩, cursor.advance,
        remaining_advance_lt found TokenKind.noConfusion⟩
  | _ => cursor.reject .identifier

def dataType (cursor : Cursor tokens) : Attempt tokens cursor.remaining DataType :=
  if found : cursor.current.kind = .keyword .intWord then
    .done ⟨.int, cursor.advance, remaining_advance_lt found TokenKind.noConfusion⟩
  else if found : cursor.current.kind = .keyword .floatWord then
    .done ⟨.float, cursor.advance, remaining_advance_lt found TokenKind.noConfusion⟩
  else cursor.reject .dataType

end Cursor

end ThreeAddress
