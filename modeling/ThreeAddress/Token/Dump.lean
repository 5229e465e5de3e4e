import ThreeAddress.Text.Pad
import ThreeAddress.Text.Quoted
import ThreeAddress.Token.Basic

/-!
# The token dump

A line for each token: where it starts, what kind it is, and its text if its kind has several.
-/

namespace ThreeAddress

set_option autoImplicit false

def Keyword.label : Keyword → String
  | .letWord => "Let"
  | .defineWord => "Define"
  | .constWord => "Const"
  | .ifWord => "If"
  | .thenWord => "Then"
  | .elseWord => "Else"
  | .doWord => "Do"
  | .whileWord => "While"
  | .forWord => "For"
  | .fromWord => "From"
  | .toWord => "To"
  | .stepWord => "Step"
  | .inputWord => "Input"
  | .outputWord => "Output"
  | .intWord => "Int"
  | .floatWord => "Float"
  | .andWord => "And"
  | .orWord => "Or"

def Mark.label : Mark → String
  | .plus => "Plus"
  | .minus => "Minus"
  | .star => "Star"
  | .slash => "Slash"
  | .bang => "Bang"
  | .less => "Lt"
  | .greater => "Gt"
  | .lessEqual => "LtEq"
  | .greaterEqual => "GtEq"
  | .equalEqual => "EqEq"
  | .notEqual => "NotEq"
  | .equal => "Eq"
  | .colonEqual => "ColonEq"
  | .leftParen => "LParen"
  | .rightParen => "RParen"
  | .leftBracket => "LBracket"
  | .rightBracket => "RBracket"
  | .leftBrace => "LBrace"
  | .rightBrace => "RBrace"
  | .semicolon => "Semi"
  | .comma => "Comma"
  | .colon => "Colon"

namespace TokenKind

def label : TokenKind → String
  | .keyword word => word.label
  | .mark sign => sign.label
  | .identifier _ => "Identifier"
  | .integer _ => "IntLiteral"
  | .float _ => "FloatLiteral"
  | .string _ => "StringLiteral"
  | .endOfFile => "Eof"

def payload? : TokenKind → Option String
  | .identifier text | .integer text | .float text | .string text => some text
  | .keyword _ | .mark _ | .endOfFile => none

def dump (kind : TokenKind) : String :=
  match kind.payload? with
  | some text => s!"{kind.label}({Text.quote text})"
  | none => kind.label

end TokenKind

def Token.dump (token : Token) : String :=
  let position := token.place.position
  Text.padLeft 4 (toString position.line) ++ ":" ++
    Text.padRight 4 (toString position.column) ++ " " ++ token.kind.dump

def Token.dumpAll (tokens : List Token) : String :=
  Text.lines (tokens.map Token.dump)

end ThreeAddress
