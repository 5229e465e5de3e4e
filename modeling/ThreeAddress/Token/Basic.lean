import ThreeAddress.Source.Place

/-!
# Tokens

A token is a keyword, an operator or punctuation mark, a name, a literal, or the end of the text.
Keywords and marks have one spelling each; names and literals carry the text they were written as,
a string with its quotes.
-/

namespace ThreeAddress

set_option autoImplicit false

inductive Keyword where
  | letWord
  | defineWord
  | constWord
  | ifWord
  | thenWord
  | elseWord
  | doWord
  | whileWord
  | forWord
  | fromWord
  | toWord
  | stepWord
  | inputWord
  | outputWord
  | intWord
  | floatWord
  | andWord
  | orWord
deriving DecidableEq

def Keyword.all : List Keyword :=
  [.letWord, .defineWord, .constWord, .ifWord, .thenWord, .elseWord, .doWord, .whileWord,
    .forWord, .fromWord, .toWord, .stepWord, .inputWord, .outputWord, .intWord, .floatWord,
    .andWord, .orWord]

def Keyword.text : Keyword → String
  | .letWord => "let"
  | .defineWord => "@define"
  | .constWord => "Const"
  | .ifWord => "if"
  | .thenWord => "then"
  | .elseWord => "else"
  | .doWord => "do"
  | .whileWord => "while"
  | .forWord => "for"
  | .fromWord => "from"
  | .toWord => "to"
  | .stepWord => "step"
  | .inputWord => "input"
  | .outputWord => "output"
  | .intWord => "Int"
  | .floatWord => "Float"
  | .andWord => "AND"
  | .orWord => "OR"

def Keyword.ofText? (text : String) : Option Keyword :=
  Keyword.all.find? (·.text == text)

inductive Mark where
  | plus
  | minus
  | star
  | slash
  | bang
  | less
  | greater
  | lessEqual
  | greaterEqual
  | equalEqual
  | notEqual
  | equal
  | colonEqual
  | leftParen
  | rightParen
  | leftBracket
  | rightBracket
  | leftBrace
  | rightBrace
  | semicolon
  | comma
  | colon
deriving DecidableEq

/-- All marks, those of two characters first. -/
def Mark.all : List Mark :=
  [.lessEqual, .greaterEqual, .equalEqual, .notEqual, .colonEqual, .plus, .minus, .star, .slash,
    .bang, .less, .greater, .equal, .leftParen, .rightParen, .leftBracket, .rightBracket,
    .leftBrace, .rightBrace, .semicolon, .comma, .colon]

def Mark.text : Mark → String
  | .plus => "+"
  | .minus => "-"
  | .star => "*"
  | .slash => "/"
  | .bang => "!"
  | .less => "<"
  | .greater => ">"
  | .lessEqual => "<="
  | .greaterEqual => ">="
  | .equalEqual => "=="
  | .notEqual => "!="
  | .equal => "="
  | .colonEqual => ":="
  | .leftParen => "("
  | .rightParen => ")"
  | .leftBracket => "["
  | .rightBracket => "]"
  | .leftBrace => "\x7b"
  | .rightBrace => "\x7d"
  | .semicolon => ";"
  | .comma => ","
  | .colon => ":"

inductive TokenKind where
  | keyword (word : Keyword)
  | mark (sign : Mark)
  | identifier (name : String)
  | integer (text : String)
  | float (text : String)
  | string (text : String)
  | endOfFile
deriving DecidableEq

/-- The spelling of an operator or punctuation mark; no other kind has one to offer. -/
def TokenKind.lexeme? : TokenKind → Option String
  | .mark sign => some sign.text
  | _ => none

def TokenKind.text : TokenKind → String
  | .keyword word => word.text
  | .mark sign => sign.text
  | .identifier name => name
  | .integer text => text
  | .float text => text
  | .string text => text
  | .endOfFile => ""

def TokenKind.describe : TokenKind → String
  | .keyword word => s!"'{word.text}'"
  | .mark sign => s!"'{sign.text}'"
  | .identifier name => s!"identifier '{name}'"
  | .integer text => s!"integer '{text}'"
  | .float text => s!"float '{text}'"
  | .string text => s!"string {text}"
  | .endOfFile => "end of file"

structure Token where
  kind : TokenKind
  place : Place
deriving DecidableEq

def Token.isEnd (token : Token) : Bool :=
  match token.kind with
  | .endOfFile => true
  | _ => false

@[simp] theorem Token.is_end_iff (token : Token) :
    token.isEnd = true ↔ token.kind = .endOfFile := by
  cases token with
  | mk kind place => cases kind <;> simp [Token.isEnd]

end ThreeAddress
