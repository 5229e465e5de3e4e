import ThreeAddress.Syntax.Statement

/-!
# The parser

A `Parser` is a token list and a cursor into it. Parsing takes statements up to the end of the file
and moves the cursor there; a parse that fails leaves the cursor at the wrong token, and a later
parse goes on from it.
-/

namespace ThreeAddress

set_option autoImplicit false

/-- The token list with an end of the file as its last token. -/
def Token.closeList (tokens : List Token) : List Token :=
  match tokens.getLast? with
  | some last => if last.isEnd then tokens else tokens ++ [Token.endBehind (some last)]
  | none => [Token.endBehind none]

structure Parser where
  tokens : List Token
  cursor : Cursor tokens
deriving DecidableEq

namespace Parser

/-- A parser at the first of `tokens`, which get an end of the file if they do not end with one. -/
def ofTokens (tokens : List Token) : Parser :=
  ⟨Token.closeList tokens, Cursor.start _⟩

def index (parser : Parser) : Nat :=
  parser.cursor.index

def parse (parser : Parser) : Except SyntaxError Program × Parser :=
  let outcome := parser.cursor.program
  (outcome.1, ⟨parser.tokens, outcome.2⟩)

end Parser

def parseTokens (tokens : List Token) : Except SyntaxError Program :=
  (Parser.ofTokens tokens).parse.1

end ThreeAddress
