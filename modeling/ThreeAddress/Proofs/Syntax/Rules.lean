import ThreeAddress.Token.Basic

/-!
# The rules of the grammar

The grammar as it is written down: for every nonterminal one phrase, with choices and repetitions
in it. A derivation may take any choice, so some token lists have several; nothing here says in
which order choices are tried. What every rule keeps, every derivation has.
-/

namespace ThreeAddress

set_option autoImplicit false

inductive TokenClass where
  | exactly (kind : TokenKind)
  | identifier
  | integer
  | float
  | string

inductive TokenClass.Has : TokenClass → TokenKind → Prop
  | exactly {kind : TokenKind} : Has (.exactly kind) kind
  | identifier {name : String} : Has .identifier (.identifier name)
  | integer {text : String} : Has .integer (.integer text)
  | float {text : String} : Has .float (.float text)
  | string {text : String} : Has .string (.string text)

inductive Nonterminal where
  | program
  | statement
  | varDecl
  | arrayDecl
  | constDecl
  | assignment
  | ifStmt
  | doWhile
  | forLoop
  | input
  | output
  | condition
  | orCond
  | andCond
  | condAtom
  | expression
  | term
  | unary
  | atom
  | dataType
  | cmpOp

inductive Phrase where
  | token (kinds : TokenClass)
  | rule (name : Nonterminal)
  | empty
  | both (first second : Phrase)
  | either (first second : Phrase)
  | many (body : Phrase)

namespace Phrase

instance : OrOp Phrase := ⟨.either⟩

def word (keyword : Keyword) : Phrase := .token (.exactly (.keyword keyword))

def sign (mark : Mark) : Phrase := .token (.exactly (.mark mark))

def inOrder : List Phrase → Phrase
  | [] => .empty
  | first :: rest => .both first (inOrder rest)

def optional (phrase : Phrase) : Phrase := phrase ||| .empty

def block : List Phrase := [sign .leftBrace, .many (.rule .statement), sign .rightBrace]

end Phrase

open Phrase in
def Nonterminal.production : Nonterminal → Phrase
  | .program => inOrder [.many (.rule .statement), .token (.exactly .endOfFile)]
  | .statement =>
      .rule .varDecl ||| .rule .arrayDecl ||| .rule .constDecl ||| .rule .assignment |||
        .rule .ifStmt ||| .rule .doWhile ||| .rule .forLoop ||| .rule .input ||| .rule .output
  | .varDecl =>
      inOrder [word .letWord, .token .identifier, sign .colon, .rule .dataType, sign .semicolon]
  | .arrayDecl =>
      inOrder [word .letWord, .token .identifier, sign .colon, sign .leftBracket,
        .rule .dataType, sign .semicolon, .token .integer, sign .rightBracket, sign .semicolon]
  | .constDecl =>
      inOrder [word .defineWord, word .constWord, .token .identifier, sign .colon,
        .rule .dataType, sign .equal, .rule .expression, sign .semicolon]
  | .assignment =>
      inOrder [.token .identifier, sign .colonEqual, .rule .expression, sign .semicolon]
  | .ifStmt =>
      inOrder ([word .ifWord, sign .leftParen, .rule .condition, sign .rightParen,
        word .thenWord] ++ block ++ [optional (inOrder (word .elseWord :: block))])
  | .doWhile =>
      inOrder ([word .doWord] ++ block ++ [word .whileWord, sign .leftParen, .rule .condition,
        sign .rightParen, sign .semicolon])
  | .forLoop =>
      inOrder ([word .forWord, .token .identifier, word .fromWord, .rule .expression,
        word .toWord, .rule .expression, word .stepWord, .rule .expression] ++ block)
  | .input =>
      inOrder [word .inputWord, sign .leftParen, .token .identifier, sign .rightParen,
        sign .semicolon]
  | .output =>
      inOrder [word .outputWord, sign .leftParen,
        inOrder [.token .string, .many (inOrder [sign .comma, .token .identifier])] |||
          .token .identifier,
        sign .rightParen, sign .semicolon]
  | .condition => .rule .orCond
  | .orCond => inOrder [.rule .andCond, .many (inOrder [word .orWord, .rule .andCond])]
  | .andCond => inOrder [.rule .condAtom, .many (inOrder [word .andWord, .rule .condAtom])]
  | .condAtom =>
      inOrder [sign .bang, .rule .condition] |||
        inOrder [sign .leftParen, .rule .condition, sign .rightParen] |||
        inOrder [.rule .expression, .rule .cmpOp, .rule .expression]
  | .expression =>
      inOrder [.rule .term, .many (inOrder [sign .plus ||| sign .minus, .rule .term])]
  | .term =>
      inOrder [.rule .unary, .many (inOrder [sign .star ||| sign .slash, .rule .unary])]
  | .unary => inOrder [sign .minus, .rule .unary] ||| .rule .atom
  | .atom =>
      .token .integer ||| .token .float |||
        inOrder [.token .identifier, sign .leftBracket, .rule .expression,
          sign .rightBracket] |||
        .token .identifier ||| inOrder [sign .leftParen, .rule .expression, sign .rightParen]
  | .dataType => word .intWord ||| word .floatWord
  | .cmpOp =>
      sign .less ||| sign .greater ||| sign .lessEqual ||| sign .greaterEqual |||
        sign .equalEqual ||| sign .notEqual

inductive Phrase.Derives : Phrase → List TokenKind → Prop
  | token {kinds : TokenClass} {kind : TokenKind} :
      kinds.Has kind → Derives (.token kinds) [kind]
  | rule {name : Nonterminal} {written : List TokenKind} :
      Derives name.production written → Derives (.rule name) written
  | empty : Derives .empty []
  | both {first second : Phrase} {before behind : List TokenKind} :
      Derives first before → Derives second behind →
      Derives (.both first second) (before ++ behind)
  | left {first second : Phrase} {written : List TokenKind} :
      Derives first written → Derives (.either first second) written
  | right {first second : Phrase} {written : List TokenKind} :
      Derives second written → Derives (.either first second) written
  | none {body : Phrase} : Derives (.many body) []
  | more {body : Phrase} {before behind : List TokenKind} :
      Derives body before → Derives (.many body) behind →
      Derives (.many body) (before ++ behind)

namespace Phrase

/-- What a phrase allows where the nonterminals have a meaning of their own. -/
def Allows (means : Nonterminal → List TokenKind → Prop) : Phrase → List TokenKind → Prop
  | .token kinds, written => ∃ kind, kinds.Has kind ∧ written = [kind]
  | .rule name, written => means name written
  | .empty, written => written = []
  | .both first second, written =>
      ∃ before behind, written = before ++ behind ∧ first.Allows means before ∧
        second.Allows means behind
  | .either first second, written => first.Allows means written ∨ second.Allows means written
  | .many body, written =>
      ∃ parts : List (List TokenKind), written = parts.flatten ∧
        ∀ part ∈ parts, body.Allows means part

/-- A meaning that every rule keeps is one that every derivation has. -/
theorem Derives.allows {means : Nonterminal → List TokenKind → Prop}
    (kept : ∀ name written, name.production.Allows means written → means name written)
    {phrase : Phrase} {written : List TokenKind} (derives : phrase.Derives written) :
    phrase.Allows means written := by
  induction derives with
  | token has => exact ⟨_, has, rfl⟩
  | rule _ ih => exact kept _ _ ih
  | empty => exact rfl
  | both _ _ ihFirst ihSecond => exact ⟨_, _, rfl, ihFirst, ihSecond⟩
  | left _ ih => exact .inl ih
  | right _ ih => exact .inr ih
  | none => exact ⟨[], rfl, by simp⟩
  | more _ _ ihFirst ihRest =>
      obtain ⟨parts, same, all⟩ := ihRest
      exact ⟨_ :: parts, by rw [same]; rfl, by simpa using ⟨ihFirst, all⟩⟩

theorem Derives.many_append {body : Phrase} {before behind : List TokenKind}
    (first : (Phrase.many body).Derives before) (second : (Phrase.many body).Derives behind) :
    (Phrase.many body).Derives (before ++ behind) := by
  generalize shape : Phrase.many body = phrase at first
  induction first with
  | none =>
      cases shape
      exact second
  | more part _ _ ih =>
      cases shape
      rw [List.append_assoc]
      exact .more part (ih rfl)
  | token | rule | empty | both | left | right => cases shape

/-- One more item at the end of a chain of items. -/
theorem Derives.chain {head item operator : Phrase} {before behind : List TokenKind}
    {kind : TokenKind}
    (chain : (inOrder [head, .many (inOrder [operator, item])]).Derives before)
    (between : operator.Derives [kind]) (last : item.Derives behind) :
    (inOrder [head, .many (inOrder [operator, item])]).Derives (before ++ kind :: behind) := by
  have part : (inOrder [operator, item]).Derives (kind :: behind) := by
    simpa [inOrder] using between.both (last.both .empty)
  cases chain with
  | both first rest =>
      cases rest with
      | both items nothing =>
          cases nothing
          have longer := items.many_append (.more part .none)
          simpa [inOrder] using first.both (longer.both .empty)

theorem Derives.in_order_cons {first : Phrase} {rest : List Phrase} {before behind : List TokenKind}
    (derives : first.Derives before) (others : (inOrder rest).Derives behind) :
    (inOrder (first :: rest)).Derives (before ++ behind) :=
  derives.both others

theorem Derives.token_cons {kinds : TokenClass} {rest : List Phrase} {kind : TokenKind}
    {behind : List TokenKind} (has : kinds.Has kind) (others : (inOrder rest).Derives behind) :
    (inOrder (.token kinds :: rest)).Derives (kind :: behind) :=
  (Derives.token has).both others

theorem Derives.word_cons {keyword : Keyword} {rest : List Phrase} {behind : List TokenKind}
    (others : (inOrder rest).Derives behind) :
    (inOrder (word keyword :: rest)).Derives (.keyword keyword :: behind) :=
  .token_cons .exactly others

theorem Derives.sign_cons {mark : Mark} {rest : List Phrase} {behind : List TokenKind}
    (others : (inOrder rest).Derives behind) :
    (inOrder (sign mark :: rest)).Derives (.mark mark :: behind) :=
  .token_cons .exactly others

theorem Derives.single {phrase : Phrase} {written : List TokenKind}
    (derives : phrase.Derives written) : (inOrder [phrase]).Derives written := by
  have ended := derives.both .empty
  rwa [List.append_nil] at ended

/-- A chain of one item. -/
theorem Derives.alone {head body : Phrase} {written : List TokenKind}
    (derives : head.Derives written) : (inOrder [head, .many body]).Derives written := by
  have none : (Phrase.many body).Derives [] := .none
  have chain := derives.in_order_cons none.single
  rwa [List.append_nil] at chain

section Allows

variable {means : Nonterminal → List TokenKind → Prop} {written : List TokenKind}

theorem allows_either {first second : Phrase} :
    (first ||| second).Allows means written ↔
      first.Allows means written ∨ second.Allows means written := Iff.rfl

theorem allows_nil : (inOrder []).Allows means written ↔ written = [] := Iff.rfl

theorem allows_cons {first : Phrase} {rest : List Phrase} :
    (inOrder (first :: rest)).Allows means written ↔
      ∃ before behind, written = before ++ behind ∧ first.Allows means before ∧
        (inOrder rest).Allows means behind := Iff.rfl

theorem allows_word {keyword : Keyword} :
    (word keyword).Allows means written ↔ written = [.keyword keyword] := by
  constructor
  · rintro ⟨kind, has, rfl⟩
    cases has
    rfl
  · rintro rfl
    exact ⟨_, .exactly, rfl⟩

theorem allows_sign {mark : Mark} :
    (sign mark).Allows means written ↔ written = [.mark mark] := by
  constructor
  · rintro ⟨kind, has, rfl⟩
    cases has
    rfl
  · rintro rfl
    exact ⟨_, .exactly, rfl⟩

theorem allows_identifier :
    (Phrase.token .identifier).Allows means written ↔ ∃ name, written = [.identifier name] := by
  constructor
  · rintro ⟨kind, has, rfl⟩
    cases has
    exact ⟨_, rfl⟩
  · rintro ⟨name, rfl⟩
    exact ⟨_, .identifier, rfl⟩

end Allows

end Phrase

end ThreeAddress
