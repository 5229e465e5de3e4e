import ThreeAddress.Proofs.Syntax.Places
import ThreeAddress.Rejection

/-!
# Parsing on

A parser can be asked again. A parse that fails leaves the index at the wrong token, never before
its own start, and with it the span of whatever token was taken last, perhaps in an attempt that was
given up. Whatever the parser was asked before, the tokens from its index on end with the file, and
a further parse reads them as a new parser would, which has taken no token yet. A parse that
succeeds leaves the index at an end of the file, where nothing more is read.
-/

namespace ThreeAddress

set_option autoImplicit false

namespace Token

theorem exists_kinds_close_list (tokens : List Token) :
    ∃ body, kinds (closeList tokens) = body ++ [.endOfFile] := by
  rw [closeList]
  split
  · rename_i last found
    split
    · rename_i final
      obtain ⟨before, rfl⟩ := List.getLast?_eq_some_iff.mp found
      exact ⟨kinds before, by simpa using final⟩
    · exact ⟨kinds tokens, by simp [endBehind]⟩
  · exact ⟨[], rfl⟩

end Token

namespace Parser

/-- The tokens from the index on end with an end of the file. -/
def Ready (parser : Parser) : Prop :=
  ∃ body, Token.kinds parser.rest = body ++ [.endOfFile]

theorem ready_of_tokens (tokens : List Token) : (Parser.ofTokens tokens).Ready :=
  Token.exists_kinds_close_list tokens

/-- The parse has this result and moves the index over `front`, to where `behind` is left. -/
structure Stops (parser : Parser) (result : Except SyntaxError Program)
    (front behind : List Token) : Prop where
  result : parser.parse.1 = result
  rest : parser.parse.2.rest = behind
  index : parser.parse.2.index = parser.index + front.length

section

variable {parser : Parser} {front behind : List Token} {next : Token}

theorem stops_of_outcome {result : Except SyntaxError Program}
    (split : parser.rest = front ++ behind)
    (ends : Grammar.outcome parser.rest = (result, behind)) :
    parser.Stops result front behind := by
  obtain ⟨same, left⟩ := Prod.mk.inj (parser.parse_outcome.trans ends)
  refine ⟨same, left, index_of_rest rfl ?_⟩
  rw [left]
  exact split

theorem stops_of_error {expected : Expected} (split : parser.rest = front ++ next :: behind)
    (failed : Grammar.program parser.rest = .error ⟨expected, next :: behind⟩) :
    parser.Stops (.error ⟨expected, next⟩) front (next :: behind) :=
  stops_of_outcome split (Grammar.outcome_of_error failed)

theorem stops_of_ok {program : Program} (split : parser.rest = front ++ next :: behind)
    (done : Grammar.program parser.rest = .ok (program, next :: behind)) :
    parser.Stops (.ok program) front (next :: behind) :=
  stops_of_outcome split (Grammar.outcome_of_ok done)

end

/-- The two ways in which one parse ends: at the wrong token, or at an end of the file. -/
inductive Step (parser : Parser) : Prop
  | failed (expected : Expected) (front behind : List Token) (next : Token) :
      parser.rest = front ++ next :: behind →
      Grammar.program parser.rest = .error ⟨expected, next :: behind⟩ → Step parser
  | done (program : Program) (front behind : List Token) (stop : Token) :
      parser.rest = front ++ stop :: behind → stop.kind = .endOfFile →
      Grammar.program parser.rest = .ok (program, stop :: behind) → Step parser

variable {parser : Parser}

theorem Ready.step (ready : parser.Ready) : parser.Step := by
  obtain ⟨body, ends⟩ := ready
  cases read : Grammar.program parser.rest with
  | error failure =>
      obtain ⟨expected, left⟩ := failure
      obtain ⟨front, split, goesOn⟩ := Grammar.program_failed parser.rest read
      cases left with
      | nil =>
          -- The end of the file cannot have been taken.
          rw [List.append_nil] at split
          rw [← split, ends] at goesOn
          simp at goesOn
      | cons next behind => exact .failed expected front behind next split read
  | ok result =>
      obtain ⟨program, left⟩ := result
      obtain ⟨front, split, _⟩ := Grammar.program_stand_on parser.rest read
      obtain ⟨written, _, final⟩ := Grammar.program_ensures parser.rest read
      cases left with
      | nil =>
          have clean := Stmt.end_of_file_not_mem_unparse_all program
          rw [Token.kinds_nil, List.append_nil, ends] at written
          rw [Program.unparse] at written
          rw [← written] at clean
          simp at clean
      | cons stop behind => exact .done program front behind stop split (final _ rfl) read

theorem Ready.exists_split (ready : parser.Ready) :
    ∃ front, parser.rest = front ++ parser.parse.2.rest := by
  cases ready.step with
  | failed expected front behind next split failed =>
      exact ⟨front, (stops_of_error split failed).rest ▸ split⟩
  | done program front behind stop split _ done =>
      exact ⟨front, (stops_of_ok split done).rest ▸ split⟩

/-- The parser parses as a new one of the tokens from its index on, whatever span it took last. -/
theorem Ready.parse_eq_fresh (ready : parser.Ready) :
    let fresh := Parser.ofTokens parser.rest
    parser.parse.1 = fresh.parse.1 ∧
      parser.parse.2.index = parser.index + fresh.parse.2.index := by
  intro fresh
  have same : fresh.rest = parser.rest := by
    obtain ⟨body, ends⟩ := ready
    exact Token.close_list_of_kinds ends
  obtain ⟨result, left⟩ := Prod.mk.inj
    (parser.parse_outcome.trans ((congrArg _ same.symm).trans fresh.parse_outcome.symm))
  obtain ⟨front, split⟩ := ready.exists_split
  have moved : fresh.parse.2.index = fresh.index + front.length :=
    index_of_rest rfl (same.trans (left ▸ split))
  refine ⟨result, ?_⟩
  rw [moved, show fresh.index = 0 from rfl, Nat.zero_add]
  exact index_of_rest rfl split

theorem Ready.of_rest {later : Parser} {front behind : List Token} {next : Token}
    (ready : parser.Ready) (split : parser.rest = front ++ next :: behind)
    (left : later.rest = next :: behind) : later.Ready := by
  rw [Ready, ← List.getLast?_eq_some_iff] at ready ⊢
  rw [split, Token.kinds_append, List.getLast?_append] at ready
  rw [left]
  simpa using ready

theorem Ready.parse (ready : parser.Ready) : parser.parse.2.Ready := by
  cases ready.step with
  | failed expected front behind next split failed =>
      exact ready.of_rest split (stops_of_error split failed).rest
  | done program front behind stop split _ done =>
      exact ready.of_rest split (stops_of_ok split done).rest

def after (parser : Parser) : Nat → Parser
  | 0 => parser
  | calls + 1 => (parser.after calls).parse.2

theorem ready_after (tokens : List Token) (calls : Nat) :
    ((Parser.ofTokens tokens).after calls).Ready := by
  induction calls with
  | zero => exact ready_of_tokens tokens
  | succ calls ih => exact ih.parse

/-- At an end of the file nothing more is read. -/
theorem parse_at_end {stop : Token} {behind : List Token} (final : stop.kind = .endOfFile)
    (left : parser.rest = stop :: behind) : parser.parse = (.ok [], parser) := by
  have ends : parser.cursor.current.kind = .endOfFile := by
    rw [Cursor.current_of_rest_cons left, final]
  rw [Parser.parse, Cursor.program, if_pos ends]

theorem after_at_end {stop : Token} {behind : List Token} (final : stop.kind = .endOfFile)
    (left : parser.rest = stop :: behind) (calls : Nat) : parser.after calls = parser := by
  induction calls with
  | zero => rfl
  | succ calls ih => rw [after, ih, parse_at_end final left]

theorem getElem?_of_rest {next : Token} {behind : List Token}
    (left : parser.rest = next :: behind) : parser.tokens[parser.index]? = some next := by
  rw [← List.head?_drop]
  exact congrArg List.head? left

/-- The parser as if it had taken `span` last. -/
def having (parser : Parser) (span : Span) : Parser :=
  ⟨parser.tokens, { parser.cursor with previous := span }⟩

theorem parse_having (parser : Parser) (span : Span) :
    (parser.having span).parse.1 = parser.parse.1 := by
  have same : (parser.having span).rest = parser.rest := rfl
  have first := (parser.having span).parse_outcome
  rw [same, ← parser.parse_outcome] at first
  exact (Prod.mk.inj first).1

/-- A failed parse leaves the parser at the offending token, from where it can go on. After any
number of parses, one that fails has its error at the index it leaves, which is not before the one
it started from, and the next parse is that of a new parser of the tokens from there on, whatever
span the failed one took last. One that succeeds leaves the parser at an end of the file, where
every later parse gives the empty program. -/
theorem parse_resumes (tokens : List Token) (calls : Nat) :
    let parser := (Parser.ofTokens tokens).after calls
    let later := parser.parse.2
    (∀ error, parser.parse.1 = .error error →
      later.tokens[later.index]? = some error.found ∧
      (Rejection.ofSyntaxError error).place? = later.tokens[later.index]?.map Token.place ∧
      parser.index ≤ later.index ∧
      let fresh := Parser.ofTokens (later.tokens.drop later.index)
      later.parse.1 = fresh.parse.1 ∧ later.parse.2.tokens = later.tokens ∧
        later.parse.2.index = later.index + fresh.parse.2.index ∧
        ∀ span, (later.having span).parse.1 = fresh.parse.1) ∧
    ∀ program, parser.parse.1 = .ok program →
      later.tokens[later.index]?.map Token.kind = some .endOfFile ∧
      ∀ more, (later.after more).parse = (.ok [], later) := by
  intro parser later
  have ready : parser.Ready := ready_after tokens calls
  have readyLater : later.Ready := ready.parse
  cases ready.step with
  | failed expected front behind next split failed =>
      have stops := stops_of_error split failed
      have here : later.tokens[later.index]? = some next := getElem?_of_rest stops.rest
      refine ⟨?_, ?_⟩
      · intro error rejected
        rw [stops.result] at rejected
        cases rejected
        obtain ⟨result, index⟩ := readyLater.parse_eq_fresh
        refine ⟨here, by rw [here]; rfl, ?_, result, rfl, index,
          fun span => (later.parse_having span).trans result⟩
        rw [stops.index]
        exact Nat.le_add_right _ _
      · intro program done
        rw [stops.result] at done
        cases done
  | done program front behind stop split final done =>
      have stops := stops_of_ok split done
      refine ⟨?_, ?_⟩
      · intro error rejected
        rw [stops.result] at rejected
        cases rejected
      · intro read _
        refine ⟨?_, fun more => ?_⟩
        · rw [getElem?_of_rest stops.rest, Option.map_some, final]
        · rw [after_at_end final stops.rest, parse_at_end final stops.rest]

end Parser

def strayKeyword : List Token :=
  [⟨.keyword .letWord, ⟨⟨0, 3⟩, ⟨1, 1⟩⟩⟩, ⟨.keyword .letWord, ⟨⟨4, 7⟩, ⟨1, 5⟩⟩⟩,
    ⟨.identifier "x", ⟨⟨8, 9⟩, ⟨1, 9⟩⟩⟩, ⟨.mark .colon, ⟨⟨9, 10⟩, ⟨1, 10⟩⟩⟩,
    ⟨.keyword .intWord, ⟨⟨11, 14⟩, ⟨1, 12⟩⟩⟩, ⟨.mark .semicolon, ⟨⟨14, 15⟩, ⟨1, 15⟩⟩⟩,
    ⟨.endOfFile, ⟨⟨15, 15⟩, ⟨1, 16⟩⟩⟩]

theorem parse_stray_keyword : (Parser.ofTokens strayKeyword).parse =
    (.error ⟨.identifier, ⟨.keyword .letWord, ⟨⟨4, 7⟩, ⟨1, 5⟩⟩⟩⟩,
      ⟨strayKeyword, ⟨1, ⟨0, 3⟩, by decide⟩⟩) := by
  have only : (Cursor.start strayKeyword).statement =
      .failed ⟨.identifier, ⟨.keyword .letWord, ⟨⟨4, 7⟩, ⟨1, 5⟩⟩⟩⟩ ⟨1, ⟨0, 3⟩, by decide⟩ := by
    rw [Cursor.statement]
    rfl
  have whole : (Cursor.start strayKeyword).program =
      (.error ⟨.identifier, ⟨.keyword .letWord, ⟨⟨4, 7⟩, ⟨1, 5⟩⟩⟩⟩, ⟨1, ⟨0, 3⟩, by decide⟩) := by
    rw [Cursor.program, if_neg (by decide), only]
  change ((Cursor.start strayKeyword).program.1,
    (⟨strayKeyword, (Cursor.start strayKeyword).program.2⟩ : Parser)) = _
  rw [whole]

theorem parse_behind_stray_keyword : (Parser.ofTokens (strayKeyword.drop 1)).parse.1 =
    .ok [.scalar ⟨"x", ⟨⟨8, 9⟩, ⟨1, 9⟩⟩⟩ .int ⟨⟨4, 15⟩, ⟨1, 5⟩⟩] := by
  have only : (Cursor.start (strayKeyword.drop 1)).statement =
      .done ⟨.scalar ⟨"x", ⟨⟨8, 9⟩, ⟨1, 9⟩⟩⟩ .int ⟨⟨4, 15⟩, ⟨1, 5⟩⟩,
        ⟨5, ⟨14, 15⟩, by decide⟩, by decide⟩ := by
    rw [Cursor.statement]
    rfl
  have last : (⟨5, ⟨14, 15⟩, by decide⟩ : Cursor (strayKeyword.drop 1)).program.1 = .ok [] := by
    rw [Cursor.program, if_pos (by decide)]
  change (Cursor.start (strayKeyword.drop 1)).program.1 = _
  rw [Cursor.program, if_neg (by decide), only]
  change Except.map _ (⟨5, ⟨14, 15⟩, by decide⟩ : Cursor (strayKeyword.drop 1)).program.1 = _
  rw [last]
  rfl

/-- The second parse of `strayKeyword` starts at the keyword where the first one failed, with the
span of the first keyword as the one taken last; that is no part of the declaration it reads. -/
theorem parse_resumes_stray_keyword :
    let later := (Parser.ofTokens strayKeyword).parse.2
    (Parser.ofTokens strayKeyword).parse.1 =
        .error ⟨.identifier, ⟨.keyword .letWord, ⟨⟨4, 7⟩, ⟨1, 5⟩⟩⟩⟩ ∧
      later.index = 1 ∧ later.cursor.previous = ⟨0, 3⟩ ∧
      later.parse.1 = (Parser.ofTokens (strayKeyword.drop 1)).parse.1 ∧
      later.parse.1 = .ok [.scalar ⟨"x", ⟨⟨8, 9⟩, ⟨1, 9⟩⟩⟩ .int ⟨⟨4, 15⟩, ⟨1, 5⟩⟩] := by
  intro later
  have failed : (Parser.ofTokens strayKeyword).parse.1 =
      .error ⟨.identifier, ⟨.keyword .letWord, ⟨⟨4, 7⟩, ⟨1, 5⟩⟩⟩⟩ :=
    congrArg Prod.fst parse_stray_keyword
  have left : later = ⟨strayKeyword, ⟨1, ⟨0, 3⟩, by decide⟩⟩ :=
    congrArg Prod.snd parse_stray_keyword
  obtain ⟨_, _, _, next, _⟩ := (Parser.parse_resumes strayKeyword 0).1 _ failed
  have same : later.parse.1 = (Parser.ofTokens (later.tokens.drop later.index)).parse.1 := next
  rw [left] at same
  refine ⟨failed, by rw [left]; rfl, by rw [left], ?_, ?_⟩
  · rw [left]
    exact same
  · rw [left]
    exact same.trans parse_behind_stray_keyword

end ThreeAddress
