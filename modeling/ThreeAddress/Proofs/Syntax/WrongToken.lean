import ThreeAddress.Proofs.Syntax.Derivation
import ThreeAddress.Proofs.Syntax.Lookahead
import ThreeAddress.Proofs.Syntax.Resumption

/-!
# The first wrong token

A parse that fails stands at a token. What is in front of it can be continued to something that is
accepted. With the token itself it cannot, unless a condition in parentheses was given up there.
-/

namespace ThreeAddress

set_option autoImplicit false

open Phrase

namespace Grammar

variable {ours theirs : List Token}

def programEnding (tokens : List Token) : Read.Ending :=
  match program tokens with
  | .ok (_, rest) => .done rest
  | .error failure => .failed failure.rest

theorem program_ending_of_end {first : Token} (final : first.kind = .endOfFile)
    (rest : List Token) : programEnding (first :: rest) = .done (first :: rest) := by
  rw [programEnding, program, if_pos final]

theorem program_ending_of_fail {first : Token} {rest : List Token}
    (goesOn : first.kind ≠ .endOfFile) {failure : Failure}
    (failed : statement (first :: rest) = .fail failure) :
    programEnding (first :: rest) = .failed failure.rest := by
  rw [programEnding, program, if_neg goesOn, failed]

theorem program_ending_of_ok {first : Token} {rest : List Token}
    (goesOn : first.kind ≠ .endOfFile) {item : Reading (first :: rest).length Stmt}
    (took : statement (first :: rest) = .ok item) :
    programEnding (first :: rest) = programEnding item.rest := by
  cases behind : program item.rest with
  | error failure =>
      simp only [programEnding, program, if_neg goesOn, took, behind]
      rfl
  | ok others =>
      simp only [programEnding, program, if_neg goesOn, took, behind]
      rfl

theorem program_ending_within (tokens : List Token) :
    (programEnding tokens).rest.length ≤ tokens.length := by
  induction size : tokens.length using Nat.strong_induction_on generalizing tokens with
  | _ bound ih =>
      cases tokens with
      | nil =>
          rw [programEnding, program]
          exact Nat.zero_le _
      | cons first rest =>
          by_cases final : first.kind = .endOfFile
          · rw [program_ending_of_end final]
            exact size.le
          · have forks : Forks [] [] ((first :: rest).length + 1) id _ statement :=
              statement_forks _
            have left := forks.within (first :: rest) (Nat.lt_succ_self _)
            cases took : statement (first :: rest) with
            | fail failure =>
                rw [took] at left
                rw [program_ending_of_fail final took]
                exact left.trans size.le
            | ok item =>
                have shorter : item.rest.length < bound := size ▸ item.shorter
                rw [program_ending_of_ok final took]
                exact (ih _ shorter _ rfl).trans (Nat.le_of_lt shorter)

/-- What is left behind a program was left behind its first statement. -/
theorem program_ending_within_statement {first : Token} {rest : List Token}
    (goesOn : first.kind ≠ .endOfFile) :
    (programEnding (first :: rest)).rest.length ≤
      (statement (first :: rest)).ending.rest.length := by
  cases took : statement (first :: rest) with
  | fail failure =>
      rw [program_ending_of_fail goesOn took]
      exact Nat.le_refl _
  | ok item =>
      rw [program_ending_of_ok goesOn took]
      exact program_ending_within item.rest

theorem derives_statements {written : List TokenKind}
    (derives : (Phrase.both (.rule .statement) (.many (.rule .statement))).Derives written) :
    (Phrase.many (.rule .statement)).Derives written := by
  cases derives with
  | both item others => exact .more item others

theorem leads_statement : (Phrase.many (.rule .statement)).Leads [] (.rule .statement) := by
  intro written begins
  have first := leads_first (.rule .statement) (.many (.rule .statement)) written begins
  exact leads_of_derives (fun _ => derives_statements) _ first

/-- Two programs that fork. The induction goes over the statements in front of the fork. -/
theorem program_forked (common : List Token) :
    Read.Ending.Forked ours theirs (.many (.rule .statement)) common
      (programEnding (common ++ ours)) (programEnding (common ++ theirs)) := by
  induction size : common.length using Nat.strong_induction_on generalizing common with
  | _ bound ih =>
      cases common with
      | nil => exact .past (program_ending_within ours)
      | cons first rest =>
          rw [List.cons_append, List.cons_append]
          by_cases final : first.kind = .endOfFile
          · rw [program_ending_of_end final, program_ending_of_end final]
            exact .done [] rfl .none rfl rfl
          · have forks : Forks ours theirs ((first :: (rest ++ ours)).length + 1) id _ statement :=
              statement_forks _
            cases forks.forked (first :: (rest ++ ours)) (first :: (rest ++ theirs))
              (first :: rest) rfl rfl (Nat.lt_succ_self _) with
            | @done front behind next split derives our their =>
                obtain ⟨item, took, left⟩ := Read.exists_of_ending_done our
                obtain ⟨twin, tookToo, leftToo⟩ := Read.exists_of_ending_done their
                have shorter : (next :: behind).length < bound := by
                  have shorter := item.shorter
                  rw [left] at shorter
                  simp only [List.length_cons, List.length_append] at shorter size ⊢
                  omega
                have further := ih _ shorter (next :: behind) rfl
                rw [program_ending_of_ok final took, program_ending_of_ok final tookToo, left,
                  leftToo, split]
                exact (further.behind front derives).imp fun _ => derives_statements
            | failed front split begins our their =>
                obtain ⟨failure, failed, left⟩ := Read.exists_of_ending_failed our
                obtain ⟨twin, failedToo, leftToo⟩ := Read.exists_of_ending_failed their
                rw [program_ending_of_fail final failed, program_ending_of_fail final failedToo,
                  left, leftToo]
                exact .failed front split (leads_statement _ begins) rfl rfl
            | shown front split shows our =>
                obtain ⟨failure, failed, left⟩ := Read.exists_of_ending_failed our
                rw [program_ending_of_fail final failed, left]
                exact .shown front split (shows.of_leads leads_statement) rfl
            | past behind =>
                apply Read.Ending.Forked.past
                exact (program_ending_within_statement final).trans behind

end Grammar

/-- The tokens can be continued to a list that is accepted. -/
def Token.Viable (tokens : List Token) : Prop :=
  ∃ more program, parseTokens (tokens ++ more) = .ok program

theorem Token.viable_of_begins {tokens : List Token}
    (begins : (Phrase.rule .program).Begins (Token.kinds tokens)) : Token.Viable tokens := by
  obtain ⟨more, derives⟩ := begins
  obtain ⟨program, canonical, written⟩ := derives.allows Nonterminal.tree_of_production
  have whole : Token.kinds (tokens ++ Token.bare more) = program.unparse ++ [.endOfFile] := by
    rw [Token.kinds_append, Token.kinds_bare, written]
  obtain ⟨read, done, _⟩ := parse_tokens_complete canonical whole
  exact ⟨Token.bare more, read, done⟩

theorem Token.exists_close_list (tokens : List Token) :
    ∃ behind, Token.closeList tokens = tokens ++ behind := by
  rw [Token.closeList]
  split
  · split
    · exact ⟨[], (List.append_nil _).symm⟩
    · exact ⟨_, rfl⟩
  · rename_i nothing
    rw [List.getLast?_eq_none_iff.mp nothing]
    exact ⟨_, rfl⟩

theorem Token.Viable.exists_done {tokens : List Token} (viable : Token.Viable tokens) :
    ∃ behind rest, Grammar.programEnding (tokens ++ behind) = .done rest := by
  obtain ⟨more, program, done⟩ := viable
  obtain ⟨closing, closed⟩ := Token.exists_close_list (tokens ++ more)
  rw [parse_tokens_eq, closed] at done
  refine ⟨more ++ closing, ?_⟩
  rw [Grammar.programEnding, ← List.append_assoc]
  cases read : Grammar.program (tokens ++ more ++ closing) with
  | error failure =>
      rw [Grammar.outcome_of_error read] at done
      cases done
  | ok others => exact ⟨others.2, rfl⟩

theorem leads_program : (Phrase.rule .program).Leads [] (.many (.rule .statement)) := by
  intro written begins
  exact leads_of_derives (fun _ => .rule) _ (leads_first _ _ written begins)

section

variable {front behind : List Token} {next : Token}

theorem begins_of_failed
    (failed : Grammar.programEnding (front ++ next :: behind) = .failed (next :: behind)) :
    (Phrase.rule .program).Begins (Token.kinds front) := by
  -- Here the fork is the end of the tokens.
  have forked : Read.Ending.Forked [] [] _ _ _ _ := Grammar.program_forked (front ++ next :: behind)
  rw [List.append_nil, failed] at forked
  cases forked with
  | done before split derives our their => cases our
  | failed before split begins our their =>
      rw [List.append_nil] at our
      rw [Read.Ending.failed.inj our] at split
      rw [List.append_cancel_right split]
      exact leads_program _ begins
  | shown before split shows our =>
      rw [List.append_nil] at our
      rw [Read.Ending.failed.inj our] at split
      rw [List.append_cancel_right split]
      exact (shows.of_leads leads_program).begins.of_append
  | past short => cases short

theorem shows_group_of_failed
    (failed : Grammar.programEnding (front ++ next :: behind) = .failed (next :: behind))
    (viable : Token.Viable (front ++ [next])) :
    (Phrase.rule .program).ShowsGroup (Token.kinds front) next.kind := by
  obtain ⟨theirs, rest, done⟩ := viable.exists_done
  -- Here the fork is behind the token.
  have forked : Read.Ending.Forked behind theirs _ _ _ _ := Grammar.program_forked (front ++ [next])
  rw [List.append_assoc, List.singleton_append, failed, done] at forked
  cases forked with
  | done before split derives our their => cases our
  | failed before split begins our their => cases their
  | shown before split shows our =>
      obtain ⟨rfl, nothing⟩ := List.cons.inj (Read.Ending.failed.inj our)
      rw [List.self_eq_append_left.mp nothing] at split
      rw [List.append_cancel_right split]
      exact shows.of_leads leads_program
  | past short => exact absurd short (Nat.not_succ_le_self _)

end

/-- A parse that fails stands at the wrong token. -/
theorem Parser.parse_failed {tokens : List Token} {error : SyntaxError} {parser : Parser}
    (rejected : (Parser.ofTokens tokens).parse = (.error error, parser)) :
    ∃ front behind, Token.closeList tokens = front ++ error.found :: behind ∧
      parser.index = front.length ∧
      Grammar.programEnding (Token.closeList tokens) = .failed (error.found :: behind) := by
  have told : (Parser.ofTokens tokens).parse.1 = .error error := congrArg Prod.fst rejected
  have left : (Parser.ofTokens tokens).parse.2.index = parser.index :=
    congrArg (fun outcome => outcome.2.index) rejected
  cases (Parser.ready_of_tokens tokens).step with
  | failed expected front behind next split failed =>
      have stops := Parser.stops_of_error split failed
      rw [stops.result] at told
      cases told
      rw [Parser.rest_of_tokens] at split failed
      refine ⟨front, behind, split, ?_, ?_⟩
      · rw [← left, stops.index]
        exact Nat.zero_add _
      · rw [Grammar.programEnding, failed]
  | done program front behind stop split final done =>
      rw [(Parser.stops_of_ok split done).result] at told
      cases told

/-- A syntax error is reported at the first wrong token: the tokens before it can be continued to a
list that is accepted, and with it they cannot, except where it tells a condition in parentheses,
which was given up, from an operand. -/
theorem parse_error_at_first_wrong_token {tokens : List Token} {error : SyntaxError}
    {parser : Parser} (rejected : (Parser.ofTokens tokens).parse = (.error error, parser)) :
    let stored := Token.closeList tokens
    let before := stored.take parser.index
    stored[parser.index]? = some error.found ∧ Token.Viable before ∧
      (Token.Viable (before ++ [error.found]) ↔
        (Phrase.rule .program).ShowsGroup (Token.kinds before) error.found.kind) := by
  intro stored before
  obtain ⟨front, behind, split, index, failed⟩ := Parser.parse_failed rejected
  have here : stored[parser.index]? = some error.found := by simp [stored, split, index]
  have sameFront : before = front := by simp [before, stored, split, index]
  rw [split] at failed
  rw [sameFront]
  refine ⟨here, Token.viable_of_begins (begins_of_failed failed), ?_, ?_⟩
  · exact shows_group_of_failed failed
  · intro shows
    apply Token.viable_of_begins
    rw [Token.kinds_append]
    exact shows.begins

/-- With the second keyword of `strayKeyword` nothing that is accepted begins. -/
theorem first_wrong_token_of_stray_keyword :
    (Parser.ofTokens strayKeyword).parse =
        (.error ⟨.identifier, ⟨.keyword .letWord, ⟨⟨4, 7⟩, ⟨1, 5⟩⟩⟩⟩,
          ⟨strayKeyword, ⟨1, ⟨0, 3⟩, by decide⟩⟩) ∧
      Token.Viable (strayKeyword.take 1) ∧ ¬ Token.Viable (strayKeyword.take 2) := by
  obtain ⟨_, viable, wrong⟩ := parse_error_at_first_wrong_token parse_stray_keyword
  refine ⟨parse_stray_keyword, viable, fun further => ?_⟩
  obtain ⟨_, _, _, _, opens⟩ := wrong.mp further
  rcases opens.kind_cases with ⟨op, compared⟩ | negated
  · cases op <;> cases compared
  · cases negated

/-- The condition of `if ((a < b + ) then { }`, whose second parenthesis is never closed. -/
def unclosedGroup : List Token :=
  Token.bare [.keyword .ifWord, .mark .leftParen, .mark .leftParen, .identifier "a", .mark .less,
    .identifier "b", .mark .plus, .mark .rightParen, .keyword .thenWord, .mark .leftBrace,
    .mark .rightBrace, .endOfFile]

def closedGroup : List Token :=
  unclosedGroup.take 5 ++ Token.bare [.identifier "b", .mark .rightParen, .mark .rightParen,
    .keyword .thenWord, .mark .leftBrace, .mark .rightBrace, .endOfFile]

/-- The error of `unclosedGroup` is at its comparison, and a list that begins like it up to there
is accepted. -/
theorem unclosed_group_error_before_wrong_token :
    let parser := Parser.ofTokens unclosedGroup
    Token.Closed unclosedGroup ∧
      parser.parse.1 = .error ⟨.token (.mark .rightParen), ⟨.mark .less, default⟩⟩ ∧
      parser.parse.2.index = 4 ∧ Token.Viable (unclosedGroup.take 5) := by
  intro parser
  have closed : Token.Closed unclosedGroup :=
    ⟨[.keyword .ifWord, .mark .leftParen, .mark .leftParen, .identifier "a", .mark .less,
      .identifier "b", .mark .plus, .mark .rightParen, .keyword .thenWord, .mark .leftBrace,
      .mark .rightBrace], rfl, by decide⟩
  have failed : parser.parse.1.map (fun _ => ()) =
      .error ⟨.token (.mark .rightParen), ⟨.mark .less, default⟩⟩ := by decide +kernel
  have stops : parser.parse.2.index = 4 := by decide +kernel
  have accepted : (parseTokens closedGroup).isOk = true := by decide +kernel
  refine ⟨closed, ?_, stops, ?_⟩
  · cases told : parser.parse.1 with
    | error error =>
        rw [told] at failed
        cases failed
        rfl
    | ok program =>
        rw [told] at failed
        cases failed
  · cases read : parseTokens closedGroup with
    | error error =>
        rw [read] at accepted
        cases accepted
    | ok program => exact ⟨_, program, read⟩

end ThreeAddress
