import ThreeAddress.Proofs.Compilation.Stages
import ThreeAddress.Proofs.Syntax.Extents
import ThreeAddress.Proofs.Syntax.RoundTrip
import ThreeAddress.Proofs.Token.Spelling

/-!
# Where the nodes of a program stand

Statements stand on the tokens they were read from, so a program does too, and with it every node
of its tree: the place of a node is that of the tokens it is written with, and the places of the
nodes below it follow one another inside.
-/

namespace ThreeAddress

set_option autoImplicit false

namespace Grammar

open Read

/-- Behind a colon, with `named` and the colon taken since `first`. -/
theorem declared_type_takes (first colon : Token) (name : Ident) {named : List Token}
    (tokens : List Token) (started : first.kind = .keyword .letWord)
    (stands : (Node.ident name).StandsOn named) (divided : colon.kind = .mark .colon) :
    (declaredType first name tokens).Takes (first :: (named ++ [colon])) tokens fun front stmt =>
      (Node.stmt stmt).StandsOn (first :: (named ++ colon :: front)) := by
  cases tokens with
  | nil => exact .of_fail _
  | cons bracket inside =>
      rw [declaredType]
      split
      · rename_i opened
        refine .widen (.behind (by simp [opened]) ?_) _
        refine (data_type_takes _ inside).and_then fun element _ typing _ =>
          (sign_takes .semicolon _ element.rest).and_then_token fun divider parted _ =>
            (array_size_takes _ divider.rest).and_then fun size _ counted _ =>
              (sign_takes .rightBracket _ size.rest).and_then_token fun close closed _ =>
                (sign_takes .semicolon _ close.rest).map_token fun stop stopped ends => ?_
        obtain ⟨type, rfl, typed, _⟩ := typing
        obtain ⟨number, rfl, sized, noted⟩ := counted
        refine .of_up_to rfl (by simpa using ends.append (first :: (named ++ [colon]))) ?_ ?_ ?_
        · simp [Node.unparse, Stmt.unparse, started, stands.written, divided, opened, typed, parted,
            sized, closed, stopped]
        · exact fun position member => ⟨number, by simp, by simp_all [Node.notes]⟩
        · exact .node stands (.skip _ (.skip _ (.skip _ (.skip _ (.skip _ (.skip _ (.skip _ .nil)))))))
      · refine (data_type_takes _ (bracket :: inside)).and_then fun type _ typing _ =>
          (sign_takes .semicolon _ type.rest).map_token fun stop stopped ends => ?_
        obtain ⟨token, rfl, typed, _⟩ := typing
        refine .of_up_to rfl (by simpa using ends) ?_ (List.forall_mem_nil _) ?_
        · simp [Node.unparse, Stmt.unparse, started, stands.written, divided, typed, stopped]
        · exact .node stands (.skip _ (.skip _ (.skip _ .nil)))

theorem declaration_takes (first : Token) (tokens : List Token)
    (started : first.kind = .keyword .letWord) :
    (declaration first tokens).Takes [first] tokens fun front stmt =>
      (Node.stmt stmt).StandsOn (first :: front) := by
  rw [declaration]
  exact (ident_takes [first] tokens).and_then fun name named stands _ =>
    (sign_takes .colon _ name.rest).and_then_token fun colon divided _ =>
      declared_type_takes first colon.value name.value colon.rest started stands divided

theorem constant_declaration_takes (first : Token) (tokens : List Token)
    (started : first.kind = .keyword .defineWord) :
    (constantDeclaration first tokens).Takes [first] tokens fun front stmt =>
      (Node.stmt stmt).StandsOn (first :: front) := by
  rw [constantDeclaration]
  refine (word_takes .constWord _ tokens).and_then_token fun const fixed _ =>
    (ident_takes _ const.rest).and_then fun name named stands _ =>
      (sign_takes .colon _ name.rest).and_then_token fun colon divided _ =>
        (data_type_takes _ colon.rest).and_then fun type _ typing _ =>
          (sign_takes .equal _ type.rest).and_then_token fun equal becomes _ =>
            (expression_takes _ equal.rest).and_then fun value body computes _ =>
              (sign_takes .semicolon _ value.rest).map_token fun stop stopped ends => ?_
  obtain ⟨token, rfl, typed, noted⟩ := typing
  refine .of_up_to rfl (by simpa using ends) ?_ ?_ ?_
  · simp [Node.unparse, Stmt.unparse, started, fixed, stands.written, divided, typed, becomes,
      computes.written, stopped]
  · exact fun position member => ⟨token, by simp, by simp_all [Node.notes]⟩
  · exact .skip _ (.node stands (.skip _ (.skip _ (.skip _ (.node computes (.skip _ .nil))))))

theorem assignment_takes (first : Token) (name : String) (tokens : List Token)
    (started : first.kind = .identifier name) :
    (assignment first name tokens).Takes [first] tokens fun front stmt =>
      (Node.stmt stmt).StandsOn (first :: front) := by
  have named : (Node.ident ⟨name, first.place⟩).StandsOn [first] :=
    .of_single rfl (by rw [started]; rfl) rfl rfl
  rw [assignment]
  refine (sign_takes .colonEqual _ tokens).and_then_token fun sign becomes _ =>
    (expression_takes _ sign.rest).and_then fun value body computes _ =>
      (sign_takes .semicolon _ value.rest).map_token fun stop stopped ends => ?_
  have reaches : Token.EndsWith (first :: sign.value :: (body ++ [stop.value])) stop.last := by
    simpa using ends
  refine .intro ?_ (fun ordered => Place.around_up_to ordered reaches) (List.forall_mem_nil _) ?_
  · simp [Node.unparse, Stmt.unparse, Ident.kind, started, becomes, computes.written, stopped]
  · exact .node named (.skip _ (.node computes (.skip _ .nil)))

theorem input_takes (first : Token) (tokens : List Token)
    (started : first.kind = .keyword .inputWord) :
    (input first tokens).Takes [first] tokens fun front stmt =>
      (Node.stmt stmt).StandsOn (first :: front) := by
  rw [input]
  refine (sign_takes .leftParen _ tokens).and_then_token fun lparen opened _ =>
    (ident_takes _ lparen.rest).and_then fun target named stands _ =>
      (sign_takes .rightParen _ target.rest).and_then_token fun rparen closed _ =>
        (sign_takes .semicolon _ rparen.rest).map_token fun stop stopped ends => ?_
  refine .of_up_to rfl (by simpa using ends) ?_ (List.forall_mem_nil _) ?_
  · simp [Node.unparse, Stmt.unparse, started, opened, stands.written, closed, stopped]
  · exact .skip _ (.node stands (.skip _ (.skip _ .nil)))

theorem comma_names_takes (last : Span) (before tokens : List Token)
    (ends : Token.EndsWith before last) :
    (commaNames last tokens).Takes before tokens fun front names =>
      Token.kinds front = Ident.unparseTail names ∧
        Node.Parts Node.StandsOn front (names.map .ident) := by
  cases tokens with
  | nil =>
      rw [commaNames]
      exact .of_nothing ends ⟨rfl, .nil⟩
  | cons comma rest =>
      rw [commaNames]
      split
      · rename_i separated
        refine .widen (.behind (by simp [separated]) ?_) _
        refine (ident_takes [comma] rest).and_tail fun name named stands ends =>
          (comma_names_takes name.last _ name.rest ends).map fun names others listed _ => ?_
        obtain ⟨written, parts⟩ := listed
        exact ⟨by simp [Ident.unparseTail, Node.unparse, separated, stands.written, written],
          .skip comma (.node stands parts)⟩
      · exact .of_nothing ends ⟨rfl, .nil⟩
termination_by tokens.length
decreasing_by
  have := name.shorter
  simp only [List.length_cons]
  omega

theorem output_items_takes (before tokens : List Token) :
    (outputItems tokens).Takes before tokens fun front items =>
      Token.kinds front = Stmt.unparseItems items.1 items.2 ∧
        Node.Parts Node.StandsOn front (items.2.map .ident) := by
  cases tokens with
  | nil => exact .of_fail _
  | cons first rest =>
      rw [outputItems]
      split
      · rename_i text quoted
        refine .widen (.behind (by simp [quoted]) ?_) _
        refine (comma_names_takes first.place.span [first] rest rfl).map
          fun names others listed _ => ?_
        obtain ⟨written, parts⟩ := listed
        exact ⟨by simp [Stmt.unparseItems, quoted, written], parts.skip first⟩
      · refine (ident_takes before (first :: rest)).map fun name named stands _ => ?_
        exact ⟨by simp [Stmt.unparseItems, Ident.unparseTail, Node.unparse, stands.written],
          .single stands⟩

theorem output_takes (first : Token) (tokens : List Token)
    (started : first.kind = .keyword .outputWord) :
    (output first tokens).Takes [first] tokens fun front stmt =>
      (Node.stmt stmt).StandsOn (first :: front) := by
  rw [output]
  refine (sign_takes .leftParen _ tokens).and_then_token fun lparen opened _ =>
    (output_items_takes _ lparen.rest).and_then fun items inside listed _ =>
      (sign_takes .rightParen _ items.rest).and_then_token fun rparen closed _ =>
        (sign_takes .semicolon _ rparen.rest).map_token fun stop stopped ends => ?_
  obtain ⟨written, parts⟩ := listed
  refine .of_up_to rfl (by simpa using ends) ?_ (List.forall_mem_nil _) ?_
  · simp [Node.unparse, Stmt.unparse, started, opened, written, closed, stopped]
  · have all := parts.append (.skip rparen.value (.skip stop.value .nil))
    rw [List.append_nil] at all
    exact .skip _ all

end Grammar

/-- The statements stand on the tokens, with nothing else between them. -/
structure Stmt.StandOn (tokens : List Token) (body : List Stmt) : Prop where
  written : Token.kinds tokens = Stmt.unparseAll body
  parts : Node.Parts Node.StandsOn tokens (body.map .stmt)

structure Stmt.InBraces (tokens : List Token) (body : List Stmt) : Prop where
  written : Token.kinds tokens = .mark .leftBrace :: (Stmt.unparseAll body ++ [.mark .rightBrace])
  parts : Node.Parts Node.StandsOn tokens (body.map .stmt)

theorem Stmt.StandOn.cons {front behind : List Token} {first : Stmt} {rest : List Stmt}
    (stands : (Node.stmt first).StandsOn front) (others : Stmt.StandOn behind rest) :
    Stmt.StandOn (front ++ behind) (first :: rest) :=
  ⟨by simp [Stmt.unparseAll, Node.unparse, stands.written, others.written],
    .node stands others.parts⟩

namespace Grammar

open Read

mutual

theorem statement_takes (before tokens : List Token) :
    (statement tokens).Takes before tokens fun front stmt =>
      (Node.stmt stmt).StandsOn front := by
  match tokens with
  | [] =>
      rw [statement]
      exact .of_fail _
  | first :: rest =>
      rw [statement]
      split
      · rename_i same
        exact .widen (.behind (by simp [same]) (declaration_takes first rest same)) _
      · rename_i same
        exact .widen (.behind (by simp [same]) (constant_declaration_takes first rest same)) _
      · rename_i name same
        exact .widen (.behind (by simp [same]) (assignment_takes first name rest same)) _
      · rename_i same
        exact .widen (.behind (by simp [same]) (conditional_takes first rest same)) _
      · rename_i same
        exact .widen (.behind (by simp [same]) (do_while_takes first rest same)) _
      · rename_i same
        exact .widen (.behind (by simp [same]) (for_loop_takes first rest same)) _
      · rename_i same
        exact .widen (.behind (by simp [same]) (input_takes first rest same)) _
      · rename_i same
        exact .widen (.behind (by simp [same]) (output_takes first rest same)) _
      · exact .of_fail _
termination_by 4 * tokens.length
decreasing_by
  all_goals
    simp only [List.length_cons]
    omega

theorem conditional_takes (first : Token) (tokens : List Token)
    (started : first.kind = .keyword .ifWord) :
    (conditional first tokens).Takes [first] tokens fun front stmt =>
      (Node.stmt stmt).StandsOn (first :: front) := by
  rw [conditional]
  refine (sign_takes .leftParen _ tokens).and_then_token fun lparen opened _ =>
    (condition_takes _ lparen.rest).and_then fun test tested stands _ =>
      (sign_takes .rightParen _ test.rest).and_then_token fun rparen closed _ =>
        (word_takes .thenWord _ rparen.rest).and_then_token fun keyword follows _ =>
          (block_takes _ keyword.rest).and_tail fun body inside braced ends => ?_
  have further := alternative_takes first test.value body.value body.last
    (lparen.value :: (tested ++ rparen.value :: keyword.value :: inside)) body.rest
    (by simpa using ends)
    (by simp [Stmt.unparse, Node.unparse, started, opened, stands.written, closed, follows,
      braced.written])
    (.skip _ (.node stands (.skip _ (.skip _ braced.parts))))
  simpa using further
termination_by 4 * tokens.length + 3
decreasing_by
  all_goals
    have := lparen.shorter
    have := test.shorter
    have := rparen.shorter
    have := keyword.shorter
  · omega
  · have := body.shorter
    omega

/-- Behind the block of an `if`, with `taken` taken since `first`. -/
theorem alternative_takes (first : Token) (test : Cond) (body : List Stmt) (last : Span)
    (taken tokens : List Token) (ends : Token.EndsWith (first :: taken) last)
    (written : Token.kinds (first :: taken) = (Stmt.ifThen test body default).unparse)
    (parts : Node.Parts Node.StandsOn taken (.cond test :: body.map .stmt)) :
    (alternative first test body last tokens).Takes (first :: taken) tokens fun front stmt =>
      (Node.stmt stmt).StandsOn (first :: (taken ++ front)) := by
  have short : (Node.stmt (.ifThen test body (first.place.upTo last))).StandsOn
      (first :: (taken ++ [])) := by
    rw [List.append_nil]
    exact .of_up_to rfl ends written (List.forall_mem_nil _) parts
  match tokens with
  | [] =>
      rw [alternative]
      exact .of_nothing ends short
  | keyword :: rest =>
      rw [alternative]
      split
      · rename_i same
        refine .widen (.behind (by simp [same]) ?_) _
        refine (block_takes [keyword] rest).map fun otherwise inside braced ends => ?_
        refine .of_up_to rfl (by simpa using ends.append (first :: taken)) ?_
          (List.forall_mem_nil _) ?_
        · rw [← List.cons_append, Token.kinds_append, written]
          simp [Node.unparse, Stmt.unparse, same, braced.written]
        · exact parts.append (.skip keyword braced.parts)
      · exact .of_nothing ends short
termination_by 4 * tokens.length + 3
decreasing_by
  simp only [List.length_cons]
  omega

theorem do_while_takes (first : Token) (tokens : List Token)
    (started : first.kind = .keyword .doWord) :
    (doWhile first tokens).Takes [first] tokens fun front stmt =>
      (Node.stmt stmt).StandsOn (first :: front) := by
  rw [doWhile]
  refine (block_takes [first] tokens).and_then fun body inside braced _ =>
    (word_takes .whileWord _ body.rest).and_then_token fun keyword ended _ =>
      (sign_takes .leftParen _ keyword.rest).and_then_token fun lparen opened _ =>
        (condition_takes _ lparen.rest).and_then fun test tested stands _ =>
          (sign_takes .rightParen _ test.rest).and_then_token fun rparen closed _ =>
            (sign_takes .semicolon _ rparen.rest).map_token fun stop stopped ends => ?_
  refine .of_up_to rfl (by simpa using ends) ?_ (List.forall_mem_nil _) ?_
  · simp [Node.unparse, Stmt.unparse, started, braced.written, ended, opened, stands.written,
      closed, stopped]
  · exact braced.parts.append (.skip _ (.skip _ (.node stands (.skip _ (.skip _ .nil)))))
termination_by 4 * tokens.length + 3
decreasing_by omega

theorem for_loop_takes (first : Token) (tokens : List Token)
    (started : first.kind = .keyword .forWord) :
    (forLoop first tokens).Takes [first] tokens fun front stmt =>
      (Node.stmt stmt).StandsOn (first :: front) := by
  rw [forLoop]
  refine (ident_takes [first] tokens).and_then fun counter named counts _ =>
    (word_takes .fromWord _ counter.rest).and_then_token fun fromWord begins _ =>
      (expression_takes _ fromWord.rest).and_then fun low lower starts _ =>
        (word_takes .toWord _ low.rest).and_then_token fun toWord bounded _ =>
          (expression_takes _ toWord.rest).and_then fun high upper stops _ =>
            (word_takes .stepWord _ high.rest).and_then_token fun stepWord stepped _ =>
              (expression_takes _ stepWord.rest).and_then fun step stride adds _ =>
                (block_takes _ step.rest).map fun body inside braced ends => ?_
  refine .of_up_to rfl (by simpa using ends) ?_ (List.forall_mem_nil _) ?_
  · simp [Node.unparse, Stmt.unparse, started, counts.written, begins, starts.written, bounded,
      stops.written, stepped, adds.written, braced.written]
  · exact .node counts (.skip _ (.node starts (.skip _ (.node stops (.skip _
      (.node adds braced.parts))))))
termination_by 4 * tokens.length + 3
decreasing_by
  have := counter.shorter
  have := fromWord.shorter
  have := low.shorter
  have := toWord.shorter
  have := high.shorter
  have := stepWord.shorter
  have := step.shorter
  omega

theorem block_takes (before tokens : List Token) :
    (block tokens).Takes before tokens Stmt.InBraces := by
  have opening : ((sign .leftBrace tokens).andTail fun lbrace =>
      blockItems lbrace.last lbrace.rest).Takes before tokens fun front body =>
        ∃ brace inside, front = brace :: inside ∧ brace.kind = .mark .leftBrace ∧
          Stmt.StandOn inside body := by
    refine (sign_takes .leftBrace before tokens).and_tail fun lbrace _ taken ends => ?_
    obtain ⟨rfl, opened⟩ := taken
    exact (block_items_takes lbrace.last _ lbrace.rest ends).imp fun inside body stands =>
      ⟨lbrace.value, inside, rfl, opened, stands⟩
  rw [block]
  refine opening.and_then fun body _ taken _ =>
    (sign_takes .rightBrace _ body.rest).map_token fun close closed _ => ?_
  obtain ⟨brace, inside, rfl, opened, stands⟩ := taken
  refine ⟨by simp [opened, stands.written, closed], ?_⟩
  have all := stands.parts.append (.skip close.value .nil)
  rw [List.append_nil] at all
  exact .skip brace all
termination_by 4 * tokens.length + 2
decreasing_by
  have := lbrace.shorter
  omega

theorem block_items_takes (last : Span) (before tokens : List Token)
    (ends : Token.EndsWith before last) :
    (blockItems last tokens).Takes before tokens Stmt.StandOn := by
  match tokens with
  | [] =>
      rw [blockItems]
      exact .of_nothing ends ⟨rfl, .nil⟩
  | first :: rest =>
      rw [blockItems]
      split
      · exact .of_nothing ends ⟨rfl, .nil⟩
      · refine .widen ?_ _
        exact (statement_takes before (first :: rest)).and_tail fun item front stands ends =>
          (block_items_takes item.last _ item.rest ends).map fun items behind others _ =>
            .cons stands others
termination_by 4 * tokens.length + 1
decreasing_by
  · omega
  · have := item.shorter
    omega

end

/-- The statements of a program stand on the tokens in front of the rest. -/
theorem program_stand_on (tokens : List Token) {program : Program} {rest : List Token}
    (done : Grammar.program tokens = .ok (program, rest)) :
    ∃ front, tokens = front ++ rest ∧ Stmt.StandOn front program := by
  match tokens with
  | [] =>
      rw [Grammar.program] at done
      cases done
      exact ⟨[], rfl, rfl, .nil⟩
  | first :: others =>
      rw [Grammar.program] at done
      split at done
      · cases done
        exact ⟨[], rfl, rfl, .nil⟩
      · split at done
        · cases done
        · rename_i item took
          obtain ⟨front, split, _, _, stands⟩ := (statement_takes [] _).done item took
          cases behind : Grammar.program item.rest with
          | error failure =>
              rw [behind] at done
              cases done
          | ok further =>
              rw [behind] at done
              cases done
              obtain ⟨more, remains, others⟩ := program_stand_on item.rest behind
              refine ⟨front ++ more, ?_, .cons stands others⟩
              rw [split, remains, List.append_assoc]
termination_by tokens.length
decreasing_by exact Reading.shorter _

/-- A program that cannot be read fails at a rest of its tokens, in front of the end of the file. -/
theorem program_failed (tokens : List Token) {failure : Failure}
    (failed : Grammar.program tokens = .error failure) :
    ∃ front, tokens = front ++ failure.rest ∧ .endOfFile ∉ Token.kinds front := by
  match tokens with
  | [] =>
      rw [Grammar.program] at failed
      cases failed
  | first :: others =>
      rw [Grammar.program] at failed
      split at failed
      · cases failed
      · split at failed
        · rename_i inner took
          cases failed
          exact (statement_takes [] _).failed failure took
        · rename_i item took
          obtain ⟨front, split, goesOn, _⟩ := (statement_takes [] _).done item took
          cases behind : Grammar.program item.rest with
          | ok further =>
              rw [behind] at failed
              cases failed
          | error inner =>
              rw [behind] at failed
              cases failed
              obtain ⟨more, remains, wentOn⟩ := program_failed item.rest behind
              refine ⟨front ++ more, ?_, by simp [goesOn, wentOn]⟩
              rw [split, remains, List.append_assoc]
termination_by tokens.length
decreasing_by exact Reading.shorter _

end Grammar

variable {source : List Char} {tokens : List Token} {program : Program}

theorem parse_tokens_parts (closed : Token.Closed tokens)
    (parsed : parseTokens tokens = .ok program) :
    Node.Parts Node.StandsOn tokens (program.map .stmt) := by
  obtain ⟨body, ends, _⟩ := closed
  obtain ⟨rest, read⟩ := (parse_tokens_eq_ok_iff ends program).mp parsed
  obtain ⟨front, rfl, stands⟩ := Grammar.program_stand_on tokens read
  have nothing : Node.Parts Node.StandsOn rest [] := by
    simpa using Node.Parts.nil.skip_all rest
  simpa using stands.parts.append nothing

/-- The wrong token of a syntax error is one of the tokens. -/
theorem parse_tokens_found (closed : Token.Closed tokens) {error : SyntaxError}
    (failed : parseTokens tokens = .error error) : error.found ∈ tokens := by
  obtain ⟨body, ends, _⟩ := closed
  rw [parse_tokens_eq, Token.close_list_of_kinds ends] at failed
  cases read : Grammar.program tokens with
  | ok done =>
      rw [Grammar.outcome_of_ok read] at failed
      cases failed
  | error failure =>
      rw [Grammar.outcome_of_error read] at failed
      cases failed
      obtain ⟨front, split, goesOn⟩ := Grammar.program_failed tokens read
      cases left : failure.rest with
      | nil =>
          -- The end of the file cannot have been taken.
          rw [left, List.append_nil] at split
          rw [← split, ends] at goesOn
          simp at goesOn
      | cons found behind =>
          rw [split, left]
          simp

/-! ## Runs of tokens by their indices -/

/-- The tokens `i` to `j`, both included. -/
def Token.run (tokens : List Token) (i j : Nat) : List Token :=
  (tokens.take (j + 1)).drop i

theorem Place.Around.exists_indices {segment : List Token} {place : Place}
    (around : place.Around segment) (part : segment <:+: tokens) :
    ∃ i j first last, i ≤ j ∧ tokens[i]? = some first ∧ tokens[j]? = some last ∧
      place = ⟨⟨first.place.span.start, last.place.span.stop⟩, first.place.position⟩ ∧
      Token.run tokens i j = segment := by
  obtain ⟨first, rest, shape, start, position⟩ := around.exists_first
  obtain ⟨front, last, split, stop⟩ := around.exists_last
  obtain ⟨before, behind, rfl⟩ := part
  refine ⟨before.length, before.length + front.length, first, last, Nat.le_add_right _ _,
    ?_, ?_, ?_, ?_⟩
  · simp [shape]
  · simp [split]
  · rw [← start, ← stop, ← position]
  · have size : before.length + front.length + 1 = before.length + segment.length := by
      simp [split, Nat.add_assoc]
    rw [Token.run, size, List.append_assoc, List.take_length_add_append, List.drop_left]
    simp

/-- Every node of a program that a text spells is written with a run of the tokens of the text. It
starts and stops with that run, and its children lie in it one after another. -/
theorem program_nodes_placed (parsed : Source.program source = .ok program) :
    ∃ tokens, Source.tokens source = .ok tokens ∧
      (program.Pairwise fun first second => first.place.span.stop ≤ second.place.span.start) ∧
      ∀ node, program.HasNode node →
        (∃ i j first last, i ≤ j ∧ tokens[i]? = some first ∧ tokens[j]? = some last ∧
          node.place.span = ⟨first.place.span.start, last.place.span.stop⟩ ∧
          node.place.position = first.place.position ∧
          Token.kinds (Token.run tokens i j) = node.unparse) ∧
        (∀ child ∈ node.children, node.place.span.start ≤ child.place.span.start ∧
          child.place.span.stop ≤ node.place.span.stop) ∧
        node.children.Pairwise fun first second =>
          first.place.span.stop ≤ second.place.span.start := by
  obtain ⟨tokens, scanned, done⟩ := Source.program_eq_ok_iff.mp parsed
  obtain ⟨_, closed⟩ := tokenize_spelled scanned
  obtain ⟨ordered, _⟩ := tokenize_places scanned
  have parts := parse_tokens_parts closed done
  refine ⟨tokens, Source.tokens_eq_ok_iff.mpr scanned, ?_, ?_⟩
  · exact List.pairwise_map.mp (parts.pairwise ordered)
  · intro node under
    obtain ⟨segment, part, stands⟩ := parts.exists_run under
    have sorted := ordered.sublist part.sublist
    obtain ⟨i, j, first, last, le, opens, closes, placed, run⟩ :=
      (stands.around sorted).exists_indices part
    refine ⟨⟨i, j, first, last, le, opens, closes, ?_, ?_, ?_⟩, stands.nested sorted⟩
    · rw [placed]
    · rw [placed]
    · rw [run, stands.written]

/-- The condition opens with a parenthesis that turns out to belong to its left operand. -/
def groupedOperand : List Char :=
  "let a : Int; if ((a + 1) > 2) then \x7b a := (3); \x7d".toList

theorem program_nodes_placed_grouped_operand :
    ∃ program tokens, Source.program groupedOperand = .ok program ∧
      Source.tokens groupedOperand = .ok tokens ∧
      program.map (·.place.span) = [⟨0, 12⟩, ⟨13, 48⟩] ∧
      ∀ node, program.HasNode node →
        ∃ i j first last, i ≤ j ∧ tokens[i]? = some first ∧ tokens[j]? = some last ∧
          node.place.span = ⟨first.place.span.start, last.place.span.stop⟩ ∧
          node.place.position = first.place.position ∧
          Token.kinds (Token.run tokens i j) = node.unparse := by
  have spans : (Source.program groupedOperand).map (List.map (·.place.span)) =
      .ok [⟨0, 12⟩, ⟨13, 48⟩] := by
    decide +kernel
  cases parsed : Source.program groupedOperand with
  | error rejection =>
      rw [parsed] at spans
      cases spans
  | ok program =>
      obtain ⟨tokens, scanned, _, nodes⟩ := program_nodes_placed parsed
      rw [parsed] at spans
      exact ⟨program, tokens, rfl, scanned, Except.ok.inj spans, fun node under =>
        (nodes node under).1⟩

end ThreeAddress
