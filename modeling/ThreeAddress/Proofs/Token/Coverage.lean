import ThreeAddress.Proofs.Token.LongestMatch

/-!
# The answers of a lexer cover its text

Calls for the next token, past bad text and up to the end of the file, answer with pieces of the
text. What one call takes from the text is said once (`Answer.Takes`), and a run of calls is cut
into such steps (`Answer.Cuts`). Main statement: the texts of the answers and the trivia between
them, in order, make up the text, and asking for all tokens at once gives the same answers up to
the first bad text.
-/

namespace ThreeAddress

set_option autoImplicit false

/-- The spans between the spans of a list, the first of them behind the offset `start`. -/
def Span.gaps (start : Nat) : List Span → List Span
  | [] => []
  | span :: rest => ⟨start, span.start⟩ :: gaps span.stop rest

namespace Scan

/-- A token has the text that its pattern matched. -/
theorem Rule.text_kind {rule : Rule} {taken : List Char} (member : taken ∈ rule.language) :
    (rule.kind taken).text.toList = taken := by
  cases rule with
  | keyword word => exact ((mem_keyword_iff word taken).mp member).symm
  | mark sign => exact ((mem_mark_iff sign taken).mp member).symm
  | identifier | integer | float | string => exact String.toList_ofList

theorem Rule.kind_ne_end_of_file (rule : Rule) (taken : List Char) :
    rule.kind taken ≠ .endOfFile := by
  cases rule <;> simp [kind]

/-- What is read is a front of the text, and it is not empty. -/
theorem Reads.append {text : List Char} {found : Piece} (reads : Reads text found) :
    found.text ≠ [] ∧ found.text ++ found.rest = text := by
  cases reads with
  | unclosed => exact ⟨List.cons_ne_nil _ _, List.append_nil _⟩
  | token _ best =>
      obtain ⟨c, rest, rfl, _⟩ := Rule.lead_of_mem best.matched
      exact ⟨List.cons_ne_nil _ _, rfl⟩
  | openString | single => exact ⟨List.cons_ne_nil _ _, rfl⟩

theorem Reads.text_kind {text : List Char} {found : Piece} (reads : Reads text found)
    {kind : TokenKind} (token : found.kind = some kind) :
    kind.text.toList = found.text ∧ kind ≠ .endOfFile := by
  cases reads with
  | unclosed | openString | single => cases token
  | token _ best =>
      cases token
      exact ⟨Rule.text_kind best.matched, Rule.kind_ne_end_of_file _ _⟩

end Scan

namespace Lexer

abbrev Answer := Except BadText Token

namespace Answer

def span : Answer → Span
  | .ok token => token.place.span
  | .error bad => bad.place.span

/-- The text that an answer stands for: how the token is written, or the bad text. -/
def text : Answer → List Char
  | .ok token => token.kind.text.toList
  | .error bad => bad.text.toList

def isEnd : Answer → Bool
  | .ok token => token.isEnd
  | .error _ => false

/-- What an answer takes from `text`, of which `front` has been read before: the trivia `run` and
its own text. The end of the file leaves nothing, and any other answer has a text. -/
structure Takes (text front run rest : List Char) (answer : Answer) : Prop where
  whole : text = front ++ run ++ answer.text ++ rest
  trivia : Scan.Trivia run (answer.text ++ rest)
  span : answer.span = ⟨Bytes.size (front ++ run), Bytes.size (front ++ run ++ answer.text)⟩
  finished : answer.isEnd = true → rest = []
  nonempty : answer.isEnd = false → answer.text ≠ []

/-- Answers for the part of `text` behind `front`, up to the end of the file. -/
inductive Cuts (text : List Char) : List Char → List Answer → Prop
  | finish {front run rest : List Char} {answer : Answer} : answer.Takes text front run rest →
      answer.isEnd = true → Cuts text front [answer]
  | call {front run rest : List Char} {answer : Answer} {answers : List Answer} :
      answer.Takes text front run rest → answer.isEnd = false →
      Cuts text (front ++ run ++ answer.text) answers → Cuts text front (answer :: answers)

/-- The last answer is the end of the file, and it is the only one. -/
def Ended (answers : List Answer) : Prop :=
  ∃ before token, answers = before ++ [.ok token] ∧ token.kind = .endOfFile ∧
    ∀ answer ∈ before, answer.isEnd = false

theorem exists_of_is_end {answer : Answer} (ending : answer.isEnd = true) :
    ∃ token, answer = .ok token ∧ token.kind = .endOfFile := by
  cases answer with
  | ok token => exact ⟨token, rfl, token.is_end_iff.mp ending⟩
  | error bad => cases ending

theorem ended_cons_iff (answer : Answer) (answers : List Answer) :
    Ended (answer :: answers) ↔
      answer.isEnd = true ∧ answers = [] ∨ answer.isEnd = false ∧ Ended answers := by
  constructor
  · rintro ⟨before, token, whole, ending, inside⟩
    cases before with
    | nil =>
        cases whole
        exact .inl ⟨token.is_end_iff.mpr ending, rfl⟩
    | cons first before =>
        cases whole
        obtain ⟨here, later⟩ := List.forall_mem_cons.mp inside
        exact .inr ⟨here, before, token, rfl, ending, later⟩
  · rintro (⟨ending, rfl⟩ | ⟨inside, before, token, rfl, ending, later⟩)
    · obtain ⟨token, rfl, kind⟩ := exists_of_is_end ending
      exact ⟨[], token, rfl, kind, List.forall_mem_nil _⟩
    · exact ⟨answer :: before, token, rfl, ending, List.forall_mem_cons.mpr ⟨inside, later⟩⟩

def collect : List Answer → Except BadText (List Token)
  | [] => .ok []
  | .ok token :: rest => (collect rest).map (token :: ·)
  | .error bad :: _ => .error bad

theorem collect_eq_ok_iff (answers : List Answer) (tokens : List Token) :
    collect answers = .ok tokens ↔ answers = tokens.map .ok := by
  induction answers generalizing tokens with
  | nil => cases tokens <;> simp [collect]
  | cons answer rest ih =>
      cases answer with
      | error bad => cases tokens <;> simp [collect]
      | ok token =>
          cases tokens with
          | nil => cases found : collect rest <;> simp [collect, found, Except.map]
          | cons first others =>
              rw [List.map_cons, List.cons.injEq, ← ih others]
              cases found : collect rest <;> simp [collect, found, Except.map]

theorem collect_eq_error_iff (answers : List Answer) (bad : BadText) :
    collect answers = .error bad ↔
      ∃ (before : List Token) (behind : List Answer),
        answers = before.map .ok ++ .error bad :: behind := by
  induction answers with
  | nil => simp [collect]
  | cons answer rest ih =>
      cases answer with
      | error other =>
          constructor
          · intro first
            cases first
            exact ⟨[], rest, rfl⟩
          · rintro ⟨before, behind, whole⟩
            cases before with
            | nil =>
                cases whole
                rfl
            | cons token before => cases whole
      | ok token =>
          have further : collect (.ok token :: rest) = .error bad ↔ collect rest = .error bad := by
            cases found : collect rest <;> simp [collect, found, Except.map]
          rw [further, ih]
          constructor
          · rintro ⟨before, behind, rfl⟩
            exact ⟨token :: before, behind, rfl⟩
          · rintro ⟨before, behind, whole⟩
            cases before with
            | nil => cases whole
            | cons first before =>
                cases whole
                exact ⟨before, behind, rfl⟩

section Steps

variable {text front run rest : List Char} {answer : Answer}

theorem Takes.slice? (takes : answer.Takes text front run rest) :
    Bytes.slice? text answer.span = some answer.text := by
  rw [Bytes.slice?_eq_some_iff, takes.span]
  exact ⟨front ++ run, rest, takes.whole, rfl, Bytes.size_append _ _⟩

/-- The trivia in front of an answer fill the gap that it leaves. -/
theorem Takes.gap (takes : answer.Takes text front run rest) :
    Bytes.slice? text ⟨Bytes.size front, answer.span.start⟩ = some run ∧
      Bytes.drop? answer.span.start text = some (answer.text ++ rest) := by
  rw [takes.span, takes.whole]
  constructor
  · rw [Bytes.slice?_eq_some_iff]
    exact ⟨front, answer.text ++ rest, by simp, rfl, Bytes.size_append _ _⟩
  · rw [List.append_assoc (front ++ run)]
    exact Bytes.drop?_size_append (front ++ run) (answer.text ++ rest)

theorem Takes.front_le (takes : answer.Takes text front run rest) :
    Bytes.size front ≤ answer.span.start := by
  rw [takes.span, Bytes.size_append]
  exact Nat.le_add_right _ _

theorem Takes.stop (takes : answer.Takes text front run rest) :
    answer.span.stop = Bytes.size (front ++ run ++ answer.text) := by
  rw [takes.span]

theorem Takes.start_lt_stop (takes : answer.Takes text front run rest)
    (inside : answer.isEnd = false) : answer.span.start < answer.span.stop := by
  have nonempty := takes.nonempty inside
  rw [takes.span, Bytes.size_append (front ++ run)]
  cases content : answer.text with
  | nil => exact absurd content nonempty
  | cons c tail =>
      have width := Char.utf8Size_pos c
      simp only [Bytes.size]
      omega

end Steps

section Runs

variable {text front : List Char} {answers : List Answer}

theorem Cuts.ended (cuts : Cuts text front answers) : Ended answers := by
  induction cuts with
  | finish _ ending => exact (ended_cons_iff _ _).mpr (.inl ⟨ending, rfl⟩)
  | call _ inside _ ih => exact (ended_cons_iff _ _).mpr (.inr ⟨inside, ih⟩)

theorem Cuts.slice? (cuts : Cuts text front answers) :
    ∀ answer ∈ answers, Bytes.slice? text answer.span = some answer.text := by
  induction cuts with
  | finish takes _ => exact List.forall_mem_singleton.mpr takes.slice?
  | call takes _ _ ih => exact List.forall_mem_cons.mpr ⟨takes.slice?, ih⟩

theorem Cuts.start_lt_stop (cuts : Cuts text front answers) :
    ∀ answer ∈ answers, answer.isEnd = false → answer.span.start < answer.span.stop := by
  induction cuts with
  | finish takes _ => exact List.forall_mem_singleton.mpr takes.start_lt_stop
  | call takes _ _ ih => exact List.forall_mem_cons.mpr ⟨takes.start_lt_stop, ih⟩

/-- No answer goes back behind what has been read. -/
theorem Cuts.front_le (cuts : Cuts text front answers) :
    ∀ answer ∈ answers, Bytes.size front ≤ answer.span.start := by
  induction cuts with
  | finish takes _ => exact List.forall_mem_singleton.mpr takes.front_le
  | @call front run rest answer answers takes inside _ ih =>
      have further : Bytes.size front ≤ Bytes.size (front ++ run ++ answer.text) := by
        rw [List.append_assoc, Bytes.size_append]
        exact Nat.le_add_right _ _
      exact List.forall_mem_cons.mpr
        ⟨takes.front_le, fun later member => further.trans (ih later member)⟩

theorem Cuts.pairwise (cuts : Cuts text front answers) :
    (answers.map span).Pairwise fun first second =>
      first.start < second.start ∧ first.stop ≤ second.start := by
  induction cuts with
  | finish => exact List.pairwise_singleton _ _
  | call takes inside behind ih =>
      rw [List.map_cons, List.pairwise_cons]
      refine ⟨?_, ih⟩
      intro second member
      obtain ⟨later, listed, rfl⟩ := List.mem_map.mp member
      have disjoint := behind.front_le later listed
      rw [← takes.stop] at disjoint
      exact ⟨(takes.start_lt_stop inside).trans_le disjoint, disjoint⟩

/-- Each gap between answers is filled with trivia that reach to the answer behind it. -/
theorem Cuts.trivia (cuts : Cuts text front answers) :
    ∀ gap ∈ Span.gaps (Bytes.size front) (answers.map span), ∃ run rest,
      Bytes.slice? text gap = some run ∧ Bytes.drop? gap.stop text = some rest ∧
        Scan.Trivia run rest := by
  induction cuts with
  | finish takes _ =>
      exact List.forall_mem_singleton.mpr ⟨_, _, takes.gap.1, takes.gap.2, takes.trivia⟩
  | call takes _ _ ih =>
      rw [List.map_cons, Span.gaps, takes.stop]
      exact List.forall_mem_cons.mpr ⟨⟨_, _, takes.gap.1, takes.gap.2, takes.trivia⟩, ih⟩

/-- The gaps and the texts of the answers make up what has not been read. -/
theorem Cuts.concat (cuts : Cuts text front answers) :
    ∃ runs : List (List Char),
      (Span.gaps (Bytes.size front) (answers.map span)).map (Bytes.slice? text) =
        runs.map some ∧
      text = front ++ (List.zipWith (· ++ ·) runs (answers.map Answer.text)).flatten := by
  induction cuts with
  | @finish front run rest answer takes ending =>
      refine ⟨[run], ?_, ?_⟩
      · rw [List.map_singleton, Span.gaps, Span.gaps, List.map_singleton, takes.gap.1]
        rfl
      · have whole := takes.whole
        rw [takes.finished ending] at whole
        simpa using whole
  | @call front run rest answer answers takes inside _ ih =>
      obtain ⟨runs, sliced, whole⟩ := ih
      refine ⟨run :: runs, ?_, ?_⟩
      · rw [List.map_cons, Span.gaps, List.map_cons, takes.gap.1, takes.stop, sliced]
        rfl
      · rw [List.map_cons, List.zipWith_cons_cons, List.flatten_cons]
        simpa using whole

end Runs

end Answer

section Calls

variable {text front rest : List Char}

theorem span_answer (piece : Scan.Piece) (place : Place) :
    Answer.span (answer piece place) = place.span := by
  unfold answer
  split <;> rfl

theorem text_answer {behind : List Char} {found : Scan.Piece} (reads : Scan.Reads behind found)
    (place : Place) : Answer.text (answer found place) = found.text := by
  unfold answer
  split
  · rename_i kind token
    exact (reads.text_kind token).1
  · exact String.toList_ofList

theorem is_end_answer {behind : List Char} {found : Scan.Piece} (reads : Scan.Reads behind found)
    (place : Place) : Answer.isEnd (answer found place) = false := by
  unfold answer
  split
  · rename_i kind token
    apply Bool.eq_false_of_not_eq_true
    intro ending
    exact (reads.text_kind token).2 ((Token.is_end_iff _).mp ending)
  · rfl

theorem text_end_of_file (place : Place) : Answer.text (.ok ⟨.endOfFile, place⟩) = [] := rfl

/-- One call takes its answer from the text. -/
theorem Answers.takes {answer : Answer} (answers : Answers text front answer rest) :
    ∃ run, answer.Takes text front run rest := by
  cases answers with
  | @finish run whole trivia =>
      refine ⟨run, ?_, trivia.1, ?_, fun _ => rfl, nofun⟩
      · rw [text_end_of_file, List.append_nil, List.append_nil]
        exact whole
      · rw [← whole]
        rfl
  | @piece run behind found whole trivia reads =>
      obtain ⟨nonempty, append⟩ := reads.append
      refine ⟨run, ?_, ?_, ?_, ?_, ?_⟩
      · rw [text_answer reads, List.append_assoc (front ++ run), append, whole, List.append_assoc]
      · rw [text_answer reads, append]
        exact trivia.1
      · rw [span_answer, text_answer reads]
        rfl
      · rw [is_end_answer reads]
        exact nofun
      · rw [text_answer reads]
        exact fun _ => nonempty

def answers (lexer : Lexer) : Nat → List Answer
  | 0 => []
  | calls + 1 => lexer.next.1 :: lexer.next.2.answers calls

/-- Some number of calls cuts all that is left of a text. The induction is on the length of what
is left, which every answer before the end shortens. -/
theorem Reading.exists_cuts {lexer : Lexer} (reading : lexer.Reading text)
    (whole : text = front ++ lexer.rest) : ∃ calls, Answer.Cuts text front (lexer.answers calls) := by
  induction size : lexer.rest.length using Nat.strong_induction_on generalizing lexer front with
  | _ count ih =>
      obtain ⟨front', same, answered⟩ := reading.answers
      obtain rfl : front = front' := List.append_cancel_right (whole.symm.trans same)
      obtain ⟨run, takes⟩ := answered.takes
      cases ending : Answer.isEnd lexer.next.1 with
      | true => exact ⟨1, .finish takes ending⟩
      | false =>
          have parts : lexer.rest = run ++ (Answer.text lexer.next.1 ++ lexer.next.2.rest) := by
            have split := takes.whole
            rw [whole, List.append_assoc, List.append_assoc] at split
            exact List.append_cancel_left split
          have positive := List.length_pos_iff.mpr (takes.nonempty ending)
          have shorter : lexer.next.2.rest.length < count := by
            rw [← size, parts, List.length_append, List.length_append]
            omega
          obtain ⟨calls, cuts⟩ := ih _ shorter reading.next takes.whole rfl
          exact ⟨calls + 1, .call takes ending cuts⟩

end Calls

section All

variable {lexer after : Lexer}

theorem scan_all_of_error {bad : BadText} (found : lexer.scan = (.error bad, after)) :
    lexer.scanAll = .error bad := by
  rw [scanAll]
  split <;> simp_all

theorem scan_all_of_end {token : Token} (found : lexer.scan = (.ok token, after))
    (ending : token.kind = .endOfFile) : lexer.scanAll = .ok [token] := by
  rw [scanAll]
  split <;> simp_all

theorem scan_all_of_token {token : Token} (found : lexer.scan = (.ok token, after))
    (inside : token.kind ≠ .endOfFile) :
    lexer.scanAll = after.scanAll.map (token :: ·) := by
  rw [scanAll]
  split <;> simp_all

/-- Asking for all tokens at once puts the answers together. -/
theorem Reading.scan_all_eq_collect {text : List Char} (reading : lexer.Reading text) {calls : Nat}
    (ended : Answer.Ended (lexer.answers calls)) :
    lexer.scanAll = Answer.collect (lexer.answers calls) := by
  induction calls generalizing lexer with
  | zero =>
      obtain ⟨before, token, whole, _⟩ := ended
      simp [Lexer.answers] at whole
  | succ calls ih =>
      rw [Lexer.answers, reading.next_eq_scan] at ended ⊢
      rw [Answer.ended_cons_iff] at ended
      cases found : lexer.scan with
      | mk answer after =>
          rw [found] at ended
          cases answer with
          | error bad => exact scan_all_of_error found
          | ok token =>
              rcases ended with ⟨ending, last⟩ | ⟨inside, later⟩
              · rw [scan_all_of_end found (token.is_end_iff.mp ending), last]
                rfl
              · have reading' := reading.next
                rw [reading.next_eq_scan, found] at reading'
                have other : token.kind ≠ .endOfFile := by
                  intro kind
                  rw [Answer.isEnd, token.is_end_iff.mpr kind] at inside
                  cases inside
                rw [scan_all_of_token found other, ih reading' later]
                rfl

end All

/-- A run of calls up to the end of the file covers the text: each answer stands where its span
says, the spans follow one another, and nothing but trivia lies between them. -/
theorem answers_cover_source (source : String) :
    ∃ calls,
      let text := source.toList
      let answers := (ofSource source).answers calls
      let spans := answers.map Answer.span
      (∃ before token, answers = before ++ [.ok token] ∧ token.kind = .endOfFile ∧
        ∀ answer ∈ before, answer.isEnd = false ∧ answer.span.start < answer.span.stop) ∧
      (spans.Pairwise fun first second =>
        first.start < second.start ∧ first.stop ≤ second.start) ∧
      (∀ answer ∈ answers, Bytes.slice? text answer.span = some answer.text) ∧
      (∃ runs : List (List Char),
        (Span.gaps 0 spans).map (Bytes.slice? text) = runs.map some ∧
        text = (List.zipWith (· ++ ·) runs (answers.map Answer.text)).flatten) ∧
      (∀ gap ∈ Span.gaps 0 spans, ∃ run rest, Bytes.slice? text gap = some run ∧
        Bytes.drop? gap.stop text = some rest ∧ Scan.Trivia run rest) ∧
      (∀ tokens, tokenize text = .ok tokens ↔ answers = tokens.map .ok) ∧
      ∀ bad, tokenize text = .error bad ↔
        ∃ (before : List Token) (behind : List Answer),
          answers = before.map .ok ++ .error bad :: behind := by
  have reading := reading_of_source source
  obtain ⟨calls, cuts⟩ := reading.exists_cuts (List.nil_append _).symm
  have all : tokenize source.toList = Answer.collect ((ofSource source).answers calls) :=
    reading.scan_all_eq_collect cuts.ended
  refine ⟨calls, ?_, cuts.pairwise, cuts.slice?, cuts.concat, cuts.trivia, ?_, ?_⟩
  · obtain ⟨before, token, whole, ending, inside⟩ := cuts.ended
    refine ⟨before, token, whole, ending, fun answer member => ⟨inside answer member, ?_⟩⟩
    apply cuts.start_lt_stop answer _ (inside answer member)
    rw [whole]
    exact List.mem_append_left _ member
  · intro tokens
    rw [all, Answer.collect_eq_ok_iff]
  · intro bad
    rw [all, Answer.collect_eq_error_iff]

end Lexer

end ThreeAddress
