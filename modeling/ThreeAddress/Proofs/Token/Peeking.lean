import ThreeAddress.Proofs.Token.Coverage

/-!
# Looking ahead does not disturb the tokens

A lexer that holds a token stands for the lexer that is about to scan it. Seen like this, a look
that finds a token moves nothing, and every other call takes one answer from the text. Main
statement: leaving out the looks that find a token changes no other answer, such a look tells the
answer to the next call for a token, a look that fails does what a call for a token does, and the
end of the file stays the answer once it has been one.
-/

namespace ThreeAddress.Lexer

set_option autoImplicit false

inductive Call where
  | peek
  | next
deriving DecidableEq

def call (lexer : Lexer) : Call → Answer × Lexer
  | .peek => lexer.peek
  | .next => lexer.next

def trace (lexer : Lexer) : List Call → List (Call × Answer)
  | [] => []
  | call :: rest => (call, (lexer.call call).1) :: (lexer.call call).2.trace rest

def foresees : Call × Answer → Bool
  | (.peek, .ok _) => true
  | (.peek, .error _) | (.next, _) => false

/-! ## The lexer that a lexer stands for -/

/-- A lexer stands for itself, and for the one that scans the token it holds. -/
inductive StandsFor (bare : Lexer) : Lexer → Prop
  | itself : StandsFor bare bare
  | holding {token : Token} {after : Lexer} : bare.scan = (.ok token, after) →
      StandsFor bare { after with peeked := some token }

/-- Where a call leaves a lexer that never holds a token. -/
def moved (bare : Lexer) (call : Call) : Lexer :=
  if foresees (call, bare.next.1) then bare else bare.next.2

/-- The answers to calls in turn, found without holding a token. -/
def due (bare : Lexer) : List Call → List (Call × Answer)
  | [] => []
  | call :: rest => (call, bare.next.1) :: (bare.moved call).due rest

section Step

variable {text : List Char} {bare lexer : Lexer}

theorem moved_peek_of_ok {token : Token} (found : bare.next.1 = .ok token) :
    bare.moved .peek = bare := by
  rw [moved, found]
  rfl

theorem moved_of_error {bad : BadText} (failed : bare.next.1 = .error bad) (call : Call) :
    bare.moved call = bare.next.2 := by
  rw [moved, failed]
  cases call <;> rfl

theorem Reading.moved (reading : bare.Reading text) (call : Call) :
    (bare.moved call).Reading text := by
  unfold Lexer.moved
  split
  · exact reading
  · exact reading.next

theorem StandsFor.next (stands : bare.StandsFor lexer) (reading : bare.Reading text) :
    lexer.next = bare.next := by
  cases stands with
  | itself => rfl
  | @holding token after scanned =>
      have empty : after.peeked = none := by
        simpa [reading.next_eq_scan, scanned] using reading.next.empty
      rw [reading.next_eq_scan, scanned]
      cases after
      cases empty
      rfl

/-- A call answers as the lexer that stands behind it does, and goes where that one goes. -/
theorem StandsFor.call (stands : bare.StandsFor lexer) (reading : bare.Reading text)
    (call : Call) :
    (lexer.call call).1 = bare.next.1 ∧ (bare.moved call).StandsFor (lexer.call call).2 := by
  have same := stands.next reading
  cases call with
  | next =>
      rw [Lexer.call, same]
      exact ⟨rfl, .itself⟩
  | peek =>
      rw [Lexer.call, peek, same, Lexer.moved]
      cases found : bare.next with
      | mk answer after =>
          cases answer with
          | ok token => exact ⟨rfl, .holding (reading.next_eq_scan.symm.trans found)⟩
          | error bad => exact ⟨rfl, .itself⟩

theorem StandsFor.trace_eq_due (stands : bare.StandsFor lexer) (reading : bare.Reading text)
    (calls : List Call) : lexer.trace calls = bare.due calls := by
  induction calls generalizing bare lexer with
  | nil => rfl
  | cons call rest ih =>
      obtain ⟨answered, behind⟩ := stands.call reading call
      rw [trace, due, answered, ih behind (reading.moved call)]

end Step

/-! ## Runs without a held token -/

section Due

variable {text : List Char} {bare : Lexer}

@[simp] theorem map_fst_due (bare : Lexer) (calls : List Call) :
    (bare.due calls).map Prod.fst = calls := by
  induction calls generalizing bare with
  | nil => rfl
  | cons call rest ih => rw [due, List.map_cons, ih]

/-- An answer within a run is the next answer of the lexer that the calls before it lead to. -/
theorem Reading.exists_reached (reading : bare.Reading text) {calls : List Call} {call : Call}
    {answer : Answer} {front back : List (Call × Answer)}
    (split : bare.due calls = front ++ (call, answer) :: back) :
    ∃ reached : Lexer, reached.Reading text ∧ reached.next.1 = answer ∧
      (reached.moved call).due (back.map Prod.fst) = back ∧
      ∀ others, bare.due (front.map Prod.fst ++ others) = front ++ reached.due others := by
  induction front generalizing bare calls with
  | nil =>
      cases calls with
      | nil => cases split
      | cons first rest =>
          cases split
          exact ⟨bare, reading, rfl, by rw [map_fst_due], fun _ => rfl⟩
  | cons entry front ih =>
      cases calls with
      | nil => cases split
      | cons first rest =>
          rw [due, List.cons_append, List.cons.injEq] at split
          obtain ⟨rfl, behind⟩ := split
          obtain ⟨reached, reading', found, later, before⟩ := ih (reading.moved first) behind
          refine ⟨reached, reading', found, later, fun others => ?_⟩
          rw [List.map_cons, List.cons_append, due, before, List.cons_append]

/-- Without the looks that find a token, the other calls are answered as before. -/
theorem due_unforeseen (bare : Lexer) (calls : List Call) :
    let kept := (bare.due calls).filter fun entry => !foresees entry
    bare.due (kept.map Prod.fst) = kept := by
  induction calls generalizing bare with
  | nil => rfl
  | cons call rest ih =>
      by_cases look : foresees (call, bare.next.1) = true
      · have stays : bare.moved call = bare := if_pos look
        rw [due, stays, List.filter_cons_of_neg (by simp [look])]
        exact ih bare
      · rw [due, List.filter_cons_of_pos (by simp [look])]
        dsimp only
        rw [List.map_cons, due, ih]

/-- Looks leave the next token where it is. -/
theorem answer_behind_looks {token : Token} {calls : List Call}
    {looks back : List (Call × Answer)} {answer : Answer} (found : bare.next.1 = .ok token)
    (split : bare.due calls = looks ++ (.next, answer) :: back)
    (looking : ∀ entry ∈ looks, entry.1 = .peek) : answer = .ok token := by
  induction looks generalizing calls with
  | nil =>
      cases calls with
      | nil => cases split
      | cons call rest =>
          cases split
          exact found
  | cons look looks ih =>
      obtain ⟨here, later⟩ := List.forall_mem_cons.mp looking
      cases calls with
      | nil => cases split
      | cons call rest =>
          rw [due, List.cons_append, List.cons.injEq] at split
          obtain ⟨rfl, behind⟩ := split
          cases here
          rw [moved_peek_of_ok found] at behind
          exact ih behind later

end Due

/-! ## The end of the file -/

section Ending

variable {text : List Char} {lexer : Lexer}

theorem Answers.eq_of_end {front rest : List Char} {token : Token}
    (answers : Answers text front (.ok token) rest) (ending : token.kind = .endOfFile) :
    token = ⟨.endOfFile, placeBehind text text []⟩ ∧ rest = [] := by
  generalize answered : Except.ok token = answer at answers
  cases answers with
  | finish whole trivia =>
      cases answered
      exact ⟨rfl, rfl⟩
  | piece whole trivia reads =>
      have inside := congrArg Answer.isEnd answered
      rw [is_end_answer reads, Answer.isEnd, token.is_end_iff.mpr ending] at inside
      cases inside

/-- Behind the whole text there is nothing but the end of the file. -/
theorem Answers.of_whole {answer : Answer} {rest : List Char}
    (answers : Answers text text answer rest) :
    answer = .ok ⟨.endOfFile, placeBehind text text []⟩ := by
  cases answers with
  | finish => rfl
  | @piece run behind found whole trivia reads =>
      have nothing : run ++ behind = [] := List.self_eq_append_right.mp whole
      exact absurd (List.append_eq_nil_iff.mp nothing).2 reads.ne_nil

/-- The end of the file stands at the end of the text, and the next answer is the same. -/
theorem Reading.end_repeats (reading : lexer.Reading text) {token : Token}
    (found : lexer.next.1 = .ok token) (ending : token.kind = .endOfFile) :
    token = ⟨.endOfFile, placeBehind text text []⟩ ∧ lexer.next.2.next.1 = .ok token := by
  obtain ⟨front, _, answered⟩ := reading.answers
  rw [found] at answered
  obtain ⟨same, nothing⟩ := answered.eq_of_end ending
  obtain ⟨behind, whole, repeated⟩ := reading.next.answers
  rw [nothing, List.append_nil] at whole
  subst whole
  exact ⟨same, repeated.of_whole.trans (congrArg _ same.symm)⟩

theorem Reading.end_moved (reading : lexer.Reading text) {token : Token}
    (found : lexer.next.1 = .ok token) (ending : token.kind = .endOfFile) (call : Call) :
    (lexer.moved call).next.1 = .ok token := by
  unfold Lexer.moved
  split
  · exact found
  · exact (reading.end_repeats found ending).2

theorem Reading.due_behind_end (reading : lexer.Reading text) {token : Token}
    (found : lexer.next.1 = .ok token) (ending : token.kind = .endOfFile) (calls : List Call) :
    ∀ entry ∈ lexer.due calls, entry.2 = .ok token := by
  induction calls generalizing lexer with
  | nil => exact List.forall_mem_nil _
  | cons call rest ih =>
      exact List.forall_mem_cons.mpr
        ⟨found, ih (reading.moved call) (reading.end_moved found ending call)⟩

end Ending

/-- Whatever calls are made in turn on a lexer, leaving out the looks that find a token changes no
answer to the others; a look that finds a token tells the answer to the next call for one, with any
number of looks between; a look that fails has the answer of a call for a token in its place, and so
have all calls behind it; and behind the end of the file every answer is the same end of the file,
which stands at the end of the text. -/
theorem peek_keeps_stream (source : String) (calls : List Call) :
    let text := source.toList
    let lexer := ofSource source
    let trace := lexer.trace calls
    let kept := trace.filter fun entry => !foresees entry
    trace.map Prod.fst = calls ∧
    lexer.trace (kept.map Prod.fst) = kept ∧
    (∀ (front looks back : List (Call × Answer)) (token : Token) (answer : Answer),
      trace = front ++ (.peek, .ok token) :: (looks ++ (.next, answer) :: back) →
        (∀ entry ∈ looks, entry.1 = .peek) → answer = .ok token) ∧
    (∀ (front back : List (Call × Answer)) (bad : BadText),
      trace = front ++ (.peek, .error bad) :: back →
        lexer.trace (front.map Prod.fst ++ .next :: back.map Prod.fst) =
          front ++ (.next, .error bad) :: back) ∧
    ∀ (front back : List (Call × Answer)) (call : Call) (token : Token),
      trace = front ++ (call, .ok token) :: back → token.kind = .endOfFile →
        token.place = ⟨⟨Bytes.size text, Bytes.size text⟩,
          (Lines.ofText text).position (Bytes.size text)⟩ ∧
        ∀ entry ∈ back, entry.2 = .ok token := by
  intro text lexer trace kept
  have reading : lexer.Reading text := reading_of_source source
  have same (calls : List Call) : lexer.trace calls = lexer.due calls :=
    StandsFor.itself.trace_eq_due reading calls
  simp only [trace, kept, same]
  refine ⟨lexer.map_fst_due calls, lexer.due_unforeseen calls, ?_, ?_, ?_⟩
  · intro front looks back token answer split looking
    obtain ⟨reached, _, found, behind, _⟩ := reading.exists_reached split
    rw [moved_peek_of_ok found] at behind
    exact answer_behind_looks found behind looking
  · intro front back bad split
    obtain ⟨reached, _, failed, behind, before⟩ := reading.exists_reached split
    rw [moved_of_error failed] at behind
    rw [before, due, failed, moved_of_error failed, behind]
  · intro front back call token split ending
    obtain ⟨reached, here, found, behind, _⟩ := reading.exists_reached split
    constructor
    · rw [(here.end_repeats found ending).1, placeBehind, List.append_nil]
    · rw [← behind]
      exact (here.moved call).due_behind_end (here.end_moved found ending call) ending _

end ThreeAddress.Lexer
