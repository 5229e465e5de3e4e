import ThreeAddress.Proofs.Token.Coverage

/-!
# Tokens stand where they say

The place of a token belongs to the part of the text that the token was read from: its span is cut
between characters, and its position is the one that the lines of the text give for the start of
the span. The same holds of bad text. The tokens of a text follow one another without overlap.
-/

namespace ThreeAddress

set_option autoImplicit false

/-- No token reaches back behind its own start or into the next token. -/
structure Token.InOrder (tokens : List Token) : Prop where
  forward : ∀ token ∈ tokens, token.place.span.start ≤ token.place.span.stop
  apart : tokens.Pairwise fun first second => first.place.span.stop ≤ second.place.span.start

theorem Token.InOrder.sublist {part tokens : List Token} (ordered : InOrder tokens)
    (kept : part.Sublist tokens) : InOrder part :=
  ⟨fun token member => ordered.forward token (kept.subset member), ordered.apart.sublist kept⟩

/-- The place is the place of this part of the text. -/
def Place.HoldsIn (text part : List Char) (place : Place) : Prop :=
  ∃ before behind, text = before ++ part ++ behind ∧ place = Lexer.placeBehind text before part

namespace Place.HoldsIn

variable {text part : List Char} {place : Place}

theorem position_eq (holds : place.HoldsIn text part) :
    place.position = (Lines.ofText text).position place.span.start := by
  obtain ⟨before, behind, _, rfl⟩ := holds
  rfl

theorem start_le_stop (holds : place.HoldsIn text part) : place.span.start ≤ place.span.stop := by
  obtain ⟨before, behind, _, rfl⟩ := holds
  rw [Lexer.placeBehind, Bytes.size_append]
  exact Nat.le_add_right _ _

theorem slice? (holds : place.HoldsIn text part) : Bytes.slice? text place.span = some part := by
  obtain ⟨before, behind, whole, rfl⟩ := holds
  exact Bytes.slice?_eq_some_iff.mpr ⟨before, behind, whole, rfl, Bytes.size_append _ _⟩

end Place.HoldsIn

namespace Lexer

def Answer.place : Answer → Place
  | .ok token => token.place
  | .error bad => bad.place

section Calls

variable {text front rest : List Char} {lexer : Lexer}

theorem place_answer (piece : Scan.Piece) (place : Place) :
    Answer.place (answer piece place) = place := by
  unfold answer
  split <;> rfl

theorem Answers.holds_in {answer : Answer} (answers : Answers text front answer rest) :
    answer.place.HoldsIn text answer.text := by
  cases answers with
  | finish => exact ⟨text, [], by simp [text_end_of_file], rfl⟩
  | @piece run behind found whole trivia reads =>
      rw [place_answer, text_answer reads]
      refine ⟨front ++ run, found.rest, ?_, rfl⟩
      rw [List.append_assoc, reads.append.2, whole, List.append_assoc]

/-- Every answer of a run stands where it says. -/
theorem Reading.holds_in (reading : lexer.Reading text) (calls : Nat) :
    ∀ answer ∈ lexer.answers calls, (Answer.place answer).HoldsIn text (Answer.text answer) := by
  induction calls generalizing lexer with
  | zero => exact List.forall_mem_nil _
  | succ calls ih =>
      obtain ⟨front, _, answered⟩ := reading.answers
      exact List.forall_mem_cons.mpr ⟨answered.holds_in, ih reading.next⟩

end Calls

theorem exists_cuts (text : List Char) :
    ∃ calls, Answer.Cuts text [] ((ofText text).answers calls) ∧
      tokenize text = Answer.collect ((ofText text).answers calls) := by
  have reading : (ofText text).Reading text := ⟨tracks_of_text text, rfl, rfl⟩
  obtain ⟨calls, cuts⟩ := reading.exists_cuts (List.nil_append _).symm
  exact ⟨calls, cuts, reading.scan_all_eq_collect cuts.ended⟩

end Lexer

open Lexer in
/-- The tokens of a text are in order, and each stands where it says. -/
theorem tokenize_places {text : List Char} {tokens : List Token}
    (scanned : tokenize text = .ok tokens) :
    Token.InOrder tokens ∧
      ∀ token ∈ tokens, token.place.HoldsIn text token.kind.text.toList := by
  obtain ⟨calls, cuts, collected⟩ := exists_cuts text
  rw [collected, Answer.collect_eq_ok_iff] at scanned
  have reading : (ofText text).Reading text := ⟨tracks_of_text text, rfl, rfl⟩
  have places : ∀ token ∈ tokens, token.place.HoldsIn text token.kind.text.toList := by
    intro token member
    exact reading.holds_in calls (.ok token) (scanned ▸ List.mem_map_of_mem member)
  have apart := cuts.pairwise
  rw [scanned, List.map_map, List.pairwise_map] at apart
  exact ⟨⟨fun token member => (places token member).start_le_stop, apart.imp And.right⟩, places⟩

open Lexer in
/-- The bad text that ends a tokenization stands where it says. -/
theorem tokenize_bad_place {text : List Char} {bad : BadText}
    (failed : tokenize text = .error bad) : bad.place.HoldsIn text bad.text.toList := by
  obtain ⟨calls, _, collected⟩ := exists_cuts text
  rw [collected, Answer.collect_eq_error_iff] at failed
  obtain ⟨before, behind, whole⟩ := failed
  have reading : (ofText text).Reading text := ⟨tracks_of_text text, rfl, rfl⟩
  refine reading.holds_in calls (.error bad) ?_
  rw [whole]
  exact List.mem_append_right _ List.mem_cons_self

end ThreeAddress
