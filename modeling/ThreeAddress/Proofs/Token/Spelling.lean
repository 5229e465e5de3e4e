import Mathlib.Data.List.TakeWhile
import ThreeAddress.Proofs.Syntax.RoundTrip
import ThreeAddress.Token.Lexer

/-!
# How literals are spelled

The text of a number is made of digits, with a point between digits if it is a float; a string has
neither quotes nor line feeds between its quotes. Every token of a text is spelled like that, and
the tokens of a text end with its end and not before.
-/

namespace ThreeAddress

set_option autoImplicit false

def Scan.Digits (text : List Char) : Prop :=
  text ≠ [] ∧ ∀ c ∈ text, Scan.isDigit c

def Scan.Decimal (text : List Char) : Prop :=
  ∃ whole fraction, text = whole ++ '.' :: fraction ∧ Digits whole ∧ Digits fraction

def Scan.Quoted (text : List Char) : Prop :=
  ∃ body, text = '"' :: (body ++ ['"']) ∧ ∀ c ∈ body, Scan.inString c

/-- A literal has a text that belongs to its kind. -/
def TokenKind.Spelled : TokenKind → Prop
  | .integer text => Scan.Digits text.toList
  | .float text => Scan.Decimal text.toList
  | .string text => Scan.Quoted text.toList
  | .keyword _ | .mark _ | .identifier _ | .endOfFile => True

namespace Scan

theorem not_is_letter_of_is_digit {c : Char} (digit : isDigit c = true) : isLetter c = false := by
  simp only [isDigit, Bool.and_eq_true, decide_eq_true_eq, Char.le_def,
    UInt32.le_iff_toNat_le] at digit
  simp only [isLetter, Bool.or_eq_false_iff, Bool.and_eq_false_iff, decide_eq_false_iff_not,
    Char.le_def, UInt32.le_iff_toNat_le]
  simp only [Char.reduceVal, UInt32.reduceToNat] at digit ⊢
  omega

theorem spelled_word (text : List Char) {kind : TokenKind} (found : (word text).kind = some kind) :
    kind.Spelled := by
  simp only [word, Option.some.injEq] at found
  rw [← found]
  split <;> exact trivial

theorem digits_takeWhile {text : List Char} (nonempty : text.takeWhile isDigit ≠ []) :
    Digits (text.takeWhile isDigit) :=
  ⟨nonempty, fun _ member => List.mem_takeWhile_imp member⟩

theorem spelled_number {c : Char} (digit : isDigit c) (rest : List Char) {kind : TokenKind}
    (found : (number (c :: rest)).kind = some kind) : kind.Spelled := by
  have whole : Digits ((c :: rest).takeWhile isDigit) :=
    digits_takeWhile (by simp [digit])
  simp only [number] at found
  split at found
  · rename_i tail _
    split at found
    · cases found
      simpa only [TokenKind.Spelled, String.toList_ofList] using whole
    · rename_i fraction
      cases found
      exact ⟨_, _, String.toList_ofList, whole, digits_takeWhile fraction⟩
  · cases found
    simpa only [TokenKind.Spelled, String.toList_ofList] using whole

theorem spelled_quoted (text : List Char) {kind : TokenKind}
    (found : (quoted text).kind = some kind) : kind.Spelled := by
  simp only [quoted] at found
  split at found
  · cases found
    exact ⟨_, String.toList_ofList, fun _ member => List.mem_takeWhile_imp member⟩
  · cases found

theorem spelled_piece (c : Char) (rest : List Char) {kind : TokenKind}
    (found : (piece c rest).kind = some kind) : kind.Spelled := by
  unfold piece at found
  split at found
  · exact spelled_word _ found
  split at found
  · rename_i digit
    exact spelled_number digit rest found
  split at found
  · exact spelled_quoted rest found
  split at found
  · cases found
    exact trivial
  split at found
  · cases found
  split at found
  · cases found
    exact trivial
  · cases found

end Scan

theorem Lexer.spelled_scan {lexer after : Lexer} {token : Token}
    (found : lexer.scan = (.ok token, after)) : token.kind.Spelled := by
  simp only [Lexer.scan] at found
  split at found
  · cases found
    exact trivial
  · rename_i c behind _
    cases kind : (Scan.piece c behind).kind with
    | none => simp [kind] at found
    | some piece =>
        simp only [kind, Prod.mk.injEq, Except.ok.injEq] at found
        rw [← found.1]
        exact Scan.spelled_piece c behind kind

/-- The tokens up to the end are spelled well, and the end is the last of them. -/
theorem Lexer.scan_all_spelled (lexer : Lexer) {tokens : List Token}
    (done : lexer.scanAll = .ok tokens) :
    (∀ token ∈ tokens, token.kind.Spelled) ∧ Token.Closed tokens := by
  fun_induction Lexer.scanAll lexer generalizing tokens with
  | case1 lexer bad after found => cases done
  | case2 lexer token after found ending =>
      cases done
      constructor
      · intro other member
        rw [List.mem_singleton.mp member, ending]
        exact trivial
      · exact ⟨[], by simp [Token.kinds, ending], by simp⟩
  | case3 lexer token after found inside _ ih =>
      cases further : after.scanAll with
      | error bad =>
          rw [further] at done
          cases done
      | ok rest =>
          rw [further] at done
          cases done
          obtain ⟨spelled, body, ends, once⟩ := ih further
          constructor
          · intro other member
            rcases List.mem_cons.mp member with rfl | later
            · exact Lexer.spelled_scan found
            · exact spelled other later
          · refine ⟨token.kind :: body, ?_, ?_⟩
            · rw [Token.kinds_cons, ends]
              rfl
            · intro member
              rcases List.mem_cons.mp member with same | later
              · exact inside same.symm
              · exact once later

theorem tokenize_spelled {source : List Char} {tokens : List Token}
    (done : tokenize source = .ok tokens) :
    (∀ token ∈ tokens, token.kind.Spelled) ∧ Token.Closed tokens :=
  (Lexer.ofText source).scan_all_spelled done

end ThreeAddress
