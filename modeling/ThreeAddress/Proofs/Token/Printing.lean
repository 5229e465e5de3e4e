import ThreeAddress.Proofs.Token.Coverage

/-!
# Reading printed tokens back

A blank behind the text of a token ends it: no pattern matches more, since strings alone contain
blanks and a string ends with its second quote. Main statement: the texts of tokens, joined by
blanks, are read as these tokens, each at the place where its text was printed.
-/

namespace ThreeAddress

set_option autoImplicit false

open Scan

/-- The kinds that stand for a text of their pattern. A keyword is not an identifier, and the end of
the file has no text. -/
def TokenKind.Printable : TokenKind → Prop
  | .keyword _ | .mark _ => True
  | .identifier name => name.toList ∈ Rule.identifier.language ∧ ∀ word : Keyword, name ≠ word.text
  | .integer text => text.toList ∈ Rule.integer.language
  | .float text => text.toList ∈ Rule.float.language
  | .string text => text.toList ∈ Rule.string.language
  | .endOfFile => False

def TokenKind.print (kinds : List TokenKind) : String :=
  " ".intercalate (kinds.map TokenKind.text)

namespace Scan

variable {rule : Rule} {taken rest : List Char}

/-- The text `rest` is empty or starts with a blank. -/
def Delimited (rest : List Char) : Prop :=
  ∀ c ∈ rest.head?, c = ' '

theorem Rule.eq_string_of_blank (member : taken ∈ rule.language) (blank : ' ' ∈ taken) :
    rule = .string := by
  cases rule with
  | keyword word =>
      rw [mem_keyword_iff] at member
      subst member
      cases word <;> simp [Keyword.text] at blank
  | mark sign =>
      rw [mem_mark_iff] at member
      subst member
      cases sign <;> simp [Mark.text] at blank
  | identifier => cases is_name_char_of_mem rfl member ' ' blank
  | integer => cases ((mem_integer_iff taken).mp member).2 ' ' blank
  | float =>
      obtain ⟨whole, fraction, rfl, digits, more⟩ := (mem_float_iff taken).mp member
      simp only [List.mem_append, List.mem_cons, Char.reduceEq, false_or] at blank
      rcases blank with inWhole | inFraction
      · cases digits.2 ' ' inWhole
      · cases more.2 ' ' inFraction
  | string => rfl

theorem plain_of_lead {c : Char} (other : lead c ≠ .sign) : isBlank c = false ∧ c ≠ '/' := by
  constructor
  · apply Bool.eq_false_of_not_eq_true
    intro blank
    simp only [isBlank, Bool.or_eq_true, decide_eq_true_eq] at blank
    rcases blank with (((rfl | rfl) | rfl) | rfl) | rfl <;> exact other rfl
  · intro slash
    rw [slash] at other
    exact other rfl

/-- The text of a token starts with no blank, and with a slash only if it is a slash. -/
theorem Rule.front_of_mem (member : taken ∈ rule.language) :
    ∃ c tail, taken = c :: tail ∧ isBlank c = false ∧ (c = '/' → tail = []) := by
  obtain ⟨c, tail, spelled, leads⟩ := rule.lead_of_mem member
  by_cases sign : rule.lead = .sign
  · obtain ⟨mark, rfl⟩ := exists_mark sign
    rw [mem_mark_iff] at member
    rw [member]
    cases mark <;> exact ⟨_, _, rfl, by decide, by decide⟩
  · have plain := plain_of_lead (leads ▸ sign)
    exact ⟨c, tail, spelled, plain.1, fun slash => absurd slash plain.2⟩

/-- No pattern matches more than the text in front of a blank. -/
theorem Rule.length_le_of_delimited {other : Rule} {longer : List Char}
    (member : taken ∈ rule.language) (delimited : Delimited rest)
    (matched : longer ∈ other.language) (front : longer <+: taken ++ rest) :
    longer.length ≤ taken.length := by
  by_contra exceeds
  obtain ⟨more, rfl⟩ : taken <+: longer :=
    List.prefix_of_prefix_length_le (List.prefix_append taken rest) front (by omega)
  have behind : more <+: rest := (List.prefix_append_right_inj taken).mp front
  obtain ⟨c, tail, rfl, _⟩ := rule.lead_of_mem member
  cases more with
  | nil => simp at exceeds
  | cons d more =>
      obtain ⟨rest', rfl⟩ := behind
      have blank : d = ' ' := delimited d rfl
      have string := eq_string_of_blank matched (by simp [blank])
      rw [string, mem_string_iff] at matched
      -- Both texts start with the same quote, so both end with the second one.
      obtain ⟨body, same, _⟩ := id matched
      obtain rfl : c = '"' := (List.cons.inj same).1
      have shorter : '"' :: tail <+: '"' :: (tail ++ (d :: more ++ rest')) := List.prefix_append _ _
      obtain ⟨_, _, first⟩ := (quoted_of_mem member shorter).2.of_front shorter
      obtain ⟨_, _, second⟩ := matched.of_front front
      rw [second.trans first.symm] at exceeds
      exact exceeds (Nat.le_refl _)

/-- Neither a comment nor other trivia start with a token in front of a blank. -/
theorem Rule.trivium?_eq_none (member : taken ∈ rule.language) (delimited : Delimited rest) :
    trivium? (taken ++ rest) = none ∧ ¬ ['/', '*'] <+: taken ++ rest := by
  obtain ⟨c, tail, rfl, notBlank, alone⟩ := rule.front_of_mem member
  by_cases slash : c = '/'
  · rw [alone slash, slash]
    cases rest with
    | nil => exact ⟨rfl, by decide⟩
    | cons d rest =>
        rw [delimited d rfl]
        exact ⟨rfl, by simp⟩
  · constructor
    · simp [trivium?, notBlank, slash]
    · intro comment
      exact slash (List.cons_prefix_cons.mp comment).1.symm

/-- A token is read in front of a blank. -/
theorem Rule.reads_delimited (member : taken ∈ rule.language) (delimited : Delimited rest)
    (unreserved : rule = .identifier → ∀ word : Keyword, taken ≠ word.text.toList) :
    Reads (taken ++ rest) ⟨some (rule.kind taken), taken, rest⟩ := by
  obtain ⟨noTrivia, noComment⟩ := rule.trivium?_eq_none member delimited
  have front := List.prefix_append taken rest
  obtain ⟨found, reads⟩ : ∃ found, Reads (taken ++ rest) found := by
    obtain ⟨c, tail, rfl, _⟩ := rule.lead_of_mem member
    exact ⟨_, reads_piece noTrivia⟩
  have longest := fun (other : Rule) (longer : List Char) =>
    @length_le_of_delimited rule taken rest other longer member delimited
  generalize whole : taken ++ rest = text at reads noComment front longest
  cases reads with
  | unclosed => exact absurd ⟨_, rfl⟩ noComment
  | openString unmatched | single unmatched => exact absurd front (unmatched rule taken member)
  | @token other longer behind _ best =>
      have size : taken.length = longer.length :=
        Nat.le_antisymm (best.longest rule taken member front)
          (longest other longer best.matched best.front)
      obtain ⟨rfl, rfl⟩ := List.append_inj whole size
      rcases best.preferred rule member with rfl | ⟨⟨word, rfl⟩, identifier⟩
      · exact .token noComment best
      · exact absurd ((mem_keyword_iff word taken).mp best.matched) (unreserved identifier word)

/-- Trivia are the longest run in front of a text that starts with none. -/
theorem Trivia.longest {run behind : List Char} (trivia : Trivia run behind)
    (none : trivium? behind = none) : LongestTrivia run behind := by
  have split : splitTrivia (run ++ behind) = (run, behind) := by
    induction trivia with
    | nil =>
        rw [List.nil_append, splitTrivia]
        split <;> simp_all
    | cons trivium _ ih => rw [List.append_assoc, trivium.split_trivia, ih none]
  have longest := longest_trivia_split_trivia (run ++ behind)
  rw [split] at longest
  exact longest

end Scan

namespace TokenKind

/-- A kind that can be printed has a text of its pattern. -/
theorem Printable.exists_rule {kind : TokenKind} (printable : kind.Printable) :
    ∃ rule : Rule, kind.text.toList ∈ rule.language ∧ rule.kind kind.text.toList = kind ∧
      (rule = .identifier → ∀ word : Keyword, kind.text.toList ≠ word.text.toList) := by
  cases kind with
  | keyword word => exact ⟨.keyword word, rfl, rfl, nofun⟩
  | mark sign => exact ⟨.mark sign, rfl, rfl, nofun⟩
  | identifier name =>
      refine ⟨.identifier, printable.1, congrArg _ String.ofList_toList, fun _ word same => ?_⟩
      exact printable.2 word (String.toList_injective same)
  | integer text => exact ⟨.integer, printable, congrArg _ String.ofList_toList, nofun⟩
  | float text => exact ⟨.float, printable, congrArg _ String.ofList_toList, nofun⟩
  | string text => exact ⟨.string, printable, congrArg _ String.ofList_toList, nofun⟩
  | endOfFile => exact printable.elim

/-- The texts of kinds, `gap` in front of the first and a blank in front of each other one. -/
def spaced (gap : List Char) : List TokenKind → List Char
  | [] => []
  | kind :: rest => gap ++ (kind.text.toList ++ spaced [' '] rest)

theorem toList_print (kinds : List TokenKind) : (print kinds).toList = spaced [] kinds := by
  rw [print, String.toList_intercalate, List.map_map]
  induction kinds with
  | nil => rfl
  | cons first rest ih =>
      cases rest with
      | nil => simp [spaced]
      | cons second rest =>
          rw [List.map_cons, List.map_cons, List.intercalate_cons_cons, ← List.map_cons, ih]
          simp [spaced]

theorem delimited_spaced (kinds : List TokenKind) : Delimited (spaced [' '] kinds) := by
  cases kinds with
  | nil => exact nofun
  | cons kind rest =>
      intro c first
      exact (Option.some.inj first).symm

def printedBefore (kinds : List TokenKind) : List Char :=
  kinds.flatMap fun kind => kind.text.toList ++ [' ']

theorem spaced_append (gap : List Char) (before : List TokenKind) (kind : TokenKind)
    (behind : List TokenKind) :
    spaced gap (before ++ kind :: behind) =
      gap ++ (printedBefore before ++ (kind.text.toList ++ spaced [' '] behind)) := by
  induction before generalizing gap with
  | nil => rfl
  | cons first before ih =>
      rw [List.cons_append, spaced, ih]
      simp [printedBefore]

end TokenKind

namespace Lexer

open TokenKind

/-- The tokens of kinds that are printed behind `front`, and the end of the file. -/
def printed (text front : List Char) : List TokenKind → List Token
  | [] => [⟨.endOfFile, placeBehind text text []⟩]
  | kind :: rest =>
      ⟨kind, placeBehind text front kind.text.toList⟩ ::
        printed text (front ++ kind.text.toList ++ [' ']) rest

theorem kind_printed (text front : List Char) (kinds : List TokenKind) :
    (printed text front kinds).map Token.kind = kinds ++ [.endOfFile] := by
  induction kinds generalizing front with
  | nil => rfl
  | cons kind rest ih => rw [printed, List.map_cons, ih, List.cons_append]

theorem getElem?_printed (text front : List Char) (before : List TokenKind) (kind : TokenKind)
    (behind : List TokenKind) :
    (printed text front (before ++ kind :: behind))[before.length]? =
      some ⟨kind, placeBehind text (front ++ printedBefore before) kind.text.toList⟩ := by
  induction before generalizing front with
  | nil => simp [printed, printedBefore]
  | cons first before ih =>
      rw [List.cons_append, printed, List.length_cons, List.getElem?_cons_succ, ih]
      simp [printedBefore]

section Run

variable {text front gap : List Char} {lexer : Lexer}

/-- A call answers as the patterns say for what has not been read. -/
theorem Reading.next_eq (reading : lexer.Reading text) (whole : text = front ++ lexer.rest)
    {answer : Answer} {rest : List Char} (answers : Answers text front answer rest) :
    lexer.next.1 = answer ∧ lexer.next.2.rest = rest := by
  obtain ⟨front', same, answered⟩ := reading.answers
  obtain rfl : front = front' := List.append_cancel_right (whole.symm.trans same)
  exact answered.unique answers

/-- A printed token is read in front of a blank or the end of the text. -/
theorem Reading.next_printed (reading : lexer.Reading text) (whole : text = front ++ lexer.rest)
    {kind : TokenKind} (printable : kind.Printable) {rest : List Char}
    (delimited : Delimited rest) (trivia : Trivia gap (kind.text.toList ++ rest))
    (split : lexer.rest = gap ++ (kind.text.toList ++ rest)) :
    lexer.next.1 = .ok ⟨kind, placeBehind text (front ++ gap) kind.text.toList⟩ ∧
      lexer.next.2.rest = rest := by
  obtain ⟨rule, member, same, unreserved⟩ := printable.exists_rule
  have longest := trivia.longest (rule.trivium?_eq_none member delimited).1
  have reads := rule.reads_delimited member delimited unreserved
  rw [split] at whole
  have answers := Answers.piece whole longest reads
  rw [same] at answers
  apply reading.next_eq _ answers
  rw [split]
  exact whole

/-- The induction is on what is still to be read; `gap` is empty in front of the first token and a
blank from then on. -/
theorem Reading.scan_all_printed {kinds : List TokenKind} (reading : lexer.Reading text)
    (printable : ∀ kind ∈ kinds, kind.Printable) (trivia : ∀ behind, Trivia gap behind)
    (whole : text = front ++ lexer.rest) (split : lexer.rest = spaced gap kinds) :
    lexer.scanAll = .ok (printed text (front ++ gap) kinds) := by
  induction kinds generalizing lexer front gap with
  | nil =>
      rw [split] at whole
      have longest : LongestTrivia [] [] := Trivia.nil.longest rfl
      have answers := Answers.finish whole longest
      have last := (reading.next_eq (by rw [split]; exact whole) answers).1
      rw [reading.next_eq_scan] at last
      exact scan_all_of_end (Prod.ext last rfl) rfl
  | cons kind rest ih =>
      obtain ⟨here, later⟩ := List.forall_mem_cons.mp printable
      have step := reading.next_printed whole here (delimited_spaced rest) (trivia _) split
      have inside : kind ≠ .endOfFile := by
        rintro rfl
        exact here
      have further : text = front ++ gap ++ kind.text.toList ++ lexer.next.2.rest := by
        rw [step.2, whole, split]
        simp [spaced]
      have blank : ∀ behind, Trivia [' '] behind := fun _ => .cons (.blank rfl) .nil
      have tail := ih reading.next later blank further step.2
      rw [reading.next_eq_scan] at step tail
      rw [scan_all_of_token (Prod.ext step.1 rfl) inside, tail]
      rfl

end Run

end Lexer

/-- Printed tokens are read back, each at the place where its text was printed. -/
theorem tokenize_print (kinds : List TokenKind) (printable : ∀ kind ∈ kinds, kind.Printable) :
    let text := (TokenKind.print kinds).toList
    ∃ tokens, tokenize text = .ok tokens ∧ tokens.map Token.kind = kinds ++ [.endOfFile] ∧
      ∀ before kind behind, kinds = before ++ kind :: behind →
        let front := TokenKind.printedBefore before
        front ++ kind.text.toList <+: text ∧
          tokens[before.length]? = some ⟨kind, Lexer.placeBehind text front kind.text.toList⟩ := by
  intro text
  have whole : text = TokenKind.spaced [] kinds := TokenKind.toList_print kinds
  have reading : (Lexer.ofText text).Reading text := Lexer.reading_of_source _
  have read : tokenize text = .ok (Lexer.printed text [] kinds) :=
    reading.scan_all_printed printable (fun _ => .nil) (List.nil_append _).symm whole
  refine ⟨_, read, Lexer.kind_printed text [] kinds, ?_⟩
  rintro before kind behind rfl
  constructor
  · rw [whole, TokenKind.spaced_append, List.nil_append, ← List.append_assoc]
    exact List.prefix_append _ _
  · exact Lexer.getElem?_printed text [] before kind behind

/-- Tokens that would be others without the blanks between them. -/
def adjacentKinds : List TokenKind :=
  [.mark .slash, .mark .slash, .mark .slash, .mark .star, .mark .colon, .mark .equal,
    .keyword .letWord, .identifier "lets", .integer "1", .float "2.50", .integer "3",
    .string "\"/* let // \"", .keyword .defineWord, .identifier "_x"]

theorem tokenize_print_adjacent :
    (∀ kind ∈ adjacentKinds, kind.Printable) ∧
      TokenKind.print adjacentKinds =
        "/ / / * : = let lets 1 2.50 3 \"/* let // \" @define _x" ∧
      ∃ tokens, tokenize (TokenKind.print adjacentKinds).toList = .ok tokens ∧
        tokens.map Token.kind = adjacentKinds ++ [.endOfFile] := by
  have printable : ∀ kind ∈ adjacentKinds, kind.Printable := by
    simp only [adjacentKinds, List.forall_mem_cons, TokenKind.Printable, true_and,
      Rule.mem_identifier_iff, Rule.mem_integer_iff, Rule.mem_float_iff, Rule.mem_string_iff]
    have digits {c : Char} {rest : List Char} (all : (c :: rest).all isDigit = true) :
        Digits (c :: rest) :=
      ⟨List.cons_ne_nil c rest, List.all_eq_true.mp all⟩
    refine ⟨⟨⟨'l', _, rfl, rfl, List.all_eq_true.mp rfl⟩, ?_⟩, digits rfl,
      ⟨['2'], ['5', '0'], rfl, digits rfl, digits rfl⟩, digits rfl,
      ⟨"/* let // ".toList, rfl, List.all_eq_true.mp rfl⟩,
      ⟨⟨'_', ['x'], rfl, rfl, List.all_eq_true.mp rfl⟩, ?_⟩, List.forall_mem_nil _⟩
    · intro word
      cases word <;> decide
    · intro word
      cases word <;> decide
  obtain ⟨tokens, read, kinds, _⟩ := tokenize_print adjacentKinds printable
  exact ⟨printable, by decide, tokens, read, kinds⟩

end ThreeAddress
