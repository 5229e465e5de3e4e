import Mathlib.Data.List.Nodup
import ThreeAddress.Proofs.Token.Trivia

/-!
# Tokens by longest match

What is read at the front of a text without trivia is the longest text there that a pattern
matches, and a keyword comes before an identifier. Where no pattern matches, an open string is bad
up to the end of its line and any other character is bad alone; a comment that is never closed is
bad up to the end of the text. Main statement: every call for the next token, at every point of a
run, answers like that for what stands behind the longest run of trivia.
-/

namespace ThreeAddress

set_option autoImplicit false

theorem Keyword.of_text?_text (word : Keyword) : Keyword.ofText? word.text = some word := by
  cases word <;> rfl

theorem Keyword.text_of_of_text? {text : String} {word : Keyword}
    (found : Keyword.ofText? text = some word) : word.text = text := by
  simpa using List.find?_some found

theorem Mark.mem_all (sign : Mark) : sign ∈ Mark.all := by
  cases sign <;> decide

theorem Mark.text_injective {first second : Mark} (same : first.text = second.text) :
    first = second := by
  have distinct : (Mark.all.map Mark.text).Nodup := by decide
  exact List.inj_on_of_nodup_map distinct first.mem_all second.mem_all same

namespace Scan

/-- The text that a pattern takes from the front of a text: no pattern takes more, and of patterns
that take the same a keyword comes before the identifier. -/
structure Rule.Best (text : List Char) (rule : Rule) (taken : List Char) : Prop where
  matched : taken ∈ rule.language
  front : taken <+: text
  longest : ∀ (other : Rule) (longer : List Char), longer ∈ other.language → longer <+: text →
    longer.length ≤ taken.length
  preferred : ∀ other : Rule, taken ∈ other.language →
    other = rule ∨ (∃ word, rule = .keyword word) ∧ other = .identifier

def Unmatched (text : List Char) : Prop :=
  ∀ (rule : Rule) (taken : List Char), taken ∈ rule.language → ¬ taken <+: text

/-- What is read at the front of a text that does not start with trivia. -/
inductive Reads : List Char → Piece → Prop
  | unclosed {rest : List Char} : ¬ ['*', '/'] <:+: rest →
      Reads ('/' :: '*' :: rest) ⟨none, '/' :: '*' :: rest, []⟩
  | token {rule : Rule} {taken rest : List Char} : ¬ ['/', '*'] <+: taken ++ rest →
      rule.Best (taken ++ rest) taken → Reads (taken ++ rest) ⟨some (rule.kind taken), taken, rest⟩
  | openString {line rest : List Char} : Unmatched ('"' :: (line ++ rest)) →
      (∀ c ∈ line, inLine c = true) → (∀ c ∈ rest.head?, c = '\n') →
      Reads ('"' :: (line ++ rest)) ⟨none, '"' :: line, rest⟩
  | single {c : Char} {rest : List Char} : Unmatched (c :: rest) → c ≠ '"' →
      Reads (c :: rest) ⟨none, [c], rest⟩

theorem Reads.of_best {text : List Char} {found : Piece} {rule : Rule}
    (whole : found.text ++ found.rest = text) (noComment : ¬ ['/', '*'] <+: text)
    (best : rule.Best text found.text) (kind : found.kind = some (rule.kind found.text)) :
    Reads text found := by
  obtain ⟨_, taken, rest⟩ := found
  dsimp only at whole kind
  subst whole kind
  exact .token noComment best

/-- The first character of a text tells which patterns can match there. -/
theorem Rule.lead_of_front {rule : Rule} {taken rest : List Char} {c : Char}
    (member : taken ∈ rule.language) (front : taken <+: c :: rest) :
    rule.lead = Scan.lead c := by
  obtain ⟨d, tail, rfl, starts⟩ := rule.lead_of_mem member
  rw [← starts, (List.cons_prefix_cons.mp front).1]

/-- Characters of a class at the front of a text are among all that there are. -/
theorem length_le_takeWhile {chars : Char → Bool} {front text : List Char}
    (inside : ∀ c ∈ front, chars c = true) (prefixed : front <+: text) :
    front.length ≤ (text.takeWhile chars).length := by
  obtain ⟨rest, rfl⟩ := prefixed
  rw [List.takeWhile_append_of_pos inside, List.length_append]
  omega

section Words

theorem Rule.is_name_char_of_mem {rule : Rule} (lead : rule.lead = .name) {text : List Char}
    (member : text ∈ rule.language) : ∀ c ∈ text, isNameChar c = true := by
  cases rule with
  | keyword word =>
      rw [mem_keyword_iff] at member
      subst member
      apply List.all_eq_true.mp
      cases word with
      | defineWord => cases lead
      | _ => rfl
  | identifier =>
      obtain ⟨first, rest, rfl, start, inside⟩ := (mem_identifier_iff text).mp member
      have named : isNameChar first = true := by rw [isNameChar, start, Bool.true_or]
      exact List.forall_mem_cons.mpr ⟨named, inside⟩
  | mark | integer | float | string => cases lead

def wordRule (name : List Char) : Rule :=
  match Keyword.ofText? (String.ofList name) with
  | some word => .keyword word
  | none => .identifier

theorem kind_word (text : List Char) :
    (word text).kind = some ((wordRule (text.takeWhile isNameChar)).kind
      (text.takeWhile isNameChar)) := by
  rw [word, wordRule]
  cases Keyword.ofText? (String.ofList (text.takeWhile isNameChar)) <;> rfl

theorem mem_word_rule {name : List Char} (identifier : name ∈ Rule.identifier.language) :
    name ∈ (wordRule name).language := by
  rw [wordRule]
  cases found : Keyword.ofText? (String.ofList name) with
  | none => exact identifier
  | some word =>
      rw [Rule.mem_keyword_iff, Keyword.text_of_of_text? found, String.toList_ofList]

/-- A word is a keyword if it can be one. -/
theorem word_rule_preferred {name : List Char} {other : Rule} (lead : other.lead = .name)
    (member : name ∈ other.language) :
    other = wordRule name ∨ (∃ word, wordRule name = .keyword word) ∧ other = .identifier := by
  cases other with
  | keyword word =>
      rw [Rule.mem_keyword_iff] at member
      left
      rw [wordRule, member, String.ofList_toList, Keyword.of_text?_text]
  | identifier =>
      rw [wordRule]
      cases Keyword.ofText? (String.ofList name) with
      | none => exact .inl rfl
      | some word => exact .inr ⟨⟨word, rfl⟩, rfl⟩
  | mark | integer | float | string => cases lead

theorem best_word {c : Char} (start : isNameStart c = true) (rest : List Char) :
    (wordRule ((c :: rest).takeWhile isNameChar)).Best (c :: rest)
      ((c :: rest).takeWhile isNameChar) := by
  have lead : Scan.lead c = .name := if_pos start
  have first : isNameChar c = true := by rw [isNameChar, start, Bool.true_or]
  have front : (c :: rest).takeWhile isNameChar <+: c :: rest := List.takeWhile_prefix _
  constructor
  · apply mem_word_rule
    rw [List.takeWhile_cons_of_pos first]
    exact (Rule.mem_identifier_iff _).mpr
      ⟨c, _, rfl, start, fun _ member => List.mem_takeWhile_imp member⟩
  · exact front
  · intro other longer member prefixed
    have leads := (Rule.lead_of_front member prefixed).trans lead
    exact length_le_takeWhile (Rule.is_name_char_of_mem leads member) prefixed
  · intro other member
    exact word_rule_preferred ((Rule.lead_of_front member front).trans lead) member

end Words

section Numbers

/-- A float at the front of a text takes all digits there, the point and digits behind it. -/
theorem Decimal.of_front {longer text : List Char} (decimal : Decimal longer)
    (front : longer <+: text) :
    ∃ tail, text.dropWhile isDigit = '.' :: tail ∧ tail.takeWhile isDigit ≠ [] ∧
      longer.length ≤ (text.takeWhile isDigit ++ '.' :: tail.takeWhile isDigit).length := by
  obtain ⟨rest, rfl⟩ := front
  obtain ⟨whole, fraction, rfl, digits, more⟩ := decimal
  have stop : ∀ c ∈ ('.' :: (fraction ++ rest)).head?, isDigit c = false := by
    rintro c ⟨⟩
    rfl
  obtain ⟨taken, dropped⟩ := takeWhile_append_of_stop digits.2 stop
  have fractions := length_le_takeWhile more.2 (List.prefix_append fraction rest)
  refine ⟨fraction ++ rest, ?_, ?_, ?_⟩
  · rw [List.append_assoc, List.cons_append]
    exact dropped
  · intro none
    rw [none] at fractions
    exact more.1 (List.length_eq_zero_iff.mp (Nat.le_zero.mp fractions))
  · rw [List.append_assoc, List.cons_append, taken]
    simp only [List.length_append, List.length_cons]
    omega

/-- What a pattern matches behind a first digit is a number. -/
theorem digits_or_decimal {c : Char} (digit : isDigit c = true) {rule : Rule}
    {taken rest : List Char} (member : taken ∈ rule.language) (front : taken <+: c :: rest) :
    rule = .integer ∧ Digits taken ∨ rule = .float ∧ Decimal taken := by
  have lead := (Rule.lead_of_front member front).trans (lead_of_is_digit digit)
  cases rule with
  | integer => exact .inl ⟨rfl, (Rule.mem_integer_iff taken).mp member⟩
  | float => exact .inr ⟨rfl, (Rule.mem_float_iff taken).mp member⟩
  | keyword word => cases word <;> cases lead
  | mark | identifier | string => cases lead

theorem Decimal.not_digits {text : List Char} (decimal : Decimal text) : ¬ Digits text := by
  intro digits
  obtain ⟨whole, fraction, rfl, _⟩ := decimal
  have point : isDigit '.' = true := digits.2 '.' (by simp)
  cases point

theorem best_integer {c : Char} (digit : isDigit c = true) {rest : List Char}
    (whole : ∀ tail, (c :: rest).dropWhile isDigit = '.' :: tail → tail.takeWhile isDigit = []) :
    Rule.integer.Best (c :: rest) ((c :: rest).takeWhile isDigit) := by
  have digits : Digits ((c :: rest).takeWhile isDigit) := by
    rw [List.takeWhile_cons_of_pos digit]
    exact ⟨List.cons_ne_nil _ _,
      List.forall_mem_cons.mpr ⟨digit, fun _ member => List.mem_takeWhile_imp member⟩⟩
  have front : (c :: rest).takeWhile isDigit <+: c :: rest := List.takeWhile_prefix _
  constructor
  · exact (Rule.mem_integer_iff _).mpr digits
  · exact front
  · intro other longer member prefixed
    rcases digits_or_decimal digit member prefixed with ⟨_, inside⟩ | ⟨_, decimal⟩
    · exact length_le_takeWhile inside.2 prefixed
    · obtain ⟨tail, dropped, fraction, _⟩ := decimal.of_front prefixed
      exact absurd (whole tail dropped) fraction
  · intro other member
    rcases digits_or_decimal digit member front with ⟨same, _⟩ | ⟨_, decimal⟩
    · exact .inl same
    · exact absurd digits decimal.not_digits

theorem best_float {c : Char} (digit : isDigit c = true) {rest tail : List Char}
    (dropped : (c :: rest).dropWhile isDigit = '.' :: tail)
    (fraction : tail.takeWhile isDigit ≠ []) :
    Rule.float.Best (c :: rest)
      ((c :: rest).takeWhile isDigit ++ '.' :: tail.takeWhile isDigit) := by
  have decimal : Decimal ((c :: rest).takeWhile isDigit ++ '.' :: tail.takeWhile isDigit) := by
    refine ⟨_, _, rfl, ⟨?_, ?_⟩, fraction, fun _ member => List.mem_takeWhile_imp member⟩
    · rw [List.takeWhile_cons_of_pos digit]
      exact List.cons_ne_nil _ _
    · exact fun _ member => List.mem_takeWhile_imp member
  have front : (c :: rest).takeWhile isDigit ++ '.' :: tail.takeWhile isDigit <+: c :: rest := by
    refine ⟨tail.dropWhile isDigit, ?_⟩
    rw [List.append_assoc, List.cons_append, List.takeWhile_append_dropWhile, ← dropped,
      List.takeWhile_append_dropWhile]
  constructor
  · exact (Rule.mem_float_iff _).mpr decimal
  · exact front
  · intro other longer member prefixed
    rcases digits_or_decimal digit member prefixed with ⟨_, inside⟩ | ⟨_, longer⟩
    · have bound := length_le_takeWhile inside.2 prefixed
      rw [List.length_append]
      omega
    · obtain ⟨tail', same, _, bound⟩ := longer.of_front prefixed
      obtain rfl : tail = tail' := by rw [dropped] at same; exact List.tail_eq_of_cons_eq same
      exact bound
  · intro other member
    rcases digits_or_decimal digit member front with ⟨_, digits⟩ | ⟨same, _⟩
    · exact absurd digits decimal.not_digits
    · exact .inl same

theorem best_number {c : Char} (digit : isDigit c = true) (rest : List Char) :
    ∃ rule : Rule, rule.Best (c :: rest) (number (c :: rest)).text ∧
      (number (c :: rest)).kind = some (rule.kind (number (c :: rest)).text) := by
  simp only [number]
  split
  next tail dropped =>
    split
    next empty =>
      refine ⟨.integer, best_integer digit ?_, rfl⟩
      intro other same
      rw [dropped] at same
      rw [← List.tail_eq_of_cons_eq same]
      exact empty
    next fraction => exact ⟨.float, best_float digit dropped fraction, rfl⟩
  next noPoint =>
    exact ⟨.integer, best_integer digit fun tail dropped => absurd dropped (noPoint tail), rfl⟩

end Numbers

section Strings

/-- A string at the front of a text reaches to the first quote. -/
theorem Quoted.of_front {longer rest : List Char} (quoted : Quoted longer)
    (front : longer <+: '"' :: rest) :
    ∃ more, rest.dropWhile inString = '"' :: more ∧
      longer = '"' :: (rest.takeWhile inString ++ ['"']) := by
  obtain ⟨body, rfl, inside⟩ := quoted
  obtain ⟨more, rfl⟩ := (List.cons_prefix_cons.mp front).2
  have stop : ∀ c ∈ ('"' :: more).head?, inString c = false := by
    rintro c ⟨⟩
    rfl
  obtain ⟨taken, dropped⟩ := takeWhile_append_of_stop inside stop
  rw [List.append_assoc, List.singleton_append, taken, dropped]
  exact ⟨more, rfl, rfl⟩

theorem quoted_of_mem {rule : Rule} {taken rest : List Char} (member : taken ∈ rule.language)
    (front : taken <+: '"' :: rest) : rule = .string ∧ Quoted taken := by
  have lead : rule.lead = .quote := Rule.lead_of_front member front
  cases rule with
  | string => exact ⟨rfl, (Rule.mem_string_iff taken).mp member⟩
  | keyword word => cases word <;> cases lead
  | mark | identifier | integer | float => cases lead

theorem best_string {rest more : List Char} (closed : rest.dropWhile inString = '"' :: more) :
    Rule.string.Best ('"' :: rest) ('"' :: (rest.takeWhile inString ++ ['"'])) := by
  have front : '"' :: (rest.takeWhile inString ++ ['"']) <+: '"' :: rest := by
    refine ⟨more, ?_⟩
    rw [List.cons_append, List.append_assoc, List.singleton_append, ← closed,
      List.takeWhile_append_dropWhile]
  constructor
  · exact (Rule.mem_string_iff _).mpr ⟨_, rfl, fun _ member => List.mem_takeWhile_imp member⟩
  · exact front
  · intro other longer member prefixed
    obtain ⟨_, _, same⟩ := (quoted_of_mem member prefixed).2.of_front prefixed
    rw [same]
  · intro other member
    exact .inl (quoted_of_mem member front).1

/-- The text behind a quote that is never closed on its line goes on up to the line's end. -/
theorem reads_open_string {rest : List Char}
    (unclosed : ∀ more, rest.dropWhile inString ≠ '"' :: more) :
    Reads ('"' :: rest)
      ⟨none, '"' :: rest.takeWhile inString, rest.dropWhile inString⟩ := by
  have unmatched : Unmatched ('"' :: rest) := by
    intro rule taken member front
    obtain ⟨more, closed, _⟩ := (quoted_of_mem member front).2.of_front front
    exact unclosed more closed
  have line : ∀ c ∈ rest.takeWhile inString, inLine c = true := by
    intro c member
    have inside := List.mem_takeWhile_imp member
    rw [inString, Bool.and_eq_true] at inside
    exact inside.2
  have stop : ∀ c ∈ (rest.dropWhile inString).head?, c = '\n' := by
    intro c first
    have outside := head?_dropWhile c first
    obtain ⟨more, behind⟩ := List.head?_eq_some_iff.mp first
    by_contra other
    have quote : c ≠ '"' := by
      rintro rfl
      exact unclosed more behind
    simp [inString, quote, other] at outside
  have whole := List.takeWhile_append_dropWhile (p := inString) (l := rest)
  rw [← whole] at unmatched
  have reads := Reads.openString unmatched line stop
  rw [whole] at reads
  exact reads

end Strings

section Signs

theorem eq_define {rule : Rule} (lead : rule.lead = .directive) :
    rule = .keyword .defineWord := by
  cases rule with
  | keyword word =>
      cases word with
      | defineWord => rfl
      | _ => cases lead
  | mark | identifier | integer | float | string => cases lead

theorem exists_mark {rule : Rule} (lead : rule.lead = .sign) : ∃ sign, rule = .mark sign := by
  cases rule with
  | mark sign => exact ⟨sign, rfl⟩
  | keyword word => cases word <;> cases lead
  | identifier | integer | float | string => cases lead

/-- Longer marks are tried first. -/
theorem length_le_of_mark? {text : List Char} {sign other : Mark} (found : mark? text = some sign)
    (front : other.text.toList <+: text) :
    other.text.toList.length ≤ sign.text.toList.length := by
  have sorted : Mark.all.Pairwise fun first second =>
      second.text.toList.length ≤ first.text.toList.length := by
    decide
  obtain ⟨_, before, behind, all, earlier⟩ := List.find?_eq_some_iff_append.mp found
  have member := other.mem_all
  rw [all, List.mem_append, List.mem_cons] at member
  rw [all, List.pairwise_append, List.pairwise_cons] at sorted
  rcases member with tried | rfl | later
  · have fails := earlier other tried
    rw [startsWith, List.isPrefixOf_iff_prefix.mpr front] at fails
    cases fails
  · exact Nat.le_refl _
  · exact sorted.2.1.1 other later

theorem best_define {rest : List Char}
    (front : Keyword.defineWord.text.toList <+: rest) :
    (Rule.keyword .defineWord).Best rest Keyword.defineWord.text.toList := by
  have only : ∀ (other : Rule) (taken : List Char), taken ∈ other.language → taken <+: rest →
      other = .keyword .defineWord := by
    intro other taken member prefixed
    obtain ⟨tail, rfl⟩ := front
    exact eq_define (Rule.lead_of_front member prefixed)
  constructor
  · exact (Rule.mem_keyword_iff _ _).mpr rfl
  · exact front
  · intro other longer member prefixed
    rw [only other longer member prefixed, Rule.mem_keyword_iff] at member
    rw [member]
  · intro other member
    exact .inl (only other _ member front)

theorem best_mark {text : List Char} {sign : Mark} (found : mark? text = some sign) :
    (Rule.mark sign).Best text sign.text.toList := by
  have front := List.isPrefixOf_iff_prefix.mp (starts_with_of_mark? found)
  have only : ∀ (other : Rule) (taken : List Char), taken ∈ other.language → taken <+: text →
      ∃ second : Mark, other = .mark second ∧ taken = second.text.toList := by
    intro other taken member prefixed
    obtain ⟨c, tail, spelled, lead⟩ :=
      Rule.lead_of_mem ((Rule.mem_mark_iff sign _).mpr rfl)
    obtain ⟨rest, rfl⟩ := front
    rw [spelled] at prefixed
    obtain ⟨second, rfl⟩ := exists_mark ((Rule.lead_of_front member prefixed).trans lead)
    exact ⟨second, rfl, (Rule.mem_mark_iff second taken).mp member⟩
  constructor
  · exact (Rule.mem_mark_iff _ _).mpr rfl
  · exact front
  · intro other longer member prefixed
    obtain ⟨second, _, rfl⟩ := only other longer member prefixed
    exact length_le_of_mark? found prefixed
  · intro other member
    obtain ⟨second, rfl, same⟩ := only other _ member front
    left
    rw [Mark.text_injective (String.toList_injective same)]

/-- A character that starts no name, number or string starts a mark, `@define` or nothing. -/
theorem unmatched_of_mark? {c : Char} {rest : List Char} (noName : ¬ isNameStart c = true)
    (noDigit : ¬ isDigit c = true) (noQuote : c ≠ '"')
    (noDefine : ¬ startsWith Keyword.defineWord.text (c :: rest) = true)
    (noMark : mark? (c :: rest) = none) : Unmatched (c :: rest) := by
  intro rule taken member front
  have lead := Rule.lead_of_front member front
  rw [Scan.lead, if_neg noName, if_neg noDigit, if_neg noQuote] at lead
  split at lead
  · rw [eq_define lead, Rule.mem_keyword_iff] at member
    subst member
    exact noDefine (List.isPrefixOf_iff_prefix.mpr front)
  · obtain ⟨sign, rfl⟩ := exists_mark lead
    rw [Rule.mem_mark_iff] at member
    subst member
    exact List.find?_eq_none.mp noMark sign sign.mem_all (List.isPrefixOf_iff_prefix.mpr front)

end Signs

theorem reads_quoted (rest : List Char) : Reads ('"' :: rest) (quoted rest) := by
  have whole : (quoted rest).text ++ (quoted rest).rest = '"' :: rest := piece_append '"' rest
  have noComment : ¬ ['/', '*'] <+: '"' :: rest := by simp
  rw [quoted] at whole ⊢
  split at whole
  next more closed => exact .of_best whole noComment (best_string closed) rfl
  next unclosed => exact reads_open_string unclosed

/-- The piece at the front of a text without trivia is read by longest match. -/
theorem reads_piece {c : Char} {rest : List Char} (noTrivia : trivium? (c :: rest) = none) :
    Reads (c :: rest) (piece c rest) := by
  have whole := piece_append c rest
  have noComment : c ≠ '/' → ¬ ['/', '*'] <+: c :: rest := fun other front =>
    other (List.cons_prefix_cons.mp front).1.symm
  by_cases start : isNameStart c = true
  · rw [piece, if_pos start] at whole ⊢
    have other : c ≠ '/' := by
      rintro rfl
      cases start
    exact .of_best whole (noComment other) (best_word start rest) (kind_word (c :: rest))
  by_cases digit : isDigit c = true
  · rw [piece, if_neg start, if_pos digit] at whole ⊢
    have other : c ≠ '/' := by
      rintro rfl
      cases digit
    obtain ⟨rule, best, kind⟩ := best_number digit rest
    exact .of_best whole (noComment other) best kind
  by_cases quote : c = '"'
  · rw [piece, if_neg start, if_neg digit, if_pos quote, quote]
    exact reads_quoted rest
  by_cases define : startsWith Keyword.defineWord.text (c :: rest) = true
  · have front := List.isPrefixOf_iff_prefix.mp define
    rw [piece, if_neg start, if_neg digit, if_neg quote, if_pos define] at whole ⊢
    have other : c ≠ '/' := by
      rintro rfl
      cases define
    exact .of_best whole (noComment other) (best_define front) rfl
  by_cases block : startsWith "/*" (c :: rest) = true
  · rw [piece, if_neg start, if_neg digit, if_neg quote, if_neg define, if_pos block]
    obtain ⟨tail, same⟩ := List.isPrefixOf_iff_prefix.mp block
    rw [← same] at noTrivia ⊢
    exact .unclosed ((split_comment?_eq_none_iff tail).mp (Option.map_eq_none_iff.mp noTrivia))
  rw [piece, if_neg start, if_neg digit, if_neg quote, if_neg define, if_neg block] at whole ⊢
  cases found : mark? (c :: rest) with
  | some sign =>
      rw [found] at whole
      exact .of_best whole (fun front => block (List.isPrefixOf_iff_prefix.mpr front))
        (best_mark found) rfl
  | none => exact .single (unmatched_of_mark? start digit quote define found) quote

/-- Longest matches of one text are the same text, found by the same pattern. -/
theorem Rule.Best.unique {text taken other : List Char} {first second : Rule}
    (left : first.Best text taken) (right : second.Best text other) :
    taken = other ∧ first = second := by
  have size : taken.length = other.length :=
    Nat.le_antisymm (right.longest first taken left.matched left.front)
      (left.longest second other right.matched right.front)
  obtain rfl : taken = other :=
    (List.prefix_of_prefix_length_le left.front right.front size.le).eq_of_length size
  refine ⟨rfl, ?_⟩
  rcases left.preferred second right.matched with same | ⟨_, rfl⟩
  · exact same.symm
  rcases right.preferred first left.matched with same | ⟨⟨word, never⟩, _⟩
  · exact same
  · cases never

theorem Reads.ne_nil {text : List Char} {found : Piece} (reads : Reads text found) : text ≠ [] := by
  cases reads with
  | token _ best =>
      obtain ⟨c, rest, rfl, _⟩ := Rule.lead_of_mem best.matched
      exact List.cons_ne_nil _ _
  | unclosed | openString | single => exact List.cons_ne_nil _ _

/-- A slash alone is a mark. -/
theorem not_unmatched_slash (rest : List Char) : ¬ Unmatched ('/' :: rest) := fun unmatched =>
  unmatched (.mark .slash) ['/'] rfl ⟨rest, rfl⟩

theorem Reads.eq_of_comment {text : List Char} {found : Piece} (reads : Reads text found)
    (comment : ['/', '*'] <+: text) : found = ⟨none, text, []⟩ := by
  cases reads with
  | unclosed => rfl
  | token noComment => exact absurd comment noComment
  | openString => simp at comment
  | single unmatched =>
      rw [← (List.cons_prefix_cons.mp comment).1] at unmatched
      exact absurd unmatched (not_unmatched_slash _)

theorem Reads.eq_of_best {taken rest : List Char} {found : Piece} {rule : Rule}
    (reads : Reads (taken ++ rest) found) (noComment : ¬ ['/', '*'] <+: taken ++ rest)
    (best : rule.Best (taken ++ rest) taken) :
    found = ⟨some (rule.kind taken), taken, rest⟩ := by
  generalize whole : taken ++ rest = text at reads noComment best
  cases reads with
  | unclosed => simp at noComment
  | token _ other =>
      obtain ⟨rfl, rfl⟩ := best.unique other
      rw [List.append_cancel_left whole]
  | openString unmatched | single unmatched =>
      exact absurd best.front (unmatched rule taken best.matched)

theorem Reads.eq_of_unmatched {c : Char} {rest : List Char} {found : Piece}
    (reads : Reads (c :: rest) found) (unmatched : Unmatched (c :: rest)) :
    found = if c = '"' then ⟨none, c :: rest.takeWhile inLine, rest.dropWhile inLine⟩
      else ⟨none, [c], rest⟩ := by
  generalize whole : c :: rest = text at reads unmatched
  cases reads with
  | unclosed => exact absurd unmatched (not_unmatched_slash _)
  | token _ best => exact absurd best.front (unmatched _ _ best.matched)
  | openString _ line stop =>
      cases whole
      have outside : ∀ c ∈ List.head? _, inLine c = false := fun c first => by
        rw [stop c first]
        rfl
      obtain ⟨taken, dropped⟩ := takeWhile_append_of_stop line outside
      rw [if_pos rfl, taken, dropped]
  | single _ other =>
      cases whole
      rw [if_neg other]

/-- One piece is read at the front of a text. -/
theorem Reads.unique {text : List Char} {first second : Piece} (left : Reads text first)
    (right : Reads text second) : first = second := by
  cases left with
  | unclosed => exact (right.eq_of_comment ⟨_, rfl⟩).symm
  | token noComment best => exact (right.eq_of_best noComment best).symm
  | openString unmatched line stop =>
      exact ((Reads.openString unmatched line stop).eq_of_unmatched unmatched).trans
        (right.eq_of_unmatched unmatched).symm
  | single unmatched other =>
      exact ((Reads.single unmatched other).eq_of_unmatched unmatched).trans
        (right.eq_of_unmatched unmatched).symm

/-- The longest run of trivia at the front of a text is one text. -/
theorem LongestTrivia.unique {run rest other behind : List Char} (left : LongestTrivia run rest)
    (right : LongestTrivia other behind) (whole : run ++ rest = other ++ behind) :
    run = other ∧ rest = behind := by
  have size : run.length = other.length :=
    Nat.le_antisymm (right.2 run rest whole left.1) (left.2 other behind whole.symm right.1)
  exact List.append_inj whole size

end Scan

namespace Lexer

def placeBehind (text front piece : List Char) : Place :=
  ⟨⟨Bytes.size front, Bytes.size (front ++ piece)⟩,
    (Lines.ofText text).position (Bytes.size front)⟩

def answer (piece : Scan.Piece) (place : Place) : Except BadText Token :=
  match piece.kind with
  | some kind => .ok ⟨kind, place⟩
  | none => .error ⟨String.ofList piece.text, place⟩

/-- The answer for a text of which `front` has been read, and the text that is left after it. The
longest run of trivia is dropped; behind it the text is at its end, or one piece of it is read. -/
inductive Answers (text front : List Char) : Except BadText Token → List Char → Prop
  | finish {run : List Char} : text = front ++ run → Scan.LongestTrivia run [] →
      Answers text front (.ok ⟨.endOfFile, placeBehind text text []⟩) []
  | piece {run behind : List Char} {found : Scan.Piece} : text = front ++ (run ++ behind) →
      Scan.LongestTrivia run behind → Scan.Reads behind found →
      Answers text front (answer found (placeBehind text (front ++ run) found.text)) found.rest

theorem Answers.unique {text front rest behind : List Char} {first second : Except BadText Token}
    (left : Answers text front first rest) (right : Answers text front second behind) :
    first = second ∧ rest = behind := by
  cases left with
  | @finish run whole trivia =>
      cases right with
      | finish => exact ⟨rfl, rfl⟩
      | piece same other reads =>
          rw [← List.append_nil run] at whole
          have parts := trivia.unique other (List.append_cancel_left (whole.symm.trans same))
          exact absurd parts.2.symm reads.ne_nil
  | piece whole trivia reads =>
      cases right with
      | @finish run same other =>
          rw [← List.append_nil run] at same
          have parts := trivia.unique other (List.append_cancel_left (whole.symm.trans same))
          exact absurd parts.2 reads.ne_nil
      | piece same other reads' =>
          obtain ⟨rfl, rfl⟩ :=
            trivia.unique other (List.append_cancel_left (whole.symm.trans same))
          obtain rfl := reads.unique reads'
          exact ⟨rfl, rfl⟩

structure Reading (text : List Char) (lexer : Lexer) : Prop where
  tracks : lexer.Tracks
  same : lexer.text = text
  empty : lexer.peeked = none

theorem reading_of_source (source : String) : (ofSource source).Reading source.toList :=
  ⟨tracks_of_text _, rfl, rfl⟩

theorem Reading.next_eq_scan {text : List Char} {lexer : Lexer} (reading : lexer.Reading text) :
    lexer.next = lexer.scan := by
  rw [Lexer.next, reading.empty]

theorem Reading.next {text : List Char} {lexer : Lexer} (reading : lexer.Reading text) :
    lexer.next.2.Reading text := by
  have fields : lexer.scan.2.text = lexer.text ∧ lexer.scan.2.peeked = lexer.peeked := by
    rw [scan]
    split <;> exact ⟨rfl, rfl⟩
  rw [reading.next_eq_scan]
  exact ⟨reading.tracks.scan, fields.1.trans reading.same, fields.2.trans reading.empty⟩

theorem Reading.iterate {text : List Char} {lexer : Lexer} (reading : lexer.Reading text)
    (calls : Nat) : ((fun lexer => lexer.next.2)^[calls] lexer).Reading text := by
  induction calls with
  | zero => exact reading
  | succ calls ih =>
      rw [Function.iterate_succ_apply']
      exact ih.next

theorem Tracks.place_skip {lexer : Lexer} {front run rest : List Char}
    (tracks : (lexer.skip run rest).Tracks) (offset : lexer.offset = Bytes.size front)
    (piece : List Char) :
    (lexer.skip run rest).place (Bytes.size piece) =
      placeBehind lexer.text (front ++ run) piece := by
  have start : (lexer.skip run rest).offset = Bytes.size (front ++ run) := by
    rw [Bytes.size_append, ← offset]
    rfl
  have position := tracks.position_eq
  rw [start] at position
  rw [place, placeBehind, start, position, Bytes.size_append (front ++ run)]
  rfl

/-- The next token or bad text is the answer for the text that is left. -/
theorem Reading.answers {text : List Char} {lexer : Lexer} (reading : lexer.Reading text) :
    ∃ front, text = front ++ lexer.rest ∧
      Answers text front lexer.next.1 lexer.next.2.rest := by
  obtain ⟨front, whole, offset, _⟩ := reading.tracks
  have append := Scan.split_trivia_append lexer.rest
  have longest := Scan.longest_trivia_split_trivia lexer.rest
  have noTrivia := Scan.trivium?_split_trivia lexer.rest
  have place := (reading.tracks.skip append).place_skip offset
  refine ⟨front, reading.same.symm.trans whole, ?_⟩
  rw [reading.next_eq_scan, scan]
  rw [reading.same] at whole place
  generalize Scan.splitTrivia lexer.rest = parts at append longest noTrivia place ⊢
  obtain ⟨run, behind⟩ := parts
  dsimp only at append longest noTrivia place ⊢
  rw [← append] at whole
  cases behind with
  | nil =>
      rw [List.append_nil] at whole
      have finish := Answers.finish whole longest
      have ending := place []
      rw [← whole] at ending
      rw [← ending] at finish
      exact finish
  | cons c rest =>
      have reads := Scan.reads_piece noTrivia
      have found := Answers.piece whole longest reads
      rw [← place] at found
      exact found

/-- At every point of a run, a call for the next token drops the longest run of trivia and answers
with the end of the file or with what the patterns read behind it. The trivia that are block
comments end with the first `*/` behind their `/*`. -/
theorem next_by_longest_match (source : String) (calls : Nat) :
    let lexer := (fun lexer : Lexer => lexer.next.2)^[calls] (ofSource source)
    (∃ front, source.toList = front ++ lexer.rest ∧
      ∀ answer rest, Answers source.toList front answer rest ↔
        lexer.next.1 = answer ∧ lexer.next.2.rest = rest) ∧
    ∀ text, text ∈ Scan.blockComment ↔
      ∃ body, text = '/' :: '*' :: (body ++ ['*', '/']) ∧ ¬ ['*', '/'] <:+: body ++ ['*'] := by
  intro lexer
  constructor
  · obtain ⟨front, whole, answers⟩ := ((reading_of_source source).iterate calls).answers
    refine ⟨front, whole, fun answer rest => ⟨answers.unique, ?_⟩⟩
    rintro ⟨rfl, rfl⟩
    exact answers
  · intro text
    rw [Scan.mem_block_comment_iff]
    constructor
    · rintro ⟨_, rfl, body, rfl, first⟩
      exact ⟨body, rfl, first⟩
    · rintro ⟨body, rfl, first⟩
      exact ⟨_, rfl, body, rfl, first⟩

end Lexer

end ThreeAddress
