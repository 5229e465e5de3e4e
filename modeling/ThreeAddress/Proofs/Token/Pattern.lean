import Mathlib.Computability.Language
import ThreeAddress.Proofs.Token.Spelling

/-!
# The patterns of tokens

Each kind of token has a pattern: a language put together from classes of characters by
concatenation and repetition. What the patterns describe is also said without them, together with
the character that a text of each pattern starts with.
-/

namespace ThreeAddress

set_option autoImplicit false

open scoped Computability

namespace Scan

def anyOf (chars : Char → Bool) : Language Char :=
  {text | ∃ c, text = [c] ∧ chars c = true}

def repeated (language : Language Char) : Language Char :=
  language * language∗

theorem mem_any_of_iff (chars : Char → Bool) (text : List Char) :
    text ∈ anyOf chars ↔ ∃ c, text = [c] ∧ chars c = true := Iff.rfl

theorem mem_kstar_any_of_iff (chars : Char → Bool) (text : List Char) :
    text ∈ (anyOf chars)∗ ↔ ∀ c ∈ text, chars c = true := by
  rw [Language.mem_kstar]
  constructor
  · rintro ⟨parts, rfl, members⟩ c inside
    obtain ⟨part, listed, present⟩ := List.mem_flatten.mp inside
    obtain ⟨d, rfl, holds⟩ := members part listed
    rw [List.mem_singleton.mp present]
    exact holds
  · intro all
    refine ⟨text.map fun c => [c], ?_, ?_⟩
    · exact (List.flatMap_singleton' text).symm
    · intro part listed
      obtain ⟨c, inside, rfl⟩ := List.mem_map.mp listed
      exact ⟨c, rfl, all c inside⟩

/-- A character of a class in front of a text. -/
theorem mem_any_of_mul_iff (chars : Char → Bool) (language : Language Char) (text : List Char) :
    text ∈ anyOf chars * language ↔
      ∃ c rest, text = c :: rest ∧ chars c = true ∧ rest ∈ language := by
  rw [Language.mem_mul]
  constructor
  · rintro ⟨_, ⟨c, rfl, holds⟩, rest, member, rfl⟩
    exact ⟨c, rest, rfl, holds, member⟩
  · rintro ⟨c, rest, rfl, holds, member⟩
    exact ⟨[c], ⟨c, rfl, holds⟩, rest, member, rfl⟩

theorem cons_mem_any_of_mul_iff (chars : Char → Bool) (language : Language Char) (c : Char)
    (rest : List Char) : c :: rest ∈ anyOf chars * language ↔ chars c = true ∧ rest ∈ language := by
  rw [mem_any_of_mul_iff]
  constructor
  · rintro ⟨_, _, same, holds, member⟩
    cases same
    exact ⟨holds, member⟩
  · rintro ⟨holds, member⟩
    exact ⟨c, rest, rfl, holds, member⟩

theorem nil_not_mem_any_of_mul (chars : Char → Bool) (language : Language Char) :
    [] ∉ anyOf chars * language := by
  rw [mem_any_of_mul_iff]
  rintro ⟨_, _, same, _⟩
  cases same

theorem mem_repeated_any_of_iff (chars : Char → Bool) (text : List Char) :
    text ∈ repeated (anyOf chars) ↔ text ≠ [] ∧ ∀ c ∈ text, chars c = true := by
  rw [repeated, mem_any_of_mul_iff]
  constructor
  · rintro ⟨c, rest, rfl, holds, further⟩
    rw [mem_kstar_any_of_iff] at further
    exact ⟨List.cons_ne_nil c rest, List.forall_mem_cons.mpr ⟨holds, further⟩⟩
  · rintro ⟨nonempty, all⟩
    cases text with
    | nil => exact absurd rfl nonempty
    | cons c rest =>
        obtain ⟨holds, further⟩ := List.forall_mem_cons.mp all
        exact ⟨c, rest, rfl, holds, (mem_kstar_any_of_iff chars rest).mpr further⟩

inductive Rule where
  | keyword (word : Keyword)
  | mark (sign : Mark)
  | identifier
  | integer
  | float
  | string
deriving DecidableEq

namespace Rule

def language : Rule → Language Char
  | .keyword word => {word.text.toList}
  | .mark sign => {sign.text.toList}
  | .identifier => anyOf isNameStart * (anyOf isNameChar)∗
  | .integer => repeated (anyOf isDigit)
  | .float => repeated (anyOf isDigit) * (anyOf (· = '.') * repeated (anyOf isDigit))
  | .string => anyOf (· = '"') * ((anyOf inString)∗ * anyOf (· = '"'))

def kind (text : List Char) : Rule → TokenKind
  | .keyword word => .keyword word
  | .mark sign => .mark sign
  | .identifier => .identifier (String.ofList text)
  | .integer => .integer (String.ofList text)
  | .float => .float (String.ofList text)
  | .string => .string (String.ofList text)

theorem mem_keyword_iff (word : Keyword) (text : List Char) :
    text ∈ (keyword word).language ↔ text = word.text.toList := Iff.rfl

theorem mem_mark_iff (sign : Mark) (text : List Char) :
    text ∈ (mark sign).language ↔ text = sign.text.toList := Iff.rfl

theorem mem_identifier_iff (text : List Char) :
    text ∈ identifier.language ↔
      ∃ first rest, text = first :: rest ∧ isNameStart first = true ∧
        ∀ c ∈ rest, isNameChar c = true := by
  rw [language, mem_any_of_mul_iff]
  simp only [mem_kstar_any_of_iff]

theorem mem_integer_iff (text : List Char) : text ∈ integer.language ↔ Digits text :=
  mem_repeated_any_of_iff isDigit text

theorem mem_float_iff (text : List Char) : text ∈ float.language ↔ Decimal text := by
  rw [language, Language.mem_mul]
  simp only [mem_any_of_mul_iff, mem_repeated_any_of_iff, decide_eq_true_eq]
  constructor
  · rintro ⟨whole, digits, _, ⟨_, fraction, rfl, rfl, more⟩, rfl⟩
    exact ⟨whole, fraction, rfl, digits, more⟩
  · rintro ⟨whole, fraction, rfl, digits, more⟩
    exact ⟨whole, digits, '.' :: fraction, ⟨'.', fraction, rfl, rfl, more⟩, rfl⟩

theorem mem_string_iff (text : List Char) : text ∈ string.language ↔ Quoted text := by
  rw [language, mem_any_of_mul_iff]
  simp only [Language.mem_mul, mem_kstar_any_of_iff, mem_any_of_iff, decide_eq_true_eq]
  constructor
  · rintro ⟨_, _, rfl, rfl, body, inside, _, ⟨_, rfl, rfl⟩, rfl⟩
    exact ⟨body, rfl, inside⟩
  · rintro ⟨body, rfl, inside⟩
    exact ⟨'"', body ++ ['"'], rfl, rfl, body, inside, ['"'], ⟨'"', rfl, rfl⟩, rfl⟩

end Rule

/-- What the first character of a token says about its pattern. -/
inductive Lead where
  | name
  | digit
  | quote
  | directive
  | sign
deriving DecidableEq

def lead (c : Char) : Lead :=
  if isNameStart c then .name
  else if isDigit c then .digit
  else if c = '"' then .quote
  else if c = '@' then .directive
  else .sign

def Rule.lead : Rule → Lead
  | .keyword .defineWord => .directive
  | .keyword _ | .identifier => .name
  | .mark _ => .sign
  | .integer | .float => .digit
  | .string => .quote

theorem lead_of_is_digit {c : Char} (digit : isDigit c = true) : lead c = .digit := by
  have underscore : c ≠ '_' := by
    rintro rfl
    cases digit
  have noName : isNameStart c = false := by
    rw [isNameStart, not_is_letter_of_is_digit digit, decide_eq_false underscore]
    rfl
  rw [lead, noName, digit]
  rfl

/-- A text starts as its pattern says, and it is not empty. -/
theorem Rule.lead_of_mem {rule : Rule} {text : List Char} (member : text ∈ rule.language) :
    ∃ c rest, text = c :: rest ∧ Scan.lead c = rule.lead := by
  cases rule with
  | keyword word =>
      rw [mem_keyword_iff] at member
      subst member
      cases word <;> exact ⟨_, _, rfl, rfl⟩
  | mark sign =>
      rw [mem_mark_iff] at member
      subst member
      cases sign <;> exact ⟨_, _, rfl, rfl⟩
  | identifier =>
      obtain ⟨first, rest, rfl, start, _⟩ := (mem_identifier_iff text).mp member
      exact ⟨first, rest, rfl, if_pos start⟩
  | integer =>
      obtain ⟨nonempty, digits⟩ := (mem_integer_iff text).mp member
      cases text with
      | nil => exact absurd rfl nonempty
      | cons c rest => exact ⟨c, rest, rfl, lead_of_is_digit (digits c List.mem_cons_self)⟩
  | float =>
      obtain ⟨whole, fraction, rfl, ⟨nonempty, digits⟩, _⟩ := (mem_float_iff text).mp member
      cases whole with
      | nil => exact absurd rfl nonempty
      | cons c rest => exact ⟨c, _, rfl, lead_of_is_digit (digits c List.mem_cons_self)⟩
  | string =>
      obtain ⟨body, rfl, _⟩ := (mem_string_iff text).mp member
      exact ⟨'"', _, rfl, rfl⟩

end Scan

end ThreeAddress
