import Mathlib.Data.List.TakeWhile
import ThreeAddress.Proofs.Quad.Emitted
import ThreeAddress.Proofs.Scope.Mentions
import ThreeAddress.Scope.Name

/-!
# What the text of a quadruple tells

Operands are told apart by their texts, except that a variable can be called like a temporary. The
text of a quadruple gives its operation and the texts of its operands, also where the first of them
is a string with commas in it.
-/

namespace ThreeAddress

set_option autoImplicit false

/-- A text can be cut at the first place where a character stands. -/
theorem Text.eq_of_append_cons_eq {mark : Char} {front front' back back' : List Char}
    (absent : mark ∉ front) (absent' : mark ∉ front')
    (same : front ++ mark :: back = front' ++ mark :: back') : front = front' ∧ back = back' := by
  have cut : ∀ {front back : List Char}, mark ∉ front →
      (front ++ mark :: back).takeWhile (· ≠ mark) = front := by
    intro front back absent
    have before : ∀ c ∈ front, decide (c ≠ mark) = true := by
      intro c member
      rw [decide_eq_true_eq]
      rintro rfl
      exact absent member
    rw [List.takeWhile_append_of_pos before]
    simp
  have fronts : front = front' := by rw [← cut absent, same, cut absent']
  subst fronts
  exact ⟨rfl, List.tail_eq_of_cons_eq (List.append_cancel_left same)⟩

/-- A text can be cut at the last place where a character stands. -/
theorem Text.eq_of_append_cons_eq_last {mark : Char} {front front' back back' : List Char}
    (absent : mark ∉ back) (absent' : mark ∉ back')
    (same : front ++ mark :: back = front' ++ mark :: back') : front = front' ∧ back = back' := by
  have turned := congrArg List.reverse same
  simp only [List.reverse_append, List.reverse_cons, List.append_assoc, List.singleton_append]
    at turned
  obtain ⟨backs, fronts⟩ := Text.eq_of_append_cons_eq (by simpa using absent)
    (by simpa using absent') turned
  exact ⟨List.reverse_injective fronts, List.reverse_injective backs⟩

namespace Scan

def isPlain (c : Char) : Bool :=
  isNameChar c || c = '.'

theorem is_plain_of_is_name_char {c : Char} (named : isNameChar c = true) : isPlain c = true := by
  rw [isPlain, named, Bool.true_or]

theorem is_plain_of_is_digit {c : Char} (digit : isDigit c = true) : isPlain c = true :=
  is_plain_of_is_name_char (by rw [isNameChar, digit, Bool.or_true])

theorem is_plain_of_is_letter {c : Char} (letter : isLetter c = true) : isPlain c = true :=
  is_plain_of_is_name_char (by rw [isNameChar, isNameStart, letter, Bool.true_or, Bool.true_or])

inductive Opening where
  | literal
  | name
  | blank

def opening : List Char → Opening
  | [] => .blank
  | c :: _ => if isDigit c || c = '"' then .literal else if isLetter c then .name else .blank

theorem opening_of_is_letter {c : Char} (letter : isLetter c = true) (rest : List Char) :
    opening (c :: rest) = .name := by
  have noDigit : isDigit c = false := by
    by_contra digit
    rw [Bool.not_eq_false] at digit
    rw [not_is_letter_of_is_digit digit] at letter
    cases letter
  have noQuote : c ≠ '"' := by
    rintro rfl
    cases letter
  simp [opening, noDigit, noQuote, letter]

theorem Digits.opening_append {text : List Char} (digits : Digits text) (rest : List Char) :
    opening (text ++ rest) = .literal := by
  cases text with
  | nil => exact absurd rfl digits.1
  | cons c tail => simp [opening, digits.2 c List.mem_cons_self]

end Scan

theorem Name.starts_of_valid {name : List Char} (valid : Name.fault? name = none) :
    ∃ first rest, name = first :: rest ∧ Scan.isLetter first = true ∧
      ∀ c ∈ rest, Scan.isNameChar c = true := by
  cases name with
  | nil => cases valid
  | cons first rest =>
      rw [Name.fault?] at valid
      by_cases letter : Scan.isLetter first = true
      · rw [if_neg (by simp [letter])] at valid
        by_cases plain : rest.all Scan.isNameChar = true
        · exact ⟨first, rest, rfl, letter, List.all_eq_true.mp plain⟩
        · rw [if_pos (by simpa using plain)] at valid
          cases valid
      · rw [if_pos (by simpa using letter)] at valid
        cases valid

namespace Operand

/-- What may stand in a slot of a quadruple: a label only where the operation has one, and never
a variable or a temporary there. -/
def Fits (labelled : Bool) : Operand → Prop
  | .literal text => Scan.Digits text.toList ∨ Scan.Decimal text.toList ∨ Scan.Quoted text.toList
  | .var name => labelled = false ∧ Name.fault? name.toList = none
  | .temp _ => labelled = false
  | .label _ => labelled = true

def opening : Operand → Scan.Opening
  | .literal _ => .literal
  | .var _ | .temp _ | .label _ => .name

theorem toList_text_temp (number : Nat) :
    (Operand.temp number).text.toList = 't' :: Nat.toDigits 10 number := by
  rw [Operand.text, String.toList_append, Nat.toString_eq_repr, Nat.toList_repr]
  rfl

theorem toList_text_label (number : Nat) :
    (Operand.label number).text.toList = 'L' :: Nat.toDigits 10 number := by
  rw [Operand.text, String.toList_append, Nat.toString_eq_repr, Nat.toList_repr]
  rfl

theorem Fits.opening_text {labelled : Bool} {operand : Operand} (fits : operand.Fits labelled) :
    Scan.opening operand.text.toList = operand.opening := by
  cases operand with
  | literal text =>
      rcases fits with digits | ⟨whole, fraction, written, digits, _⟩ | ⟨body, written, _⟩
      · have opens := digits.opening_append []
        rw [List.append_nil] at opens
        exact opens
      · rw [Operand.text, written]
        exact digits.opening_append _
      · rw [Operand.text, written]
        rfl
  | var name =>
      obtain ⟨first, rest, written, letter, _⟩ := Name.starts_of_valid fits.2
      rw [Operand.text, written]
      exact Scan.opening_of_is_letter letter rest
  | temp number =>
      rw [toList_text_temp]
      rfl
  | label number =>
      rw [toList_text_label]
      rfl

/-- Operands that have the same text: equal ones, and a temporary and a variable of its name. -/
inductive Alike : Operand → Operand → Prop
  | same (operand : Operand) : Alike operand operand
  | tempName (number : Nat) : Alike (.temp number) (.var (Operand.temp number).text)
  | nameTemp (number : Nat) : Alike (.var (Operand.temp number).text) (.temp number)

theorem Alike.symm {operand other : Operand} (alike : operand.Alike other) :
    other.Alike operand := by
  cases alike with
  | same => exact .same _
  | tempName number => exact .nameTemp number
  | nameTemp number => exact .tempName number

theorem Alike.text_eq {operand other : Operand} (alike : operand.Alike other) :
    operand.text = other.text := by
  cases alike with
  | same | tempName | nameTemp => rfl

theorem eq_of_toDigits_eq {number other : Nat}
    (same : Nat.toDigits 10 number = Nat.toDigits 10 other) : number = other := by
  have read := congrArg (fun digits => Nat.ofDigitChars 10 digits 0) same
  simpa using read

theorem alike_of_text_eq {labelled : Bool} {operand other : Operand}
    (fits : operand.Fits labelled) (otherFits : other.Fits labelled)
    (same : operand.text = other.text) : operand.Alike other := by
  have openings : operand.opening = other.opening := by
    rw [← fits.opening_text, ← otherFits.opening_text, same]
  cases operand with
  | literal text =>
      cases other with
      | literal other =>
          cases same
          exact .same _
      | var | temp | label => cases openings
  | var name =>
      cases other with
      | literal => cases openings
      | var other =>
          cases same
          exact .same _
      | temp number =>
          change name = (Operand.temp number).text at same
          subst same
          exact .nameTemp number
      | label number =>
          rw [otherFits] at fits
          cases fits.1
  | temp number =>
      cases other with
      | literal => cases openings
      | var name =>
          change (Operand.temp number).text = name at same
          subst same
          exact .tempName number
      | temp other =>
          have lists := congrArg String.toList same
          rw [toList_text_temp, toList_text_temp] at lists
          rw [eq_of_toDigits_eq (List.tail_eq_of_cons_eq lists)]
          exact .same _
      | label other =>
          rw [otherFits] at fits
          cases fits
  | label number =>
      cases other with
      | literal => cases openings
      | var name =>
          rw [fits] at otherFits
          cases otherFits.1
      | temp other =>
          rw [fits] at otherFits
          cases otherFits
      | label other =>
          have lists := congrArg String.toList same
          rw [toList_text_label, toList_text_label] at lists
          rw [eq_of_toDigits_eq (List.tail_eq_of_cons_eq lists)]
          exact .same _

def Plain (operand : Operand) : Prop :=
  ∀ c ∈ operand.text.toList, Scan.isPlain c = true

theorem plain_of_toList {operand : Operand} {first : Char} {number : Nat}
    (written : operand.text.toList = first :: Nat.toDigits 10 number)
    (letter : Scan.isLetter first = true) : operand.Plain := by
  rw [Plain, written, List.forall_mem_cons]
  refine ⟨Scan.is_plain_of_is_letter letter, ?_⟩
  intro c member
  have digit : c.isDigit = true := Nat.isDigit_of_mem_toDigits (by decide) (by decide) member
  exact Scan.is_plain_of_is_digit digit

/-- A variable has a name that follows the naming rule. -/
def Named : Operand → Prop
  | .var name => Name.fault? name.toList = none
  | .literal _ | .temp _ | .label _ => True

theorem Named.plain_var {name : String} (named : (Operand.var name).Named) :
    (Operand.var name).Plain := by
  obtain ⟨first, rest, written, letter, others⟩ := Name.starts_of_valid named
  rw [Plain, Operand.text, written, List.forall_mem_cons]
  exact ⟨Scan.is_plain_of_is_letter letter,
    fun c member => Scan.is_plain_of_is_name_char (others c member)⟩

theorem plain_temp (number : Nat) : (Operand.temp number).Plain :=
  plain_of_toList (toList_text_temp number) rfl

theorem plain_label (number : Nat) : (Operand.label number).Plain :=
  plain_of_toList (toList_text_label number) rfl

theorem Numeric.fits {operand : Operand} (numeric : operand.Numeric) (named : operand.Named) :
    operand.Fits false ∧ operand.Plain := by
  cases operand with
  | literal text =>
      rcases numeric with digits | decimal
      · exact ⟨.inl digits, fun c member => Scan.is_plain_of_is_digit (digits.2 c member)⟩
      · refine ⟨.inr (.inl decimal), ?_⟩
        obtain ⟨whole, fraction, written, before, behind⟩ := decimal
        rw [Plain, Operand.text, written, List.forall_mem_append, List.forall_mem_cons]
        exact ⟨fun c member => Scan.is_plain_of_is_digit (before.2 c member), rfl,
          fun c member => Scan.is_plain_of_is_digit (behind.2 c member)⟩
  | var name => exact ⟨⟨rfl, named⟩, named.plain_var⟩
  | temp number => exact ⟨rfl, plain_temp number⟩
  | label number => cases numeric

end Operand

theorem not_mem_of_plain {text : List Char} (plain : ∀ c ∈ text, Scan.isPlain c = true)
    {mark : Char} (other : Scan.isPlain mark = false) : mark ∉ text := by
  intro member
  rw [plain mark member] at other
  cases other

/-- No text of an operand goes over the end of a line. -/
theorem Operand.Fits.feed_not_mem_text {labelled : Bool} {operand : Operand}
    (fits : operand.Fits labelled) : '\n' ∉ operand.text.toList := by
  cases operand with
  | literal text =>
      rcases fits with digits | decimal | ⟨body, written, inside⟩
      · have numeric : (Operand.literal text).Numeric := .inl digits
        exact not_mem_of_plain (numeric.fits trivial).2 rfl
      · have numeric : (Operand.literal text).Numeric := .inr decimal
        exact not_mem_of_plain (numeric.fits trivial).2 rfl
      · rw [Operand.text, written]
        intro member
        have within : '\n' ∈ body := by simpa using member
        exact absurd (inside _ within) (by decide)
  | var name => exact not_mem_of_plain (Operand.Named.plain_var fits.2) rfl
  | temp number => exact not_mem_of_plain (Operand.plain_temp number) rfl
  | label number => exact not_mem_of_plain (Operand.plain_label number) rfl

def Operation.isLabelled (op : Operation) : Bool :=
  op = .label || op.isJump

namespace Quad

def SlotAll (property : Operand → Prop) : Option Operand → Prop
  | none => True
  | some operand => property operand

/-- The slots of a quadruple can be read from its text. -/
structure Legible (quad : Quad) : Prop where
  first : SlotAll (Operand.Fits false) quad.first
  second : SlotAll (Operand.Fits false) quad.second
  second_plain : SlotAll Operand.Plain quad.second
  result : SlotAll (Operand.Fits quad.op.isLabelled) quad.result
  result_plain : SlotAll Operand.Plain quad.result

theorem rel_of_slot_text_eq {labelled : Bool} {slot other : Option Operand}
    (fits : SlotAll (Operand.Fits labelled) slot)
    (otherFits : SlotAll (Operand.Fits labelled) other)
    (same : slotText slot = slotText other) : Option.Rel Operand.Alike slot other := by
  have blank : ∀ {operand : Operand}, operand.Fits labelled → operand.text ≠ "_" := by
    intro operand fit written
    have opens := fit.opening_text
    rw [written] at opens
    cases operand <;> cases opens
  cases slot with
  | none =>
      cases other with
      | none => exact .none
      | some operand => exact absurd same.symm (blank otherFits)
  | some operand =>
      cases other with
      | none => exact absurd same (blank fits)
      | some other => exact .some (Operand.alike_of_text_eq fits otherFits same)

theorem not_mem_slot_text {slot : Option Operand} (plain : SlotAll Operand.Plain slot)
    {mark : Char} (other : Scan.isPlain mark = false) : mark ∉ (slotText slot).toList := by
  cases slot with
  | none =>
      have blank : ∀ c ∈ (slotText none).toList, Scan.isPlain c = true :=
        List.forall_mem_singleton.mpr rfl
      exact not_mem_of_plain blank other
  | some operand => exact not_mem_of_plain plain other

theorem toList_text (quad : Quad) :
    quad.text.toList = '(' :: (quad.op.mnemonic.toList ++ ',' :: ' ' ::
      ((slotText quad.first).toList ++ ',' :: ' ' ::
        ((slotText quad.second).toList ++ ',' :: ' ' ::
          ((slotText quad.result).toList ++ [')'])))) := by
  simp only [Quad.text, String.toList_append, List.append_assoc]
  rfl

end Quad

namespace Operation

def all : List Operation :=
  [.assign, .arithmetic .add, .arithmetic .sub, .arithmetic .mul, .arithmetic .div,
    .compare .less, .compare .greater, .compare .lessEqual, .compare .greaterEqual,
    .compare .equal, .compare .notEqual, .and, .or, .not, .jump, .jumpIfZero, .jumpIfTrue,
    .label, .input, .output, .arrayRead]

def ofMnemonic? (text : String) : Option Operation :=
  all.find? (·.mnemonic == text)

theorem of_mnemonic?_mnemonic (op : Operation) : ofMnemonic? op.mnemonic = some op := by
  cases op with
  | arithmetic op => cases op <;> rfl
  | compare op => cases op <;> rfl
  | assign | and | or | not | jump | jumpIfZero | jumpIfTrue | label | input | output
  | arrayRead => rfl

theorem eq_of_mnemonic_eq {op other : Operation} (same : op.mnemonic = other.mnemonic) :
    op = other := by
  have read := congrArg ofMnemonic? same
  rw [of_mnemonic?_mnemonic, of_mnemonic?_mnemonic] at read
  exact Option.some.inj read

theorem not_mem_mnemonic (op : Operation) :
    ',' ∉ op.mnemonic.toList ∧ '\n' ∉ op.mnemonic.toList := by
  cases op with
  | arithmetic op => cases op <;> decide
  | compare op => cases op <;> decide
  | assign | and | or | not | jump | jumpIfZero | jumpIfTrue | label | input | output
  | arrayRead => decide

end Operation

namespace Quad

structure Alike (quad other : Quad) : Prop where
  op : quad.op = other.op
  first : Option.Rel Operand.Alike quad.first other.first
  second : Option.Rel Operand.Alike quad.second other.second
  result : Option.Rel Operand.Alike quad.result other.result

theorem slot_text_eq_of_rel {slot other : Option Operand}
    (alike : Option.Rel Operand.Alike slot other) : slotText slot = slotText other := by
  cases alike with
  | none => rfl
  | some alike => exact alike.text_eq

theorem Alike.text_eq {quad other : Quad} (alike : quad.Alike other) : quad.text = other.text := by
  rw [Quad.text, Quad.text, alike.op, slot_text_eq_of_rel alike.first,
    slot_text_eq_of_rel alike.second, slot_text_eq_of_rel alike.result]

theorem rel_symm {slot other : Option Operand} (alike : Option.Rel Operand.Alike slot other) :
    Option.Rel Operand.Alike other slot := by
  cases alike with
  | none => exact .none
  | some alike => exact .some alike.symm

theorem Alike.symm {quad other : Quad} (alike : quad.Alike other) : other.Alike quad :=
  ⟨alike.op.symm, rel_symm alike.first, rel_symm alike.second, rel_symm alike.result⟩

theorem alike_of_text_eq {quad other : Quad} (legible : quad.Legible) (otherLegible : other.Legible)
    (same : quad.text = other.text) : quad.Alike other := by
  have lists := congrArg String.toList same
  rw [toList_text, toList_text] at lists
  -- The operation stands before the first comma.
  obtain ⟨mnemonics, operands⟩ := Text.eq_of_append_cons_eq quad.op.not_mem_mnemonic.1
    other.op.not_mem_mnemonic.1 (List.tail_eq_of_cons_eq lists)
  have op : quad.op = other.op := Operation.eq_of_mnemonic_eq (String.toList_injective mnemonics)
  -- The result stands behind the last comma, the second operand behind the last one before.
  have grouped : ∀ quad : Quad, (slotText quad.first).toList ++ ',' :: ' ' ::
      ((slotText quad.second).toList ++ ',' :: ' ' :: ((slotText quad.result).toList ++ [')'])) =
      ((slotText quad.first).toList ++ ',' :: ' ' :: (slotText quad.second).toList) ++
        ',' :: ' ' :: ((slotText quad.result).toList ++ [')']) := by
    intro quad
    simp only [List.append_assoc, List.cons_append]
  have inner := List.tail_eq_of_cons_eq operands
  rw [grouped quad, grouped other] at inner
  obtain ⟨arguments, results⟩ := Text.eq_of_append_cons_eq_last
    (by simpa using not_mem_slot_text legible.result_plain rfl)
    (by simpa using not_mem_slot_text otherLegible.result_plain rfl) inner
  obtain ⟨firsts, seconds⟩ := Text.eq_of_append_cons_eq_last
    (by simpa using not_mem_slot_text legible.second_plain rfl)
    (by simpa using not_mem_slot_text otherLegible.second_plain rfl) arguments
  have resultTexts := List.append_cancel_right (List.tail_eq_of_cons_eq results)
  refine ⟨op, ?_, ?_, ?_⟩
  · exact rel_of_slot_text_eq legible.first otherLegible.first (String.toList_injective firsts)
  · exact rel_of_slot_text_eq legible.second otherLegible.second
      (String.toList_injective (List.tail_eq_of_cons_eq seconds))
  · have fits := otherLegible.result
    rw [← op] at fits
    exact rel_of_slot_text_eq legible.result fits (String.toList_injective resultTexts)

/-- No text of a quadruple goes over the end of a line. -/
theorem Legible.feed_not_mem_text {quad : Quad} (legible : quad.Legible) :
    '\n' ∉ quad.text.toList := by
  have first : '\n' ∉ (slotText quad.first).toList := by
    have fits := legible.first
    cases slot : quad.first with
    | none => decide
    | some operand =>
        rw [slot] at fits
        exact Operand.Fits.feed_not_mem_text fits
  have second : '\n' ∉ (slotText quad.second).toList := not_mem_slot_text legible.second_plain rfl
  have result : '\n' ∉ (slotText quad.result).toList := not_mem_slot_text legible.result_plain rfl
  rw [toList_text]
  simp [first, second, result, quad.op.not_mem_mnemonic.2]

/-- What lowering emits can be read from its text, if names follow the naming rule. -/
theorem Emitted.legible {quad : Quad} (emitted : quad.Emitted)
    (named : ∀ operand ∈ quad.operands, operand.Named) : quad.Legible := by
  cases emitted with
  | label number => exact ⟨trivial, trivial, trivial, rfl, Operand.plain_label number⟩
  | jump number => exact ⟨trivial, trivial, trivial, rfl, Operand.plain_label number⟩
  | jumpIfZero number numeric =>
      have test := numeric.fits (named _ (by simp [operands, branch]))
      exact ⟨test.1, trivial, trivial, rfl, Operand.plain_label number⟩
  | jumpIfTrue number numeric =>
      have test := numeric.fits (named _ (by simp [operands, branch]))
      exact ⟨test.1, trivial, trivial, rfl, Operand.plain_label number⟩
  | store name numeric =>
      have value := numeric.fits (named _ (by simp [operands, assign]))
      have target : (Operand.var name).Named := named _ (by simp [operands, assign])
      exact ⟨value.1, trivial, trivial, ⟨rfl, target⟩, target.plain_var⟩
  | hold number numeric =>
      have value := numeric.fits (named _ (by simp [operands, assign]))
      exact ⟨value.1, trivial, trivial, rfl, Operand.plain_temp number⟩
  | @binary op first second number computes left right =>
      have unlabelled : op.isLabelled = false := by
        cases op with
        | arithmetic | compare | and | or | arrayRead => rfl
        | assign | not | jump | jumpIfZero | jumpIfTrue | label | input | output => cases computes
      have one := left.fits (named _ (by simp [operands]))
      have two := right.fits (named _ (by simp [operands]))
      exact ⟨one.1, two.1, two.2, unlabelled, Operand.plain_temp number⟩
  | not number numeric =>
      have operand := numeric.fits (named _ (by simp [operands]))
      exact ⟨operand.1, trivial, trivial, rfl, Operand.plain_temp number⟩
  | input name =>
      have target : (Operand.var name).Named := named _ (by simp [operands])
      exact ⟨trivial, trivial, trivial, ⟨rfl, target⟩, target.plain_var⟩
  | outputText quoted => exact ⟨.inr (.inr quoted), trivial, trivial, trivial, trivial⟩
  | outputValue name =>
      have value : (Operand.var name).Named := named _ (by simp [operands])
      exact ⟨⟨rfl, value⟩, trivial, trivial, trivial, trivial⟩

end Quad

end ThreeAddress
