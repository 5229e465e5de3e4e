import ThreeAddress.Proofs.Scope.Log
import ThreeAddress.Proofs.Token.Pattern

/-!
# The form of declared names

The naming rule is a regular language with a bound on the length: a letter, then letters and digits,
then any number of segments that start with an underscore and go on with a letter or a digit. The
rule is checked as six conditions on the whole name, and the fault told is the first of them that
applies.
-/

namespace ThreeAddress

set_option autoImplicit false

open scoped Computability

open Scan

namespace Scan

def isAlphanumeric (c : Char) : Bool :=
  isLetter c || isDigit c

theorem is_name_char_eq (c : Char) : isNameChar c = (isAlphanumeric c || c = '_') := by
  rw [isNameChar, isNameStart, isAlphanumeric, Bool.or_right_comm]

theorem is_alphanumeric_of_is_letter {c : Char} (letter : isLetter c = true) :
    isAlphanumeric c = true := by
  rw [isAlphanumeric, letter, Bool.true_or]

theorem ne_underscore_of_is_alphanumeric {c : Char} (plain : isAlphanumeric c = true) :
    c ≠ '_' := by
  rintro rfl
  cases plain

end Scan

namespace NameFault

/-- What makes a name break a part of the rule, whatever the other parts say. -/
def Applies (name : List Char) : NameFault → Prop
  | .empty => name = []
  | .badStart => ∃ c ∈ name.head?, isLetter c = false
  | .badCharacter => ∃ c ∈ name, isNameChar c = false
  | .tooLong => Name.maxLength < name.length
  | .trailingUnderscore => ['_'] <:+ name
  | .doubleUnderscore => ['_', '_'] <:+: name

instance (name : List Char) : (fault : NameFault) → Decidable (fault.Applies name)
  | .empty => inferInstanceAs (Decidable (name = []))
  | .badStart => inferInstanceAs (Decidable (∃ c ∈ name.head?, isLetter c = false))
  | .badCharacter => inferInstanceAs (Decidable (∃ c ∈ name, isNameChar c = false))
  | .tooLong => inferInstanceAs (Decidable (Name.maxLength < name.length))
  | .trailingUnderscore => inferInstanceAs (Decidable (['_'] <:+ name))
  | .doubleUnderscore => inferInstanceAs (Decidable (['_', '_'] <:+: name))

/-- The faults in the order in which they are told. -/
def inOrder : List NameFault :=
  [.empty, .badStart, .badCharacter, .tooLong, .trailingUnderscore, .doubleUnderscore]

theorem mem_in_order (fault : NameFault) : fault ∈ inOrder := by
  cases fault <;> decide

end NameFault

namespace Name

/-- What may follow a letter or a digit: more of them, and segments behind single underscores. -/
def behindFirst : Language Char :=
  (anyOf isAlphanumeric)∗ * (anyOf (· = '_') * repeated (anyOf isAlphanumeric))∗

/-- The names that the rule describes, of any length. -/
def form : Language Char :=
  anyOf isLetter * behindFirst

/-- A character at a time: a letter or a digit, or an underscore and one of them. -/
theorem behind_first_eq :
    behindFirst = 1 + anyOf (· = '_') * (anyOf isAlphanumeric * behindFirst) +
      anyOf isAlphanumeric * behindFirst := by
  have segments : (anyOf (· = '_') * repeated (anyOf isAlphanumeric))∗ =
      1 + anyOf (· = '_') * (anyOf isAlphanumeric * behindFirst) := by
    conv_lhs => rw [← Language.one_add_self_mul_kstar_eq_kstar]
    rw [repeated, mul_assoc, mul_assoc]
    rfl
  calc behindFirst
      = (1 + anyOf isAlphanumeric * (anyOf isAlphanumeric)∗) *
          (anyOf (· = '_') * repeated (anyOf isAlphanumeric))∗ := by
        rw [Language.one_add_self_mul_kstar_eq_kstar]
        rfl
    _ = (anyOf (· = '_') * repeated (anyOf isAlphanumeric))∗ +
          anyOf isAlphanumeric * behindFirst := by
        rw [add_mul, one_mul, mul_assoc]
        rfl
    _ = _ := by rw [segments]

theorem nil_mem_behind_first : [] ∈ behindFirst := by
  rw [behind_first_eq]
  exact .inl (.inl rfl)

theorem cons_mem_behind_first_iff (c : Char) (rest : List Char) :
    c :: rest ∈ behindFirst ↔
      (c = '_' ∧ rest ∈ anyOf isAlphanumeric * behindFirst) ∨
        (isAlphanumeric c = true ∧ rest ∈ behindFirst) := by
  conv_lhs => rw [behind_first_eq]
  rw [Language.mem_add, Language.mem_add, cons_mem_any_of_mul_iff, cons_mem_any_of_mul_iff,
    Language.mem_one, decide_eq_true_eq]
  simp

end Name

namespace Name

structure Continues (rest : List Char) : Prop where
  plain : ∀ c ∈ rest, isNameChar c = true
  closed : ¬ ['_'] <:+ rest
  single : ¬ ['_', '_'] <:+: rest

theorem continues_nil : Continues [] := by
  constructor <;> simp

theorem Continues.tail {c : Char} {rest : List Char} (continues : Continues (c :: rest)) :
    Continues rest where
  plain := fun d member => continues.plain d (List.mem_cons_of_mem c member)
  closed := fun ends => continues.closed (List.suffix_cons_iff.mpr (.inr ends))
  single := fun doubled => continues.single (List.infix_cons doubled)

theorem continues_cons_iff {c : Char} {rest : List Char} (plain : isAlphanumeric c = true) :
    Continues (c :: rest) ↔ Continues rest := by
  have other : '_' ≠ c := (ne_underscore_of_is_alphanumeric plain).symm
  have named : isNameChar c = true := by rw [is_name_char_eq, plain, Bool.true_or]
  constructor
  · exact Continues.tail
  · intro continues
    refine ⟨?_, ?_, ?_⟩
    · exact List.forall_mem_cons.mpr ⟨named, continues.plain⟩
    · intro ends
      rcases List.suffix_cons_iff.mp ends with whole | inside
      · exact other (List.cons.inj whole).1
      · exact continues.closed inside
    · intro doubled
      rcases List.infix_cons_iff.mp doubled with front | inside
      · exact other (List.cons_prefix_cons.mp front).1
      · exact continues.single inside

theorem continues_underscore_iff (rest : List Char) :
    Continues ('_' :: rest) ↔
      ∃ d further, rest = d :: further ∧ isAlphanumeric d = true ∧ Continues further := by
  constructor
  · intro continues
    cases rest with
    | nil => exact absurd (List.suffix_refl ['_']) continues.closed
    | cons d further =>
        have other : d ≠ '_' := by
          rintro rfl
          exact continues.single (List.IsPrefix.isInfix ⟨further, rfl⟩)
        have plain : isAlphanumeric d = true := by
          have named := continues.plain d (by simp)
          rwa [is_name_char_eq, decide_eq_false other, Bool.or_false] at named
        exact ⟨d, further, rfl, plain, continues.tail.tail⟩
  · rintro ⟨d, further, rfl, plain, continues⟩
    have other := ne_underscore_of_is_alphanumeric plain
    have behind := (continues_cons_iff plain).mpr continues
    refine ⟨List.forall_mem_cons.mpr ⟨rfl, behind.plain⟩, ?_, ?_⟩
    · intro ends
      rcases List.suffix_cons_iff.mp ends with whole | inside
      · cases whole
      · exact behind.closed inside
    · intro doubled
      rcases List.infix_cons_iff.mp doubled with front | inside
      · have second := (List.cons_prefix_cons.mp (List.cons_prefix_cons.mp front).2).1
        exact other second.symm
      · exact behind.single inside

theorem mem_behind_first_iff (rest : List Char) : rest ∈ behindFirst ↔ Continues rest := by
  -- An underscore is looked at together with the character behind it.
  induction size : rest.length using Nat.strong_induction_on generalizing rest with
  | _ length ih =>
      subst size
      cases rest with
      | nil => exact iff_of_true nil_mem_behind_first continues_nil
      | cons c rest =>
          rw [cons_mem_behind_first_iff]
          by_cases underscore : c = '_'
          · subst underscore
            rw [continues_underscore_iff, mem_any_of_mul_iff]
            constructor
            · rintro (⟨_, d, further, rfl, plain, member⟩ | ⟨plain, _⟩)
              · have shorter : further.length < ('_' :: d :: further).length := by grind
                exact ⟨d, further, rfl, plain, (ih _ shorter further rfl).mp member⟩
              · cases plain
            · rintro ⟨d, further, rfl, plain, continues⟩
              have shorter : further.length < ('_' :: d :: further).length := by grind
              exact .inl ⟨rfl, d, further, rfl, plain, (ih _ shorter further rfl).mpr continues⟩
          · by_cases plain : isAlphanumeric c = true
            · rw [continues_cons_iff plain, ← ih _ (by simp) rest rfl]
              simp [underscore, plain]
            · have foreign : isNameChar c ≠ true := by simp [is_name_char_eq, plain, underscore]
              refine iff_of_false ?_ fun continues => foreign (continues.plain c (by simp))
              simp [underscore, plain]

theorem has_double_underscore_iff (name : List Char) :
    hasDoubleUnderscore name = true ↔ ['_', '_'] <:+: name := by
  fun_induction hasDoubleUnderscore name with
  | case1 rest => exact iff_of_true rfl (List.IsPrefix.isInfix ⟨rest, rfl⟩)
  | case2 c rest notBoth ih =>
      rw [ih, List.infix_cons_iff, or_iff_right]
      rintro ⟨further, same⟩
      cases same
      exact notBoth further rfl rfl
  | case3 => simp

theorem trailing_underscore_iff (name : List Char) :
    ['_'] <:+ name ↔ name.getLast? = some '_' := by
  rw [List.getLast?_eq_some_iff, List.IsSuffix]
  simp only [eq_comm]

/-- The fault of a name is the first that applies to it. -/
theorem fault?_eq_find? (name : List Char) :
    fault? name = NameFault.inOrder.find? fun fault => decide (fault.Applies name) := by
  have step (fault : NameFault) (others : List NameFault) :
      (fault :: others).find? (fun fault => decide (fault.Applies name)) =
        if fault.Applies name then some fault
        else others.find? fun fault => decide (fault.Applies name) := by
    rw [List.find?_cons]
    by_cases applies : fault.Applies name <;> simp [applies]
  rw [NameFault.inOrder, step, step, step, step, step, step, List.find?_nil]
  cases name with
  | nil => rfl
  | cons first rest =>
      rw [fault?]
      by_cases letter : isLetter first = true
      · have named : isNameChar first = true := by simp [isNameChar, isNameStart, letter]
        simp [NameFault.Applies, letter, named, trailing_underscore_iff,
          ← has_double_underscore_iff]
      · simp [NameFault.Applies, letter]

/-- A name has the form exactly if nothing but its length can be said against it. -/
theorem mem_form_iff (name : List Char) :
    name ∈ form ↔ ∀ fault, fault ≠ .tooLong → ¬ NameFault.Applies name fault := by
  rw [form, mem_any_of_mul_iff]
  constructor
  · rintro ⟨first, rest, rfl, letter, member⟩ fault other
    have plain := is_alphanumeric_of_is_letter letter
    have continues := (continues_cons_iff plain).mpr ((mem_behind_first_iff rest).mp member)
    cases fault with
    | empty => exact List.cons_ne_nil first rest
    | badStart => simp [NameFault.Applies, letter]
    | badCharacter =>
        rintro ⟨c, listed, foreign⟩
        rw [continues.plain c listed] at foreign
        cases foreign
    | tooLong => exact absurd rfl other
    | trailingUnderscore => exact continues.closed
    | doubleUnderscore => exact continues.single
  · intro unbroken
    cases name with
    | nil => exact absurd rfl (unbroken .empty (by decide))
    | cons first rest =>
        have letter : isLetter first = true := by
          simpa [NameFault.Applies] using unbroken .badStart (by decide)
        have plain := is_alphanumeric_of_is_letter letter
        have continues : Continues (first :: rest) := by
          refine ⟨?_, unbroken .trailingUnderscore (by decide),
            unbroken .doubleUnderscore (by decide)⟩
          simpa [NameFault.Applies] using unbroken .badCharacter (by decide)
        refine ⟨first, rest, rfl, letter, (mem_behind_first_iff rest).mpr ?_⟩
        exact (continues_cons_iff plain).mp continues

theorem fault?_eq_none_iff (name : List Char) :
    fault? name = none ↔ name.length ≤ maxLength ∧ name ∈ form := by
  rw [fault?_eq_find?, List.find?_eq_none, mem_form_iff]
  constructor
  · intro unbroken
    have free (fault : NameFault) : ¬ fault.Applies name := by
      simpa using unbroken fault fault.mem_in_order
    exact ⟨Nat.not_lt.mp (free .tooLong), fun fault _ => free fault⟩
  · rintro ⟨short, others⟩ fault _
    rw [decide_eq_true_eq]
    by_cases long : fault = .tooLong
    · subst long
      exact Nat.not_lt.mpr short
    · exact others fault long

end Name

/-- The naming rule is a regular language of names with at most fourteen characters; a name that
breaks it is told the first of the faults that apply. Every name that the check of a program
declares follows the rule. -/
theorem naming_rule_regular :
    (∀ name : String,
      (Name.fault? name.toList = none ↔ name.length ≤ 14 ∧ name.toList ∈ Name.form) ∧
      Name.fault? name.toList =
        NameFault.inOrder.find? fun fault => decide (fault.Applies name.toList)) ∧
    ∀ program : Program, ∀ entry ∈ program.check.table.declarations,
      entry.symbol.name.length ≤ 14 ∧ entry.symbol.name.toList ∈ Name.form := by
  have valid (name : String) :
      Name.fault? name.toList = none ↔ name.length ≤ 14 ∧ name.toList ∈ Name.form := by
    rw [Name.fault?_eq_none_iff, String.length_toList, Name.maxLength]
  refine ⟨fun name => ⟨valid name, Name.fault?_eq_find? name.toList⟩, ?_⟩
  intro program entry member
  have logged : entry ∈ program.check.table.log := List.mem_reverse.mp member
  exact (valid entry.symbol.name).mp (program.logged_check.names entry logged)

/-- A name of three segments that is as long as a name can be, and one that breaks three parts of
the rule. -/
theorem naming_rule_regular_longest :
    let program : Program := [.scalar ⟨"row_2_capacity", default⟩ .int default]
    let entry : Declaration := ⟨.scalar "row_2_capacity" .int .first, 0⟩
    entry ∈ program.check.table.declarations ∧ "row_2_capacity".length = 14 ∧
      "row_2_capacity".toList ∈ Name.form ∧
      Name.fault? "row__2_capacity_".toList = some .tooLong := by
  intro program entry
  have listed : entry ∈ program.check.table.declarations := by decide +kernel
  obtain ⟨_, registered⟩ := naming_rule_regular
  obtain ⟨_, formed⟩ := registered program entry listed
  exact ⟨listed, rfl, formed, by decide +kernel⟩

end ThreeAddress
