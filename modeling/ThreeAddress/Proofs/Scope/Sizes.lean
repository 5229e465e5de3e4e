import Mathlib.Data.Nat.Digits.Defs
import ThreeAddress.Proofs.Scope.Frames
import ThreeAddress.Proofs.Token.Spelling

/-!
# Array sizes are read exactly

What a size text stands for is said in positional notation, for any number of digits. Main
statement: where its name can be declared, an array is registered with exactly the number that its
size text stands for, if this is positive and below two to the power of 63. In every other case the
size is the one fault, and the table stays as it is.
-/

namespace ThreeAddress

set_option autoImplicit false

namespace Size

def decimal (digits : List Char) : Nat :=
  Nat.ofDigits 10 (digits.reverse.map fun digit => digit.toNat - '0'.toNat)

/-- A text of digits with a sign before them, or none, and the integer that it stands for. -/
inductive Denotes : List Char → Int → Prop
  | unsigned {digits : List Char} : Scan.Digits digits → Denotes digits (decimal digits)
  | plus {digits : List Char} : Scan.Digits digits → Denotes ('+' :: digits) (decimal digits)
  | minus {digits : List Char} : Scan.Digits digits → Denotes ('-' :: digits) (-decimal digits)

/-- The text stands for a number that an array can have as its size. -/
def Fits (text : List Char) (count : Nat) : Prop :=
  Denotes text count ∧ 1 ≤ count ∧ count ≤ 2 ^ 63 - 1

theorem digits_value_eq_decimal (digits : List Char) : digitsValue digits = decimal digits := by
  rw [decimal, Nat.ofDigits_eq_foldr, List.foldr_map, List.foldr_reverse, digitsValue]
  simp only [Nat.cast_id, Nat.add_comm]

theorem natural?_eq_some_iff (text : List Char) (value : Nat) :
    natural? text = some value ↔ Scan.Digits text ∧ value = decimal text := by
  rw [natural?, digits_value_eq_decimal]
  by_cases digits : Scan.Digits text
  · have shape : text ≠ [] ∧ text.all Scan.isDigit = true :=
      ⟨digits.1, List.all_eq_true.mpr digits.2⟩
    rw [if_pos shape, Option.some.injEq, eq_comm]
    simp only [digits, true_and]
  · have shape : ¬ (text ≠ [] ∧ text.all Scan.isDigit = true) := by
      rintro ⟨nonempty, all⟩
      exact digits ⟨nonempty, List.all_eq_true.mp all⟩
    rw [if_neg shape]
    simp only [digits, false_and, reduceCtorEq]

theorem Denotes.plus_iff (digits : List Char) (value : Int) :
    Denotes ('+' :: digits) value ↔ Scan.Digits digits ∧ value = decimal digits := by
  constructor
  · intro denotes
    cases denotes with
    | unsigned digits => exact absurd (digits.2 '+' List.mem_cons_self) (by decide)
    | plus digits => exact ⟨digits, rfl⟩
  · rintro ⟨digits, rfl⟩
    exact .plus digits

theorem Denotes.minus_iff (digits : List Char) (value : Int) :
    Denotes ('-' :: digits) value ↔ Scan.Digits digits ∧ value = -decimal digits := by
  constructor
  · intro denotes
    cases denotes with
    | unsigned digits => exact absurd (digits.2 '-' List.mem_cons_self) (by decide)
    | minus digits => exact ⟨digits, rfl⟩
  · rintro ⟨digits, rfl⟩
    exact .minus digits

theorem Denotes.unsigned_iff {digits : List Char} (noMinus : ∀ rest, digits ≠ '-' :: rest)
    (noPlus : ∀ rest, digits ≠ '+' :: rest) (value : Int) :
    Denotes digits value ↔ Scan.Digits digits ∧ value = decimal digits := by
  constructor
  · intro denotes
    cases denotes with
    | unsigned digits => exact ⟨digits, rfl⟩
    | plus => exact absurd rfl (noPlus _)
    | minus => exact absurd rfl (noMinus _)
  · rintro ⟨digits, rfl⟩
    exact .unsigned digits

/-- Digits are a number, taken with a sign, if the number is small enough. -/
theorem natural?_bind_eq_some_iff (digits : List Char) (signed : Nat → Int) (small : Nat → Prop)
    [DecidablePred small] (value : Int) :
    ((natural? digits).bind fun found => if small found then some (signed found) else none) =
        some value ↔
      (Scan.Digits digits ∧ value = signed (decimal digits)) ∧ small (decimal digits) := by
  simp only [Option.bind_eq_some_iff, natural?_eq_some_iff, Option.ite_none_right_eq_some,
    Option.some.injEq]
  constructor
  · rintro ⟨_, ⟨shape, rfl⟩, fits, rfl⟩
    exact ⟨⟨shape, rfl⟩, fits⟩
  · rintro ⟨⟨shape, rfl⟩, fits⟩
    exact ⟨_, ⟨shape, rfl⟩, fits, rfl⟩

/-- A text is a number of 64 bits if it stands for an integer in their range. -/
theorem integer?_eq_some_iff (text : List Char) (value : Int) :
    integer? text = some value ↔ Denotes text value ∧ -2 ^ 63 ≤ value ∧ value < 2 ^ 63 := by
  have limit : limit = 2 ^ 63 := Nat.one_shiftLeft 63
  unfold integer?
  split
  · rw [Denotes.minus_iff, natural?_bind_eq_some_iff _ fun found => -(found : Int)]
    apply and_congr_right
    rintro ⟨_, rfl⟩
    omega
  · rw [Denotes.plus_iff, natural?_bind_eq_some_iff]
    apply and_congr_right
    rintro ⟨_, rfl⟩
    omega
  · rename_i noMinus noPlus
    rw [Denotes.unsigned_iff noMinus noPlus, natural?_bind_eq_some_iff]
    apply and_congr_right
    rintro ⟨_, rfl⟩
    omega

/-- The size that an array gets from a text. -/
theorem positive?_eq_some_iff_fits (text : List Char) (count : Nat) :
    positive? text = some count ↔ Fits text count := by
  simp only [positive?, Fits, Option.bind_eq_some_iff, integer?_eq_some_iff,
    Option.ite_none_right_eq_some, Option.some.injEq]
  constructor
  · rintro ⟨value, ⟨denotes, range⟩, positive, rfl⟩
    have same : (value.toNat : Int) = value := Int.toNat_of_nonneg positive.le
    exact ⟨same.symm ▸ denotes, by omega⟩
  · rintro ⟨denotes, range⟩
    exact ⟨count, ⟨denotes, by omega⟩, by omega, Int.toNat_natCast count⟩

/-- Bare digits stand for one number. -/
theorem fits_digits_iff {digits : List Char} (shape : Scan.Digits digits) (count : Nat) :
    Fits digits count ↔ count = decimal digits ∧ 1 ≤ count ∧ count ≤ 2 ^ 63 - 1 := by
  have noSign {sign : Char} (other : Scan.isDigit sign = false) (rest : List Char) :
      digits ≠ sign :: rest := by
    rintro rfl
    rw [shape.2 sign List.mem_cons_self] at other
    cases other
  rw [Fits, Denotes.unsigned_iff (noSign rfl) (noSign rfl), Nat.cast_inj]
  simp only [shape, true_and]

end Size

open SymbolTable

section Declarations

variable {table : SymbolTable} {name : Ident} (free : table.refusal? name = none)
  (element : DataType) (size : String) (position : Position) (place : Place)

include free

theorem Stmt.check_array_of_fits {count : Nat} (fits : Size.Fits size.toList count) :
    (Stmt.array name element size position place).check table =
      ⟨table.extended (.array name.name (.array element) count name.place.position), []⟩ := by
  have read := (Size.positive?_eq_some_iff_fits size.toList count).mpr fits
  rw [Stmt.check, table.check_array_of_size name element position read]
  exact introduce_of_free rfl free

theorem Stmt.check_array_of_unfit (unfit : ∀ count, ¬ Size.Fits size.toList count) :
    (Stmt.array name element size position place).check table =
      ⟨table, [.badSize name size position]⟩ := by
  have unread : Size.positive? size.toList = none := by
    rw [Option.eq_none_iff_forall_ne_some]
    intro count read
    exact unfit count ((Size.positive?_eq_some_iff_fits size.toList count).mp read)
  rw [Stmt.check, checkArray, free, unread]

/-- The log of the table keeps the size, so an array is registered with one size at most. -/
theorem Stmt.check_array_eq_iff (count : Nat) :
    (Stmt.array name element size position place).check table =
        ⟨table.extended (.array name.name (.array element) count name.place.position), []⟩ ↔
      Size.Fits size.toList count := by
  constructor
  · intro found
    by_cases fit : ∃ other, Size.Fits size.toList other
    · obtain ⟨other, fits⟩ := fit
      rw [Stmt.check_array_of_fits free element size position place fits] at found
      have logs := congrArg (fun outcome => outcome.table.log) found
      have same : other = count := by simpa [extended, Symbol.array] using logs
      exact same ▸ fits
    · have unfit := Stmt.check_array_of_unfit free element size position place fun other fits =>
        fit ⟨other, fits⟩
      have faults := congrArg Outcome.faults (unfit.symm.trans found)
      cases faults
  · exact Stmt.check_array_of_fits free element size position place

/-- Bare digits are a size exactly if their decimal value is in range. -/
theorem Stmt.check_array_of_digits (shape : Scan.Digits size.toList) :
    (Stmt.array name element size position place).check table =
      if 1 ≤ Size.decimal size.toList ∧ Size.decimal size.toList ≤ 2 ^ 63 - 1 then
        ⟨table.extended (.array name.name (.array element) (Size.decimal size.toList)
          name.place.position), []⟩
      else ⟨table, [.badSize name size position]⟩ := by
  split
  · rename_i range
    exact Stmt.check_array_of_fits free element size position place
      ((Size.fits_digits_iff shape _).mpr ⟨rfl, range⟩)
  · rename_i range
    apply Stmt.check_array_of_unfit free element size position place
    intro other fits
    obtain ⟨rfl, within⟩ := (Size.fits_digits_iff shape other).mp fits
    exact range within

end Declarations

/-- Where its name follows the naming rule and is free, an array is registered with a number as its
size exactly if its size text is a sign, or none, and digits that stand for this number, and the
number is at least one and less than two to the power of 63. If there is no such number, the table
stays as it is, and the one fault is about the bounds of the array. Any text of digits that a
tokenization makes an integer stands for its decimal value. -/
theorem Stmt.check_array_size_exact {table : SymbolTable} {name : Ident}
    (good : Name.fault? name.name.toList = none) (here : table.findHere? name.name = none)
    (element : DataType) (size : String) (position : Position) (place : Place) :
    let outcome := (Stmt.array name element size position place).check table
    let registered := fun count : Nat => table.extended
      (.array name.name (.array element) count name.place.position)
    (∀ count, outcome = ⟨registered count, []⟩ ↔
      Size.Denotes size.toList count ∧ 1 ≤ count ∧ count ≤ 2 ^ 63 - 1) ∧
    ((¬ ∃ count : Nat, Size.Denotes size.toList count ∧ 1 ≤ count ∧ count ≤ 2 ^ 63 - 1) →
      outcome.table = table ∧ ∃ fault, outcome.faults = [fault] ∧ fault.kind = .arrayBounds) ∧
    ∀ text tokens, tokenize text = .ok tokens → (∃ token ∈ tokens, token.kind = .integer size) →
      let count := Size.decimal size.toList
      outcome = if 1 ≤ count ∧ count ≤ 2 ^ 63 - 1 then ⟨registered count, []⟩
        else ⟨table, [.badSize name size position]⟩ := by
  intro outcome registered
  have free : table.refusal? name = none := (refusal?_eq_none_iff table name).mpr ⟨good, here⟩
  refine ⟨?_, ?_, ?_⟩
  · exact Stmt.check_array_eq_iff free element size position place
  · intro unfit
    have refused : outcome = _ := Stmt.check_array_of_unfit free element size position place
      fun count fits => unfit ⟨count, fits⟩
    rw [refused]
    exact ⟨rfl, _, rfl, rfl⟩
  · intro text tokens scanned present
    obtain ⟨token, member, kind⟩ := present
    have spelled := (tokenize_spelled scanned).1 token member
    rw [kind] at spelled
    exact Stmt.check_array_of_digits free element size position place spelled

/-- The largest size with a sign and zeros before it, and the number behind it. -/
theorem check_array_size_exact_limit :
    let declared (size : String) : Stmt := .array ⟨"row", default⟩ .float size default default
    (declared "+0009223372036854775807").check .empty =
        ⟨SymbolTable.empty.extended
          (.array "row" (.array .float) 9223372036854775807 .first), []⟩ ∧
      ∃ fault, ((declared "9223372036854775808").check .empty).faults = [fault] ∧
        fault.kind = .arrayBounds := by
  intro declared
  have settled (size : String) := @Stmt.check_array_size_exact .empty ⟨"row", default⟩ (by decide)
    (by decide) .float size default default
  constructor
  · apply ((settled "+0009223372036854775807").1 9223372036854775807).mpr
    exact (Size.positive?_eq_some_iff_fits _ _).mp (by decide)
  · apply ((settled "9223372036854775808").2.1 ?_).2
    rintro ⟨count, fits⟩
    have read := (Size.positive?_eq_some_iff_fits _ _).mpr fits
    rw [show Size.positive? "9223372036854775808".toList = none by decide] at read
    cases read

end ThreeAddress
