import ThreeAddress.Token.Scan

/-!
# Array sizes

A size is written as a decimal number with an optional sign. It must be positive and fit into a
signed 64-bit word.
-/

namespace ThreeAddress.Size

set_option autoImplicit false

/-- The first number that does not fit into a signed 64-bit word. -/
def limit : Nat := 1 <<< 63

def digitsValue (digits : List Char) : Nat :=
  digits.foldl (fun high digit => 10 * high + (digit.toNat - '0'.toNat)) 0

def natural? (text : List Char) : Option Nat :=
  if text ≠ [] ∧ text.all Scan.isDigit then some (digitsValue text) else none

def integer? (text : List Char) : Option Int :=
  match text with
  | '-' :: digits =>
      (natural? digits).bind fun value => if value ≤ limit then some (-(value : Int)) else none
  | '+' :: digits => (natural? digits).bind fun value => if value < limit then some value else none
  | digits => (natural? digits).bind fun value => if value < limit then some value else none

def positive? (text : List Char) : Option Nat :=
  (integer? text).bind fun value => if 0 < value then some value.toNat else none

end ThreeAddress.Size
