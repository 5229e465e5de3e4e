import ThreeAddress.Token.Scan

/-!
# The naming rule

A declared name starts with a letter, goes on with letters, digits and underscores, has at most
fourteen characters, does not end with an underscore and has no two underscores in a row.
-/

namespace ThreeAddress

set_option autoImplicit false

inductive NameFault where
  | empty
  | badStart
  | badCharacter
  | tooLong
  | trailingUnderscore
  | doubleUnderscore
deriving DecidableEq

namespace Name

def maxLength : Nat := 14

def hasDoubleUnderscore : List Char → Bool
  | '_' :: '_' :: _ => true
  | _ :: rest => hasDoubleUnderscore rest
  | [] => false

def fault? (name : List Char) : Option NameFault :=
  match name with
  | [] => some .empty
  | first :: rest =>
      if !Scan.isLetter first then some .badStart
      else if !rest.all Scan.isNameChar then some .badCharacter
      else if maxLength < name.length then some .tooLong
      else if name.getLast? = some '_' then some .trailingUnderscore
      else if hasDoubleUnderscore name then some .doubleUnderscore
      else none

end Name

def NameFault.message : NameFault → String
  | .empty => "identifier is empty"
  | .badStart => "identifier must start with a letter"
  | .badCharacter => "identifier may only contain letters, digits and '_'"
  | .tooLong => s!"identifier is longer than {Name.maxLength} characters"
  | .trailingUnderscore => "identifier must not end with '_'"
  | .doubleUnderscore => "identifier must not contain '__'"

end ThreeAddress
