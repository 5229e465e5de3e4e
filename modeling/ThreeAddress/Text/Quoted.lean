/-!
# Quoted text

A text in quotes on one line: quotes, backslashes and control characters are written as escapes,
every other character as itself.
-/

namespace ThreeAddress.Text

set_option autoImplicit false

def hexDigits (number : Nat) : List Char :=
  Nat.toDigits 16 number

/-- Control characters are those below the space and the thirty-three from the delete character
on. -/
def isControl (c : Char) : Bool :=
  c.toNat < 0x20 || (0x7f ≤ c.toNat && c.toNat < 0xa0)

def escape (c : Char) : List Char :=
  if c = '"' then ['\\', '"']
  else if c = '\\' then ['\\', '\\']
  else if c = '\t' then ['\\', 't']
  else if c = '\r' then ['\\', 'r']
  else if c = '\n' then ['\\', 'n']
  else if c = '\x00' then ['\\', '0']
  else if isControl c then ['\\', 'u', '\x7b'] ++ hexDigits c.toNat ++ ['\x7d']
  else [c]

def quote (text : String) : String :=
  String.ofList ('"' :: text.toList.flatMap escape ++ ['"'])

end ThreeAddress.Text
