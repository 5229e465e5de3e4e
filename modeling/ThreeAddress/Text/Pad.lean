/-!
# Columns of text

Texts are brought to a width with blanks, counted in characters. A text that is wider stays as it is.
-/

namespace ThreeAddress.Text

set_option autoImplicit false

def blanks (count : Nat) : String :=
  String.ofList (List.replicate count ' ')

def padRight (width : Nat) (text : String) : String :=
  text ++ blanks (width - text.length)

def padLeft (width : Nat) (text : String) : String :=
  blanks (width - text.length) ++ text

def lines (texts : List String) : String :=
  String.join (texts.map (· ++ "\n"))

end ThreeAddress.Text
