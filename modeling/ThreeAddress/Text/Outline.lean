import ThreeAddress.Text.Pad

/-!
# Outlines

A tree written over several lines: what a group holds stands on lines of its own, four blanks
further in, each item with a comma behind it.
-/

namespace ThreeAddress.Text

set_option autoImplicit false

inductive Outline where
  | word (text : String)
  | field (name : String) (value : Outline)
  | group (opening : String) (items : List Outline) (closing : String)

namespace Outline

def record (name : String) (fields : List (String × Outline)) : Outline :=
  .group (name ++ " \x7b") (fields.map fun (name, value) => .field name value) "\x7d"

def wrap (name : String) (items : List Outline) : Outline :=
  .group (name ++ "(") items ")"

def list : List Outline → Outline
  | [] => .word "[]"
  | items => .group "[" items "]"

def number (value : Nat) : Outline :=
  .word (toString value)

mutual

/-- The outline as text, for a place that is `indent` blanks from the left edge. -/
def render (indent : Nat) : Outline → String
  | .word text => text
  | .field name value => name ++ ": " ++ render indent value
  | .group opening items closing =>
      opening ++ "\n" ++ renderItems (indent + 4) items ++ blanks indent ++ closing

def renderItems (indent : Nat) : List Outline → String
  | [] => ""
  | item :: rest => blanks indent ++ render indent item ++ ",\n" ++ renderItems indent rest

end

end Outline

end ThreeAddress.Text
