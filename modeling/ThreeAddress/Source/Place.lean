/-!
# Places in a source text

A `Span` is a half-open range of byte offsets, a `Position` a line and a column, both counted from
one. A `Place` is what a token or a tree node keeps of both.
-/

namespace ThreeAddress

set_option autoImplicit false

/-- The byte offsets from `start` up to, but not including, `stop`. -/
structure Span where
  start : Nat
  stop : Nat
deriving DecidableEq, Inhabited

def Span.merge (left right : Span) : Span :=
  ⟨min left.start right.start, max left.stop right.stop⟩

structure Position where
  line : Nat
  column : Nat
deriving DecidableEq

def Position.first : Position := ⟨1, 1⟩

instance : Inhabited Position := ⟨Position.first⟩

def Position.after (position : Position) (c : Char) : Position :=
  if c = '\n' then ⟨position.line + 1, 1⟩ else ⟨position.line, position.column + 1⟩

def Position.behind (position : Position) (text : List Char) : Position :=
  text.foldl Position.after position

/-- Text order: lines first, columns within a line. -/
def Position.order (left right : Position) : Ordering :=
  (compare left.line right.line).then (compare left.column right.column)

def Position.text (position : Position) : String :=
  s!"{position.line}:{position.column}"

/-- Where a piece of text stands: its bytes, and the position of its first character. -/
structure Place where
  span : Span
  position : Position
deriving DecidableEq, Inhabited

def Place.upTo (place : Place) (last : Span) : Place :=
  ⟨place.span.merge last, place.position⟩

/-- The place of two adjacent pieces, the first of which starts it. -/
def Place.join (left right : Place) : Place :=
  left.upTo right.span

end ThreeAddress
