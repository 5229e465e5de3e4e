import ThreeAddress.Quad.Lowering

/-!
# Generators

A generator lowers one program after another. It hands over the code of each and starts the next
one with no code, but its temporaries and labels go on.
-/

namespace ThreeAddress

set_option autoImplicit false

/-- The code that has not been handed over yet, and the supply that is left. -/
structure Generator where
  pending : List Quad
  supply : Supply

namespace Generator

def new : Generator := ⟨[], .fresh⟩

def generate (generator : Generator) (program : Program) : List Quad × Generator :=
  let lowered := program.lower generator.supply
  (generator.pending ++ lowered.code, ⟨[], lowered.supply⟩)

def generateEach (generator : Generator) : List Program → List (List Quad)
  | [] => []
  | program :: rest =>
      (generator.generate program).1 :: (generator.generate program).2.generateEach rest

end Generator

end ThreeAddress
