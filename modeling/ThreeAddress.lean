import ThreeAddress.Command.Directory
import ThreeAddress.Main
import ThreeAddress.Proofs.Quad.Listing
import ThreeAddress.Proofs.Quad.Segments
import ThreeAddress.Proofs.Scope.Separation
import ThreeAddress.Proofs.Syntax.Derivation
import ThreeAddress.Proofs.Typing.Code
import ThreeAddress.Proofs.Quad.Flow
import ThreeAddress.Proofs.Quad.Origins
import ThreeAddress.Proofs.Typing.Sites
import ThreeAddress.Proofs.Quad.Division
import ThreeAddress.Proofs.Scope.Access
import ThreeAddress.Proofs.Token.Pattern
import ThreeAddress.Proofs.Token.Trivia
import ThreeAddress.Proofs.Token.LongestMatch
import ThreeAddress.Proofs.Token.Coverage
import ThreeAddress.Proofs.Token.Printing
import ThreeAddress.Proofs.Scope.History
import ThreeAddress.Proofs.Scope.Isolation
import ThreeAddress.Proofs.Syntax.Nodes
import ThreeAddress.Proofs.Syntax.Extents
import ThreeAddress.Proofs.Syntax.Places
import ThreeAddress.Proofs.Compilation.Stages
import ThreeAddress.Proofs.Syntax.Alike
import ThreeAddress.Proofs.Compilation.Locations
import ThreeAddress.Proofs.Scope.Unplaced
import ThreeAddress.Proofs.Compilation.Layout
import ThreeAddress.Proofs.Compilation.Gating
import ThreeAddress.Proofs.Quad.Renumbering
import ThreeAddress.Proofs.Syntax.WrongToken
import ThreeAddress.Proofs.Scope.Declarations
import ThreeAddress.Proofs.Token.Peeking
import ThreeAddress.Proofs.Source.Positions
import ThreeAddress.Proofs.Scope.Sizes
import ThreeAddress.Proofs.Typing.Mismatches
import ThreeAddress.Proofs.Scope.Naming
import ThreeAddress.Proofs.Command.Outcomes
import ThreeAddress.Proofs.Syntax.Alternatives
import ThreeAddress.Proofs.Syntax.Progress
