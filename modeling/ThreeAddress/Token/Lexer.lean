import ThreeAddress.Source.Lines
import ThreeAddress.Token.Scan

/-!
# Reading tokens one after another

A `Lexer` stands at a place of a text and may hold one token that was looked at and not yet taken.
Bad text is reported and passed over, so reading can go on behind it. At the end of the text every
further token is the end of the file. The offset and the position of a lexer belong together
(`Lexer.Tracks.position_eq`).
-/

namespace ThreeAddress

set_option autoImplicit false

structure BadText where
  text : String
  place : Place
deriving DecidableEq

def BadText.message (bad : BadText) : String :=
  s!"unexpected character '{bad.text}'"

structure Lexer where
  /-- The whole text. -/
  text : List Char
  /-- What has not been scanned. -/
  rest : List Char
  /-- The offset of `rest` in `text`. -/
  offset : Nat
  /-- The position of `rest` in `text`. -/
  position : Position
  /-- A token that was scanned and not yet taken. -/
  peeked : Option Token
deriving DecidableEq

namespace Lexer

def ofText (text : List Char) : Lexer :=
  ⟨text, text, 0, .first, none⟩

def ofSource (source : String) : Lexer :=
  ofText source.toList

def source (lexer : Lexer) : String :=
  String.ofList lexer.text

def skip (lexer : Lexer) (piece rest : List Char) : Lexer :=
  { lexer with
    rest := rest
    offset := lexer.offset + Bytes.size piece
    position := lexer.position.behind piece }

def place (lexer : Lexer) (size : Nat) : Place :=
  ⟨⟨lexer.offset, lexer.offset + size⟩, lexer.position⟩

/-- Scans past the trivia and one piece behind them. -/
def scan (lexer : Lexer) : Except BadText Token × Lexer :=
  let trivia := Scan.splitTrivia lexer.rest
  let start := lexer.skip trivia.1 trivia.2
  match trivia.2 with
  | [] => (.ok ⟨.endOfFile, start.place 0⟩, start)
  | c :: behind =>
      let piece := Scan.piece c behind
      let place := start.place (Bytes.size piece.text)
      let result :=
        match piece.kind with
        | some kind => .ok ⟨kind, place⟩
        | none => .error ⟨String.ofList piece.text, place⟩
      (result, start.skip piece.text piece.rest)

/-- Takes the next token. Bad text is passed over as well. -/
def next (lexer : Lexer) : Except BadText Token × Lexer :=
  match lexer.peeked with
  | some token => (.ok token, { lexer with peeked := none })
  | none => lexer.scan

/-- Looks at the next token and keeps it. Bad text is not kept: it is passed over. -/
def peek (lexer : Lexer) : Except BadText Token × Lexer :=
  match lexer.next with
  | (.ok token, after) => (.ok token, { after with peeked := some token })
  | (.error bad, after) => (.error bad, after)

/-- A scan that finds a token before the end leaves less text. -/
theorem scan_shorter {lexer after : Lexer} {token : Token}
    (found : lexer.scan = (.ok token, after)) (inside : token.kind ≠ .endOfFile) :
    after.rest.length < lexer.rest.length := by
  have whole := congrArg List.length (Scan.split_trivia_append lexer.rest)
  simp only [List.length_append] at whole
  simp only [scan] at found
  split at found
  · simp only [Prod.mk.injEq, Except.ok.injEq] at found
    exact absurd (by rw [← found.1]) inside
  · rename_i c behind split
    have bound := Scan.piece_shorter c behind
    rw [split, List.length_cons] at whole
    simp only [Prod.mk.injEq] at found
    rw [← found.2]
    simp only [skip]
    omega

/-- The lexer stands where its offset and its position say. -/
def Tracks (lexer : Lexer) : Prop :=
  ∃ front, lexer.text = front ++ lexer.rest ∧ lexer.offset = Bytes.size front ∧
    lexer.position = Position.first.behind front

theorem tracks_of_text (text : List Char) : (ofText text).Tracks :=
  ⟨[], rfl, rfl, rfl⟩

theorem Tracks.skip {lexer : Lexer} (tracks : lexer.Tracks) {piece rest : List Char}
    (whole : piece ++ rest = lexer.rest) : (lexer.skip piece rest).Tracks := by
  obtain ⟨front, text, offset, position⟩ := tracks
  refine ⟨front ++ piece, ?_, ?_, ?_⟩
  · simp [Lexer.skip, text, whole]
  · simp [Lexer.skip, offset]
  · simp [Lexer.skip, position, Position.behind]

theorem Tracks.scan {lexer : Lexer} (tracks : lexer.Tracks) : lexer.scan.2.Tracks := by
  have start := tracks.skip (Scan.split_trivia_append lexer.rest)
  simp only [Lexer.scan]
  split
  · exact start
  · rename_i c behind split
    exact start.skip (by rw [Scan.piece_append]; simp [Lexer.skip, split])

/-- The position of a lexer is the one of its offset. -/
theorem Tracks.position_eq {lexer : Lexer} (tracks : lexer.Tracks) :
    lexer.position = (Lines.ofText lexer.text).position lexer.offset := by
  obtain ⟨front, text, offset, position⟩ := tracks
  rw [position, offset, text, Lines.position_size_append]

/-- The tokens from here on, up to and including the end of the file, unless bad text comes
first. -/
def scanAll (lexer : Lexer) : Except BadText (List Token) :=
  match found : lexer.scan with
  | (.error bad, _) => .error bad
  | (.ok token, after) =>
      if ending : token.kind = .endOfFile then .ok [token]
      else
        have := scan_shorter found ending
        after.scanAll.map (token :: ·)
termination_by lexer.rest.length

/-- All tokens that can still be taken, starting with one that was looked at. -/
def all (lexer : Lexer) : Except BadText (List Token) :=
  match lexer.peeked with
  | some token =>
      if token.isEnd then .ok [token] else lexer.scanAll.map (token :: ·)
  | none => lexer.scanAll

end Lexer

def tokenize (text : List Char) : Except BadText (List Token) :=
  (Lexer.ofText text).all

end ThreeAddress
