import ThreeAddress.Token.Basic

/-!
# The front of a text

What can stand at the front of a text: trivia (blanks and comments), which is dropped, and behind
it one token or a piece of bad text. Every piece has at least one character, so scanning ends.
-/

namespace ThreeAddress.Scan

set_option autoImplicit false

/-- Blanks between tokens are the space, the tab, the line feed, the carriage return and the form
feed. -/
def isBlank (c : Char) : Bool :=
  c = ' ' || c = '\t' || c = '\n' || c = '\r' || c = '\x0c'

def isLetter (c : Char) : Bool :=
  ('a' ≤ c && c ≤ 'z') || ('A' ≤ c && c ≤ 'Z')

def isDigit (c : Char) : Bool :=
  '0' ≤ c && c ≤ '9'

def isNameStart (c : Char) : Bool :=
  isLetter c || c = '_'

def isNameChar (c : Char) : Bool :=
  isNameStart c || isDigit c

def inLine (c : Char) : Bool :=
  c ≠ '\n'

def inString (c : Char) : Bool :=
  c ≠ '"' && c ≠ '\n'

def splitComment? : List Char → Option (List Char × List Char)
  | [] => none
  | '*' :: '/' :: rest => some (['*', '/'], rest)
  | c :: rest => (splitComment? rest).map fun parts => (c :: parts.1, parts.2)

/-- One blank or one complete comment at the front, and what follows it. -/
def trivium? : List Char → Option (List Char × List Char)
  | '/' :: '/' :: rest => some ('/' :: '/' :: rest.takeWhile inLine, rest.dropWhile inLine)
  | '/' :: '*' :: rest =>
      (splitComment? rest).map fun parts => ('/' :: '*' :: parts.1, parts.2)
  | c :: rest => if isBlank c then some ([c], rest) else none
  | [] => none

theorem split_comment?_append {text body rest : List Char}
    (found : splitComment? text = some (body, rest)) : text = body ++ rest := by
  fun_induction splitComment? text generalizing body rest with
  | case1 => simp at found
  | case2 tail =>
      simp only [Option.some.injEq, Prod.mk.injEq] at found
      obtain ⟨rfl, rfl⟩ := found
      rfl
  | case3 c tail _ ih =>
      obtain ⟨parts, inner, pair⟩ := Option.map_eq_some_iff.mp found
      simp only [Prod.mk.injEq] at pair
      obtain ⟨rfl, rfl⟩ := pair
      simp [← ih inner]

/-- Taking off a trivium takes at least one character and loses none. -/
theorem trivium?_append {text front rest : List Char}
    (found : trivium? text = some (front, rest)) : front ≠ [] ∧ text = front ++ rest := by
  fun_cases trivium? text with
  | case1 tail =>
      simp only [trivium?, Option.some.injEq, Prod.mk.injEq] at found
      obtain ⟨rfl, rfl⟩ := found
      simp [List.takeWhile_append_dropWhile]
  | case2 tail =>
      simp only [trivium?] at found
      obtain ⟨parts, inner, pair⟩ := Option.map_eq_some_iff.mp found
      simp only [Prod.mk.injEq] at pair
      obtain ⟨rfl, rfl⟩ := pair
      simp [← split_comment?_append inner]
  | case3 c tail notLine notBlock blank =>
      simp only [trivium?, blank, if_true, Option.some.injEq, Prod.mk.injEq] at found
      obtain ⟨rfl, rfl⟩ := found
      simp
  | case4 c tail notLine notBlock notBlank =>
      simp [trivium?, notBlank] at found
  | case5 => simp [trivium?] at found

theorem trivium?_shorter {text front rest : List Char}
    (found : trivium? text = some (front, rest)) : rest.length < text.length := by
  obtain ⟨nonempty, whole⟩ := trivium?_append found
  have positive := List.length_pos_iff.mpr nonempty
  rw [whole, List.length_append]
  omega

def splitTrivia (text : List Char) : List Char × List Char :=
  match found : trivium? text with
  | none => ([], text)
  | some (front, rest) =>
      have := trivium?_shorter found
      let behind := splitTrivia rest
      (front ++ behind.1, behind.2)
termination_by text.length

theorem split_trivia_append (text : List Char) :
    (splitTrivia text).1 ++ (splitTrivia text).2 = text := by
  fun_induction splitTrivia text with
  | case1 text none => rfl
  | case2 text front rest found _ behind ih =>
      simp only [List.append_assoc, behind, ih]
      exact (trivium?_append found).2.symm

def startsWith (word : String) (text : List Char) : Bool :=
  word.toList.isPrefixOf text

/-- The longest mark at the front of a text. Marks of two characters are tried first. -/
def mark? (text : List Char) : Option Mark :=
  Mark.all.find? fun sign => startsWith sign.text text

/-- A piece of text that is a token, or no token when `kind` is `none`, and the text behind it. -/
structure Piece where
  kind : Option TokenKind
  text : List Char
  rest : List Char
deriving DecidableEq

def Piece.spelled (kind : TokenKind) (text : List Char) : Piece :=
  ⟨some kind, kind.text.toList, text.drop kind.text.toList.length⟩

/-- A keyword or a name; a keyword wins over a name of the same spelling. -/
def word (text : List Char) : Piece :=
  let name := text.takeWhile isNameChar
  let spelled := String.ofList name
  let kind :=
    match Keyword.ofText? spelled with
    | some word => .keyword word
    | none => .identifier spelled
  ⟨some kind, name, text.dropWhile isNameChar⟩

/-- A number. A point belongs to it only if a digit follows. -/
def number (text : List Char) : Piece :=
  let whole := text.takeWhile isDigit
  let rest := text.dropWhile isDigit
  match rest with
  | '.' :: tail =>
      let fraction := tail.takeWhile isDigit
      if fraction = [] then ⟨some (.integer (String.ofList whole)), whole, rest⟩
      else
        let digits := whole ++ '.' :: fraction
        ⟨some (.float (String.ofList digits)), digits, tail.dropWhile isDigit⟩
  | _ => ⟨some (.integer (String.ofList whole)), whole, rest⟩

/-- What starts with a quote, given the text behind that quote: a string if a second quote stands
on the same line, otherwise the rest of the line as bad text. -/
def quoted (text : List Char) : Piece :=
  let body := text.takeWhile inString
  match text.dropWhile inString with
  | '"' :: rest =>
      let whole := '"' :: (body ++ ['"'])
      ⟨some (.string (String.ofList whole)), whole, rest⟩
  | rest => ⟨none, '"' :: body, rest⟩

/-- The piece at the front of `c :: rest`, from which trivia have been taken. A comment that is
never closed is bad text up to the end, any other character that starts no token is bad alone. -/
def piece (c : Char) (rest : List Char) : Piece :=
  if isNameStart c then word (c :: rest)
  else if isDigit c then number (c :: rest)
  else if c = '"' then quoted rest
  else if startsWith Keyword.defineWord.text (c :: rest) then
    .spelled (.keyword .defineWord) (c :: rest)
  else if startsWith "/*" (c :: rest) then ⟨none, c :: rest, []⟩
  else
    match mark? (c :: rest) with
    | some sign => .spelled (.mark sign) (c :: rest)
    | none => ⟨none, [c], rest⟩

theorem spelled_append {kind : TokenKind} {text : List Char}
    (found : startsWith kind.text text = true) :
    (Piece.spelled kind text).text ++ (Piece.spelled kind text).rest = text := by
  obtain ⟨rest, whole⟩ := List.isPrefixOf_iff_prefix.mp found
  simp only [Piece.spelled]
  rw [← whole, List.drop_left]

theorem starts_with_of_mark? {text : List Char} {sign : Mark} (found : mark? text = some sign) :
    startsWith sign.text text = true := by
  unfold mark? at found
  exact List.find?_some (p := fun sign : Mark => startsWith sign.text text) found

theorem mark_text_ne_nil (sign : Mark) : sign.text.toList ≠ [] := by
  cases sign <;> simp [Mark.text]

/-- A piece and the text behind it make up the text. -/
theorem piece_append (c : Char) (rest : List Char) :
    (piece c rest).text ++ (piece c rest).rest = c :: rest := by
  unfold piece
  split
  · simp [word, List.takeWhile_append_dropWhile]
  split
  · simp only [number]
    split
    · rename_i tail behind
      split
      · simp [List.takeWhile_append_dropWhile]
      · simp only [List.append_assoc, List.cons_append, List.takeWhile_append_dropWhile]
        rw [← behind, List.takeWhile_append_dropWhile]
    · simp [List.takeWhile_append_dropWhile]
  split
  · rename_i quote
    subst quote
    have body := List.takeWhile_append_dropWhile (p := inString) (l := rest)
    simp only [quoted]
    split
    · rename_i tail behind
      rw [behind] at body
      simpa using body
    · simp [body]
  split
  · rename_i found
    exact spelled_append found
  split
  · simp
  split
  · rename_i sign found
    exact spelled_append (starts_with_of_mark? found)
  · rfl

theorem piece_nonempty (c : Char) (rest : List Char) : (piece c rest).text ≠ [] := by
  unfold piece
  split
  · rename_i start
    simp [word, isNameChar, start]
  split
  · rename_i digit
    simp only [number]
    split
    · split <;> simp [digit]
    · simp [digit]
  split
  · simp only [quoted]
    split <;> simp
  split
  · simp [Piece.spelled, TokenKind.text, Keyword.text]
  split
  · simp
  split
  · rename_i sign _
    exact mark_text_ne_nil sign
  · simp

/-- Behind a piece less text is left. -/
theorem piece_shorter (c : Char) (rest : List Char) :
    (piece c rest).rest.length ≤ rest.length := by
  have whole := congrArg List.length (piece_append c rest)
  have positive := List.length_pos_iff.mpr (piece_nonempty c rest)
  simp only [List.length_append, List.length_cons] at whole
  omega

end ThreeAddress.Scan
