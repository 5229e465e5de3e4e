import ThreeAddress.Source.Bytes

/-!
# Lines of a text

`Lines` keeps where the lines of a text start. A line ends with a line feed and with nothing else,
so a text that ends with a line feed has an empty last line. The position that `Lines` gives for an
offset is the one that is reached by walking along the text (`Lines.position_size_append`).
-/

namespace ThreeAddress

set_option autoImplicit false

/-- The start of a line: its offset, and the text from there on. -/
structure LineStart where
  offset : Nat
  text : List Char
deriving DecidableEq

def LineStart.behindFeeds (offset : Nat) : List Char → List LineStart
  | [] => []
  | c :: rest =>
      let next := offset + c.utf8Size
      if c = '\n' then ⟨next, rest⟩ :: behindFeeds next rest else behindFeeds next rest

structure Lines where
  /-- The bytes of the whole text. -/
  size : Nat
  first : LineStart
  others : List LineStart
deriving DecidableEq

namespace Lines

def ofText (text : List Char) : Lines :=
  ⟨Bytes.size text, ⟨0, text⟩, LineStart.behindFeeds 0 text⟩

/-- The lines behind the first one, up to the line that holds `offset`. An offset past the end
belongs to the last line. -/
def upTo (lines : Lines) (offset : Nat) : List LineStart :=
  lines.others.takeWhile (·.offset ≤ offset)

/-- The number of the line that holds `offset`, counted from one. -/
def number (lines : Lines) (offset : Nat) : Nat :=
  (lines.upTo offset).length + 1

def line (lines : Lines) (offset : Nat) : LineStart :=
  (lines.upTo offset).getLastD lines.first

/-- How many columns `line` has before its first `count` bytes end. Columns are characters; a count
that ends inside a character, where there is no column, gives the bytes. -/
def columns (line : LineStart) (count : Nat) : Nat :=
  match Bytes.take? count line.text with
  | some front => front.length
  | none => count

/-- The position of an offset. An offset past the end counts as the end of the last line. -/
def position (lines : Lines) (offset : Nat) : Position :=
  let line := lines.line offset
  ⟨lines.number offset, columns line (min offset lines.size - line.offset) + 1⟩

/-- No line behind a feed starts at or before the text it is in. -/
theorem takeWhile_behind_feeds (offset : Nat) (text : List Char) :
    (LineStart.behindFeeds offset text).takeWhile (·.offset ≤ offset) = [] := by
  have later : ∀ start ∈ LineStart.behindFeeds offset text, offset < start.offset := by
    induction text generalizing offset with
    | nil => simp [LineStart.behindFeeds]
    | cons c text ih =>
        have width : 0 < c.utf8Size := Char.utf8Size_pos c
        intro start
        simp only [LineStart.behindFeeds]
        split
        · rw [List.mem_cons]
          rintro (rfl | member)
          · simp only
            omega
          · have := ih _ _ member
            omega
        · intro member
          have := ih _ _ member
          omega
  cases feeds : LineStart.behindFeeds offset text with
  | nil => rfl
  | cons start others =>
      have := later start (by simp [feeds])
      simp [this]

/-- The position of the offset `stop`, where `passed` are the lines up to it behind the one that
starts at `start` and has the number `line`. -/
def locate (line : Nat) (start : LineStart) (passed : List LineStart) (stop : Nat) : Position :=
  let last := passed.getLastD start
  ⟨line + passed.length, columns last (stop - last.offset) + 1⟩

theorem locate_cons (line : Nat) (start next : LineStart) (passed : List LineStart) (stop : Nat) :
    locate line start (next :: passed) stop = locate (line + 1) next passed stop := by
  simp only [locate, List.getLastD_cons, List.length_cons, Position.mk.injEq, and_true]
  omega

/-- Looking up the end of `front` and walking along it lead to the same position. The walk goes on
in the line that starts with `before`. -/
theorem locate_eq_behind (before front rest : List Char) (line start offset stop : Nat)
    (here : offset = start + Bytes.size before) (there : stop = offset + Bytes.size front) :
    locate line ⟨start, before ++ (front ++ rest)⟩
        ((LineStart.behindFeeds offset (front ++ rest)).takeWhile (·.offset ≤ stop)) stop =
      Position.behind ⟨line, before.length + 1⟩ front := by
  induction front generalizing before line start offset with
  | nil =>
      have same : stop = offset := by simpa [Bytes.size] using there
      rw [same, List.nil_append, takeWhile_behind_feeds]
      have width : offset - start = Bytes.size before := by omega
      simp [locate, columns, width, Bytes.take?_size_append, Position.behind]
  | cons c front ih =>
      simp only [Bytes.size] at there
      by_cases feed : c = '\n'
      · have next := ih [] (line + 1) (offset + c.utf8Size) (offset + c.utf8Size)
          (by simp [Bytes.size]) (by omega)
        rw [List.cons_append, LineStart.behindFeeds, if_pos feed,
          List.takeWhile_cons_of_pos (by simp only [decide_eq_true_eq]; omega), locate_cons]
        simpa [Position.behind, Position.after, feed] using next
      · have next := ih (before ++ [c]) line start (offset + c.utf8Size)
          (by simp only [Bytes.size_append, Bytes.size]; omega) (by omega)
        rw [List.cons_append, LineStart.behindFeeds, if_neg feed]
        simpa [Position.behind, Position.after, feed] using next

/-- The position of the offset behind `front` is reached by walking along `front`. -/
theorem position_size_append (front rest : List Char) :
    (ofText (front ++ rest)).position (Bytes.size front) = Position.first.behind front := by
  have walk := locate_eq_behind [] front rest 1 0 0 (Bytes.size front) (by simp [Bytes.size])
    (by simp)
  have inside : min (Bytes.size front) (Bytes.size (front ++ rest)) = Bytes.size front := by
    simp
  simpa [position, line, number, upTo, ofText, locate, inside, Nat.add_comm, Position.first]
    using walk

end Lines

end ThreeAddress
