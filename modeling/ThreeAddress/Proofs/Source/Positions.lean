import Mathlib.Data.List.Induction
import Mathlib.Data.List.TakeWhile
import Mathlib.Tactic.SplitIfs
import ThreeAddress.Source.Lines

/-!
# Positions count line feeds and characters

The starts of the lines of a text stand in ascending order, each behind a line feed, so a search
for any offset among them ends at the line that holds it. Main statement: the position of an offset
between two characters has one line for every line feed before it and one column for every
character behind the last of these, and positions are in the order of the offsets. The line of any
other offset is found in the same way.
-/

namespace ThreeAddress

set_option autoImplicit false

/-! ## Line feeds among the bytes -/

namespace Bytes

def encode (text : List Char) : List UInt8 :=
  text.flatMap String.utf8EncodeChar

/-- The number of line feeds among the first `count` bytes of a text. -/
def feedsBefore (text : List Char) (count : Nat) : Nat :=
  ((encode text).take count).count 10

/-- The offset lies between two characters of a text, or at one of its ends. -/
def Boundary (text : List Char) (offset : Nat) : Prop :=
  ∃ front rest, text = front ++ rest ∧ size front = offset

/-- No character but the line feed has the byte of a line feed in its form. -/
theorem feed_not_mem_encode_char {c : Char} (other : c ≠ '\n') :
    10 ∉ String.utf8EncodeChar c := by
  have differs : c.toNat ≠ 10 := fun same => other (Char.toNat_inj.mp same)
  simp only [String.utf8EncodeChar, Char.toNat_val]
  -- A form of one byte has the character's number, all bytes of a longer one are at least 128.
  split_ifs <;> simp [← UInt8.toNat_inj] <;> omega

theorem feeds_before_cons_of_le {c : Char} {count : Nat} (fits : c.utf8Size ≤ count)
    (rest : List Char) :
    feedsBefore (c :: rest) count =
      (if c = '\n' then 1 else 0) + feedsBefore rest (count - c.utf8Size) := by
  have front : (String.utf8EncodeChar c).take count = String.utf8EncodeChar c :=
    List.take_of_length_le (by rw [String.length_utf8EncodeChar]; exact fits)
  have alone : (String.utf8EncodeChar c).count 10 = if c = '\n' then 1 else 0 := by
    split
    · rename_i feed
      subst feed
      rfl
    · rename_i other
      exact List.count_eq_zero.mpr (feed_not_mem_encode_char other)
  rw [feedsBefore, encode, List.flatMap_cons, List.take_append, List.count_append, front, alone,
    String.length_utf8EncodeChar]
  rfl

/-- A line feed is no longer than a byte, so none is cut in two. -/
theorem feeds_before_cons_of_lt {c : Char} {count : Nat} (inside : count < c.utf8Size)
    (rest : List Char) : feedsBefore (c :: rest) count = 0 := by
  have front : (encode (c :: rest)).take count = (String.utf8EncodeChar c).take count := by
    rw [encode, List.flatMap_cons]
    exact List.take_append_of_le_length (by rw [String.length_utf8EncodeChar]; omega)
  rw [feedsBefore, front]
  by_cases feed : c = '\n'
  · subst feed
    have nothing : count = 0 := Nat.lt_one_iff.mp inside
    rw [nothing]
    rfl
  · exact List.count_eq_zero.mpr fun member =>
      feed_not_mem_encode_char feed (List.mem_of_mem_take member)

end Bytes

/-! ## The starts of lines -/

namespace LineStart

/-- A line behind the first one starts behind a line feed. -/
theorem exists_of_mem_behind_feeds {offset : Nat} {text : List Char} {start : LineStart}
    (member : start ∈ behindFeeds offset text) :
    ∃ front rest, text = front ++ '\n' :: rest ∧ start.offset = offset + Bytes.size front + 1 := by
  induction text generalizing offset with
  | nil => cases member
  | cons c text ih =>
      have further (later : start ∈ behindFeeds (offset + c.utf8Size) text) :
          ∃ front rest, c :: text = front ++ '\n' :: rest ∧
            start.offset = offset + Bytes.size front + 1 := by
        obtain ⟨front, rest, rfl, here⟩ := ih later
        exact ⟨c :: front, rest, rfl, by rw [here, Bytes.size, Nat.add_assoc offset]⟩
      rw [behindFeeds] at member
      split at member
      · rename_i feed
        subst feed
        rcases List.mem_cons.mp member with rfl | later
        · exact ⟨[], text, rfl, rfl⟩
        · exact further later
      · exact further member

theorem lt_of_mem_behind_feeds {offset : Nat} {text : List Char} {start : LineStart}
    (member : start ∈ behindFeeds offset text) :
    offset < start.offset ∧ start.offset ≤ offset + Bytes.size text := by
  obtain ⟨front, rest, rfl, here⟩ := exists_of_mem_behind_feeds member
  have feed : '\n'.utf8Size = 1 := rfl
  rw [Bytes.size_append, Bytes.size, feed]
  omega

theorem ascending_behind_feeds (offset : Nat) (text : List Char) :
    (behindFeeds offset text).Pairwise fun first second => first.offset < second.offset := by
  induction text generalizing offset with
  | nil => exact List.Pairwise.nil
  | cons c text ih =>
      rw [behindFeeds]
      split
      · exact List.pairwise_cons.mpr ⟨fun start later => (lt_of_mem_behind_feeds later).1, ih _⟩
      · exact ih _

/-- No line starts within the first character of a text. -/
theorem le_of_mem_behind_feeds_cons {offset : Nat} {c : Char} {text : List Char}
    {start : LineStart} (member : start ∈ behindFeeds offset (c :: text)) :
    offset + c.utf8Size ≤ start.offset := by
  rw [behindFeeds] at member
  split at member
  · rcases List.mem_cons.mp member with rfl | later
    · exact le_rfl
    · exact (lt_of_mem_behind_feeds later).1.le
  · exact (lt_of_mem_behind_feeds member).1.le

/-- The lines that start within the first `count` bytes are as many as the line feeds there. -/
theorem length_takeWhile_behind_feeds (offset count : Nat) (text : List Char) :
    ((behindFeeds offset text).takeWhile (·.offset ≤ offset + count)).length =
      Bytes.feedsBefore text count := by
  induction text generalizing offset count with
  | nil => simp [behindFeeds, Bytes.feedsBefore, Bytes.encode]
  | cons c text ih =>
      by_cases fits : c.utf8Size ≤ count
      · have next := ih (offset + c.utf8Size) (count - c.utf8Size)
        rw [show offset + c.utf8Size + (count - c.utf8Size) = offset + count by omega] at next
        rw [Bytes.feeds_before_cons_of_le fits, ← next, behindFeeds]
        split
        · rw [List.takeWhile_cons_of_pos (by simpa using fits), List.length_cons, Nat.add_comm]
        · rw [Nat.zero_add]
      · rw [Bytes.feeds_before_cons_of_lt (by omega), List.length_eq_zero_iff]
        cases starts : behindFeeds offset (c :: text) with
        | nil => rfl
        | cons start others =>
            have later := le_of_mem_behind_feeds_cons (starts ▸ List.mem_cons_self)
            exact List.takeWhile_cons_of_neg (by simp only [decide_eq_true_eq]; omega)

theorem lt_of_mem_dropWhile {starts : List LineStart} {offset : Nat} {start : LineStart}
    (ascending : starts.Pairwise fun first second => first.offset < second.offset)
    (left : start ∈ starts.dropWhile (·.offset ≤ offset)) : offset < start.offset := by
  induction starts with
  | nil => cases left
  | cons first rest ih =>
      obtain ⟨later, ascending⟩ := List.pairwise_cons.mp ascending
      by_cases before : first.offset ≤ offset
      · rw [List.dropWhile_cons_of_pos (by simpa using before)] at left
        exact ih ascending left
      · rw [List.dropWhile_cons_of_neg (by simpa using before)] at left
        rcases List.mem_cons.mp left with rfl | behind
        · exact Nat.lt_of_not_le before
        · exact (Nat.lt_of_not_le before).trans (later start behind)

/-- The last of the lines that are taken stands at the index of their number. -/
theorem getElem?_length_takeWhile (taken : LineStart → Bool) (first : LineStart)
    (others : List LineStart) :
    (first :: others)[(others.takeWhile taken).length]? =
      some ((others.takeWhile taken).getLastD first) := by
  induction others generalizing first with
  | nil => rfl
  | cons next others ih =>
      by_cases within : taken next = true
      · rw [List.takeWhile_cons_of_pos within, List.length_cons, List.getElem?_cons_succ,
          List.getLastD_cons]
        exact ih next
      · rw [List.takeWhile_cons_of_neg within]
        rfl

end LineStart

/-! ## Searching for a line -/

/-- Where a search for `key` among ascending keys may end: at the index of the key, or at the index
where it would have to be put in. -/
inductive Located (key : Nat) : List Nat → Except Nat Nat → Prop
  | present (front behind : List Nat) : Located key (front ++ key :: behind) (.ok front.length)
  | absent {front behind : List Nat} : (∀ small ∈ front, small < key) →
      (∀ large ∈ behind, key < large) → Located key (front ++ behind) (.error front.length)

/-- The index of the last key that is not larger than the one searched for. -/
def Located.indexUpTo : Except Nat Nat → Nat
  | .ok index => index
  | .error next => next - 1

/-- The first `count` of the keys are those that are not larger than `key`. -/
def CutAt (keys : List Nat) (key count : Nat) : Prop :=
  ∃ front behind, keys = front ++ behind ∧ front.length = count ∧
    (∀ small ∈ front, small ≤ key) ∧ ∀ large ∈ behind, key < large

section Search

variable {keys : List Nat} {key count : Nat}

theorem CutAt.unique {other : Nat} (cut : CutAt keys key count) (twin : CutAt keys key other) :
    count = other := by
  have counted {count : Nat} (cut : CutAt keys key count) : keys.countP (· ≤ key) = count := by
    obtain ⟨front, behind, rfl, rfl, below, above⟩ := cut
    have before : front.countP (· ≤ key) = front.length :=
      List.countP_eq_length.mpr (by simpa using below)
    have after : behind.countP (· ≤ key) = 0 := List.countP_eq_zero.mpr (by simpa using above)
    rw [List.countP_append, before, after, Nat.add_zero]
  exact (counted cut).symm.trans (counted twin)

/-- A search among keys that begin with zero finds the cut. -/
theorem Located.cut_at {found : Except Nat Nat} (located : Located key keys found)
    (ascending : keys.Pairwise (· < ·)) (least : keys.head? = some 0) :
    found ≠ .error 0 ∧ CutAt keys key (indexUpTo found + 1) := by
  cases located with
  | present front behind =>
      obtain ⟨_, later, cross⟩ := List.pairwise_append.mp ascending
      refine ⟨?_, front ++ [key], behind, by simp, by simp [indexUpTo], ?_, ?_⟩
      · intro missing
        cases missing
      · intro small member
        rcases List.mem_append.mp member with earlier | last
        · exact (cross small earlier key List.mem_cons_self).le
        · exact (List.mem_singleton.mp last).le
      · exact (List.pairwise_cons.mp later).1
  | @absent front behind below above =>
      cases front with
      | nil =>
          -- The key would have to stand before the zero.
          have first := List.mem_of_head? least
          exact absurd (above 0 first) (Nat.not_lt_zero key)
      | cons first front =>
          refine ⟨?_, first :: front, behind, rfl, rfl, ?_, above⟩
          · intro missing
            cases missing
          · intro small member
            exact (below small member).le

theorem CutAt.exists_located (cut : CutAt keys key count) : ∃ found, Located key keys found := by
  by_cases member : key ∈ keys
  · obtain ⟨front, behind, rfl⟩ := List.append_of_mem member
    exact ⟨_, .present front behind⟩
  · obtain ⟨front, behind, rfl, _, below, above⟩ := cut
    refine ⟨_, .absent (fun small here => Nat.lt_of_le_of_ne (below small here) ?_) above⟩
    rintro rfl
    exact member (List.mem_append_left _ here)

end Search

namespace Lines

def starts (lines : Lines) : List Nat :=
  (lines.first :: lines.others).map LineStart.offset

theorem ascending_starts (text : List Char) : (ofText text).starts.Pairwise (· < ·) := by
  rw [starts, List.pairwise_map, List.pairwise_cons]
  exact ⟨fun start later => (LineStart.lt_of_mem_behind_feeds later).1,
    LineStart.ascending_behind_feeds 0 text⟩

/-- The lines up to an offset are those that start at or before it. -/
theorem cut_at_number (text : List Char) (offset : Nat) :
    CutAt (ofText text).starts offset ((ofText text).number offset) := by
  have whole := List.takeWhile_append_dropWhile
    (p := fun start : LineStart => start.offset ≤ offset) (l := (ofText text).others)
  have ascending := LineStart.ascending_behind_feeds 0 text
  refine ⟨0 :: ((ofText text).upTo offset).map LineStart.offset,
    ((ofText text).others.dropWhile (·.offset ≤ offset)).map LineStart.offset, ?_, ?_, ?_, ?_⟩
  · rw [starts, List.cons_append, ← List.map_append, upTo, whole]
    rfl
  · rw [List.length_cons, List.length_map, number]
  · refine List.forall_mem_cons.mpr ⟨Nat.zero_le _, ?_⟩
    intro small member
    obtain ⟨start, taken, rfl⟩ := List.mem_map.mp member
    simpa using List.mem_takeWhile_imp taken
  · intro large member
    obtain ⟨start, left, rfl⟩ := List.mem_map.mp member
    exact LineStart.lt_of_mem_dropWhile ascending left

theorem line_position (text : List Char) (offset : Nat) :
    ((ofText text).position offset).line = 1 + Bytes.feedsBefore text offset := by
  have counted := LineStart.length_takeWhile_behind_feeds 0 offset text
  rw [Nat.zero_add] at counted
  rw [← counted, Nat.add_comm]
  rfl

/-- The line of an offset stands in the table at the index that its number says. -/
theorem getElem?_starts (text : List Char) (offset : Nat) :
    (ofText text).starts[((ofText text).position offset).line - 1]? =
      some ((ofText text).line offset).offset := by
  rw [starts, List.getElem?_map]
  exact congrArg (Option.map LineStart.offset) (LineStart.getElem?_length_takeWhile _ _ _)

/-- The line of an offset starts at or before it, and within the text. -/
theorem line_offset_le (text : List Char) (offset : Nat) :
    ((ofText text).line offset).offset ≤ min offset (ofText text).size := by
  have member : (ofText text).line offset ∈ (ofText text).first :: (ofText text).upTo offset :=
    List.getLastD_mem_cons
  rcases List.mem_cons.mp member with first | later
  · rw [first]
    exact Nat.zero_le _
  · have before := List.mem_takeWhile_imp later
    have within := LineStart.lt_of_mem_behind_feeds ((List.takeWhile_sublist _).subset later)
    rw [Nat.zero_add] at within
    exact Nat.le_min.mpr ⟨by simpa using before, within.2⟩

end Lines

/-! ## Walking along a text -/

namespace Position

theorem order_eq_lt_iff (left right : Position) :
    left.order right = .lt ↔
      left.line < right.line ∨ left.line = right.line ∧ left.column < right.column := by
  rw [order, Ordering.then_eq_lt, Nat.compare_eq_lt, Nat.compare_eq_eq, Nat.compare_eq_lt]

theorem order_trans {first second third : Position} (before : first.order second = .lt)
    (behind : second.order third = .lt) : first.order third = .lt := by
  rw [order_eq_lt_iff] at before behind ⊢
  omega

theorem order_after (position : Position) (c : Char) :
    position.order (position.after c) = .lt := by
  rw [order_eq_lt_iff, after]
  split
  · exact .inl (Nat.lt_succ_self _)
  · exact .inr ⟨rfl, Nat.lt_succ_self _⟩

/-- The position behind a text that is not empty is a later one. -/
theorem order_behind (position : Position) {text : List Char} (nonempty : text ≠ []) :
    position.order (position.behind text) = .lt := by
  induction text generalizing position with
  | nil => exact absurd rfl nonempty
  | cons c rest ih =>
      have step := position.order_after c
      by_cases last : rest = []
      · rw [last]
        exact step
      · exact order_trans step (ih (position.after c) last)

/-- The column behind a text counts the characters of its last line. -/
theorem column_behind (text : List Char) :
    ∃ before line, text = before ++ line ∧ (before = [] ∨ before.getLast? = some '\n') ∧
      '\n' ∉ line ∧ (first.behind text).column = 1 + line.length := by
  induction text using List.reverseRecOn with
  | nil => exact ⟨[], [], rfl, .inl rfl, List.not_mem_nil, rfl⟩
  | append_singleton text c ih =>
      have walked : first.behind (text ++ [c]) = (first.behind text).after c := by
        rw [behind, behind, List.foldl_append]
        rfl
      rw [walked, after]
      by_cases feed : c = '\n'
      · rw [if_pos feed, feed]
        exact ⟨text ++ ['\n'], [], by simp, .inr List.getLast?_concat, List.not_mem_nil, rfl⟩
      · obtain ⟨before, line, rfl, opened, unbroken, column⟩ := ih
        rw [if_neg feed]
        refine ⟨before, line ++ [c], by simp, opened, by simp [unbroken, Ne.symm feed], ?_⟩
        rw [List.length_append, List.length_singleton, column, Nat.add_assoc]

end Position

namespace Lines

theorem order_position {text : List Char} {offset other : Nat}
    (here : Bytes.Boundary text offset) (there : Bytes.Boundary text other)
    (before : offset < other) :
    ((ofText text).position offset).order ((ofText text).position other) = .lt := by
  obtain ⟨front, rest, rfl, rfl⟩ := here
  obtain ⟨longer, behind, same, rfl⟩ := there
  rcases List.append_eq_append_iff.mp same with ⟨middle, rfl, split⟩ | ⟨middle, rfl, _⟩
  · have nonempty : middle ≠ [] := by
      rintro rfl
      rw [List.append_nil] at before
      exact Nat.lt_irrefl _ before
    have walk := position_size_append (front ++ middle) behind
    rw [← same] at walk
    have further : Position.first.behind (front ++ middle) =
        (Position.first.behind front).behind middle := List.foldl_append
    rw [position_size_append front rest, walk, further]
    exact Position.order_behind _ nonempty
  · rw [Bytes.size_append] at before
    omega

theorem eq_of_position_eq {text : List Char} {offset other : Nat}
    (here : Bytes.Boundary text offset) (there : Bytes.Boundary text other)
    (same : (ofText text).position offset = (ofText text).position other) : offset = other := by
  have unordered (position : Position) : position.order position ≠ .lt := by
    simp [Position.order_eq_lt_iff]
  rcases Nat.lt_trichotomy offset other with less | equal | greater
  · have ordered := order_position here there less
    rw [same] at ordered
    exact absurd ordered (unordered _)
  · exact equal
  · have ordered := order_position there here greater
    rw [same] at ordered
    exact absurd ordered (unordered _)

/-- The position of an offset between two characters has a line for each line feed before it and a
column for each character behind the last of these. Such positions are in the order of their
offsets, and no two are the same. For every offset, inside a character and past the end too, the
number of the line is one more than the number of line feeds before it, a search for it among the
starts of the lines ends at that line and never before the first one, and the line starts neither
behind the offset nor behind the end of the text. -/
theorem position_counts (text : List Char) :
    let lines := ofText text
    (∀ front rest, text = front ++ rest →
      ∃ before line, front = before ++ line ∧ (before = [] ∨ before.getLast? = some '\n') ∧
        '\n' ∉ line ∧
        lines.position (Bytes.size front) =
          ⟨1 + Bytes.feedsBefore text (Bytes.size front), 1 + line.length⟩) ∧
    (∀ offset other, Bytes.Boundary text offset → Bytes.Boundary text other →
      (offset < other → (lines.position offset).order (lines.position other) = .lt) ∧
      (lines.position offset = lines.position other → offset = other)) ∧
    ∀ offset,
      (lines.position offset).line = 1 + Bytes.feedsBefore text offset ∧
      (lines.line offset).offset ≤ min offset lines.size ∧
      (∃ found, Located offset lines.starts found) ∧
      ∀ found, Located offset lines.starts found →
        found ≠ .error 0 ∧ (lines.position offset).line = Located.indexUpTo found + 1 ∧
          lines.starts[Located.indexUpTo found]? = some (lines.line offset).offset := by
  intro lines
  refine ⟨?_, ?_, ?_⟩
  · intro front rest whole
    obtain ⟨before, line, split, opened, unbroken, column⟩ := Position.column_behind front
    refine ⟨before, line, split, opened, unbroken, ?_⟩
    have walk := position_size_append front rest
    rw [← whole] at walk
    rw [← line_position, ← column, ← walk]
  · intro offset other here there
    exact ⟨order_position here there, eq_of_position_eq here there⟩
  · intro offset
    have cut := cut_at_number text offset
    refine ⟨line_position text offset, line_offset_le text offset, cut.exists_located, ?_⟩
    intro found located
    obtain ⟨inside, same⟩ := located.cut_at (ascending_starts text) rfl
    have number : (lines.position offset).line = Located.indexUpTo found + 1 := cut.unique same
    have listed := getElem?_starts text offset
    rw [number, Nat.add_sub_cancel] at listed
    exact ⟨inside, number, listed⟩

end Lines

end ThreeAddress
