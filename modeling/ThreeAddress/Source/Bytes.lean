import ThreeAddress.Source.Place

/-!
# Byte offsets into a text

Offsets count the bytes of a text's UTF-8 form. A cut is possible only between two characters, so
the cutting functions answer `none` inside a character and past the end.
-/

namespace ThreeAddress.Bytes

set_option autoImplicit false

def size : List Char → Nat
  | [] => 0
  | c :: rest => c.utf8Size + size rest

def drop? : Nat → List Char → Option (List Char)
  | 0, text => some text
  | _ + 1, [] => none
  | count + 1, c :: rest =>
      if c.utf8Size ≤ count + 1 then drop? (count + 1 - c.utf8Size) rest else none

def take? : Nat → List Char → Option (List Char)
  | 0, _ => some []
  | _ + 1, [] => none
  | count + 1, c :: rest =>
      if c.utf8Size ≤ count + 1 then
        (take? (count + 1 - c.utf8Size) rest).map (c :: ·)
      else none

/-- The text of a span, if the span runs forward between two characters of the text. -/
def slice? (text : List Char) (span : Span) : Option (List Char) :=
  if span.start ≤ span.stop then
    (drop? span.start text).bind (take? (span.stop - span.start))
  else none

@[simp] theorem size_append (left right : List Char) :
    size (left ++ right) = size left + size right := by
  induction left with
  | nil => simp [size]
  | cons c rest ih => simp [size, ih, Nat.add_assoc]

/-- Dropping a front drops exactly its characters. -/
theorem drop?_size_append (front rest : List Char) :
    drop? (size front) (front ++ rest) = some rest := by
  induction front with
  | nil => simp [size, drop?]
  | cons c front ih =>
      have width : 0 < c.utf8Size := Char.utf8Size_pos c
      obtain ⟨count, total⟩ : ∃ count, size (c :: front) = count + 1 :=
        ⟨size (c :: front) - 1, by simp only [size]; omega⟩
      rw [total, List.cons_append, drop?, ← total, if_pos (by simp [size])]
      simpa [size] using ih

/-- Taking the bytes of a front gives the front back. -/
theorem take?_size_append (front rest : List Char) :
    take? (size front) (front ++ rest) = some front := by
  induction front with
  | nil => simp [size, take?]
  | cons c front ih =>
      have width : 0 < c.utf8Size := Char.utf8Size_pos c
      obtain ⟨count, total⟩ : ∃ count, size (c :: front) = count + 1 :=
        ⟨size (c :: front) - 1, by simp only [size]; omega⟩
      rw [total, List.cons_append, take?, ← total, if_pos (by simp [size])]
      simp [size, ih]

theorem drop?_eq_some_iff {count : Nat} {text rest : List Char} :
    drop? count text = some rest ↔ ∃ front, text = front ++ rest ∧ size front = count := by
  constructor
  · intro dropped
    induction text generalizing count with
    | nil =>
        cases count with
        | zero =>
            simp only [drop?, Option.some.injEq] at dropped
            exact ⟨[], by simp [← dropped], rfl⟩
        | succ count => simp [drop?] at dropped
    | cons c text ih =>
        cases count with
        | zero =>
            simp only [drop?, Option.some.injEq] at dropped
            exact ⟨[], by simp [← dropped], rfl⟩
        | succ count =>
            simp only [drop?] at dropped
            split at dropped
            · rename_i fits
              obtain ⟨front, whole, width⟩ := ih dropped
              exact ⟨c :: front, by simp [whole], by simp only [size]; omega⟩
            · simp at dropped
  · rintro ⟨front, rfl, rfl⟩
    exact drop?_size_append front rest

theorem take?_eq_some_iff {count : Nat} {text front : List Char} :
    take? count text = some front ↔ ∃ rest, text = front ++ rest ∧ size front = count := by
  constructor
  · intro taken
    induction text generalizing count front with
    | nil =>
        cases count with
        | zero =>
            simp only [take?, Option.some.injEq] at taken
            exact ⟨[], by simp [← taken], by simp [← taken, size]⟩
        | succ count => simp [take?] at taken
    | cons c text ih =>
        cases count with
        | zero =>
            simp only [take?, Option.some.injEq] at taken
            exact ⟨c :: text, by simp [← taken], by simp [← taken, size]⟩
        | succ count =>
            simp only [take?] at taken
            split at taken
            · rename_i fits
              obtain ⟨tail, inner, rfl⟩ := Option.map_eq_some_iff.mp taken
              obtain ⟨rest, whole, width⟩ := ih inner
              exact ⟨rest, by simp [whole], by simp only [size]; omega⟩
            · simp at taken
  · rintro ⟨rest, rfl, rfl⟩
    exact take?_size_append front rest

/-- A slice is the part of the text between two cuts. -/
theorem slice?_eq_some_iff {text part : List Char} {span : Span} :
    slice? text span = some part ↔
      ∃ before behind, text = before ++ part ++ behind ∧ size before = span.start ∧
        span.stop = span.start + size part := by
  constructor
  · intro sliced
    simp only [slice?] at sliced
    split at sliced
    · rename_i forward
      obtain ⟨rest, dropped, taken⟩ := Option.bind_eq_some_iff.mp sliced
      obtain ⟨before, whole, start⟩ := drop?_eq_some_iff.mp dropped
      obtain ⟨behind, inner, width⟩ := take?_eq_some_iff.mp taken
      exact ⟨before, behind, by simp [whole, inner], start, by omega⟩
    · simp at sliced
  · rintro ⟨before, behind, rfl, start, stop⟩
    simp only [slice?]
    rw [if_pos (by omega), List.append_assoc, ← start, drop?_size_append, Option.bind_some,
      show span.stop - size before = size part by omega]
    exact take?_size_append part behind

end ThreeAddress.Bytes
