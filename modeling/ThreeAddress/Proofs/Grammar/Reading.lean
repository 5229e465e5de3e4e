import ThreeAddress.Syntax.Cursor

/-!
# Readings

A reading takes something from the front of a token list. When it succeeds it tells what it read,
the span of the last token it took and the tokens that are left; when it fails it tells what it
expected and where it stood. It is an attempt of a cursor without the cursor: nothing that was read
before it has a part in it. The tokens left are fewer than a bound that the type names, which is
what lets the grammar of the language call itself.
-/

namespace ThreeAddress

set_option autoImplicit false

/-- A reading that failed with `rest` still to be read, of which the first token is wrong. -/
structure Failure where
  expected : Expected
  rest : List Token
deriving DecidableEq

/-- A reading that left fewer than `bound` tokens. -/
structure Reading (bound : Nat) (α : Type) where
  value : α
  /-- The span of the last token taken. -/
  last : Span
  rest : List Token
  shorter : rest.length < bound

namespace Reading

theorem behind_lt (first : Token) (rest : List Token) : rest.length < (first :: rest).length :=
  Nat.lt_succ_self _

theorem behind_le (first : Token) (rest : List Token) : rest.length ≤ (first :: rest).length :=
  Nat.le_succ _

theorem behind_last_lt (last : Token) : ([] : List Token).length < [last].length :=
  Nat.zero_lt_one

theorem behind_first_lt (first second : Token) (rest : List Token) :
    (second :: rest).length < (first :: second :: rest).length :=
  Nat.lt_succ_self _

theorem behind_second_le (first second : Token) (rest : List Token) :
    rest.length ≤ (first :: second :: rest).length :=
  Nat.le_add_right _ 2

theorem behind_le_succ (first : Token) (rest : List Token) :
    rest.length ≤ (first :: rest).length + 1 :=
  Nat.le_succ_of_le (behind_le first rest)

theorem nothing_lt : ([] : List Token).length < ([] : List Token).length + 1 :=
  Nat.lt_succ_self _

theorem all_lt (first : Token) (rest : List Token) :
    (first :: rest).length < (first :: rest).length + 1 :=
  Nat.lt_succ_self _

theorem all_le (first : Token) (rest : List Token) :
    (first :: rest).length ≤ (first :: rest).length + 1 :=
  Nat.le_succ _

end Reading

inductive Read (bound : Nat) (α : Type) where
  | ok (reading : Reading bound α)
  | fail (failure : Failure)

namespace Read

variable {α β : Type} {bound wider : Nat}

@[inline] def widen (read : Read bound α) (within : bound ≤ wider) : Read wider α :=
  match read with
  | .ok ⟨value, last, rest, shorter⟩ =>
      .ok ⟨value, last, rest, Nat.lt_of_lt_of_le shorter within⟩
  | .fail failure => .fail failure

@[inline] def map (read : Read bound α) (f : Reading bound α → β) : Read bound β :=
  match read with
  | .ok reading => .ok ⟨f reading, reading.last, reading.rest, reading.shorter⟩
  | .fail failure => .fail failure

@[inline] def andThen (read : Read bound α)
    (next : (reading : Reading bound α) → Read reading.rest.length β) : Read bound β :=
  match read with
  | .ok reading => (next reading).widen (Nat.le_of_lt reading.shorter)
  | .fail failure => .fail failure

/-- Goes on with a reading that need not take a token. -/
@[inline] def andTail (read : Read bound α)
    (next : (reading : Reading bound α) → Read (reading.rest.length + 1) β) : Read bound β :=
  match read with
  | .ok reading => (next reading).widen reading.shorter
  | .fail failure => .fail failure

/-- Two readings that tell the same, whatever their bounds. -/
def Agrees {narrow : Nat} (reading : Reading bound α) (other : Reading narrow α) : Prop :=
  other.value = reading.value ∧ other.last = reading.last ∧ other.rest = reading.rest

theorem widen_eq_ok {read : Read bound α} (within : bound ≤ wider) {reading : Reading wider α}
    (done : read.widen within = .ok reading) :
    ∃ inner, read = .ok inner ∧ Agrees reading inner := by
  cases read with
  | fail failure => simp [widen] at done
  | ok inner =>
      simp only [widen, Read.ok.injEq] at done
      subst done
      exact ⟨inner, rfl, rfl, rfl, rfl⟩

theorem widen_eq_fail {read : Read bound α} (within : bound ≤ wider) {failure : Failure}
    (failed : read.widen within = .fail failure) : read = .fail failure := by
  cases read with
  | fail inner => simpa [widen] using failed
  | ok inner => simp [widen] at failed

theorem map_eq_ok {read : Read bound α} {f : Reading bound α → β} {reading : Reading bound β}
    (done : read.map f = .ok reading) :
    ∃ inner, read = .ok inner ∧ f inner = reading.value ∧ inner.last = reading.last ∧
      inner.rest = reading.rest := by
  cases read with
  | fail failure => simp [map] at done
  | ok inner =>
      simp only [map, Read.ok.injEq] at done
      subst done
      exact ⟨inner, rfl, rfl, rfl, rfl⟩

theorem map_eq_fail {read : Read bound α} {f : Reading bound α → β} {failure : Failure}
    (failed : read.map f = .fail failure) : read = .fail failure := by
  cases read with
  | fail inner => simpa [map] using failed
  | ok inner => simp [map] at failed

theorem and_then_eq_ok {read : Read bound α}
    {next : (reading : Reading bound α) → Read reading.rest.length β} {reading : Reading bound β}
    (done : read.andThen next = .ok reading) :
    ∃ first, read = .ok first ∧ ∃ second, next first = .ok second ∧ Agrees reading second := by
  cases read with
  | fail failure => simp [andThen] at done
  | ok first => exact ⟨first, rfl, widen_eq_ok (Nat.le_of_lt first.shorter) done⟩

theorem and_tail_eq_ok {read : Read bound α}
    {next : (reading : Reading bound α) → Read (reading.rest.length + 1) β}
    {reading : Reading bound β} (done : read.andTail next = .ok reading) :
    ∃ first, read = .ok first ∧ ∃ second, next first = .ok second ∧ Agrees reading second := by
  cases read with
  | fail failure => simp [andTail] at done
  | ok first => exact ⟨first, rfl, widen_eq_ok first.shorter done⟩

end Read

namespace Grammar

def token (kind : TokenKind) : (tokens : List Token) → Read tokens.length Token
  | [] => .fail ⟨.token kind, []⟩
  | first :: rest =>
      if first.kind = kind then .ok ⟨first, first.place.span, rest, Reading.behind_lt first rest⟩
      else .fail ⟨.token kind, first :: rest⟩

def sign (mark : Mark) (tokens : List Token) : Read tokens.length Token :=
  token (.mark mark) tokens

def word (keyword : Keyword) (tokens : List Token) : Read tokens.length Token :=
  token (.keyword keyword) tokens

def ident : (tokens : List Token) → Read tokens.length Ident
  | [] => .fail ⟨.identifier, []⟩
  | first :: rest =>
      match first.kind with
      | .identifier name =>
          .ok ⟨⟨name, first.place⟩, first.place.span, rest, Reading.behind_lt first rest⟩
      | _ => .fail ⟨.identifier, first :: rest⟩

def dataType : (tokens : List Token) → Read tokens.length DataType
  | [] => .fail ⟨.dataType, []⟩
  | first :: rest =>
      match first.kind with
      | .keyword .intWord => .ok ⟨.int, first.place.span, rest, Reading.behind_lt first rest⟩
      | .keyword .floatWord => .ok ⟨.float, first.place.span, rest, Reading.behind_lt first rest⟩
      | _ => .fail ⟨.dataType, first :: rest⟩

end Grammar

end ThreeAddress
