import ThreeAddress.Proofs.Syntax.Unparse
import ThreeAddress.Proofs.Grammar.Statement

/-!
# What readings take

Two ways of speaking about a reading. It ensures a condition if every success satisfies it, and it
achieves one if it succeeds and satisfies it. The condition is on what was read and on the kinds of
the tokens left, so places never enter it. Both follow the ways in which readings are composed.
-/

namespace ThreeAddress

set_option autoImplicit false

namespace Token

def kinds (tokens : List Token) : List TokenKind := tokens.map Token.kind

@[simp] theorem kinds_nil : kinds [] = [] := rfl

@[simp] theorem kinds_cons (first : Token) (rest : List Token) :
    kinds (first :: rest) = first.kind :: kinds rest := rfl

@[simp] theorem kinds_append (front behind : List Token) :
    kinds (front ++ behind) = kinds front ++ kinds behind :=
  List.map_append

theorem exists_of_kinds_eq_cons {tokens : List Token} {kind : TokenKind} {tail : List TokenKind}
    (same : kinds tokens = kind :: tail) :
    ∃ first rest, tokens = first :: rest ∧ first.kind = kind ∧ kinds rest = tail :=
  List.map_eq_cons_iff.mp same

end Token

def TokenKind.connective : TokenKind → Nat
  | .keyword .orWord => 1
  | .keyword .andWord => 2
  | _ => 0

/-- How tight an operator behind an operand binds; an index binds tightest. -/
def TokenKind.operator : TokenKind → Nat
  | .mark .plus | .mark .minus => 1
  | .mark .star | .mark .slash => 2
  | .mark .leftBracket => 3
  | _ => 0

/-- What comes next, if anything does, does not bind as tight as `level`. -/
def BindsBelow (strength : TokenKind → Nat) (level : Nat) (tail : List TokenKind) : Prop :=
  ∀ kind ∈ tail.head?, strength kind < level

namespace BindsBelow

variable {strength : TokenKind → Nat} {level : Nat}

theorem nil : BindsBelow strength level [] := by
  intro kind member
  cases member

theorem cons {kind : TokenKind} {rest : List TokenKind} (below : strength kind < level) :
    BindsBelow strength level (kind :: rest) := by
  intro other member
  cases member
  exact below

theorem head {kind : TokenKind} {rest : List TokenKind}
    (below : BindsBelow strength level (kind :: rest)) : strength kind < level :=
  below kind rfl

/-- A token that binds as tight does not come next. -/
theorem head_ne {first kind : TokenKind} {rest : List TokenKind}
    (below : BindsBelow strength level (first :: rest)) (tight : level ≤ strength kind) :
    first ≠ kind := by
  intro same
  have weak := below.head
  rw [same] at weak
  omega

theorem mono {higher : Nat} {tail : List TokenKind} (below : BindsBelow strength level tail)
    (le : level ≤ higher) : BindsBelow strength higher tail := by
  intro kind member
  exact Nat.lt_of_lt_of_le (below kind member) le

end BindsBelow

namespace Read

variable {α β : Type} {bound wider : Nat} {mid : α → List TokenKind → Prop}

def Ensures (read : Read bound α) (post : α → List TokenKind → Prop) : Prop :=
  ∀ reading, read = .ok reading → post reading.value (Token.kinds reading.rest)

def Achieves (read : Read bound α) (post : α → List TokenKind → Prop) : Prop :=
  ∃ reading, read = .ok reading ∧ post reading.value (Token.kinds reading.rest)

namespace Ensures

theorem of_fail {failure : Failure} (post : α → List TokenKind → Prop) :
    (Read.fail failure : Read bound α).Ensures post := by
  intro reading done
  cases done

theorem of_ok {reading : Reading bound α} {post : α → List TokenKind → Prop}
    (holds : post reading.value (Token.kinds reading.rest)) : (Read.ok reading).Ensures post := by
  intro other done
  cases done
  exact holds

theorem widen {read : Read bound α} (ensures : read.Ensures mid) (within : bound ≤ wider) :
    (read.widen within).Ensures mid := by
  intro reading done
  obtain ⟨inner, took, value, _, rest⟩ := widen_eq_ok within done
  rw [← value, ← rest]
  exact ensures inner took

theorem map {read : Read bound α} {f : Reading bound α → β} {post : β → List TokenKind → Prop}
    (ensures : read.Ensures mid)
    (follows : ∀ reading, mid reading.value (Token.kinds reading.rest) →
      post (f reading) (Token.kinds reading.rest)) :
    (read.map f).Ensures post := by
  intro reading done
  obtain ⟨inner, took, value, _, rest⟩ := map_eq_ok done
  rw [← value, ← rest]
  exact follows inner (ensures inner took)

theorem and_then {read : Read bound α}
    {next : (reading : Reading bound α) → Read reading.rest.length β}
    {post : β → List TokenKind → Prop} (ensures : read.Ensures mid)
    (follows : ∀ reading, mid reading.value (Token.kinds reading.rest) →
      (next reading).Ensures post) :
    (read.andThen next).Ensures post := by
  intro reading done
  obtain ⟨first, took, second, further, value, _, rest⟩ := and_then_eq_ok done
  rw [← value, ← rest]
  exact follows first (ensures first took) second further

theorem and_tail {read : Read bound α}
    {next : (reading : Reading bound α) → Read (reading.rest.length + 1) β}
    {post : β → List TokenKind → Prop} (ensures : read.Ensures mid)
    (follows : ∀ reading, mid reading.value (Token.kinds reading.rest) →
      (next reading).Ensures post) :
    (read.andTail next).Ensures post := by
  intro reading done
  obtain ⟨first, took, second, further, value, _, rest⟩ := and_tail_eq_ok done
  rw [← value, ← rest]
  exact follows first (ensures first took) second further

end Ensures

namespace Achieves

theorem widen {read : Read bound α} (achieves : read.Achieves mid) (within : bound ≤ wider) :
    (read.widen within).Achieves mid := by
  obtain ⟨inner, rfl, holds⟩ := achieves
  exact ⟨_, rfl, holds⟩

theorem map {read : Read bound α} {f : Reading bound α → β} {post : β → List TokenKind → Prop}
    (achieves : read.Achieves mid)
    (follows : ∀ reading, mid reading.value (Token.kinds reading.rest) →
      post (f reading) (Token.kinds reading.rest)) :
    (read.map f).Achieves post := by
  obtain ⟨inner, rfl, holds⟩ := achieves
  exact ⟨_, rfl, follows inner holds⟩

theorem and_then {read : Read bound α}
    {next : (reading : Reading bound α) → Read reading.rest.length β}
    {post : β → List TokenKind → Prop} (achieves : read.Achieves mid)
    (follows : ∀ reading, mid reading.value (Token.kinds reading.rest) →
      (next reading).Achieves post) :
    (read.andThen next).Achieves post := by
  obtain ⟨first, rfl, holds⟩ := achieves
  exact (follows first holds).widen (Nat.le_of_lt first.shorter)

theorem and_tail {read : Read bound α}
    {next : (reading : Reading bound α) → Read (reading.rest.length + 1) β}
    {post : β → List TokenKind → Prop} (achieves : read.Achieves mid)
    (follows : ∀ reading, mid reading.value (Token.kinds reading.rest) →
      (next reading).Achieves post) :
    (read.andTail next).Achieves post := by
  obtain ⟨first, rfl, holds⟩ := achieves
  exact (follows first holds).widen first.shorter

end Achieves

end Read

namespace Grammar

open Read

theorem token_ensures (kind : TokenKind) (tokens : List Token) :
    (token kind tokens).Ensures fun _ rest => Token.kinds tokens = kind :: rest := by
  cases tokens with
  | nil => exact .of_fail _
  | cons first rest =>
      rw [token]
      split
      · rename_i same
        exact .of_ok (by rw [Token.kinds_cons, same])
      · exact .of_fail _

theorem token_achieves {kind : TokenKind} {tokens : List Token} {tail : List TokenKind}
    (written : Token.kinds tokens = kind :: tail) :
    (token kind tokens).Achieves fun _ rest => rest = tail := by
  obtain ⟨first, rest, rfl, same, behind⟩ := Token.exists_of_kinds_eq_cons written
  rw [token, if_pos same]
  exact ⟨_, rfl, behind⟩

theorem sign_ensures (mark : Mark) (tokens : List Token) :
    (sign mark tokens).Ensures fun _ rest => Token.kinds tokens = .mark mark :: rest :=
  token_ensures _ tokens

theorem sign_achieves {mark : Mark} {tokens : List Token} {tail : List TokenKind}
    (written : Token.kinds tokens = .mark mark :: tail) :
    (sign mark tokens).Achieves fun _ rest => rest = tail :=
  token_achieves written

theorem word_ensures (keyword : Keyword) (tokens : List Token) :
    (word keyword tokens).Ensures fun _ rest => Token.kinds tokens = .keyword keyword :: rest :=
  token_ensures _ tokens

theorem word_achieves {keyword : Keyword} {tokens : List Token} {tail : List TokenKind}
    (written : Token.kinds tokens = .keyword keyword :: tail) :
    (word keyword tokens).Achieves fun _ rest => rest = tail :=
  token_achieves written

theorem ident_ensures (tokens : List Token) :
    (ident tokens).Ensures fun name rest => Token.kinds tokens = name.kind :: rest := by
  cases tokens with
  | nil => exact .of_fail _
  | cons first rest =>
      rw [ident]
      split
      · rename_i name same
        exact .of_ok (by rw [Token.kinds_cons, same]; rfl)
      · exact .of_fail _

theorem ident_achieves {name : Ident} {tokens : List Token} {tail : List TokenKind}
    (written : Token.kinds tokens = name.kind :: tail) :
    (ident tokens).Achieves fun read rest => read.unplaced = name.unplaced ∧ rest = tail := by
  obtain ⟨first, rest, rfl, same, behind⟩ := Token.exists_of_kinds_eq_cons written
  simp only [ident, same, Ident.kind]
  exact ⟨_, rfl, rfl, behind⟩

theorem data_type_ensures (tokens : List Token) :
    (dataType tokens).Ensures fun type rest => Token.kinds tokens = type.kind :: rest := by
  cases tokens with
  | nil => exact .of_fail _
  | cons first rest =>
      rw [dataType]
      split
      · rename_i same
        exact .of_ok (by rw [Token.kinds_cons, same]; rfl)
      · rename_i same
        exact .of_ok (by rw [Token.kinds_cons, same]; rfl)
      · exact .of_fail _

theorem data_type_achieves {type : DataType} {tokens : List Token} {tail : List TokenKind}
    (written : Token.kinds tokens = type.kind :: tail) :
    (dataType tokens).Achieves fun read rest => read = type ∧ rest = tail := by
  obtain ⟨first, rest, rfl, same, behind⟩ := Token.exists_of_kinds_eq_cons written
  cases type with
  | int =>
      simp only [dataType, same, DataType.kind]
      exact ⟨_, rfl, rfl, behind⟩
  | float =>
      simp only [dataType, same, DataType.kind]
      exact ⟨_, rfl, rfl, behind⟩

theorem array_size_ensures (tokens : List Token) :
    (arraySize tokens).Ensures fun size rest =>
      Token.kinds tokens = .integer size.1 :: rest := by
  cases tokens with
  | nil => exact .of_fail _
  | cons first rest =>
      rw [arraySize]
      split
      · rename_i text same
        exact .of_ok (by rw [Token.kinds_cons, same])
      · exact .of_fail _

theorem array_size_achieves {text : String} {tokens : List Token} {tail : List TokenKind}
    (written : Token.kinds tokens = .integer text :: tail) :
    (arraySize tokens).Achieves fun size rest => size.1 = text ∧ rest = tail := by
  obtain ⟨first, rest, rfl, same, behind⟩ := Token.exists_of_kinds_eq_cons written
  simp only [arraySize, same]
  exact ⟨_, rfl, rfl, behind⟩

end Grammar

theorem CompareOp.of_kind?_eq_some_iff (kind : TokenKind) (op : CompareOp) :
    CompareOp.ofKind? kind = some op ↔ kind = op.kind := by
  constructor
  · intro found
    rw [CompareOp.ofKind?.eq_def] at found
    split at found <;> cases found <;> rfl
  · rintro rfl
    cases op <;> rfl

namespace Grammar

open Read

theorem compare_op_ensures (tokens : List Token) :
    (compareOp tokens).Ensures fun op rest => Token.kinds tokens = op.1.kind :: rest := by
  cases tokens with
  | nil => exact .of_fail _
  | cons first rest =>
      rw [compareOp]
      split
      · rename_i op found
        have same := (CompareOp.of_kind?_eq_some_iff first.kind op).mp found
        exact .of_ok (by rw [Token.kinds_cons, same])
      · exact .of_fail _

theorem compare_op_achieves {op : CompareOp} {tokens : List Token} {tail : List TokenKind}
    (written : Token.kinds tokens = op.kind :: tail) :
    (compareOp tokens).Achieves fun read rest => read.1 = op ∧ rest = tail := by
  obtain ⟨first, rest, rfl, same, behind⟩ := Token.exists_of_kinds_eq_cons written
  have found := (CompareOp.of_kind?_eq_some_iff first.kind op).mpr same
  simp only [compareOp, found]
  exact ⟨_, rfl, rfl, behind⟩

end Grammar

end ThreeAddress
