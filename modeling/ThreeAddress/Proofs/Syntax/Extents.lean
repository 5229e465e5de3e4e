import ThreeAddress.Proofs.Syntax.Nodes
import ThreeAddress.Proofs.Syntax.Soundness

/-!
# Readings build nodes on the tokens they take

A reading that succeeds has taken tokens from the front of its list, and what it built stands on
them. One that fails points at a token of the list as well. None of them goes past an end of the
file.
-/

namespace ThreeAddress

set_option autoImplicit false

namespace Read

variable {α β : Type} {bound wider : Nat}

/-- The reading works on `tokens`, with `before` taken already. If it succeeds, `post` holds of the
tokens it took and what it read, and it tells the span of the last token taken so far. Whether it
succeeds or not, it leaves a rest of the list and no end of the file in front of that. -/
structure Takes (read : Read bound α) (before tokens : List Token)
    (post : List Token → α → Prop) : Prop where
  done : ∀ reading, read = .ok reading →
    ∃ front, tokens = front ++ reading.rest ∧ .endOfFile ∉ Token.kinds front ∧
      Token.EndsWith (before ++ front) reading.last ∧ post front reading.value
  failed : ∀ failure, read = .fail failure →
    ∃ front, tokens = front ++ failure.rest ∧ .endOfFile ∉ Token.kinds front

namespace Takes

variable {before tokens : List Token} {mid : List Token → α → Prop}

theorem of_fail {expected : Expected} (post : List Token → α → Prop) :
    (Read.fail ⟨expected, tokens⟩ : Read bound α).Takes before tokens post := by
  constructor
  · intro reading same
    cases same
  · intro failure same
    cases same
    exact ⟨[], rfl, List.not_mem_nil⟩

theorem of_first {first : Token} {rest : List Token} {value : α} {shorter : rest.length < bound}
    (goesOn : first.kind ≠ .endOfFile) (holds : mid [first] value) :
    (Read.ok ⟨value, first.place.span, rest, shorter⟩).Takes before (first :: rest) mid := by
  constructor
  · intro reading same
    cases same
    have ends := (Token.ends_with_single first).append before
    exact ⟨[first], rfl, by simp [goesOn.symm], ends, holds⟩
  · intro failure same
    cases same

theorem of_nothing {value : α} {last : Span} {shorter : tokens.length < bound}
    (ends : Token.EndsWith before last) (holds : mid [] value) :
    (Read.ok ⟨value, last, tokens, shorter⟩).Takes before tokens mid := by
  constructor
  · intro reading same
    cases same
    exact ⟨[], rfl, List.not_mem_nil, by rwa [List.append_nil], holds⟩
  · intro failure same
    cases same

theorem imp {read : Read bound α} {post : List Token → α → Prop}
    (takes : read.Takes before tokens mid)
    (weaker : ∀ front value, mid front value → post front value) :
    read.Takes before tokens post := by
  refine ⟨?_, takes.failed⟩
  intro reading same
  obtain ⟨front, split, goesOn, ends, holds⟩ := takes.done reading same
  exact ⟨front, split, goesOn, ends, weaker front reading.value holds⟩

theorem widen {read : Read bound α} (takes : read.Takes before tokens mid)
    (within : bound ≤ wider) : (read.widen within).Takes before tokens mid := by
  constructor
  · intro reading done
    obtain ⟨inner, took, value, last, rest⟩ := widen_eq_ok within done
    rw [← value, ← last, ← rest]
    exact takes.done inner took
  · intro failure failed
    exact takes.failed failure (widen_eq_fail within failed)

theorem map {read : Read bound α} {f : Reading bound α → β} {post : List Token → β → Prop}
    (takes : read.Takes before tokens mid)
    (follows : ∀ reading front, mid front reading.value →
      Token.EndsWith (before ++ front) reading.last → post front (f reading)) :
    (read.map f).Takes before tokens post := by
  constructor
  · intro reading done
    obtain ⟨inner, took, value, last, rest⟩ := map_eq_ok done
    obtain ⟨front, split, goesOn, ends, holds⟩ := takes.done inner took
    rw [← value, ← last, ← rest]
    exact ⟨front, split, goesOn, ends, follows inner front holds ends⟩
  · intro failure failed
    exact takes.failed failure (map_eq_fail failed)

/-- A reading that fails stands for all that would follow it. -/
theorem fails {narrow : Nat} {failure : Failure}
    (takes : (Read.fail failure : Read bound α).Takes before tokens mid)
    (post : List Token → β → Prop) :
    (Read.fail failure : Read narrow β).Takes before tokens post := by
  constructor
  · intro reading same
    cases same
  · intro other same
    cases same
    exact takes.failed failure rfl

/-- What two readings in a row take, the second of them from the rest of the first. -/
theorem in_a_row {narrow : Nat} {read : Read bound α} {first : Reading bound α}
    {next : Read narrow β} {post : List Token → β → Prop} (takes : read.Takes before tokens mid)
    (took : read = .ok first)
    (follows : ∀ front, mid front first.value → Token.EndsWith (before ++ front) first.last →
      next.Takes (before ++ front) first.rest fun more => post (front ++ more)) :
    next.Takes before tokens post := by
  obtain ⟨front, split, goesOn, ends, holds⟩ := takes.done first took
  have further := follows front holds ends
  constructor
  · intro second done
    obtain ⟨more, remains, wentOn, stops, whole⟩ := further.done second done
    exact ⟨front ++ more, by rw [split, remains, List.append_assoc], by simp [goesOn, wentOn],
      by rwa [← List.append_assoc], whole⟩
  · intro failure failed
    obtain ⟨more, remains, wentOn⟩ := further.failed failure failed
    exact ⟨front ++ more, by rw [split, remains, List.append_assoc], by simp [goesOn, wentOn]⟩

theorem and_then {read : Read bound α}
    {next : (reading : Reading bound α) → Read reading.rest.length β}
    {post : List Token → β → Prop} (takes : read.Takes before tokens mid)
    (follows : ∀ reading front, mid front reading.value →
      Token.EndsWith (before ++ front) reading.last →
      (next reading).Takes (before ++ front) reading.rest fun more => post (front ++ more)) :
    (read.andThen next).Takes before tokens post := by
  cases read with
  | fail failure => exact takes.fails post
  | ok first => exact (takes.in_a_row rfl (follows first)).widen (Nat.le_of_lt first.shorter)

theorem and_tail {read : Read bound α}
    {next : (reading : Reading bound α) → Read (reading.rest.length + 1) β}
    {post : List Token → β → Prop} (takes : read.Takes before tokens mid)
    (follows : ∀ reading front, mid front reading.value →
      Token.EndsWith (before ++ front) reading.last →
      (next reading).Takes (before ++ front) reading.rest fun more => post (front ++ more)) :
    (read.andTail next).Takes before tokens post := by
  cases read with
  | fail failure => exact takes.fails post
  | ok first => exact (takes.in_a_row rfl (follows first)).widen first.shorter

/-- A reading that starts behind a token that was looked at. -/
theorem behind {first : Token} {rest : List Token} {read : Read bound α}
    (goesOn : first.kind ≠ .endOfFile)
    (takes : read.Takes [first] rest fun front => mid (first :: front)) :
    read.Takes before (first :: rest) mid := by
  constructor
  · intro reading done
    obtain ⟨front, split, wentOn, ends, holds⟩ := takes.done reading done
    exact ⟨first :: front, by rw [split, List.cons_append], by simp [goesOn.symm, wentOn],
      Token.EndsWith.append ends before, holds⟩
  · intro failure failed
    obtain ⟨front, split, wentOn⟩ := takes.failed failure failed
    exact ⟨first :: front, by rw [split, List.cons_append], by simp [goesOn.symm, wentOn]⟩

section Token

variable {read : Read bound Token} {kind : TokenKind}

theorem and_then_token {next : (reading : Reading bound Token) → Read reading.rest.length β}
    {post : List Token → β → Prop}
    (takes : read.Takes before tokens fun front token => front = [token] ∧ token.kind = kind)
    (follows : ∀ reading, reading.value.kind = kind →
      Token.EndsWith (before ++ [reading.value]) reading.last →
      (next reading).Takes (before ++ [reading.value]) reading.rest
        fun more => post (reading.value :: more)) :
    (read.andThen next).Takes before tokens post := by
  refine takes.and_then fun reading front holds ends => ?_
  obtain ⟨rfl, same⟩ := holds
  exact follows reading same ends

theorem map_token {f : Reading bound Token → β} {post : List Token → β → Prop}
    (takes : read.Takes before tokens fun front token => front = [token] ∧ token.kind = kind)
    (follows : ∀ reading, reading.value.kind = kind →
      Token.EndsWith (before ++ [reading.value]) reading.last →
      post [reading.value] (f reading)) :
    (read.map f).Takes before tokens post := by
  refine takes.map fun reading front holds ends => ?_
  obtain ⟨rfl, same⟩ := holds
  exact follows reading same ends

end Token

end Takes

end Read

theorem BinaryOp.kind_ne_end_of_file (op : BinaryOp) : op.kind ≠ .endOfFile := by
  cases op <;> simp [BinaryOp.kind]

theorem CompareOp.kind_ne_end_of_file (op : CompareOp) : op.kind ≠ .endOfFile := by
  cases op <;> simp [CompareOp.kind]

/-! ## Building a node from its parts -/

namespace Node.StandsOn

/-- A node that starts with a token of its own. -/
theorem of_up_to {node : Node} {first : Token} {rest : List Token} {last : Span}
    (placed : node.place = first.place.upTo last) (ends : Token.EndsWith (first :: rest) last)
    (written : Token.kinds (first :: rest) = node.unparse)
    (noted : ∀ position ∈ node.notes, ∃ token ∈ rest, token.place.position = position)
    (parts : Parts StandsOn rest node.children) : node.StandsOn (first :: rest) := by
  refine .intro written (fun ordered => placed ▸ Place.around_up_to ordered ends) ?_
    (parts.skip first)
  intro position member
  obtain ⟨token, inside, same⟩ := noted position member
  exact ⟨token, List.mem_cons_of_mem first inside, same⟩

/-- A node that is one token. -/
theorem of_single {node : Node} {token : Token} (placed : node.place = token.place)
    (written : [token.kind] = node.unparse) (bare : node.notes = [])
    (leaf : node.children = []) : node.StandsOn [token] := by
  refine .intro written (fun _ => placed ▸ Place.around_single token) (by simp [bare]) ?_
  rw [leaf]
  exact Parts.nil.skip token

/-- Two nodes around an operator. -/
theorem of_join {node left right : Node} {before behind : List Token} {op : Token}
    (placed : node.place = left.place.join right.place)
    (shape : node.unparse = left.unparse ++ op.kind :: right.unparse)
    (noted : ∀ position ∈ node.notes, op.place.position = position)
    (halves : node.children = [left, right]) (first : left.StandsOn before)
    (second : right.StandsOn behind) : node.StandsOn (before ++ op :: behind) := by
  refine .intro ?_ ?_ ?_ ?_
  · rw [shape, Token.kinds_append, Token.kinds_cons, first.written, second.written]
  · intro ordered
    rw [placed]
    refine Place.around_join [op] ordered
      (first.around (ordered.sublist (List.sublist_append_left _ _)))
      (second.around (ordered.sublist ?_))
    exact (List.sublist_cons_self _ _).trans (List.sublist_append_right _ _)
  · intro position member
    exact ⟨op, by simp, noted position member⟩
  · rw [halves]
    exact .node first ((Parts.single second).skip op)

end Node.StandsOn

namespace Grammar

open Read

theorem token_takes {kind : TokenKind} (goesOn : kind ≠ .endOfFile) (before tokens : List Token) :
    (token kind tokens).Takes before tokens fun front token =>
      front = [token] ∧ token.kind = kind := by
  cases tokens with
  | nil => exact .of_fail _
  | cons first rest =>
      rw [token]
      split
      · rename_i same
        exact .of_first (same ▸ goesOn) ⟨rfl, same⟩
      · exact .of_fail _

theorem sign_takes (mark : Mark) (before tokens : List Token) :
    (sign mark tokens).Takes before tokens fun front token =>
      front = [token] ∧ token.kind = .mark mark := by
  have goesOn : TokenKind.mark mark ≠ .endOfFile := by simp
  exact token_takes goesOn before tokens

theorem word_takes (keyword : Keyword) (before tokens : List Token) :
    (word keyword tokens).Takes before tokens fun front token =>
      front = [token] ∧ token.kind = .keyword keyword := by
  have goesOn : TokenKind.keyword keyword ≠ .endOfFile := by simp
  exact token_takes goesOn before tokens

theorem ident_takes (before tokens : List Token) :
    (ident tokens).Takes before tokens fun front name => (Node.ident name).StandsOn front := by
  cases tokens with
  | nil => exact .of_fail _
  | cons first rest =>
      rw [ident]
      split
      · rename_i name same
        refine .of_first (by simp [same]) (.of_single rfl ?_ rfl rfl)
        rw [same]
        rfl
      · exact .of_fail _

theorem data_type_takes (before tokens : List Token) :
    (dataType tokens).Takes before tokens fun front type =>
      ∃ token, front = [token] ∧ token.kind = type.kind ∧
        positionOf tokens = token.place.position := by
  cases tokens with
  | nil => exact .of_fail _
  | cons first rest =>
      rw [dataType]
      split
      · rename_i same
        exact .of_first (by simp [same]) ⟨first, rfl, same, rfl⟩
      · rename_i same
        exact .of_first (by simp [same]) ⟨first, rfl, same, rfl⟩
      · exact .of_fail _

theorem array_size_takes (before tokens : List Token) :
    (arraySize tokens).Takes before tokens fun front size =>
      ∃ token, front = [token] ∧ token.kind = .integer size.1 ∧
        token.place.position = size.2 := by
  cases tokens with
  | nil => exact .of_fail _
  | cons first rest =>
      rw [arraySize]
      split
      · rename_i text same
        exact .of_first (by simp [same]) ⟨first, rfl, same, rfl⟩
      · exact .of_fail _

theorem compare_op_takes (before tokens : List Token) :
    (compareOp tokens).Takes before tokens fun front op =>
      ∃ token, front = [token] ∧ token.kind = op.1.kind ∧ token.place.position = op.2 := by
  cases tokens with
  | nil => exact .of_fail _
  | cons first rest =>
      rw [compareOp]
      split
      · rename_i op found
        have same := (CompareOp.of_kind?_eq_some_iff first.kind op).mp found
        exact .of_first (same ▸ op.kind_ne_end_of_file) ⟨first, rfl, same, rfl⟩
      · exact .of_fail _

/-! ## Expressions -/

mutual

theorem expression_takes (before tokens : List Token) :
    (expression tokens).Takes before tokens fun front expr =>
      (Node.expr expr).StandsOn front := by
  rw [expression]
  exact (product_takes before tokens).and_tail fun first front stands ends =>
    sum_tail_takes first.value first.last (before ++ front) first.rest ends stands
termination_by 6 * tokens.length + 4
decreasing_by
  · omega
  · have := first.shorter
    omega

theorem sum_tail_takes (left : Expr) (last : Span) (before tokens : List Token)
    {segment : List Token} (ends : Token.EndsWith before last)
    (stands : (Node.expr left).StandsOn segment) :
    (sumTail left last tokens).Takes before tokens fun front expr =>
      (Node.expr expr).StandsOn (segment ++ front) := by
  match tokens with
  | [] =>
      rw [sumTail]
      exact .of_nothing ends (by rwa [List.append_nil])
  | first :: rest =>
      rw [sumTail]
      split
      · exact .of_nothing ends (by rwa [List.append_nil])
      · rename_i op found
        obtain ⟨same, _⟩ := (BinaryOp.of_sum?_eq_some_iff first.kind op).mp found
        refine .widen (.behind (same ▸ op.kind_ne_end_of_file) ?_) _
        refine (product_takes [first] rest).and_tail fun right front operand ends => ?_
        have joined : (Node.expr (.join op left right.value)).StandsOn (segment ++ first :: front) :=
          .of_join rfl (by rw [same]; rfl) (List.forall_mem_nil _) rfl stands operand
        have further := sum_tail_takes (.join op left right.value) right.last ([first] ++ front)
          right.rest ends joined
        simpa using further
termination_by 6 * tokens.length + 5
decreasing_by
  all_goals simp only [List.length_cons]
  · omega
  · have := right.shorter
    omega

theorem product_takes (before tokens : List Token) :
    (product tokens).Takes before tokens fun front expr =>
      (Node.expr expr).StandsOn front := by
  rw [product]
  exact (unary_takes before tokens).and_tail fun first front stands ends =>
    product_tail_takes first.value first.last (before ++ front) first.rest ends stands
termination_by 6 * tokens.length + 2
decreasing_by
  · omega
  · have := first.shorter
    omega

theorem product_tail_takes (left : Expr) (last : Span) (before tokens : List Token)
    {segment : List Token} (ends : Token.EndsWith before last)
    (stands : (Node.expr left).StandsOn segment) :
    (productTail left last tokens).Takes before tokens fun front expr =>
      (Node.expr expr).StandsOn (segment ++ front) := by
  match tokens with
  | [] =>
      rw [productTail]
      exact .of_nothing ends (by rwa [List.append_nil])
  | first :: rest =>
      rw [productTail]
      split
      · exact .of_nothing ends (by rwa [List.append_nil])
      · rename_i op found
        obtain ⟨same, _⟩ := (BinaryOp.of_product?_eq_some_iff first.kind op).mp found
        refine .widen (.behind (same ▸ op.kind_ne_end_of_file) ?_) _
        refine (unary_takes [first] rest).and_tail fun right front operand ends => ?_
        have joined : (Node.expr (.join op left right.value)).StandsOn (segment ++ first :: front) :=
          .of_join rfl (by rw [same]; rfl) (List.forall_mem_nil _) rfl stands operand
        have further := product_tail_takes (.join op left right.value) right.last
          ([first] ++ front) right.rest ends joined
        simpa using further
termination_by 6 * tokens.length + 3
decreasing_by
  all_goals simp only [List.length_cons]
  · omega
  · have := right.shorter
    omega

theorem unary_takes (before tokens : List Token) :
    (unary tokens).Takes before tokens fun front expr => (Node.expr expr).StandsOn front := by
  match tokens with
  | [] =>
      rw [unary]
      exact .of_fail _
  | first :: rest =>
      rw [unary]
      split
      · rename_i minus
        refine .widen (.behind (by simp [minus]) ?_) _
        refine (unary_takes [first] rest).map fun operand front stands ends => ?_
        exact .of_up_to rfl ends (by simp [Node.unparse, Expr.unparse, minus, stands.written])
          (List.forall_mem_nil _) (.single stands)
      · exact atom_takes before (first :: rest)
termination_by 6 * tokens.length + 1
decreasing_by
  all_goals
    simp only [List.length_cons]
    omega

theorem atom_takes (before tokens : List Token) :
    (atom tokens).Takes before tokens fun front expr => (Node.expr expr).StandsOn front := by
  match tokens with
  | [] =>
      rw [atom]
      exact .of_fail _
  | first :: rest =>
      rw [atom.eq_def]
      simp only
      split
      · rename_i text same
        exact .of_first (by simp [same]) (.of_single rfl (by rw [same]; rfl) rfl rfl)
      · rename_i text same
        exact .of_first (by simp [same]) (.of_single rfl (by rw [same]; rfl) rfl rfl)
      · rename_i name same
        have named : (Node.ident ⟨name, first.place⟩).StandsOn [first] :=
          .of_single rfl (by rw [same]; rfl) rfl rfl
        split
        · exact .of_first (by simp [same]) (.of_single rfl (by rw [same]; rfl) rfl rfl)
        · rename_i bracket inside
          split
          · rename_i opened
            refine .widen (.behind (by simp [same]) (.behind (by simp [opened]) ?_)) _
            refine (expression_takes [bracket] inside).and_then fun index front stands _ =>
              (sign_takes .rightBracket ([bracket] ++ front) index.rest).map_token
                fun close closed ends => ?_
            have ends : Token.EndsWith (first :: bracket :: (front ++ [close.value])) close.last := by
              simpa using ends.append [first]
            exact .intro (by simp [Node.unparse, Expr.unparse, Ident.kind, same, opened,
                stands.written, closed])
              (fun ordered => Place.around_up_to ordered ends) (List.forall_mem_nil _)
              (.node named (.skip bracket (.node stands (.skip _ .nil))))
          · exact .of_first (by simp [same]) (.of_single rfl (by rw [same]; rfl) rfl rfl)
      · rename_i opened
        refine .widen (.behind (by simp [opened]) ?_) _
        refine (expression_takes [first] rest).and_then fun inner front stands _ =>
          (sign_takes .rightParen ([first] ++ front) inner.rest).map_token
            fun close closed ends => ?_
        exact .of_up_to rfl (by simpa using ends)
          (by simp [Node.unparse, Expr.unparse, opened, stands.written, closed]) (List.forall_mem_nil _)
          (.node stands (.skip _ .nil))
      · exact .of_fail _
termination_by 6 * tokens.length
decreasing_by
  · rename_i shape _
    rw [shape]
    simp only [List.length_cons]
    omega
  · simp only [List.length_cons]
    omega

end

/-! ## Conditions -/

theorem comparison_takes (before tokens : List Token) :
    (comparison tokens).Takes before tokens fun front cond =>
      (Node.cond cond).StandsOn front := by
  rw [comparison]
  refine (expression_takes before tokens).and_then fun left front first _ =>
    (compare_op_takes _ left.rest).and_then fun op _ compared _ =>
      (expression_takes _ op.rest).map fun right behind second _ => ?_
  obtain ⟨token, rfl, same, noted⟩ := compared
  exact .of_join rfl (by rw [same]; rfl) (by simpa [Node.notes] using noted) rfl first second

mutual

theorem condition_takes (before tokens : List Token) :
    (condition tokens).Takes before tokens fun front cond =>
      (Node.cond cond).StandsOn front := by
  rw [condition]
  exact (conjunction_takes before tokens).and_tail fun first front stands ends =>
    or_tail_takes first.value first.last (before ++ front) first.rest ends stands
termination_by 6 * tokens.length + 4
decreasing_by
  · omega
  · have := first.shorter
    omega

theorem or_tail_takes (left : Cond) (last : Span) (before tokens : List Token)
    {segment : List Token} (ends : Token.EndsWith before last)
    (stands : (Node.cond left).StandsOn segment) :
    (orTail left last tokens).Takes before tokens fun front cond =>
      (Node.cond cond).StandsOn (segment ++ front) := by
  match tokens with
  | [] =>
      rw [orTail]
      exact .of_nothing ends (by rwa [List.append_nil])
  | first :: rest =>
      rw [orTail]
      split
      · rename_i or
        refine .widen (.behind (by simp [or]) ?_) _
        refine (conjunction_takes [first] rest).and_tail fun right front operand ends => ?_
        have joined : (Node.cond (left.joinOr right.value)).StandsOn (segment ++ first :: front) :=
          .of_join rfl (by rw [or]; rfl) (List.forall_mem_nil _) rfl stands operand
        have further := or_tail_takes (left.joinOr right.value) right.last ([first] ++ front)
          right.rest ends joined
        simpa using further
      · exact .of_nothing ends (by rwa [List.append_nil])
termination_by 6 * tokens.length + 5
decreasing_by
  all_goals simp only [List.length_cons]
  · omega
  · have := right.shorter
    omega

theorem conjunction_takes (before tokens : List Token) :
    (conjunction tokens).Takes before tokens fun front cond =>
      (Node.cond cond).StandsOn front := by
  rw [conjunction]
  exact (condition_atom_takes before tokens).and_tail fun first front stands ends =>
    and_tail_takes first.value first.last (before ++ front) first.rest ends stands
termination_by 6 * tokens.length + 2
decreasing_by
  · omega
  · have := first.shorter
    omega

theorem and_tail_takes (left : Cond) (last : Span) (before tokens : List Token)
    {segment : List Token} (ends : Token.EndsWith before last)
    (stands : (Node.cond left).StandsOn segment) :
    (andTail left last tokens).Takes before tokens fun front cond =>
      (Node.cond cond).StandsOn (segment ++ front) := by
  match tokens with
  | [] =>
      rw [andTail]
      exact .of_nothing ends (by rwa [List.append_nil])
  | first :: rest =>
      rw [andTail]
      split
      · rename_i and
        refine .widen (.behind (by simp [and]) ?_) _
        refine (condition_atom_takes [first] rest).and_tail fun right front operand ends => ?_
        have joined : (Node.cond (left.joinAnd right.value)).StandsOn (segment ++ first :: front) :=
          .of_join rfl (by rw [and]; rfl) (List.forall_mem_nil _) rfl stands operand
        have further := and_tail_takes (left.joinAnd right.value) right.last ([first] ++ front)
          right.rest ends joined
        simpa using further
      · exact .of_nothing ends (by rwa [List.append_nil])
termination_by 6 * tokens.length + 3
decreasing_by
  all_goals simp only [List.length_cons]
  · omega
  · have := right.shorter
    omega

theorem condition_atom_takes (before tokens : List Token) :
    (conditionAtom tokens).Takes before tokens fun front cond =>
      (Node.cond cond).StandsOn front := by
  match tokens with
  | [] =>
      rw [conditionAtom]
      exact comparison_takes before []
  | first :: rest =>
      rw [conditionAtom]
      split
      · rename_i bang
        refine .widen (.behind (by simp [bang]) ?_) _
        refine (condition_takes [first] rest).map fun inner front stands ends => ?_
        exact .of_up_to rfl ends (by simp [Node.unparse, Cond.unparse, bang, stands.written])
          (List.forall_mem_nil _) (.single stands)
      · split
        · rename_i opened
          split
          -- A reading that was tried and failed leaves no trace: the comparison starts anew.
          · rename_i reading took
            have inside := paren_condition_takes first rest opened
            rw [took] at inside
            exact .widen (.behind (by simp [opened]) inside) _
          · exact comparison_takes before (first :: rest)
        · exact comparison_takes before (first :: rest)
termination_by 6 * tokens.length
decreasing_by
  all_goals
    simp only [List.length_cons]
    omega

theorem paren_condition_takes (first : Token) (tokens : List Token)
    (opened : first.kind = .mark .leftParen) :
    (parenCondition first tokens).Takes [first] tokens fun front cond =>
      (Node.cond cond).StandsOn (first :: front) := by
  rw [parenCondition]
  refine (condition_takes [first] tokens).and_then fun inner front stands _ =>
    (sign_takes .rightParen ([first] ++ front) inner.rest).map_token
      fun close closed ends => ?_
  exact .of_up_to rfl (by simpa using ends)
    (by simp [Node.unparse, Cond.unparse, opened, stands.written, closed]) (List.forall_mem_nil _)
    (.node stands (.skip _ .nil))
termination_by 6 * tokens.length + 5
decreasing_by omega

end

end Grammar

end ThreeAddress
