import ThreeAddress.Proofs.Quad.Supply

/-!
# The names in a program and the variables of its code

Declarations are numbered in the order in which they are made, and a mention of a name belongs to
the declaration that the name means at its place. The mentions of a program, in the order in which
the code uses them, are the variables of its code.
-/

namespace ThreeAddress

set_option autoImplicit false

/-- The declarations in scope, the innermost scope first, each with its number, and the number of
declarations so far. -/
structure Numbering where
  frames : List (List (String × Nat))
  count : Nat

namespace Numbering

def empty : Numbering := ⟨[[]], 0⟩

def enter (numbering : Numbering) : Numbering :=
  { numbering with frames := [] :: numbering.frames }

def leave (numbering : Numbering) : Numbering :=
  { numbering with frames := numbering.frames.tail }

def declare (numbering : Numbering) (name : String) : Numbering :=
  ⟨((name, numbering.count) :: numbering.frames.headD []) :: numbering.frames.tail,
    numbering.count + 1⟩

def find? (numbering : Numbering) (name : String) : Option Nat :=
  numbering.frames.findSome? fun frame =>
    (frame.find? fun entry => entry.1 == name).map Prod.snd

end Numbering

/-- A name in a program, with the number of the declaration that it means there. -/
structure Mention where
  name : String
  declaration : Option Nat
deriving DecidableEq

def Numbering.mention (numbering : Numbering) (name : String) : Mention :=
  ⟨name, numbering.find? name⟩

/-- The mentions in the code of an expression, and the one that its value is. -/
structure ValueMentions where
  code : List Mention
  value : Option Mention

def ValueMentions.all (mentions : ValueMentions) : List Mention :=
  mentions.code ++ mentions.value.toList

/-- Two operands are used when both have been computed. -/
def ValueMentions.pair (first second : ValueMentions) : List Mention :=
  first.code ++ second.code ++ first.value.toList ++ second.value.toList

def Expr.mentions (numbering : Numbering) : Expr → ValueMentions
  | .identifier name _ => ⟨[], some (numbering.mention name)⟩
  | .integer _ _ | .float _ _ => ⟨[], none⟩
  | .element array index _ =>
      let position := index.mentions numbering
      ⟨position.code ++ numbering.mention array.name :: position.value.toList, none⟩
  | .paren inner _ => inner.mentions numbering
  | .negate inner _ => ⟨(inner.mentions numbering).all, none⟩
  | .binary _ left right _ =>
      ⟨(left.mentions numbering).pair (right.mentions numbering), none⟩

def Cond.mentions (numbering : Numbering) : Cond → List Mention
  | .compare _ _ left right _ => (left.mentions numbering).pair (right.mentions numbering)
  | .and left right _ | .or left right _ => left.mentions numbering ++ right.mentions numbering
  | .not inner _ | .paren inner _ => inner.mentions numbering

structure Resolved where
  mentions : List Mention
  numbering : Numbering

mutual

/-- A counter is mentioned four times: where it is set, compared, added to and set again. -/
def Stmt.resolve (numbering : Numbering) : Stmt → Resolved
  | .scalar name _ _ | .array name _ _ _ _ => ⟨[], numbering.declare name.name⟩
  | .constant name _ _ value _ =>
      let after := numbering.declare name.name
      ⟨(value.mentions numbering).all ++ [after.mention name.name], after⟩
  | .assign target value _ =>
      ⟨(value.mentions numbering).all ++ [numbering.mention target.name], numbering⟩
  | .ifThen condition body _ =>
      let inside := Stmt.resolveAll numbering.enter body
      ⟨condition.mentions numbering ++ inside.mentions, inside.numbering.leave⟩
  | .ifElse condition body alternative _ =>
      let inside := Stmt.resolveAll numbering.enter body
      let other := Stmt.resolveAll inside.numbering.leave.enter alternative
      ⟨condition.mentions numbering ++ inside.mentions ++ other.mentions, other.numbering.leave⟩
  | .doWhile body condition _ =>
      let inside := Stmt.resolveAll numbering.enter body
      ⟨inside.mentions ++ condition.mentions inside.numbering, inside.numbering.leave⟩
  | .forLoop counter first last step body _ =>
      let scope := numbering.enter
      let index := scope.mention counter.name
      let inside := Stmt.resolveAll scope body
      ⟨(first.mentions scope).all ++ index :: (last.mentions scope).all ++
        (step.mentions scope).all ++ index :: inside.mentions ++ [index, index],
        inside.numbering.leave⟩
  | .input target _ => ⟨[numbering.mention target.name], numbering⟩
  | .output _ names _ => ⟨names.map fun name => numbering.mention name.name, numbering⟩

def Stmt.resolveAll (numbering : Numbering) : List Stmt → Resolved
  | [] => ⟨[], numbering⟩
  | first :: rest =>
      let before := first.resolve numbering
      let behind := Stmt.resolveAll before.numbering rest
      ⟨before.mentions ++ behind.mentions, behind.numbering⟩

end

/-- The mentions of a program in the order in which its code uses them. -/
def Program.mentions (program : Program) : List Mention :=
  (Stmt.resolveAll .empty program).mentions

def Operand.isVariable : Operand → Bool
  | .var _ => true
  | _ => false

def Quad.operands (quad : Quad) : List Operand :=
  quad.first.toList ++ quad.second.toList ++ quad.result.toList

def Quad.varSlots (code : List Quad) : List Operand :=
  code.flatMap fun quad => quad.operands.filter Operand.isVariable

def Mention.operand (mention : Mention) : Operand := .var mention.name

section Alignment

namespace Quad

@[simp] theorem var_slots_nil : varSlots [] = [] := rfl

@[simp] theorem var_slots_append (front back : List Quad) :
    varSlots (front ++ back) = varSlots front ++ varSlots back :=
  List.flatMap_append

theorem var_slots_cons (quad : Quad) (rest : List Quad) :
    varSlots (quad :: rest) = quad.operands.filter Operand.isVariable ++ varSlots rest :=
  List.flatMap_cons

@[simp] theorem var_slots_label (number : Nat) (rest : List Quad) :
    varSlots (.label number :: rest) = varSlots rest := rfl

@[simp] theorem var_slots_jump (number : Nat) (rest : List Quad) :
    varSlots (.jump number :: rest) = varSlots rest := rfl

@[simp] theorem var_slots_branch (op : Operation) (condition : Operand) (number : Nat)
    (rest : List Quad) :
    varSlots (.branch op condition number :: rest) =
      [condition].filter Operand.isVariable ++ varSlots rest := by
  rw [var_slots_cons]
  cases condition <;> rfl

@[simp] theorem filter_variable (name : String) :
    [Operand.var name].filter Operand.isVariable = [.var name] := rfl

@[simp] theorem filter_temp (number : Nat) :
    [Operand.temp number].filter Operand.isVariable = [] := rfl

@[simp] theorem var_slots_assign (value target : Operand) (rest : List Quad) :
    varSlots (.assign value target :: rest) =
      [value].filter Operand.isVariable ++
        ([target].filter Operand.isVariable ++ varSlots rest) := by
  rw [var_slots_cons]
  cases value <;> cases target <;> rfl

@[simp] theorem var_slots_operation (op : Operation) (first second : Operand) (number : Nat)
    (rest : List Quad) :
    varSlots (⟨op, some first, some second, some (.temp number)⟩ :: rest) =
      [first].filter Operand.isVariable ++
        ([second].filter Operand.isVariable ++ varSlots rest) := by
  rw [var_slots_cons]
  cases first <;> cases second <;> rfl

theorem var_slots_compute (code : List Quad) (op : Operation) (first : Operand)
    (second : Option Operand) (next : Nat) :
    varSlots (LoweredValue.compute code op first second next).code =
      varSlots code ++ [first].filter Operand.isVariable ++
        second.toList.filter Operand.isVariable := by
  have target : [Operand.temp next].filter Operand.isVariable = [] := rfl
  simp only [LoweredValue.compute, var_slots_append, var_slots_cons, var_slots_nil, operands,
    Option.toList_some, List.filter_append, target, List.append_nil, List.append_assoc]

end Quad

/-- The code of a lowered expression uses the mentions in its code, and its value is the mention
that is left. -/
structure LoweredValue.Uses (lowered : LoweredValue) (mentions : ValueMentions) : Prop where
  code : Quad.varSlots lowered.code = mentions.code.map Mention.operand
  value : [lowered.value].filter Operand.isVariable =
    mentions.value.toList.map Mention.operand

theorem LoweredValue.Uses.all {lowered : LoweredValue} {mentions : ValueMentions}
    (uses : lowered.Uses mentions) :
    Quad.varSlots lowered.code ++ [lowered.value].filter Operand.isVariable =
      mentions.all.map Mention.operand := by
  rw [uses.code, uses.value, ValueMentions.all, List.map_append]

theorem LoweredValue.Uses.all_append {lowered : LoweredValue} {mentions : ValueMentions}
    (uses : lowered.Uses mentions) (rest : List Operand) :
    Quad.varSlots lowered.code ++ ([lowered.value].filter Operand.isVariable ++ rest) =
      mentions.all.map Mention.operand ++ rest := by
  rw [← List.append_assoc, uses.all]

theorem LoweredValue.Uses.pair {first second : LoweredValue} {left right : ValueMentions}
    (firsts : first.Uses left) (seconds : second.Uses right) (op : Operation) (next : Nat) :
    Quad.varSlots (LoweredValue.compute (first.code ++ second.code) op first.value
      (some second.value) next).code = (left.pair right).map Mention.operand := by
  rw [Quad.var_slots_compute, Quad.var_slots_append, firsts.code, seconds.code, firsts.value]
  rw [Option.toList_some, seconds.value]
  simp only [ValueMentions.pair, List.map_append]

theorem Expr.lower_uses (expr : Expr) (next : Nat) (numbering : Numbering) :
    (expr.lower next).Uses (expr.mentions numbering) := by
  induction expr generalizing next with
  | identifier name place => exact ⟨rfl, rfl⟩
  | integer text place | float text place => exact ⟨rfl, rfl⟩
  | paren inner place ih => exact ih next
  | element array index place ih =>
      have uses := ih next
      refine ⟨?_, rfl⟩
      simp only [Expr.lower, Expr.mentions, Quad.var_slots_compute, uses.code,
        Option.toList_some, uses.value, List.map_append, List.map_cons, List.append_assoc]
      rfl
  | negate inner place ih =>
      refine ⟨?_, rfl⟩
      simp only [Expr.lower, Expr.mentions, Quad.var_slots_compute, Option.toList_some,
        ← (ih next).all]
      simp [Operand.isVariable]
  | binary op left right place ihLeft ihRight =>
      exact ⟨(ihLeft next).pair (ihRight _) _ _, rfl⟩

theorem Cond.lower_value_not_variable (cond : Cond) (next : Nat) :
    [(cond.lower next).value].filter Operand.isVariable = [] := by
  induction cond generalizing next with
  | paren inner place ih => exact ih next
  | compare | and | or | not => rfl

theorem Cond.var_slots_lower (cond : Cond) (next : Nat) (numbering : Numbering) :
    Quad.varSlots (cond.lower next).code =
      (cond.mentions numbering).map Mention.operand := by
  induction cond generalizing next with
  | compare op position left right place =>
      exact (left.lower_uses next numbering).pair (right.lower_uses _ numbering) _ _
  | and left right place ihLeft ihRight | or left right place ihLeft ihRight =>
      simp only [Cond.lower, Cond.mentions, Quad.var_slots_compute, Quad.var_slots_append,
        Option.toList_some, Cond.lower_value_not_variable, List.append_nil, ihLeft, ihRight,
        List.map_append]
  | not inner place ih =>
      simp only [Cond.lower, Cond.mentions, Quad.var_slots_compute, Option.toList_none,
        List.filter_nil, Cond.lower_value_not_variable, List.append_nil, ih]
  | paren inner place ih => exact ih next

/-- A stored value is used before the name that it is stored in. -/
theorem Expr.var_slots_lower_into (value : Expr) (target : String) (supply : Supply)
    (numbering : Numbering) :
    Quad.varSlots (value.lowerInto target supply).code =
      (value.mentions numbering).all.map Mention.operand ++ [.var target] := by
  rw [← (value.lower_uses supply.temps numbering).all, List.append_assoc]
  rw [Expr.lowerInto, Quad.var_slots_append, Quad.var_slots_assign]
  rfl

theorem Stmt.var_slots_lower_output (text : Option String) (names : List Ident) :
    Quad.varSlots (Stmt.lowerOutput text names) = names.map fun name => .var name.name := by
  have written : Quad.varSlots (text.toList.map fun text =>
      ⟨.output, some (.literal text), none, none⟩) = [] := by
    cases text <;> rfl
  rw [Stmt.lowerOutput, Quad.var_slots_append, written, List.nil_append]
  induction names with
  | nil => rfl
  | cons name names ih =>
      rw [List.map_cons, Quad.var_slots_cons, ih]
      rfl

mutual

theorem Stmt.var_slots_lower (stmt : Stmt) (supply : Supply) (numbering : Numbering) :
    Quad.varSlots (stmt.lower supply).code =
      (stmt.resolve numbering).mentions.map Mention.operand := by
  match stmt with
  | .scalar .. | .array .. | .input .. => rfl
  | .output text names place =>
      rw [Stmt.lower, Stmt.var_slots_lower_output, Stmt.resolve, List.map_map]
      rfl
  | .constant name type position value place =>
      rw [Stmt.lower, value.var_slots_lower_into _ _ numbering, Stmt.resolve, List.map_append]
      rfl
  | .assign target value place =>
      rw [Stmt.lower, value.var_slots_lower_into _ _ numbering, Stmt.resolve, List.map_append]
      rfl
  | .ifThen condition body place =>
      have inside := Stmt.var_slots_lower_all body
        ⟨(condition.lower supply.temps).next, supply.labels + 2⟩ numbering.enter
      simp only [Stmt.lower, Stmt.resolve, Quad.var_slots_append, Quad.var_slots_branch,
        Quad.var_slots_jump, Quad.var_slots_label, Quad.var_slots_nil,
        Cond.lower_value_not_variable, condition.var_slots_lower _ numbering, inside,
        List.map_append, List.append_nil]
  | .ifElse condition body alternative place =>
      let entry : Supply := ⟨(condition.lower supply.temps).next, supply.labels + 2⟩
      have inside := Stmt.var_slots_lower_all body entry numbering.enter
      have other := Stmt.var_slots_lower_all alternative (Stmt.lowerAll entry body).supply
        (Stmt.resolveAll numbering.enter body).numbering.leave.enter
      simp only [Stmt.lower, Stmt.resolve, Quad.var_slots_append, Quad.var_slots_branch,
        Quad.var_slots_jump, Quad.var_slots_label, Quad.var_slots_nil,
        Cond.lower_value_not_variable, condition.var_slots_lower _ numbering, inside, other,
        List.map_append, List.append_nil, entry]
  | .doWhile body condition place =>
      have inside := Stmt.var_slots_lower_all body ⟨supply.temps, supply.labels + 2⟩
        numbering.enter
      simp only [Stmt.lower, Stmt.resolve, Quad.var_slots_append, Quad.var_slots_branch,
        Quad.var_slots_label, Quad.var_slots_nil, Cond.lower_value_not_variable,
        condition.var_slots_lower _ (Stmt.resolveAll numbering.enter body).numbering, inside,
        List.map_append, List.append_nil, List.nil_append]
  | .forLoop counter first last step body place =>
      let origin := first.lower supply.temps
      let bound := last.lower origin.next
      let stride := step.lower (bound.next + 1)
      have starts := (first.lower_uses supply.temps numbering.enter).all_append
      have bounds := (last.lower_uses origin.next numbering.enter).all_append
      have strides := (step.lower_uses (bound.next + 1) numbering.enter).all_append
      have inside := Stmt.var_slots_lower_all body ⟨stride.next + 2, supply.labels + 2⟩
        numbering.enter
      simp only [Stmt.lower_for_loop, Quad.var_slots_append, Quad.var_slots_assign,
        Quad.var_slots_label, Quad.var_slots_jump, Quad.var_slots_branch,
        Quad.var_slots_operation, Quad.var_slots_nil, Quad.filter_variable, Quad.filter_temp,
        List.nil_append, starts, bounds, strides, inside, Stmt.resolve, List.map_append,
        List.map_cons, List.map_nil, List.append_assoc, origin, bound, stride]
      rfl

theorem Stmt.var_slots_lower_all (stmts : List Stmt) (supply : Supply) (numbering : Numbering) :
    Quad.varSlots (Stmt.lowerAll supply stmts).code =
      (Stmt.resolveAll numbering stmts).mentions.map Mention.operand := by
  match stmts with
  | [] => rfl
  | first :: rest =>
      rw [Stmt.lowerAll, Stmt.resolveAll, Quad.var_slots_append, List.map_append,
        first.var_slots_lower supply numbering,
        Stmt.var_slots_lower_all rest _ (first.resolve numbering).numbering]

end

end Alignment

end ThreeAddress
