import ThreeAddress.Syntax.Basic
import ThreeAddress.Text.Outline
import ThreeAddress.Text.Quoted

/-!
# The tree dump

The syntax tree as an outline, with the place of every node.
-/

namespace ThreeAddress

set_option autoImplicit false

open Text (Outline)

def Position.outline (position : Position) : Outline :=
  .record "Position" [("line", .number position.line), ("column", .number position.column)]

def Span.outline (span : Span) : Outline :=
  .record "Span" [("start", .number span.start), ("end", .number span.stop)]

def Text.Outline.string (text : String) : Outline :=
  .word (Text.quote text)

def Place.outlineNode (place : Place) (name : String) (kind : Outline) : Outline :=
  .record name
    [("kind", kind), ("span", place.span.outline), ("pos", place.position.outline)]

def DataType.outline : DataType → Outline
  | .int => .word "Int"
  | .float => .word "Float"

def BinaryOp.outline : BinaryOp → Outline
  | .add => .word "Add"
  | .sub => .word "Sub"
  | .mul => .word "Mul"
  | .div => .word "Div"

def CompareOp.outline : CompareOp → Outline
  | .less => .word "Lt"
  | .greater => .word "Gt"
  | .lessEqual => .word "Le"
  | .greaterEqual => .word "Ge"
  | .equal => .word "Eq"
  | .notEqual => .word "Ne"

def Ident.outline (ident : Ident) : Outline :=
  .record "Ident"
    [("name", .string ident.name), ("span", ident.place.span.outline),
      ("pos", ident.place.position.outline)]

def Expr.outline : Expr → Outline
  | .identifier name place =>
      place.outlineNode "Expr" (.wrap "Identifier" [.string name])
  | .integer text place => place.outlineNode "Expr" (.wrap "IntLiteral" [.string text])
  | .float text place => place.outlineNode "Expr" (.wrap "FloatLiteral" [.string text])
  | .element array index place =>
      place.outlineNode "Expr"
        (.record "Index" [("array", array.outline), ("index", index.outline)])
  | .paren inner place => place.outlineNode "Expr" (.wrap "Paren" [inner.outline])
  | .negate inner place => place.outlineNode "Expr" (.wrap "Negate" [inner.outline])
  | .binary op left right place =>
      place.outlineNode "Expr"
        (.record "Binary"
          [("op", op.outline), ("left", left.outline), ("right", right.outline)])

def Cond.outline : Cond → Outline
  | .compare op opPosition left right place =>
      place.outlineNode "Cond"
        (.record "Compare"
          [("op", op.outline), ("op_pos", opPosition.outline), ("left", left.outline),
            ("right", right.outline)])
  | .and left right place =>
      place.outlineNode "Cond" (.wrap "And" [left.outline, right.outline])
  | .or left right place =>
      place.outlineNode "Cond" (.wrap "Or" [left.outline, right.outline])
  | .not inner place => place.outlineNode "Cond" (.wrap "Not" [inner.outline])
  | .paren inner place => place.outlineNode "Cond" (.wrap "Paren" [inner.outline])

mutual

def Stmt.outline : Stmt → Outline
  | .scalar name type place =>
      place.outlineNode "Stmt"
        (.wrap "VarDecl" [.record "VarDecl" [("name", name.outline), ("ty", type.outline)]])
  | .array name element size sizePosition place =>
      place.outlineNode "Stmt"
        (.wrap "ArrayDecl"
          [.record "ArrayDecl"
            [("name", name.outline), ("element", element.outline), ("size", .string size),
              ("size_pos", sizePosition.outline)]])
  | .constant name type typePosition value place =>
      place.outlineNode "Stmt"
        (.wrap "ConstDecl"
          [.record "ConstDecl"
            [("name", name.outline), ("ty", type.outline), ("ty_pos", typePosition.outline),
              ("value", value.outline)]])
  | .assign target value place =>
      place.outlineNode "Stmt"
        (.record "Assign" [("target", target.outline), ("value", value.outline)])
  | .ifThen condition body place =>
      place.outlineNode "Stmt"
        (.record "If"
          [("condition", condition.outline), ("then_branch", .list (Stmt.outlineAll body)),
            ("else_branch", .word "None")])
  | .ifElse condition body otherwise place =>
      place.outlineNode "Stmt"
        (.record "If"
          [("condition", condition.outline), ("then_branch", .list (Stmt.outlineAll body)),
            ("else_branch", .wrap "Some" [.list (Stmt.outlineAll otherwise)])])
  | .doWhile body condition place =>
      place.outlineNode "Stmt"
        (.record "DoWhile"
          [("body", .list (Stmt.outlineAll body)), ("condition", condition.outline)])
  | .forLoop counter first last step body place =>
      place.outlineNode "Stmt"
        (.record "For"
          [("var", counter.outline), ("from", first.outline), ("to", last.outline),
            ("step", step.outline), ("body", .list (Stmt.outlineAll body))])
  | .input target place => place.outlineNode "Stmt" (.wrap "Input" [target.outline])
  | .output text names place =>
      place.outlineNode "Stmt"
        (.wrap "Output"
          [.record "OutputArgs"
            [("text", match text with
                | some text => .wrap "Some" [.string text]
                | none => .word "None"),
              ("idents", .list (names.map Ident.outline))]])

def Stmt.outlineAll : List Stmt → List Outline
  | [] => []
  | first :: rest => first.outline :: Stmt.outlineAll rest

end

def Program.dump (program : Program) : String :=
  (Outline.record "Program" [("statements", .list (Stmt.outlineAll program))]).render 0

end ThreeAddress
