import SubsetC.Tree
import SubsetC.Text.Decimal
import SubsetC.Text.Outline
import SubsetC.Text.Quoted

/-!
# Outlines of syntax trees

A tree as an outline: every node with its kind, its parts and its place.
-/

namespace SubsetC

/-- The place as an outline. -/
def Span.outline (span : Span) : Outline :=
  .record "Span"
    [("start", .ofNat span.start), ("end", .ofNat span.stop), ("line", .ofNat span.line.toNat)]

/-- A node of the tree: its kind and its place. -/
def Outline.node (name : String) (kind : Outline) (span : Span) : Outline :=
  .record name [("kind", kind), ("span", span.outline)]

/-- The type as an outline. -/
def DataType.outline : DataType → Outline
  | int => .leaf "Int"
  | char => .leaf "Char"

/-- The identifier as an outline. -/
def Identifier.outline (identifier : Identifier) : Outline :=
  .record "Ident"
    [("name", .leaf (Quoted.string identifier.name)), ("span", identifier.span.outline)]

/-- The operator as an outline. -/
def UnaryOp.outline : UnaryOp → Outline
  | neg => .leaf "Neg"
  | not => .leaf "Not"

/-- The literal as an outline. -/
def Literal.outline : Literal → Outline
  | int value => .wrapped "Int" (.leaf (Decimal.ofInt64 value))
  | char value => .wrapped "Char" (.leaf (Quoted.char value))

/-- The expression as an outline. -/
def Expr.outline : Expr → Outline
  | literal value span => .node "Expr" (.wrapped "Literal" value.outline) span
  | var name span => .node "Expr" (.wrapped "Var" (.leaf (Quoted.string name))) span
  | binary op left right span =>
      .node "Expr"
        (.record "Binary"
          [("op", .leaf op.label), ("left", left.outline), ("right", right.outline)])
        span
  | unary op operand span =>
      .node "Expr" (.record "Unary" [("op", op.outline), ("operand", operand.outline)]) span

mutual

/-- The statement as an outline. -/
def Stmt.outline : Stmt → Outline
  | .function type name body span =>
      .node "Stmt"
        (.wrapped "FunctionDef"
          (.record "FnDef"
            [("return_type", type.outline), ("name", name.outline), ("body", blockOutline body),
              ("span", span.outline)]))
        span
  | .block body => .node "Stmt" (.wrapped "Block" (blockOutline body)) body.span
  | .declare type name span =>
      .node "Stmt" (.record "Declaration" [("ty", type.outline), ("name", name.outline)]) span
  | .define type name value span =>
      .node "Stmt"
        (.record "DeclarationAssign"
          [("ty", type.outline), ("name", name.outline), ("value", value.outline)])
        span
  | .assign target value span =>
      .node "Stmt"
        (.record "Assignment" [("target", target.outline), ("value", value.outline)]) span
  | .ifThen condition body span =>
      .node "Stmt"
        (.record "If"
          [("condition", condition.outline), ("then_branch", blockOutline body),
            ("else_branch", .ofOption none)])
        span
  | .ifElse condition body otherwise span =>
      .node "Stmt"
        (.record "If"
          [("condition", condition.outline), ("then_branch", blockOutline body),
            ("else_branch", .ofOption (some (blockOutline otherwise)))])
        span
  | .loop condition body span =>
      .node "Stmt"
        (.record "While" [("condition", condition.outline), ("body", blockOutline body)]) span
  | .print format argument span =>
      .node "Stmt"
        (.record "Print"
          [("format", .leaf (Quoted.string format)),
            ("arg", .ofOption (argument.map Identifier.outline))])
        span
  | .scan format target span =>
      .node "Stmt"
        (.record "Scan" [("format", .leaf (Quoted.string format)), ("target", target.outline)])
        span
  | .leave value span =>
      .node "Stmt" (.wrapped "Return" (.ofOption (value.map Expr.outline))) span

/-- The block as an outline. -/
def blockOutline : Block Stmt → Outline
  | ⟨statements, span⟩ =>
      .record "Block"
        [("stmts", .sequence (statementOutlines statements)), ("span", span.outline)]

/-- The statements as outlines. -/
def statementOutlines : List Stmt → List Outline
  | [] => []
  | statement :: statements => statement.outline :: statementOutlines statements

end

/-- The tree as an outline. -/
def Tree.outline (tree : Tree) : Outline :=
  .record "Program"
    [("stmts", .sequence (statementOutlines tree.statements)), ("span", tree.span.outline)]

end SubsetC
