import SubsetC.Proofs.Tree.Parts

/-!
# Nodes of a tree

Every statement and every expression of a tree, at any depth. Other than the parts of a statement
its nodes include the blocks that stand among the statements.
-/

namespace SubsetC

namespace Expr

/-- The expression and all expressions inside of it. -/
def nodes : Expr → List Expr
  | literal value span => [literal value span]
  | var name span => [var name span]
  | binary op left right span => binary op left right span :: (left.nodes ++ right.nodes)
  | unary op operand span => unary op operand span :: operand.nodes

theorem mem_nodes_withSpan {expr node : Expr} {span : Span}
    (mem : node ∈ (expr.withSpan span).nodes) : node = expr.withSpan span ∨ node ∈ expr.nodes := by
  cases expr with
  | literal value span' => exact .inl (List.mem_singleton.mp mem)
  | var name span' => exact .inl (List.mem_singleton.mp mem)
  | binary op left right span' =>
      rcases List.mem_cons.mp mem with rfl | inside
      · exact .inl rfl
      · exact .inr (List.mem_cons_of_mem _ inside)
  | unary op operand span' =>
      rcases List.mem_cons.mp mem with rfl | inside
      · exact .inl rfl
      · exact .inr (List.mem_cons_of_mem _ inside)

end Expr

mutual

/-- The statement and all statements inside of it. -/
def Stmt.nodes : Stmt → List Stmt
  | .function type name body span => .function type name body span :: blockNodes body
  | .block body => .block body :: blockNodes body
  | .ifThen condition body span => .ifThen condition body span :: blockNodes body
  | .ifElse condition body otherwise span =>
      .ifElse condition body otherwise span :: (blockNodes body ++ blockNodes otherwise)
  | .loop condition body span => .loop condition body span :: blockNodes body
  | stmt => [stmt]

/-- All statements inside of a block. -/
def blockNodes : Block Stmt → List Stmt
  | ⟨statements, _⟩ => statementNodes statements

/-- The statements of a list and all statements inside of them. -/
def statementNodes : List Stmt → List Stmt
  | [] => []
  | first :: rest => first.nodes ++ statementNodes rest

end

/-- The blocks that the statement consists of. -/
def Stmt.ownBlocks : Stmt → List (Block Stmt)
  | .function _ _ body _ | .block body | .ifThen _ body _ | .loop _ body _ => [body]
  | .ifElse _ body otherwise _ => [body, otherwise]
  | .declare .. | .define .. | .assign .. | .print .. | .scan .. | .leave .. => []

theorem Stmt.nodes_eq (stmt : Stmt) : stmt.nodes = stmt :: stmt.ownBlocks.flatMap blockNodes := by
  cases stmt <;> simp [nodes, ownBlocks]

/-- All statements of the tree, at any depth. -/
def Tree.statementNodes (tree : Tree) : List Stmt :=
  SubsetC.statementNodes tree.statements

/-- All expressions of the tree, at any depth. -/
def Tree.expressionNodes (tree : Tree) : List Expr :=
  (tree.statementNodes.flatMap Stmt.ownExpressions).flatMap Expr.nodes

end SubsetC
