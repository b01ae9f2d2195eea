import SubsetC.Proofs.Grammar.Derivations
import SubsetC.Proofs.Tree.Parts

/-!
# The height of a tree

`Tree.height` is the length of the longest way down a tree, which is how deep a walk over the tree
recurses. `Tree.row` is the length of its longest row. The nodes of a row lie below each other, yet
nothing in the text is around them: binary operators, each the left operand of the next one, and
conditional statements, each alone in the block behind the `else` of the one before.
-/

namespace SubsetC

namespace Expr

/-- The height of an expression. -/
def height : Expr → Nat
  | literal _ _ | var _ _ => 1
  | binary _ left right _ => max left.height right.height + 1
  | unary _ operand _ => operand.height + 1

/-- The number of binary operators from here on to the left. -/
def leftward : Expr → Nat
  | binary _ left _ _ => left.leftward + 1
  | literal _ _ | var _ _ | unary _ _ _ => 0

/-- The longest row of binary operators. -/
def row : Expr → Nat
  | literal _ _ | var _ _ => 0
  | binary _ left right _ => max (left.leftward + 1) (max left.row right.row)
  | unary _ operand _ => operand.row

theorem leftward_le_row (expr : Expr) : expr.leftward ≤ expr.row := by
  cases expr with
  | literal value span => exact Nat.le_refl _
  | var name span => exact Nat.le_refl _
  | binary op left right span => exact Nat.le_max_left _ _
  | unary op operand span => exact Nat.zero_le _

end Expr

mutual

/-- The number of conditional statements from here on, each alone behind the one before it. -/
def Stmt.hanging : Stmt → Nat
  | .ifThen .. => 1
  | .ifElse _ _ otherwise _ => blockHanging otherwise + 1
  | .function .. | .block _ | .declare .. | .define .. | .assign .. | .loop .. | .print ..
  | .scan .. | .leave .. => 0

/-- The number of conditional statements that hang on a block. -/
def blockHanging : Block Stmt → Nat
  | ⟨statements, _⟩ => statementsHanging statements

/-- The number of conditional statements from the only statement on. -/
def statementsHanging : List Stmt → Nat
  | [stmt] => stmt.hanging
  | [] | _ :: _ :: _ => 0

end

mutual

/-- The height of a statement. -/
def Stmt.height : Stmt → Nat
  | .function _ _ body _ | .block body => blockHeight body + 1
  | .declare .. | .print .. | .scan .. | .leave none _ => 1
  | .define _ _ value _ | .assign _ value _ | .leave (some value) _ => value.height + 1
  | .ifThen condition body _ | .loop condition body _ =>
      max condition.height (blockHeight body) + 1
  | .ifElse condition body otherwise _ =>
      max (max condition.height (blockHeight body)) (blockHeight otherwise) + 1

/-- The height of a block. -/
def blockHeight : Block Stmt → Nat
  | ⟨statements, _⟩ => statementsHeight statements + 1

/-- The height of the highest statement. -/
def statementsHeight : List Stmt → Nat
  | [] => 0
  | first :: rest => max first.height (statementsHeight rest)

end

mutual

/-- The longest row in a statement. -/
def Stmt.row : Stmt → Nat
  | .function _ _ body _ | .block body => blockRow body
  | .declare .. | .print .. | .scan .. | .leave none _ => 0
  | .define _ _ value _ | .assign _ value _ | .leave (some value) _ => value.row
  | .ifThen condition body _ | .loop condition body _ => max condition.row (blockRow body)
  | .ifElse condition body otherwise _ =>
      max (blockHanging otherwise) (max (max condition.row (blockRow body)) (blockRow otherwise))

/-- The longest row in a block. -/
def blockRow : Block Stmt → Nat
  | ⟨statements, _⟩ => statementsRow statements

/-- The longest row in some statements. -/
def statementsRow : List Stmt → Nat
  | [] => 0
  | first :: rest => max first.row (statementsRow rest)

end

namespace Tree

/-- The height of a tree. -/
def height (tree : Tree) : Nat :=
  statementsHeight tree.statements + 1

/-- The longest row in a tree. -/
def row (tree : Tree) : Nat :=
  statementsRow tree.statements

end Tree

/-! ## Places -/

namespace Expr

@[simp]
theorem height_bare (expr : Expr) : expr.bare.height = expr.height := by
  induction expr with
  | literal value span => rfl
  | var name span => rfl
  | binary op left right span ihLeft ihRight => simp [bare, height, ihLeft, ihRight]
  | unary op operand span ih => simp [bare, height, ih]

@[simp]
theorem leftward_bare (expr : Expr) : expr.bare.leftward = expr.leftward := by
  induction expr with
  | literal value span => rfl
  | var name span => rfl
  | binary op left right span ihLeft ihRight => simp [bare, leftward, ihLeft]
  | unary op operand span ih => rfl

@[simp]
theorem row_bare (expr : Expr) : expr.bare.row = expr.row := by
  induction expr with
  | literal value span => rfl
  | var name span => rfl
  | binary op left right span ihLeft ihRight => simp [bare, row, ihLeft, ihRight]
  | unary op operand span ih => simpa [bare, row] using ih

end Expr

mutual

/-- A height does not depend on places. -/
theorem Stmt.height_bare (stmt : Stmt) : stmt.bare.height = stmt.height := by
  match stmt with
  | .function type name body span => simp [Stmt.bare, Stmt.height, blockHeight_bare]
  | .block body => simp [Stmt.bare, Stmt.height, blockHeight_bare]
  | .declare type name span => rfl
  | .define type name value span => simp [Stmt.bare, Stmt.height]
  | .assign target value span => simp [Stmt.bare, Stmt.height]
  | .ifThen condition body span => simp [Stmt.bare, Stmt.height, blockHeight_bare]
  | .ifElse condition body otherwise span => simp [Stmt.bare, Stmt.height, blockHeight_bare]
  | .loop condition body span => simp [Stmt.bare, Stmt.height, blockHeight_bare]
  | .print format argument span => rfl
  | .scan format target span => rfl
  | .leave none span => rfl
  | .leave (some value) span => simp [Stmt.bare, Stmt.height]

theorem blockHeight_bare (block : Block Stmt) :
    blockHeight (blockBare block) = blockHeight block := by
  match block with
  | ⟨statements, span⟩ => simp [blockBare, blockHeight, statementsHeight_bare]

theorem statementsHeight_bare (statements : List Stmt) :
    statementsHeight (statementsBare statements) = statementsHeight statements := by
  match statements with
  | [] => rfl
  | first :: rest =>
      simp [statementsBare, statementsHeight, first.height_bare, statementsHeight_bare rest]

end

mutual

/-- What hangs on a statement does not depend on places. -/
theorem Stmt.hanging_bare (stmt : Stmt) : stmt.bare.hanging = stmt.hanging := by
  match stmt with
  | .ifElse condition body otherwise span =>
      simp [Stmt.bare, Stmt.hanging, blockHanging_bare otherwise]
  | .function .. | .block _ | .declare .. | .define .. | .assign .. | .ifThen .. | .loop ..
  | .print .. | .scan .. | .leave .. => rfl

theorem blockHanging_bare (block : Block Stmt) :
    blockHanging (blockBare block) = blockHanging block := by
  match block with
  | ⟨statements, span⟩ => simp [blockBare, blockHanging, statementsHanging_bare]

theorem statementsHanging_bare (statements : List Stmt) :
    statementsHanging (statementsBare statements) = statementsHanging statements := by
  match statements with
  | [] => rfl
  | [stmt] => exact stmt.hanging_bare
  | first :: second :: rest => rfl

end

mutual

/-- A row does not depend on places. -/
theorem Stmt.row_bare (stmt : Stmt) : stmt.bare.row = stmt.row := by
  match stmt with
  | .function type name body span => simp [Stmt.bare, Stmt.row, blockRow_bare]
  | .block body => simp [Stmt.bare, Stmt.row, blockRow_bare]
  | .declare type name span => rfl
  | .define type name value span => simp [Stmt.bare, Stmt.row]
  | .assign target value span => simp [Stmt.bare, Stmt.row]
  | .ifThen condition body span => simp [Stmt.bare, Stmt.row, blockRow_bare]
  | .ifElse condition body otherwise span =>
      simp [Stmt.bare, Stmt.row, blockRow_bare, blockHanging_bare]
  | .loop condition body span => simp [Stmt.bare, Stmt.row, blockRow_bare]
  | .print format argument span => rfl
  | .scan format target span => rfl
  | .leave none span => rfl
  | .leave (some value) span => simp [Stmt.bare, Stmt.row]

theorem blockRow_bare (block : Block Stmt) : blockRow (blockBare block) = blockRow block := by
  match block with
  | ⟨statements, span⟩ => simp [blockBare, blockRow, statementsRow_bare]

theorem statementsRow_bare (statements : List Stmt) :
    statementsRow (statementsBare statements) = statementsRow statements := by
  match statements with
  | [] => rfl
  | first :: rest => simp [statementsBare, statementsRow, first.row_bare, statementsRow_bare rest]

end

end SubsetC
