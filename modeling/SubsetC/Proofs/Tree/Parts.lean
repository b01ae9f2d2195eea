import Mathlib.Algebra.Ring.Nat
import SubsetC.Tree

/-!
# Parts of statements

`Stmt.parts` lists a statement with all that lie inside of it; a block stands for its statements.
What a tree uses is gathered from the parts: the variables, the operators, each of which needs a
temporary, and the labels.
-/

namespace SubsetC

namespace Expr

/-- The variables of the expression, from left to right. -/
def vars : Expr → List String
  | literal _ _ => []
  | var name _ => [name]
  | binary _ left right _ => left.vars ++ right.vars
  | unary _ operand _ => operand.vars

/-- The number of operators in the expression. -/
def operators : Expr → Nat
  | literal _ _ | var _ _ => 0
  | binary _ left right _ => left.operators + right.operators + 1
  | unary _ operand _ => operand.operators + 1

end Expr

mutual

/-- The statement and all statements inside of it, blocks left out. -/
def Stmt.parts : Stmt → List Stmt
  | .block body => blockParts body
  | .function type name body span => .function type name body span :: blockParts body
  | .ifThen condition body span => .ifThen condition body span :: blockParts body
  | .ifElse condition body otherwise span =>
      .ifElse condition body otherwise span :: (blockParts body ++ blockParts otherwise)
  | .loop condition body span => .loop condition body span :: blockParts body
  | stmt => [stmt]

/-- All statements inside of a block. -/
def blockParts : Block Stmt → List Stmt
  | ⟨statements, _⟩ => statementParts statements

/-- The statements of a list and all statements inside of them. -/
def statementParts : List Stmt → List Stmt
  | [] => []
  | first :: rest => first.parts ++ statementParts rest

end

namespace Stmt

/-- An induction over statements in which a block stands for its statements. -/
@[elab_as_elim]
theorem nestedInduction {motive : Stmt → Prop}
    (function : ∀ type name body span, motive (.block body) →
      motive (.function type name body span))
    (blockNil : ∀ span, motive (.block ⟨[], span⟩))
    (blockCons : ∀ first rest span, motive first → motive (.block ⟨rest, span⟩) →
      motive (.block ⟨first :: rest, span⟩))
    (declare : ∀ type name span, motive (.declare type name span))
    (define : ∀ type target value span, motive (.define type target value span))
    (assign : ∀ target value span, motive (.assign target value span))
    (ifThen : ∀ condition body span, motive (.block body) → motive (.ifThen condition body span))
    (ifElse : ∀ condition body otherwise span, motive (.block body) → motive (.block otherwise) →
      motive (.ifElse condition body otherwise span))
    (loop : ∀ condition body span, motive (.block body) → motive (.loop condition body span))
    (print : ∀ format argument span, motive (.print format argument span))
    (scan : ∀ format target span, motive (.scan format target span))
    (leave : ∀ value span, motive (.leave value span)) (stmt : Stmt) : motive stmt := by
  refine @Stmt.rec motive (fun body => motive (.block body))
    (fun statements => ∀ span, motive (.block ⟨statements, span⟩)) function ?_ declare define assign
    ifThen ifElse loop print scan leave ?_ blockNil ?_ stmt
  · intro body holds
    exact holds
  · intro statements span holds
    exact holds span
  · intro first rest firstHolds restHolds span
    exact blockCons first rest span firstHolds (restHolds span)

section Parts

variable (type : DataType) (name : Identifier) (condition value : Expr)
  (body otherwise : Block Stmt) (span : Span)

@[simp]
theorem parts_block_nil : (block ⟨[], span⟩).parts = [] := rfl

@[simp]
theorem parts_block_cons (first : Stmt) (rest : List Stmt) :
    (block ⟨first :: rest, span⟩).parts = first.parts ++ (block ⟨rest, span⟩).parts := rfl

@[simp]
theorem parts_function :
    (function type name body span).parts =
      function type name body span :: (block body).parts := rfl

@[simp]
theorem parts_declare : (declare type name span).parts = [declare type name span] := rfl

@[simp]
theorem parts_define : (define type name value span).parts = [define type name value span] := rfl

@[simp]
theorem parts_assign : (assign name value span).parts = [assign name value span] := rfl

@[simp]
theorem parts_ifThen :
    (ifThen condition body span).parts = ifThen condition body span :: (block body).parts := rfl

@[simp]
theorem parts_ifElse :
    (ifElse condition body otherwise span).parts =
      ifElse condition body otherwise span ::
        ((block body).parts ++ (block otherwise).parts) := rfl

@[simp]
theorem parts_loop :
    (loop condition body span).parts = loop condition body span :: (block body).parts := rfl

@[simp]
theorem parts_print (format : String) (argument : Option Identifier) :
    (print format argument span).parts = [print format argument span] := rfl

@[simp]
theorem parts_scan (format : String) :
    (scan format name span).parts = [scan format name span] := rfl

@[simp]
theorem parts_leave (value : Option Expr) : (leave value span).parts = [leave value span] := rfl

end Parts

/-- The expressions that are not in a statement further inside. -/
def ownExpressions : Stmt → List Expr
  | define _ _ value _ | assign _ value _ => [value]
  | ifThen condition _ _ | ifElse condition _ _ _ | loop condition _ _ => [condition]
  | leave value _ => value.toList
  | function .. | block _ | declare .. | print .. | scan .. => []

/-- The variables that are named outside of expressions and of statements further inside. -/
def ownNames : Stmt → List String
  | declare _ name _ | define _ name _ _ | assign name _ _ | scan _ name _ => [name.name]
  | print _ argument _ => argument.toList.map Identifier.name
  | function .. | block _ | ifThen .. | ifElse .. | loop .. | leave .. => []

/-- The variables that are not in a statement further inside. -/
def ownVars (stmt : Stmt) : List String :=
  stmt.ownNames ++ stmt.ownExpressions.flatMap Expr.vars

/-- The number of labels for the jumps of the statement itself, returns not counted. -/
def ownLabels : Stmt → Nat
  | ifThen .. => 1
  | ifElse .. | loop .. => 2
  | function .. | block _ | declare .. | define .. | assign .. | print .. | scan .. | leave .. => 0

/-- The statement ends the program. -/
def isLeave : Stmt → Bool
  | leave .. => true
  | _ => false

/-- All expressions in the statement. -/
def expressions (stmt : Stmt) : List Expr :=
  stmt.parts.flatMap ownExpressions

/-- All variables in the statement. -/
def vars (stmt : Stmt) : List String :=
  stmt.parts.flatMap ownVars

/-- The number of operators in the statement. -/
def operators (stmt : Stmt) : Nat :=
  (stmt.expressions.map Expr.operators).sum

/-- The number of labels for jumps in the statement, returns not counted. -/
def labels (stmt : Stmt) : Nat :=
  (stmt.parts.map ownLabels).sum

/-- There is a return in the statement. -/
def leaves (stmt : Stmt) : Bool :=
  stmt.parts.any isLeave

section Gathered

attribute [local simp] labels operators vars expressions ownLabels ownExpressions ownNames ownVars

variable (type : DataType) (name : Identifier) (condition value : Expr)
  (body otherwise : Block Stmt) (span : Span)

@[simp]
theorem labels_block_nil : (block ⟨[], span⟩).labels = 0 := rfl

@[simp]
theorem labels_block_cons (first : Stmt) (rest : List Stmt) :
    (block ⟨first :: rest, span⟩).labels = first.labels + (block ⟨rest, span⟩).labels := by
  simp

@[simp]
theorem labels_function : (function type name body span).labels = (block body).labels := by
  simp

@[simp]
theorem labels_ifThen : (ifThen condition body span).labels = (block body).labels + 1 := by
  simp [Nat.add_comm]

@[simp]
theorem labels_ifElse :
    (ifElse condition body otherwise span).labels =
      (block body).labels + (block otherwise).labels + 2 := by
  simp [Nat.add_comm]

@[simp]
theorem labels_loop : (loop condition body span).labels = (block body).labels + 2 := by
  simp [Nat.add_comm]

@[simp]
theorem operators_block_nil : (block ⟨[], span⟩).operators = 0 := rfl

@[simp]
theorem operators_block_cons (first : Stmt) (rest : List Stmt) :
    (block ⟨first :: rest, span⟩).operators =
      first.operators + (block ⟨rest, span⟩).operators := by
  simp

@[simp]
theorem operators_function :
    (function type name body span).operators = (block body).operators := by
  simp

@[simp]
theorem operators_declare : (declare type name span).operators = 0 := rfl

@[simp]
theorem operators_define : (define type name value span).operators = value.operators := rfl

@[simp]
theorem operators_assign : (assign name value span).operators = value.operators := rfl

@[simp]
theorem operators_ifThen :
    (ifThen condition body span).operators = condition.operators + (block body).operators := by
  simp

@[simp]
theorem operators_ifElse :
    (ifElse condition body otherwise span).operators =
      condition.operators + (block body).operators + (block otherwise).operators := by
  simp [Nat.add_assoc]

@[simp]
theorem operators_loop :
    (loop condition body span).operators = condition.operators + (block body).operators := by
  simp

@[simp]
theorem operators_print (format : String) (argument : Option Identifier) :
    (print format argument span).operators = 0 := rfl

@[simp]
theorem operators_scan (format : String) : (scan format name span).operators = 0 := rfl

@[simp]
theorem operators_leave (value : Option Expr) :
    (leave value span).operators = (value.toList.map Expr.operators).sum := by
  simp

@[simp]
theorem vars_block_cons (first : Stmt) (rest : List Stmt) :
    (block ⟨first :: rest, span⟩).vars =
      first.vars ++ (block ⟨rest, span⟩).vars := by
  simp

@[simp]
theorem vars_function :
    (function type name body span).vars = (block body).vars := by
  simp

@[simp]
theorem vars_define :
    (define type name value span).vars = name.name :: value.vars := by
  simp

@[simp]
theorem vars_assign : (assign name value span).vars = name.name :: value.vars := by
  simp

@[simp]
theorem vars_ifThen :
    (ifThen condition body span).vars = condition.vars ++ (block body).vars := by
  simp

@[simp]
theorem vars_ifElse :
    (ifElse condition body otherwise span).vars =
      condition.vars ++ (block body).vars ++ (block otherwise).vars := by
  simp

@[simp]
theorem vars_loop :
    (loop condition body span).vars = condition.vars ++ (block body).vars := by
  simp

@[simp]
theorem vars_print (format : String) (argument : Option Identifier) :
    (print format argument span).vars = argument.toList.map Identifier.name := by
  simp

@[simp]
theorem vars_scan (format : String) : (scan format name span).vars = [name.name] := by
  simp

@[simp]
theorem vars_leave (value : Option Expr) :
    (leave value span).vars = value.toList.flatMap Expr.vars := by
  simp

end Gathered

end Stmt

namespace Tree

/-- All statements of the tree as one. -/
def whole (tree : Tree) : Stmt :=
  .block ⟨tree.statements, tree.span⟩

/-- The variables of the tree. The names of functions are no variables. -/
def vars (tree : Tree) : List String :=
  tree.whole.vars

/-- The number of temporaries that the tree needs. -/
def temporaries (tree : Tree) : Nat :=
  tree.whole.operators

/-- The number of labels that the tree needs. All returns share one. -/
def labels (tree : Tree) : Nat :=
  tree.whole.labels + tree.whole.leaves.toNat

end Tree

end SubsetC
