import SubsetC.Span

/-!
# Syntax trees

A source is a list of statements. Functions have no parameters and are never called: a definition
stands for its body. Every node carries the stretch of the source that it was read from, and
`Expr.withSpan` is how an expression in parentheses gets the wider one.
-/

namespace SubsetC

/-- The type that a variable or a function is declared with. -/
inductive DataType where
  | int
  | char
  deriving DecidableEq, Repr, Inhabited

/-- The type as written. -/
def DataType.spelling : DataType → String
  | int => "int"
  | char => "char"

/-- A name with its place. -/
structure Identifier where
  name : String
  span : Span
  deriving DecidableEq, Repr, Inhabited

/-- The operators that take two operands. Both operands of every one are evaluated. -/
inductive BinaryOp where
  | add
  | sub
  | mul
  | div
  | eq
  | ne
  | lt
  | le
  | gt
  | ge
  | and
  | or
  deriving DecidableEq, Repr, Inhabited

namespace BinaryOp

/-- Every operator. -/
def all : List BinaryOp :=
  [add, sub, mul, div, eq, ne, lt, le, gt, ge, and, or]

/-- The operator as written. -/
def spelling : BinaryOp → String
  | add => "+"
  | sub => "-"
  | mul => "*"
  | div => "/"
  | eq => "=="
  | ne => "!="
  | lt => "<"
  | le => "<="
  | gt => ">"
  | ge => ">="
  | and => "&&"
  | or => "||"

/-- The name of the operator in saved code. -/
def label : BinaryOp → String
  | add => "Add"
  | sub => "Sub"
  | mul => "Mul"
  | div => "Div"
  | eq => "Eq"
  | ne => "Ne"
  | lt => "Lt"
  | le => "Le"
  | gt => "Gt"
  | ge => "Ge"
  | and => "And"
  | or => "Or"

end BinaryOp

/-- The operators that take one operand. -/
inductive UnaryOp where
  | neg
  | not
  deriving DecidableEq, Repr, Inhabited

/-- A value that is written out in the source. -/
inductive Literal where
  | int (value : Int64)
  | char (value : Char)
  deriving DecidableEq, Repr, Inhabited

/-- An expression. -/
inductive Expr where
  | literal (value : Literal) (span : Span)
  | var (name : String) (span : Span)
  | binary (op : BinaryOp) (left right : Expr) (span : Span)
  | unary (op : UnaryOp) (operand : Expr) (span : Span)
  deriving DecidableEq, Repr, Inhabited

namespace Expr

/-- Where the expression stands. -/
def span : Expr → Span
  | literal _ span => span
  | var _ span => span
  | binary _ _ _ span => span
  | unary _ _ span => span

/-- The same expression, standing elsewhere. -/
def withSpan (span : Span) : Expr → Expr
  | literal value _ => literal value span
  | var name _ => var name span
  | binary op left right _ => binary op left right span
  | unary op operand _ => unary op operand span

end Expr

/-- Statements in braces. -/
structure Block (α : Type) where
  statements : List α
  span : Span
  deriving Repr, Inhabited

/-- A statement. -/
inductive Stmt where
  /-- A function, which stands for its body. -/
  | function (type : DataType) (name : Identifier) (body : Block Stmt) (span : Span)
  /-- A block on its own. -/
  | block (body : Block Stmt)
  /-- A declaration without a value. -/
  | declare (type : DataType) (name : Identifier) (span : Span)
  /-- A declaration with a value. -/
  | define (type : DataType) (name : Identifier) (value : Expr) (span : Span)
  /-- An assignment. -/
  | assign (target : Identifier) (value : Expr) (span : Span)
  /-- A condition with one branch. -/
  | ifThen (condition : Expr) (body : Block Stmt) (span : Span)
  /-- A condition with two branches. -/
  | ifElse (condition : Expr) (body otherwise : Block Stmt) (span : Span)
  /-- A loop. -/
  | loop (condition : Expr) (body : Block Stmt) (span : Span)
  /-- Output: a format, with its escapes as written, and the variable it shows. -/
  | print (format : String) (argument : Option Identifier) (span : Span)
  /-- Input: a format, with its escapes as written, and the variable to store to. -/
  | scan (format : String) (target : Identifier) (span : Span)
  /-- The end of the whole program, after the value has been computed. -/
  | leave (value : Option Expr) (span : Span)
  deriving Repr, Inhabited

/-- Where the statement stands. -/
def Stmt.span : Stmt → Span
  | function _ _ _ span => span
  | block body => body.span
  | declare _ _ span => span
  | define _ _ _ span => span
  | assign _ _ span => span
  | ifThen _ _ span => span
  | ifElse _ _ _ span => span
  | loop _ _ span => span
  | print _ _ span => span
  | scan _ _ span => span
  | leave _ span => span

/-- The statements of a source. -/
structure Tree where
  statements : List Stmt
  span : Span
  deriving Repr, Inhabited

end SubsetC
