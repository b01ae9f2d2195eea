import SubsetC.Text.Escape
import SubsetC.Token
import SubsetC.Tree

/-!
# Derivations

The grammar of the language, as the types of its derivations. A derivation has the tokens that it
derives, the tree that it stands for and a nesting, which counts the parentheses, signs and
statements of blocks that lie in each other. The places of a tree are left out: `Expr.bare` and
`Stmt.bare` are trees with all places alike.

```text
phrase 0    := INTEGER | CHARACTER | ID | '(' phrase 6 ')' | ('-' | '!') phrase 0
phrase n+1  := phrase n (OPERATOR n+1 phrase n)*
sentence    := TYPE ID ';' | TYPE ID '=' phrase 6 ';' | TYPE ID '(' ')' block
             | ID '=' phrase 6 ';' | 'if' '(' phrase 6 ')' block alternative
             | 'while' '(' phrase 6 ')' block | 'printf' '(' STRING (',' ID)? ')' ';'
             | 'scanf' '(' STRING ',' '&' ID ')' ';' | 'return' phrase 6? ';' | block
alternative := | 'else' block | 'else' 'if' '(' phrase 6 ')' block alternative
block       := '{' sentence* '}'
```
-/

namespace SubsetC

/-- The level of an operator: 1 for those that bind tightest, 6 for the one that binds loosest. -/
def BinaryOp.level : BinaryOp → Nat
  | mul | div => 1
  | add | sub => 2
  | lt | le | gt | ge => 3
  | eq | ne => 4
  | and => 5
  | or => 6

/-- The symbol of an operator. -/
def BinaryOp.symbol : BinaryOp → Symbol
  | add => .plus
  | sub => .minus
  | mul => .star
  | div => .slash
  | eq => .equalEqual
  | ne => .bangEqual
  | lt => .less
  | le => .lessEqual
  | gt => .greater
  | ge => .greaterEqual
  | and => .andAnd
  | or => .orOr

/-- The symbol of a sign. -/
def UnaryOp.symbol : UnaryOp → Symbol
  | neg => .minus
  | not => .bang

/-- The reserved word of a type. -/
def DataType.keyword : DataType → Keyword
  | int => .int
  | char => .char

theorem BinaryOp.symbol_injective {op op' : BinaryOp} (same : op.symbol = op'.symbol) :
    op = op' := by
  cases op <;> cases op' <;> first | rfl | cases same

theorem UnaryOp.symbol_injective {op op' : UnaryOp} (same : op.symbol = op'.symbol) :
    op = op' := by
  cases op <;> cases op' <;> first | rfl | cases same

/-- The type that a reserved word names. -/
def Keyword.dataType? : Keyword → Option DataType
  | int => some .int
  | char => some .char
  | _ => none

@[simp]
theorem DataType.keyword_eq_iff {type : DataType} {word : Keyword} :
    type.keyword = word ↔ word.dataType? = some type := by
  cases type <;> cases word <;> decide

@[simp]
theorem DataType.eq_keyword_iff {type : DataType} {word : Keyword} :
    word = type.keyword ↔ word.dataType? = some type := by
  rw [eq_comm, keyword_eq_iff]

theorem DataType.keyword_injective {type type' : DataType} (same : type.keyword = type'.keyword) :
    type = type' := by
  cases type <;> cases type' <;> first | rfl | cases same

namespace Grammar

mutual

/-- A derivation of an expression whose operators have at most the given level. -/
inductive Phrase : (level : Nat) → Type
  | integer (value : Int64) : Phrase 0
  | character (body : String) : Phrase 0
  | var (name : String) : Phrase 0
  | parentheses (inner : Phrase 6) : Phrase 0
  | signed (op : UnaryOp) (operand : Phrase 0) : Phrase 0
  | row {level : Nat} (first : Phrase level) (rest : Links level) : Phrase (level + 1)

/-- Operators of the level above, each with the operand on its right. -/
inductive Links : (level : Nat) → Type
  | nil {level : Nat} : Links level
  | cons {level : Nat} (op : BinaryOp) (fits : op.level = level + 1) (operand : Phrase level)
      (rest : Links level) : Links level

end

mutual

/-- The tokens of an expression. -/
def Phrase.tokens : {level : Nat} → Phrase level → List Token.Kind
  | _, .integer value => [.integer value]
  | _, .character body => [.character body]
  | _, .var name => [.identifier name]
  | _, .parentheses inner => .symbol .leftParen :: (inner.tokens ++ [.symbol .rightParen])
  | _, .signed op operand => .symbol op.symbol :: operand.tokens
  | _, .row first rest => first.tokens ++ rest.tokens

/-- The tokens of operators with their operands. -/
def Links.tokens : {level : Nat} → Links level → List Token.Kind
  | _, .nil => []
  | _, .cons op _ operand rest => .symbol op.symbol :: (operand.tokens ++ rest.tokens)

end

mutual

/-- The tree of an expression. Parentheses leave no node. -/
def Phrase.tree : {level : Nat} → Phrase level → Expr
  | _, .integer value => .literal (.int value) default
  | _, .character body => .literal (.char (Escape.char body)) default
  | _, .var name => .var name default
  | _, .parentheses inner => inner.tree
  | _, .signed op operand => .unary op operand.tree default
  | _, .row first rest => rest.tree first.tree

/-- The tree of operators behind what stands to the left of them. They group to the left. -/
def Links.tree : {level : Nat} → Links level → (left : Expr) → Expr
  | _, .nil, left => left
  | _, .cons op _ operand rest, left => rest.tree (.binary op left operand.tree default)

end

mutual

/-- How deep parentheses and signs lie in each other. -/
def Phrase.nesting : {level : Nat} → Phrase level → Nat
  | _, .integer _ | _, .character _ | _, .var _ => 0
  | _, .parentheses inner => inner.nesting + 1
  | _, .signed _ operand => operand.nesting + 1
  | _, .row first rest => max first.nesting rest.nesting

/-- How deep parentheses and signs lie in each other in the operands. -/
def Links.nesting : {level : Nat} → Links level → Nat
  | _, .nil => 0
  | _, .cons _ _ operand rest => max operand.nesting rest.nesting

end

mutual

/-- A derivation of a statement. -/
inductive Sentence where
  | declare (type : DataType) (name : String)
  | define (type : DataType) (name : String) (value : Phrase 6)
  | function (type : DataType) (name : String) (body : Sequence)
  | assign (target : String) (value : Phrase 6)
  | conditional (condition : Phrase 6) (body : Sequence) (otherwise : Alternative)
  | loop (condition : Phrase 6) (body : Sequence)
  | print (format : String) (argument : Option String)
  | scan (format : String) (target : String)
  | leave (value : Option (Phrase 6))
  | block (body : Sequence)

/-- A derivation of what stands behind the branch of a conditional statement. -/
inductive Alternative where
  | none
  | block (body : Sequence)
  | conditional (condition : Phrase 6) (body : Sequence) (otherwise : Alternative)

/-- A derivation of the statements of a block. -/
inductive Sequence where
  | nil
  | cons (first : Sentence) (rest : Sequence)

end

/-- The tokens of a test. -/
def testTokens (condition : Phrase 6) : List Token.Kind :=
  .symbol .leftParen :: (condition.tokens ++ [.symbol .rightParen])

/-- The tokens of an argument for output. -/
def argumentTokens : Option String → List Token.Kind
  | none => []
  | some argument => [.symbol .comma, .identifier argument]

/-- The tokens of a value that may be left out. -/
def valueTokens : Option (Phrase 6) → List Token.Kind
  | none => []
  | some value => value.tokens

/-- The nesting of a value that may be left out. -/
def valueNesting : Option (Phrase 6) → Nat
  | none => 0
  | some value => value.nesting

/-- The tokens of a block around those of its statements. -/
def blockTokens (inside : List Token.Kind) : List Token.Kind :=
  .symbol .leftBrace :: (inside ++ [.symbol .rightBrace])

mutual

/-- The tokens of a statement. -/
def Sentence.tokens : Sentence → List Token.Kind
  | .declare type name => [.keyword type.keyword, .identifier name, .symbol .semicolon]
  | .define type name value =>
      .keyword type.keyword :: .identifier name :: .symbol .equal ::
        (value.tokens ++ [.symbol .semicolon])
  | .function type name body =>
      .keyword type.keyword :: .identifier name :: .symbol .leftParen :: .symbol .rightParen ::
        blockTokens body.tokens
  | .assign target value =>
      .identifier target :: .symbol .equal :: (value.tokens ++ [.symbol .semicolon])
  | .conditional condition body otherwise =>
      .keyword .ifWord :: (testTokens condition ++ (blockTokens body.tokens ++ otherwise.tokens))
  | .loop condition body => .keyword .whileWord :: (testTokens condition ++ blockTokens body.tokens)
  | .print format argument =>
      .keyword .printf :: .symbol .leftParen :: .string format ::
        (argumentTokens argument ++ [.symbol .rightParen, .symbol .semicolon])
  | .scan format target =>
      [.keyword .scanf, .symbol .leftParen, .string format, .symbol .comma, .symbol .ampersand,
        .identifier target, .symbol .rightParen, .symbol .semicolon]
  | .leave value => .keyword .returnWord :: (valueTokens value ++ [.symbol .semicolon])
  | .block body => blockTokens body.tokens

/-- The tokens behind the branch of a conditional statement. -/
def Alternative.tokens : Alternative → List Token.Kind
  | .none => []
  | .block body => .keyword .elseWord :: blockTokens body.tokens
  | .conditional condition body otherwise =>
      .keyword .elseWord :: .keyword .ifWord ::
        (testTokens condition ++ (blockTokens body.tokens ++ otherwise.tokens))

/-- The tokens of statements in a row. -/
def Sequence.tokens : Sequence → List Token.Kind
  | .nil => []
  | .cons first rest => first.tokens ++ rest.tokens

end

/-- The tree of a conditional statement with one branch or two. -/
def conditionalTree (condition : Expr) (body : List Stmt) : Option (Block Stmt) → Stmt
  | none => .ifThen condition ⟨body, default⟩ default
  | some otherwise => .ifElse condition ⟨body, default⟩ otherwise default

mutual

/-- The tree of a statement. -/
def Sentence.tree : Sentence → Stmt
  | .declare type name => .declare type ⟨name, default⟩ default
  | .define type name value => .define type ⟨name, default⟩ value.tree default
  | .function type name body => .function type ⟨name, default⟩ ⟨body.trees, default⟩ default
  | .assign target value => .assign ⟨target, default⟩ value.tree default
  | .conditional condition body otherwise =>
      conditionalTree condition.tree body.trees otherwise.tree?
  | .loop condition body => .loop condition.tree ⟨body.trees, default⟩ default
  | .print format argument => .print format (argument.map (⟨·, default⟩)) default
  | .scan format target => .scan format ⟨target, default⟩ default
  | .leave value => .leave (value.map Phrase.tree) default
  | .block body => .block ⟨body.trees, default⟩

/-- The block behind the branch of a conditional statement. A condition right after `else` is alone
in a block of its own. -/
def Alternative.tree? : Alternative → Option (Block Stmt)
  | .none => none
  | .block body => some ⟨body.trees, default⟩
  | .conditional condition body otherwise =>
      some ⟨[conditionalTree condition.tree body.trees otherwise.tree?], default⟩

/-- The trees of statements in a row. -/
def Sequence.trees : Sequence → List Stmt
  | .nil => []
  | .cons first rest => first.tree :: rest.trees

end

mutual

/-- How deep parentheses, signs and statements of blocks lie in each other. -/
def Sentence.nesting : Sentence → Nat
  | .declare _ _ | .print _ _ | .scan _ _ => 0
  | .define _ _ value | .assign _ value => value.nesting
  | .leave value => valueNesting value
  | .conditional condition body otherwise =>
      max (max condition.nesting body.nesting) otherwise.nesting
  | .loop condition body => max condition.nesting body.nesting
  | .function _ _ body | .block body => body.nesting

/-- How deep parentheses, signs and statements of blocks lie in each other. A condition right after
`else` lies no deeper than the one before it. -/
def Alternative.nesting : Alternative → Nat
  | .none => 0
  | .block body => body.nesting
  | .conditional condition body otherwise =>
      max (max condition.nesting body.nesting) otherwise.nesting

/-- The nesting of a block. Each of its statements lies one level deeper. -/
def Sequence.nesting : Sequence → Nat
  | .nil => 0
  | .cons first rest => max (first.nesting + 1) rest.nesting

end

end Grammar

/-- The expression with all places alike. -/
def Expr.bare : Expr → Expr
  | literal value _ => .literal value default
  | var name _ => .var name default
  | binary op left right _ => .binary op left.bare right.bare default
  | unary op operand _ => .unary op operand.bare default

/-- The identifier without its place. -/
def Identifier.bare (identifier : Identifier) : Identifier :=
  ⟨identifier.name, default⟩

mutual

/-- The statement with all places alike. -/
def Stmt.bare : Stmt → Stmt
  | .function type name body _ => .function type name.bare (blockBare body) default
  | .block body => .block (blockBare body)
  | .declare type name _ => .declare type name.bare default
  | .define type name value _ => .define type name.bare value.bare default
  | .assign target value _ => .assign target.bare value.bare default
  | .ifThen condition body _ => .ifThen condition.bare (blockBare body) default
  | .ifElse condition body otherwise _ =>
      .ifElse condition.bare (blockBare body) (blockBare otherwise) default
  | .loop condition body _ => .loop condition.bare (blockBare body) default
  | .print format argument _ => .print format (argument.map Identifier.bare) default
  | .scan format target _ => .scan format target.bare default
  | .leave value _ => .leave (value.map Expr.bare) default

/-- The block with all places alike. -/
def blockBare : Block Stmt → Block Stmt
  | ⟨statements, _⟩ => ⟨statementsBare statements, default⟩

/-- The statements with all places alike. -/
def statementsBare : List Stmt → List Stmt
  | [] => []
  | first :: rest => first.bare :: statementsBare rest

end

end SubsetC
