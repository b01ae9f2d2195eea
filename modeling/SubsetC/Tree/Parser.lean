import SubsetC.Reader
import SubsetC.Session
import SubsetC.Text.Escape
import SubsetC.Token.Segments

/-!
# From tokens to trees

A parser by recursive descent with one token of lookahead. Its state is a `Cursor`, which keeps how
deep the parser is in statements of blocks, operands of signs and parentheses. One more level than
`maxNesting` is an error: the productions for a given room are built from those with one level less.
Operators and the statements of a block are read in loops. A condition right after `else` is read by
`ifFrom` calling itself, and that is no level: how deep these calls go is bounded by the number of
tokens alone.

While it reads, the parser reports the lexical errors that lie between the tokens, enters each
declaration once it is complete, and reports each use of a name that is not yet declared.
-/

namespace SubsetC

/-- How deep statements in blocks, operands of signs and parentheses may lie in each other. -/
def maxNesting : Nat := 128

/-- Why no tree can be read. -/
inductive ParseError where
  | unexpectedToken (expected : String) (found : Token.Kind) (line : UInt32)
  | unexpectedEnd (expected : String) (line : UInt32)
  | nestingTooDeep (line : UInt32)
  deriving DecidableEq, Repr, Inhabited

namespace ParseError

/-- The line of the token at which reading stopped. -/
def line : ParseError → UInt32
  | unexpectedToken _ _ line => line
  | unexpectedEnd _ line => line
  | nestingTooDeep line => line

/-- The error in words. -/
def message : ParseError → String
  | unexpectedToken expected found line =>
      s!"unexpected token '{found.spelling}' at line {line.toNat}: expected {expected}"
  | unexpectedEnd expected line =>
      s!"unexpected end of input at line {line.toNat}: expected {expected}"
  | nestingTooDeep line => s!"nesting deeper than {maxNesting} levels at line {line.toNat}"

end ParseError

/-- A parser's place in its source, and what it has found so far. -/
structure Cursor where
  /-- The tokens that have not been taken. -/
  stream : TokenStream
  /-- The end of the token taken last; before any has been taken, of the next one. -/
  previousStop : Nat
  /-- The number of levels that the parser is in. -/
  depth : Nat
  /-- What has been declared and reported. -/
  session : Session
  deriving DecidableEq, Inhabited

namespace Cursor

instance : Source Cursor where
  remaining cursor := cursor.stream.ahead.length

/-- The next token. -/
def token (cursor : Cursor) : Token :=
  cursor.stream.current.token

/-- What the next token is. -/
def kind (cursor : Cursor) : Token.Kind :=
  cursor.token.kind

/-- Reports lexical errors. -/
def reportLexical (session : Session) (errors : List LexicalError) : Session :=
  errors.foldl
    (fun session error => session.report (.error .lexical error.message error.line)) session

/-- A parser before the first token of a source. -/
def start (source : String) (session : Session) : Cursor :=
  let stream := TokenStream.ofSource source
  { stream
    previousStop := stream.current.token.span.stop
    depth := 0
    session := reportLexical session stream.current.errors }

/-- Takes the next token. The errors before the token after it are reported at once. -/
def advance (cursor : Cursor) : Cursor :=
  let stream := cursor.stream.advance
  { cursor with
    stream
    previousStop := cursor.token.span.stop
    session := reportLexical cursor.session stream.current.errors }

/-- The error of finding something else than what is expected. -/
def unexpected (cursor : Cursor) (expected : String) : ParseError :=
  match cursor.kind with
  | .endOfInput => .unexpectedEnd expected cursor.token.line
  | found => .unexpectedToken expected found cursor.token.line

theorem remaining_advance_lt {cursor : Cursor} {lexeme : Lexeme} {rest : List Lexeme}
    (ahead : cursor.stream.ahead = lexeme :: rest) :
    Source.remaining cursor.advance < Source.remaining cursor := by
  simp [Source.remaining, advance, TokenStream.advance, ahead]

theorem remaining_advance_le (cursor : Cursor) :
    Source.remaining cursor.advance ≤ Source.remaining cursor := by
  cases ahead : cursor.stream.ahead with
  | nil => simp [Source.remaining, advance, TokenStream.advance, ahead]
  | cons lexeme rest => exact Nat.le_of_lt (remaining_advance_lt ahead)

end Cursor

/-- A production of the grammar. -/
abbrev Production := Reader Cursor ParseError

/-- A production that takes at least one token. -/
abbrev TokenStep := Step Cursor ParseError

namespace TokenStep

/-- Fails for want of what is expected here. -/
def unexpected {α : Type} (expected : String) : TokenStep α :=
  Step.choose fun cursor => Step.fail (cursor.unexpected expected)

/-- Takes the next token if it is an accepted one. -/
def accept {α : Type} (expected : String) (accepted : Token.Kind → Option α) :
    TokenStep (α × Span) where
  run cursor :=
    match cursor.stream.ahead with
    | [] => (.error (cursor.unexpected expected), cursor)
    | lexeme :: _ =>
      match accepted lexeme.token.kind with
      | none => (.error (cursor.unexpected expected), cursor)
      | some value => (.ok (value, lexeme.token.span), cursor.advance)
  remaining_le cursor := by
    split
    · exact Nat.le_refl _
    · rename_i ahead
      split
      · exact Nat.le_refl _
      · exact Nat.le_of_lt (Cursor.remaining_advance_lt ahead)
  remaining_lt {cursor _ _} equation := by
    split at equation
    · simp at equation
    · rename_i ahead
      split at equation
      · simp at equation
      · simp only [Prod.mk.injEq] at equation
        obtain ⟨-, rfl⟩ := equation
        exact Cursor.remaining_advance_lt ahead

/-- Takes one given token, and says where it stands. -/
def expect (kind : Token.Kind) : TokenStep Span :=
  (accept kind.describe fun found => if found = kind then some () else none).map Prod.snd

/-- Takes one given symbol. -/
def symbol (mark : Symbol) : TokenStep Span :=
  expect (.symbol mark)

/-- Takes one given reserved word. -/
def keyword (word : Keyword) : TokenStep Span :=
  expect (.keyword word)

/-- Takes the name of a type. -/
def dataType : TokenStep (DataType × Span) :=
  accept "type" fun
    | .keyword .int => some .int
    | .keyword .char => some .char
    | _ => none

/-- Takes an identifier. -/
def identifier : TokenStep Identifier :=
  (accept "identifier" fun
    | .identifier name => some name
    | _ => none).map fun (name, span) => ⟨name, span⟩

/-- Takes a string literal. -/
def stringLiteral : TokenStep String :=
  (accept "string literal" fun
    | .string body => some body
    | _ => none).map Prod.fst

/-- Runs a step one level deeper. -/
def nested {α : Type} (step : TokenStep α) : TokenStep α where
  run cursor :=
    if maxNesting ≤ cursor.depth then (.error (.nestingTooDeep cursor.token.line), cursor)
    else
      let (outcome, cursor') := step.run { cursor with depth := cursor.depth + 1 }
      (outcome, { cursor' with depth := cursor'.depth - 1 })
  remaining_le cursor := by
    split
    · exact Nat.le_refl _
    · exact step.remaining_le { cursor with depth := cursor.depth + 1 }
  remaining_lt {cursor _ _} equation := by
    split at equation
    · simp at equation
    · simp only [Prod.mk.injEq] at equation
      obtain ⟨outcome, rfl⟩ := equation
      have equation : step.run { cursor with depth := cursor.depth + 1 } =
          (_, (step.run { cursor with depth := cursor.depth + 1 }).2) := Prod.ext outcome rfl
      have taken := step.remaining_lt equation
      exact taken

/-- Fails because there is no deeper level. -/
def tooDeep {α : Type} : TokenStep α :=
  Step.choose fun cursor => Step.fail (.nestingTooDeep cursor.token.line)

end TokenStep

namespace Production

/-- What the next token is. -/
def kind : Production Token.Kind :=
  Reader.inspect Cursor.kind

/-- The stretch from the start of `span` to the end of the token taken last. -/
def spanFrom (span : Span) : Production Span :=
  Reader.inspect fun cursor => span.upTo cursor.previousStop

/-- Changes what has been declared or reported. -/
def modifySession (f : Session → Session) : Production Unit where
  run cursor := (.ok (), { cursor with session := f cursor.session })
  remaining_le _ := Nat.le_refl _

/-- Reports the use of a name that is not declared. -/
def checkDeclared (identifier : Identifier) : Production Unit :=
  modifySession fun session =>
    if session.symbols.contains identifier.name then session
    else
      session.report
        (.error .semantic s!"Undeclared variable '{identifier.name}'" identifier.span.line)

/-- Enters a declaration. -/
def declare (type : DataType) (identifier : Identifier) : Production Unit :=
  modifySession fun session => session.declare identifier.name type

end Production

/-- The productions that lie in each other. -/
structure Productions where
  /-- An operand of a binary operator. -/
  operand : TokenStep Expr
  expression : TokenStep Expr
  block : TokenStep (Block Stmt)
  statement : TokenStep Stmt

namespace Productions

open TokenStep Production

/-- The binary operators, from those that bind loosest to those that bind tightest. Operators of one
level group to the left. -/
def levels : List (Token.Kind → Option BinaryOp) :=
  [fun
    | .symbol .orOr => some .or
    | _ => none,
  fun
    | .symbol .andAnd => some .and
    | _ => none,
  fun
    | .symbol .equalEqual => some .eq
    | .symbol .bangEqual => some .ne
    | _ => none,
  fun
    | .symbol .less => some .lt
    | .symbol .lessEqual => some .le
    | .symbol .greater => some .gt
    | .symbol .greaterEqual => some .ge
    | _ => none,
  fun
    | .symbol .plus => some .add
    | .symbol .minus => some .sub
    | _ => none,
  fun
    | .symbol .star => some .mul
    | .symbol .slash => some .div
    | _ => none]

/-- Operands with the operators of one level between them. -/
def chain (operator : Token.Kind → Option BinaryOp) (operand : TokenStep Expr) : TokenStep Expr :=
  operand.andThen <| Reader.iterate fun left cursor =>
    if (operator cursor.kind).isSome then
      some <| (accept "operator" operator).andThen fun (op, _) => do
        let right ← operand.toReader
        return .binary op left right (← spanFrom left.span)
    else none

/-- Expressions over given operands. -/
def expressionOver (operand : TokenStep Expr) : TokenStep Expr :=
  levels.foldr chain operand

/-- The operand of a sign, or one without a sign. -/
def operandOver (inner : Productions) : TokenStep Expr :=
  Step.choose fun cursor =>
    match cursor.kind with
    | .symbol .minus => signed .minus .neg
    | .symbol .bang => signed .bang .not
    | .integer value => literal (.int value)
    | .character body => literal (.char (Escape.char body))
    | .identifier _ => identifier.andThen fun used => do
        checkDeclared used
        return .var used.name used.span
    | .symbol .leftParen => (symbol .leftParen).andThen fun opening => do
        let expression ← (nested inner.expression).toReader
        let _ ← (symbol .rightParen).toReader
        return expression.withSpan (← spanFrom opening)
    | _ => unexpected "expression"
where
  /-- A sign with its operand. -/
  signed (mark : Symbol) (op : UnaryOp) : TokenStep Expr :=
    (symbol mark).andThen fun sign => do
      let operand ← (nested inner.operand).toReader
      return .unary op operand (← spanFrom sign)
  /-- The next token as a literal. -/
  literal (value : Literal) : TokenStep Expr :=
    (accept "expression" some).map fun (_, span) => .literal value span

/-- Statements in braces. -/
def blockOver (inner : Productions) : TokenStep (Block Stmt) :=
  (symbol .leftBrace).andThen fun opening => do
    let statements ← Reader.many
      (fun cursor => cursor.kind != .symbol .rightBrace && cursor.kind != .endOfInput)
      (nested inner.statement)
    let _ ← (symbol .rightBrace).toReader
    return ⟨statements, ← spanFrom opening⟩

section

variable (expression : TokenStep Expr) (block : TokenStep (Block Stmt))

/-- A declaration, or the definition of a function. A variable is declared only after the value that
it starts with. -/
def declaration : TokenStep Stmt :=
  dataType.andThen fun (type, opening) => do
    let name ← identifier.toReader
    match ← kind with
    | .symbol .leftParen =>
      let _ ← (symbol .leftParen).toReader
      let _ ← (symbol .rightParen).toReader
      let body ← block.toReader
      return .function type name body (← spanFrom opening)
    | .symbol .equal =>
      let _ ← (symbol .equal).toReader
      let value ← expression.toReader
      let _ ← (symbol .semicolon).toReader
      declare type name
      return .define type name value (← spanFrom opening)
    | _ =>
      let _ ← (symbol .semicolon).toReader
      declare type name
      return .declare type name (← spanFrom opening)

/-- An assignment. The name is checked before the value is read. -/
def assignment : TokenStep Stmt :=
  identifier.andThen fun target => do
    checkDeclared target
    let _ ← (symbol .equal).toReader
    let value ← expression.toReader
    let _ ← (symbol .semicolon).toReader
    return .assign target value (← spanFrom target.span)

/-- An expression in parentheses. -/
def condition : Production Expr := do
  let _ ← (symbol .leftParen).toReader
  let expression ← expression.toReader
  let _ ← (symbol .rightParen).toReader
  return expression

/-- A conditional statement, of which only the ends of the branches are still open: the statements
that hang on one another start at `opening`, and the last one ends at `stop`. -/
def conditional (opening : Span) (condition : Expr) (body : Block Stmt)
    (otherwise : Option (Block Stmt)) (stop : Nat) : Stmt :=
  match otherwise with
  | none => .ifThen condition body (opening.upTo stop)
  | some otherwise => .ifElse condition body otherwise (opening.upTo stop)

/-- The place of the first token of a conditional statement, the condition and the branch. -/
def ifHead : TokenStep (Span × Expr × Block Stmt) :=
  (keyword .ifWord).andThen fun opening => do
    let condition ← condition expression
    return (opening, condition, ← block.toReader)

/-- Reads a conditional statement. A condition right after `else` is read like the first one, and
the statement that comes of it is alone in a block. -/
def ifFrom (cursor : Cursor) : Except ParseError Stmt × Cursor :=
  match _equation : (ifHead expression block).run cursor with
  | (.error error, behind) => (.error error, behind)
  | (.ok (opening, condition, body), behind) =>
    let (otherwise, last) : Except ParseError (Option (Block Stmt)) × Cursor :=
      if behind.kind = .keyword .elseWord then
        let alternative := behind.advance
        if alternative.kind = .keyword .ifWord then
          let (nested, last) := ifFrom alternative
          (nested.map fun nested => some ⟨[nested], nested.span⟩, last)
        else (block.map some).run alternative
      else (.ok none, behind)
    (otherwise.map fun otherwise =>
      conditional opening condition body otherwise last.previousStop, last)
termination_by Source.remaining cursor
decreasing_by
  exact Nat.lt_of_le_of_lt behind.remaining_advance_le
    ((ifHead expression block).remaining_lt _equation)

theorem remaining_ifFrom (cursor : Cursor) :
    Source.remaining (ifFrom expression block cursor).2 ≤
      Source.remaining ((ifHead expression block).run cursor).2 := by
  rw [ifFrom]
  split
  · rename_i error behind headRan
    exact Nat.le_of_eq (by rw [headRan])
  · rename_i opening condition body behind headRan
    rw [headRan]
    have advanced := behind.remaining_advance_le
    have less := Nat.lt_of_le_of_lt advanced ((ifHead expression block).remaining_lt headRan)
    dsimp only
    split
    · split
      · have deeper := remaining_ifFrom behind.advance
        have started := (ifHead expression block).remaining_le behind.advance
        exact Nat.le_trans deeper (Nat.le_trans started advanced)
      · exact Nat.le_trans ((block.map some).remaining_le _) advanced
    · exact Nat.le_refl _
termination_by Source.remaining cursor
decreasing_by exact less

/-- A conditional statement. -/
def ifStatement : TokenStep Stmt where
  run := ifFrom expression block
  remaining_le cursor :=
    Nat.le_trans (remaining_ifFrom expression block cursor)
      ((ifHead expression block).remaining_le _)
  remaining_lt {cursor _ _} equation := by
    have within := remaining_ifFrom expression block cursor
    rw [equation] at within
    apply Nat.lt_of_le_of_lt within
    rw [ifFrom] at equation
    split at equation
    · cases equation
    · rename_i headRan
      rw [headRan]
      exact (ifHead expression block).remaining_lt headRan

/-- A loop. -/
def loopStatement : TokenStep Stmt :=
  (keyword .whileWord).andThen fun opening => do
    let condition ← condition expression
    let body ← block.toReader
    return .loop condition body (← spanFrom opening)

/-- Output of a text, with at most one variable. -/
def printStatement : TokenStep Stmt :=
  (keyword .printf).andThen fun opening => do
    let _ ← (symbol .leftParen).toReader
    let format ← stringLiteral.toReader
    let argument ← Reader.choose fun cursor =>
      if cursor.kind = .symbol .comma then do
        let _ ← (symbol .comma).toReader
        let argument ← identifier.toReader
        checkDeclared argument
        return some argument
      else pure none
    let _ ← (symbol .rightParen).toReader
    let _ ← (symbol .semicolon).toReader
    return .print format argument (← spanFrom opening)

/-- Input to one variable. -/
def scanStatement : TokenStep Stmt :=
  (keyword .scanf).andThen fun opening => do
    let _ ← (symbol .leftParen).toReader
    let format ← stringLiteral.toReader
    let _ ← (symbol .comma).toReader
    let _ ← (symbol .ampersand).toReader
    let target ← identifier.toReader
    checkDeclared target
    let _ ← (symbol .rightParen).toReader
    let _ ← (symbol .semicolon).toReader
    return .scan format target (← spanFrom opening)

/-- The end of the program. -/
def leaveStatement : TokenStep Stmt :=
  (keyword .returnWord).andThen fun opening => do
    let value ← Reader.choose fun cursor =>
      if cursor.kind = .symbol .semicolon then pure none
      else do return some (← expression.toReader)
    let _ ← (symbol .semicolon).toReader
    return .leave value (← spanFrom opening)

/-- A statement, told by its first token. -/
def statementOver : TokenStep Stmt :=
  Step.choose fun cursor =>
    match cursor.kind with
    | .keyword .int | .keyword .char => declaration expression block
    | .identifier _ => assignment expression
    | .keyword .ifWord => ifStatement expression block
    | .keyword .whileWord => loopStatement expression block
    | .keyword .printf => printStatement
    | .keyword .scanf => scanStatement
    | .keyword .returnWord => leaveStatement expression
    | .symbol .leftBrace => block.map .block
    | _ => unexpected "statement"

end

/-- The productions below the deepest level. -/
def beyond : Productions :=
  ⟨tooDeep, tooDeep, tooDeep, tooDeep⟩

/-- The productions of one level, given those of the level below it. -/
def level (inner : Productions) : Productions :=
  let operand := operandOver inner
  let expression := expressionOver operand
  let block := blockOver inner
  ⟨operand, expression, block, statementOver expression block⟩

/-- The productions where `room` more levels may be entered. -/
def within : (room : Nat) → Productions
  | 0 => level beyond
  | room + 1 => level (within room)

end Productions

namespace Cursor

/-- The productions for where the parser is. -/
def productions (cursor : Cursor) : Productions :=
  .within (maxNesting - cursor.depth)

/-- Reads an expression. -/
def expression (cursor : Cursor) : Except ParseError Expr × Cursor :=
  cursor.productions.expression.run cursor

/-- Reads a block. -/
def block (cursor : Cursor) : Except ParseError (Block Stmt) × Cursor :=
  cursor.productions.block.run cursor

/-- Reads a statement. -/
def statement (cursor : Cursor) : Except ParseError Stmt × Cursor :=
  cursor.productions.statement.run cursor

/-- Reads statements up to the end of the source. At an error it stops, reports it, and gives the
statements before it. -/
def tree (cursor : Cursor) : (Tree × Option ParseError) × Cursor :=
  let opening := cursor.token.span
  let ((statements, failure), last) :=
    Reader.collect (fun cursor => cursor.kind != .endOfInput) cursor.productions.statement cursor
  let session := match failure with
    | none => last.session
    | some error => last.session.report (.error .syntactic error.message error.line)
  ((⟨statements, opening.upTo last.previousStop⟩, failure), { last with session })

end Cursor

/-- Reads a source. The session gets the declarations and all that is reported. -/
def parse (source : String) (session : Session) : (Tree × Option ParseError) × Session :=
  let (outcome, cursor) := (Cursor.start source session).tree
  (outcome, cursor.session)

end SubsetC
