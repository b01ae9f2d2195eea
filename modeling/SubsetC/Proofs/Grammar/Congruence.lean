import SubsetC.Proofs.Grammar.Soundness

/-!
# Productions over related ones

Every production is put together from a few steps in a few ways. A relation between productions that
goes through all of these is a `Production.Congruence`. It then holds between two productions of the
grammar that are over related ones, whatever it says. This is where the grammar is gone through,
with a lemma for each production; a property of single productions is a relation that looks at one
of the two only.
-/

namespace SubsetC

/-- The relation goes through the ways in which productions are put together. -/
structure Production.Congruence (Relates : ∀ ⦃α : Type⦄, Production α → Production α → Prop) :
    Prop where
  pure {α : Type} (value : α) : Relates (Pure.pure value) (Pure.pure value)
  fail {α : Type} (error : ParseError) :
    Relates (Reader.fail error : Production α) (Reader.fail error)
  inspect {α : Type} (view : Cursor → α) :
    Relates (Reader.inspect view : Production α) (Reader.inspect view)
  accept {α : Type} (expected : String) (accepted : Token.Kind → Option α) :
    Relates (TokenStep.accept expected accepted).toReader
      (TokenStep.accept expected accepted).toReader
  checkDeclared (identifier : Identifier) :
    Relates (checkDeclared identifier) (checkDeclared identifier)
  declare (type : DataType) (identifier : Identifier) :
    Relates (declare type identifier) (declare type identifier)
  bind {α β : Type} {first first' : Production β} {second second' : β → Production α}
    (early : Relates first first') (late : ∀ value, Relates (second value) (second' value)) :
    Relates (first >>= second) (first' >>= second')
  choose {α : Type} {reader reader' : Cursor → Production α}
    (related : ∀ cursor, Relates (reader cursor) (reader' cursor)) :
    Relates (Reader.choose reader) (Reader.choose reader')
  iterate {α : Type} {wanted : Cursor → Bool} {step step' : α → TokenStep α}
    (related : ∀ value, Relates (step value).toReader (step' value).toReader) (value : α) :
    Relates
      (Reader.iterate (fun value cursor => if wanted cursor then some (step value) else none) value)
      (Reader.iterate (fun value cursor => if wanted cursor then some (step' value) else none)
        value)
  many {α : Type} {step step' : TokenStep α} (related : Relates step.toReader step'.toReader)
    (wanted : Cursor → Bool) : Relates (Reader.many wanted step) (Reader.many wanted step')

/-- The relation holds between all productions of one kind. -/
structure Productions.Related (Relates : ∀ ⦃α : Type⦄, Production α → Production α → Prop)
    (first second : Productions) : Prop where
  operand : Relates first.operand.toReader second.operand.toReader
  expression : Relates first.expression.toReader second.expression.toReader
  block : Relates first.block.toReader second.block.toReader
  statement : Relates first.statement.toReader second.statement.toReader

/-- The productions, each of them run one level deeper. -/
def Productions.inward (productions : Productions) : Productions where
  operand := .nested productions.operand
  expression := .nested productions.expression
  block := .nested productions.block
  statement := .nested productions.statement

namespace Production.Congruence

open TokenStep Productions

variable {Relates : ∀ ⦃α : Type⦄, Production α → Production α → Prop}
  (congruence : Congruence Relates)

include congruence

section Steps

variable {α β : Type}

/-- The relation says nothing of outcomes, so they may be changed on both sides. -/
theorem map {f : β → α} {step step' : TokenStep β}
    (related : Relates step.toReader step'.toReader) :
    Relates (step.map f).toReader (step'.map f).toReader :=
  congruence.bind related fun value => congruence.pure (f value)

/-- As for readers: it is enough that the steps for each cursor are related. -/
theorem chooseStep {step step' : Cursor → TokenStep α}
    (related : ∀ cursor, Relates (step cursor).toReader (step' cursor).toReader) :
    Relates (Step.choose step).toReader (Step.choose step').toReader :=
  congruence.choose related

/-- Steps that take a single token are the same on both sides. -/
theorem symbol (mark : Symbol) :
    Relates (TokenStep.symbol mark).toReader (TokenStep.symbol mark).toReader :=
  congruence.map (congruence.accept _ _)

theorem keyword (word : Keyword) :
    Relates (TokenStep.keyword word).toReader (TokenStep.keyword word).toReader :=
  congruence.map (congruence.accept _ _)

theorem identifier : Relates TokenStep.identifier.toReader TokenStep.identifier.toReader :=
  congruence.map (congruence.accept _ _)

theorem stringLiteral :
    Relates TokenStep.stringLiteral.toReader TokenStep.stringLiteral.toReader :=
  congruence.map (congruence.accept _ _)

theorem unexpected (expected : String) :
    Relates (TokenStep.unexpected expected : TokenStep α).toReader
      (TokenStep.unexpected expected : TokenStep α).toReader :=
  congruence.choose fun _ => congruence.fail _

/-- Below the deepest level both sides fail. -/
theorem tooDeep :
    Relates (TokenStep.tooDeep : TokenStep α).toReader (TokenStep.tooDeep : TokenStep α).toReader :=
  congruence.choose fun _ => congruence.fail _

/-- The end of a production that gives its outcome a span. -/
theorem withSpan (opening : Span) (f : Span → α) :
    Relates (spanFrom opening >>= fun span => Pure.pure (f span))
      (spanFrom opening >>= fun span => Pure.pure (f span)) :=
  congruence.bind (congruence.inspect _) fun span => congruence.pure (f span)

end Steps

section Expressions

variable {operand operand' : TokenStep Expr}

/-- Operators of one level are read in rounds, each with one operand. -/
theorem chain {operator : Token.Kind → Option BinaryOp}
    (related : Relates operand.toReader operand'.toReader) :
    Relates (chain operator operand).toReader (chain operator operand').toReader := by
  apply congruence.bind related
  intro left
  apply congruence.iterate
  intro left
  apply congruence.bind (congruence.accept _ _)
  rintro ⟨op, mark⟩
  apply congruence.bind related
  intro right
  exact congruence.withSpan _ _

/-- The induction is on the levels of operators, from the tightest on. -/
theorem expressionOver (related : Relates operand.toReader operand'.toReader) :
    Relates (expressionOver operand).toReader (expressionOver operand').toReader := by
  unfold Productions.expressionOver
  induction levels with
  | nil => exact related
  | cons operator levels ih => exact congruence.chain ih

end Expressions

section Inner

variable {inner inner' : Productions} (inside : Related Relates inner.inward inner'.inward)

include inside

/-- A sign goes one level deeper for its operand. -/
theorem signed (mark : Symbol) (op : UnaryOp) :
    Relates (operandOver.signed inner mark op).toReader
      (operandOver.signed inner' mark op).toReader := by
  apply congruence.bind (congruence.symbol mark)
  intro sign
  apply congruence.bind inside.operand
  intro operand
  exact congruence.withSpan _ _

/-- Only signs and parentheses lead to the level inside. -/
theorem operandOver : Relates (operandOver inner).toReader (operandOver inner').toReader := by
  apply congruence.chooseStep
  intro cursor
  cases cursor.kind with
  | integer number => exact congruence.map (congruence.accept _ _)
  | character body => exact congruence.map (congruence.accept _ _)
  | identifier name =>
      apply congruence.bind congruence.identifier
      intro used
      apply congruence.bind (congruence.checkDeclared used)
      intro done
      exact congruence.pure _
  | symbol mark =>
      cases mark with
      | minus => exact congruence.signed inside _ _
      | bang => exact congruence.signed inside _ _
      | leftParen =>
          apply congruence.bind (congruence.symbol _)
          intro opening
          apply congruence.bind inside.expression
          intro expression
          apply congruence.bind (congruence.symbol _)
          intro closing
          exact congruence.withSpan _ _
      | _ => exact congruence.unexpected _
  | _ => exact congruence.unexpected _

/-- The statements of a block are read in rounds on the level inside. -/
theorem blockOver : Relates (blockOver inner).toReader (blockOver inner').toReader := by
  apply congruence.bind (congruence.symbol _)
  intro opening
  apply congruence.bind (congruence.many inside.statement _)
  intro statements
  apply congruence.bind (congruence.symbol _)
  intro closing
  exact congruence.withSpan _ _

end Inner

theorem printStatement : Relates printStatement.toReader printStatement.toReader := by
  apply congruence.bind (congruence.keyword _)
  intro opening
  apply congruence.bind (congruence.symbol _)
  intro parenthesis
  apply congruence.bind congruence.stringLiteral
  intro format
  apply congruence.bind
  · apply congruence.choose
    intro cursor
    split
    · apply congruence.bind (congruence.symbol _)
      intro comma
      apply congruence.bind congruence.identifier
      intro argument
      apply congruence.bind (congruence.checkDeclared _)
      intro done
      exact congruence.pure _
    · exact congruence.pure _
  · intro argument
    apply congruence.bind (congruence.symbol _)
    intro parenthesis'
    apply congruence.bind (congruence.symbol _)
    intro semicolon
    exact congruence.withSpan _ _

theorem scanStatement : Relates scanStatement.toReader scanStatement.toReader := by
  apply congruence.bind (congruence.keyword _)
  intro opening
  apply congruence.bind (congruence.symbol _)
  intro parenthesis
  apply congruence.bind congruence.stringLiteral
  intro format
  apply congruence.bind (congruence.symbol _)
  intro comma
  apply congruence.bind (congruence.symbol _)
  intro ampersand
  apply congruence.bind congruence.identifier
  intro target
  apply congruence.bind (congruence.checkDeclared _)
  intro done
  apply congruence.bind (congruence.symbol _)
  intro parenthesis'
  apply congruence.bind (congruence.symbol _)
  intro semicolon
  exact congruence.withSpan _ _

section Statements

variable {expression expression' : TokenStep Expr} {block block' : TokenStep (Block Stmt)}
  (related : Relates expression.toReader expression'.toReader)
  (relatedBlock : Relates block.toReader block'.toReader)

section OnlyExpressions

include related

/-- A condition holds one expression. -/
theorem condition : Relates (condition expression) (condition expression') := by
  apply congruence.bind (congruence.symbol _)
  intro opening
  apply congruence.bind related
  intro test
  apply congruence.bind (congruence.symbol _)
  intro closing
  exact congruence.pure _

theorem assignment :
    Relates (assignment expression).toReader (assignment expression').toReader := by
  apply congruence.bind congruence.identifier
  intro target
  apply congruence.bind (congruence.checkDeclared _)
  intro done
  apply congruence.bind (congruence.symbol _)
  intro equal
  apply congruence.bind related
  intro value
  apply congruence.bind (congruence.symbol _)
  intro semicolon
  exact congruence.withSpan _ _

theorem leaveStatement :
    Relates (leaveStatement expression).toReader (leaveStatement expression').toReader := by
  apply congruence.bind (congruence.keyword _)
  intro opening
  apply congruence.bind
  · apply congruence.choose
    intro cursor
    split
    · exact congruence.pure _
    · apply congruence.bind related
      intro value
      exact congruence.pure _
  · intro value
    apply congruence.bind (congruence.symbol _)
    intro semicolon
    exact congruence.withSpan _ _

end OnlyExpressions

include related relatedBlock

/-- What comes behind the name tells the three forms of declarations apart. -/
theorem declaration :
    Relates (declaration expression block).toReader (declaration expression' block').toReader := by
  apply congruence.bind (congruence.accept _ _)
  rintro ⟨type, opening⟩
  apply congruence.bind congruence.identifier
  intro name
  apply congruence.bind (congruence.inspect _)
  intro next
  split
  · apply congruence.bind (congruence.symbol _)
    intro parenthesis
    apply congruence.bind (congruence.symbol _)
    intro parenthesis'
    apply congruence.bind relatedBlock
    intro body
    exact congruence.withSpan _ _
  · apply congruence.bind (congruence.symbol _)
    intro equal
    apply congruence.bind related
    intro value
    apply congruence.bind (congruence.symbol _)
    intro semicolon
    apply congruence.bind (congruence.declare _ _)
    intro done
    exact congruence.withSpan _ _
  · apply congruence.bind (congruence.symbol _)
    intro semicolon
    apply congruence.bind (congruence.declare _ _)
    intro done
    exact congruence.withSpan _ _

theorem loopStatement :
    Relates (loopStatement expression block).toReader
      (loopStatement expression' block').toReader := by
  apply congruence.bind (congruence.keyword _)
  intro opening
  apply congruence.bind (congruence.condition related)
  intro test
  apply congruence.bind relatedBlock
  intro body
  exact congruence.withSpan _ _

/-- A round of `ifLoop`. -/
theorem elseIf :
    Relates (ifLoop.elseIf expression block).toReader
      (ifLoop.elseIf expression' block').toReader := by
  apply congruence.bind (congruence.keyword _)
  intro word
  apply congruence.bind (congruence.keyword _)
  intro opening
  apply congruence.bind (congruence.condition related)
  intro test
  apply congruence.bind relatedBlock
  intro body
  exact congruence.pure _

/-- A conditional statement is gone through in its form as a loop. -/
theorem ifStatement :
    Relates (ifStatement expression block).toReader (ifStatement expression' block').toReader := by
  rw [ifStatement_eq, ifStatement_eq]
  apply congruence.bind (congruence.keyword _)
  intro opening
  apply congruence.bind (congruence.condition related)
  intro test
  apply congruence.bind relatedBlock
  intro body
  apply congruence.bind (congruence.many (congruence.elseIf related relatedBlock) _)
  intro arms
  apply congruence.bind
  · apply congruence.choose
    intro cursor
    split
    · apply congruence.bind (congruence.keyword _)
      intro word
      apply congruence.bind relatedBlock
      intro otherwise
      exact congruence.pure _
    · exact congruence.pure _
  · intro otherwise
    apply congruence.bind (congruence.inspect _)
    intro stop
    exact congruence.pure _

/-- The first token tells the statement on both sides. -/
theorem statementOver :
    Relates (statementOver expression block).toReader
      (statementOver expression' block').toReader := by
  apply congruence.chooseStep
  intro cursor
  cases cursor.kind with
  | identifier name => exact congruence.assignment related
  | keyword word =>
      cases word with
      | int | char => exact congruence.declaration related relatedBlock
      | ifWord => exact congruence.ifStatement related relatedBlock
      | whileWord => exact congruence.loopStatement related relatedBlock
      | printf => exact congruence.printStatement
      | scanf => exact congruence.scanStatement
      | returnWord => exact congruence.leaveStatement related
      | elseWord => exact congruence.unexpected _
  | symbol mark =>
      cases mark with
      | leftBrace => exact congruence.map relatedBlock
      | _ => exact congruence.unexpected _
  | _ => exact congruence.unexpected _

end Statements

/-- Productions of one level are related if those inside of it are, one level deeper. -/
theorem level {inner inner' : Productions} (inside : Related Relates inner.inward inner'.inward) :
    Related Relates (level inner) (level inner') :=
  have operand := congruence.operandOver inside
  have expression := congruence.expressionOver operand
  have block := congruence.blockOver inside
  ⟨operand, expression, block, congruence.statementOver expression block⟩

end Production.Congruence

end SubsetC
