import SubsetC.Proofs.Grammar.Soundness
import SubsetC.Proofs.Tree.Mentions

/-!
# What the parser makes of mentions

While it reads, the parser enters each declaration into its session and reports each use of a name
that is not declared. `Cursor.Mentioned` says that between two points names have been mentioned one
after the other, and nothing else has been done to declarations and semantic problems. A production
`Tells` what its outcome mentions: the rules for this follow the ways in which productions are put
together, and `Productions.tell_level` goes from one level to the level around it.
-/

namespace SubsetC

namespace Session

/-- The types of the declared variables. -/
def scope (session : Session) : Scope :=
  session.symbols.get?

/-- The semantic problems that have been reported. -/
def semantic (session : Session) : List Diagnostic :=
  (session.diagnostics.inPhase .semantic).toList

/-- A semantic problem that is reported is one more. -/
theorem semantic_report_semantic (session : Session) (message : String) (line : UInt32) :
    (session.report (.error .semantic message line)).semantic =
      session.semantic ++ [.error .semantic message line] := by
  simp [semantic, report, Diagnostics.inPhase, Diagnostic.error]

/-- Lexical errors are no semantic problems. -/
theorem semantic_report_lexical (session : Session) (message : String) (line : UInt32) :
    (session.report (.error .lexical message line)).semantic = session.semantic := by
  simp [semantic, report, Diagnostics.inPhase, Diagnostic.error]

/-- A declaration is seen by all that comes behind it. -/
theorem scope_declare (session : Session) (name : String) (type : DataType) :
    (session.declare name type).scope = session.scope.declare type name := by
  funext other
  exact Table.get?_set session.symbols name other type

end Session

namespace Identifier

/-- The token that an identifier is read from. -/
def token (identifier : Identifier) : Token :=
  ⟨.identifier identifier.name, identifier.span⟩

/-- The report of a use without a declaration. -/
def undeclaredReport (identifier : Identifier) : Diagnostic :=
  .error .semantic s!"Undeclared variable '{identifier.name}'" identifier.span.line

end Identifier

namespace Cursor

/-- The tokens that have not been taken. -/
def tokens (cursor : Cursor) : List Token :=
  cursor.stream.ahead.map Lexeme.token

/-- Lexical errors declare nothing. -/
theorem reportLexical_keeps (session : Session) (errors : List LexicalError) :
    (reportLexical session errors).scope = session.scope ∧
      (reportLexical session errors).semantic = session.semantic := by
  induction errors generalizing session with
  | nil => exact ⟨rfl, rfl⟩
  | cons error errors ih =>
      rcases ih (session.report (.error .lexical error.message error.line)) with
        ⟨scope, semantic⟩
      constructor
      · exact scope
      · rw [← session.semantic_report_lexical error.message error.line]
        exact semantic

/-- Between the two points these mentions have come to count, in this order. Each use is a token
that has been taken, and each use of a name without a type has been reported. -/
structure Mentions (first : Cursor) (mentions : List (Mention Identifier)) (last : Cursor) :
    Prop where
  scope : last.session.scope =
    first.session.scope.after (mentions.map (.map Identifier.name))
  reports : last.session.semantic =
    first.session.semantic ++
      (first.session.scope.undeclared mentions).map Identifier.undeclaredReport
  inOrder : ((mentions.filterMap Mention.used?).map Identifier.token ++ last.tokens).Sublist
    first.tokens

/-- Between the two points these names have been mentioned. -/
def Mentioned (first : Cursor) (names : List (Mention String)) (last : Cursor) : Prop :=
  ∃ mentions, mentions.map (.map Identifier.name) = names ∧ first.Mentions mentions last

variable {first middle last : Cursor} {early late : List (Mention String)}

theorem Mentions.trans {early late : List (Mention Identifier)}
    (before : first.Mentions early middle) (behind : middle.Mentions late last) :
    first.Mentions (early ++ late) last where
  scope := by rw [behind.scope, before.scope, List.map_append, Scope.after_append]
  reports := by
    rw [behind.reports, before.reports, before.scope, Scope.undeclared_append, List.map_append,
      List.append_assoc]
  inOrder := by
    rw [List.filterMap_append, List.map_append, List.append_assoc]
    apply List.Sublist.trans _ before.inOrder
    exact behind.inOrder.append_left _

namespace Mentioned

theorem refl (cursor : Cursor) : cursor.Mentioned [] cursor := by
  refine ⟨[], rfl, rfl, ?_, .refl _⟩
  simp [Scope.undeclared]

theorem trans (before : first.Mentioned early middle) (behind : middle.Mentioned late last) :
    first.Mentioned (early ++ late) last := by
  rcases before with ⟨mentions, rfl, before⟩
  rcases behind with ⟨mentions', rfl, behind⟩
  exact ⟨mentions ++ mentions', List.map_append, before.trans behind⟩

end Mentioned

theorem tokens_advance {cursor : Cursor} {lexeme : Lexeme} {rest : List Lexeme}
    (ahead : cursor.stream.ahead = lexeme :: rest) :
    cursor.tokens = lexeme.token :: cursor.advance.tokens := by
  simp [tokens, advance, TokenStream.advance, ahead]

/-- A step forward declares nothing and reports no semantic problem. -/
theorem advance_keeps (cursor : Cursor) :
    cursor.advance.session.scope = cursor.session.scope ∧
      cursor.advance.session.semantic = cursor.session.semantic :=
  reportLexical_keeps _ _

end Cursor

namespace TokenStep

variable {α : Type} {cursor last : Cursor}

theorem accept_keeps {expected : String} {accepted : Token.Kind → Option α} {value : α}
    {span : Span} (ran : (accept expected accepted).run cursor = (.ok (value, span), last)) :
    ∃ kind, accepted kind = some value ∧ cursor.tokens = ⟨kind, span⟩ :: last.tokens ∧
      last.session.scope = cursor.session.scope ∧
      last.session.semantic = cursor.session.semantic := by
  simp only [accept] at ran
  split at ran
  · cases ran
  · rename_i lexeme rest ahead
    split at ran
    · cases ran
    · rename_i found taken
      simp only [Prod.mk.injEq, Except.ok.injEq] at ran
      rcases ran with ⟨⟨rfl, rfl⟩, rfl⟩
      exact ⟨lexeme.token.kind, taken, Cursor.tokens_advance ahead, cursor.advance_keeps⟩

/-- An identifier is read, and the name is looked up. -/
theorem mentioned_use {middle : Cursor} {used : Identifier} {done : Unit}
    (identifierRan : TokenStep.identifier.run cursor = (.ok used, middle))
    (checkRan : (Production.checkDeclared used).run middle = (.ok done, last)) :
    cursor.Mentioned [.use used.name] last := by
  rcases Step.run_map_eq_ok.mp identifierRan with ⟨⟨name, span⟩, accepted, rfl⟩
  rcases accept_keeps accepted with ⟨kind, read, tokens, scope, semantic⟩
  have isIdentifier : kind = .identifier name := by
    split at read <;> cases read
    rfl
  simp only [Production.checkDeclared, Production.modifySession, Prod.mk.injEq] at checkRan
  rcases checkRan with ⟨-, rfl⟩
  have known : (cursor.session.scope name).isSome = middle.session.symbols.contains name := by
    rw [← scope]
    rfl
  refine ⟨[.use ⟨name, span⟩], rfl, ?_, ?_, ?_⟩
  · simp only
    split
    · exact scope
    · exact scope
  · simp only [Scope.undeclared, known]
    split
    · simp [semantic]
    · rw [Session.semantic_report_semantic, semantic]
      rfl
  · rw [tokens, isIdentifier]
    exact .refl _

end TokenStep

/-- The outcome of the production mentions what has been mentioned `earlier`, and behind that what
the production itself has met. -/
def Tells {α : Type} (earlier : List (Mention String)) (view : α → List (Mention String))
    (production : Production α) : Prop :=
  ∀ ⦃cursor last : Cursor⦄ ⦃value : α⦄, production.run cursor = (.ok value, last) →
    ∃ names, view value = earlier ++ names ∧ cursor.Mentioned names last

/-- The production mentions nothing. -/
def Skips {α : Type} (production : Production α) : Prop :=
  Tells [] (fun _ => []) production

namespace Tells

open TokenStep Production

variable {α β : Type} {earlier : List (Mention String)} {view : α → List (Mention String)}

theorem pure {value : α} (same : view value = earlier) :
    Tells earlier view (Pure.pure value) := by
  intro cursor last outcome ran
  rcases Reader.run_pure_eq_ok.mp ran with ⟨rfl, rfl⟩
  exact ⟨[], by simpa using same, .refl _⟩

/-- What two productions tell is told in their order. -/
theorem bind {own : β → List (Mention String)} {first : Production β} {second : β → Production α}
    (before : Tells [] own first)
    (behind : ∀ value, Tells (earlier ++ own value) view (second value)) :
    Tells earlier view (first >>= second) := by
  intro cursor last outcome ran
  rcases Reader.run_bind_eq_ok.mp ran with ⟨value, middle, firstRan, secondRan⟩
  rcases before firstRan with ⟨names, same, mentioned⟩
  rcases behind value secondRan with ⟨names', same', mentioned'⟩
  refine ⟨names ++ names', ?_, mentioned.trans mentioned'⟩
  rw [same', same, List.nil_append, List.append_assoc]

/-- A production that tells nothing may come first. -/
theorem skip {first : Production β} {second : β → Production α} (before : Skips first)
    (behind : ∀ value, Tells earlier view (second value)) :
    Tells earlier view (first >>= second) := by
  apply before.bind
  intro value
  rw [List.append_nil]
  exact behind value

/-- An identifier that is used. -/
theorem use {second : Identifier → Unit → Production α}
    (behind : ∀ used done, Tells (earlier ++ [.use used.name]) view (second used done)) :
    Tells earlier view
      (TokenStep.identifier.toReader >>= fun used => checkDeclared used >>= second used) := by
  intro cursor last outcome ran
  rcases Reader.run_bind_eq_ok.mp ran with ⟨used, middle, identifierRan, ran⟩
  rcases Reader.run_bind_eq_ok.mp ran with ⟨done, checked, checkRan, ran⟩
  rcases behind used done ran with ⟨names, same, mentioned⟩
  refine ⟨.use used.name :: names, ?_, ?_⟩
  · rw [same, List.append_assoc]
    rfl
  · exact (mentioned_use identifierRan checkRan).trans mentioned

theorem choose {reader : Cursor → Production α}
    (tells : ∀ cursor, Tells earlier view (reader cursor)) :
    Tells earlier view (Reader.choose reader) := by
  intro cursor last outcome ran
  rw [Reader.run_choose] at ran
  exact tells cursor ran

theorem chooseStep {step : Cursor → TokenStep α}
    (tells : ∀ cursor, Tells earlier view (step cursor).toReader) :
    Tells earlier view (Step.choose step).toReader :=
  choose tells

theorem map {f : β → α} {step : TokenStep β}
    (tells : Tells [] (fun value => view (f value)) step.toReader) :
    Tells [] view (step.map f).toReader := by
  intro cursor last outcome ran
  rcases Step.run_map_eq_ok.mp ran with ⟨value, stepRan, rfl⟩
  exact tells stepRan

theorem mentioned_of_repeats {wanted : Cursor → Bool} {step : TokenStep α} {cursor last : Cursor}
    {values : List α} (tells : Tells [] view step.toReader)
    (repeats : Reader.Repeats wanted step cursor values last) :
    cursor.Mentioned (values.flatMap view) last := by
  induction repeats with
  | stop unwanted => exact .refl _
  | again isWanted ran others ih =>
      rcases tells ran with ⟨names, same, mentioned⟩
      rw [List.flatMap_cons, same]
      exact mentioned.trans ih

/-- Each round tells what its outcome mentions. -/
theorem many {wanted : Cursor → Bool} {step : TokenStep α} (tells : Tells [] view step.toReader) :
    Tells [] (fun values => values.flatMap view) (Reader.many wanted step) := by
  intro cursor last values ran
  exact ⟨_, rfl, tells.mentioned_of_repeats (Reader.run_many_eq_ok.mp ran)⟩

theorem iterate {next : α → Cursor → Option (TokenStep α)}
    (tells : ∀ value cursor step, next value cursor = some step →
      Tells (view value) view step.toReader) (value : α) :
    Tells (view value) view (Reader.iterate next value) := by
  intro cursor last outcome ran
  change Reader.iterateFrom next value cursor = _ at ran
  fun_induction Reader.iterateFrom next value cursor with
  | case1 value cursor unwanted =>
      cases ran
      exact ⟨[], by simp, .refl _⟩
  | case2 value cursor step wanted error last failed => cases ran
  | case3 value cursor step wanted value' middle stepRan ih =>
      rcases tells value cursor step wanted stepRan with ⟨names, same, mentioned⟩
      rcases ih ran with ⟨names', same', mentioned'⟩
      refine ⟨names ++ names', ?_, mentioned.trans mentioned'⟩
      rw [same', same, List.append_assoc]

/-- The level does not matter for what is told. -/
theorem nested {step : TokenStep α} (tells : Tells [] view step.toReader) :
    Tells [] view (TokenStep.nested step).toReader := by
  intro cursor last outcome ran
  rcases nested_eq_ok ran with ⟨room, inner, entered, rfl⟩
  rcases tells entered with ⟨names, same, mentions, rfl, mentioned⟩
  exact ⟨_, same, mentions, rfl, mentioned.scope, mentioned.reports, mentioned.inOrder⟩

end Tells

namespace Skips

open TokenStep Production

theorem accept {α : Type} (expected : String) (accepted : Token.Kind → Option α) :
    Skips (TokenStep.accept expected accepted).toReader := by
  intro cursor last value ran
  rcases accept_keeps ran with ⟨kind, -, tokens, scope, semantic⟩
  refine ⟨[], rfl, [], rfl, scope, ?_, ?_⟩
  · simp [Scope.undeclared, semantic]
  · rw [tokens]
    exact List.sublist_cons_self _ _

theorem symbol (mark : Symbol) : Skips (TokenStep.symbol mark).toReader :=
  Tells.map (Skips.accept _ _)

theorem keyword (word : Keyword) : Skips (TokenStep.keyword word).toReader :=
  Tells.map (Skips.accept _ _)

theorem identifier : Skips TokenStep.identifier.toReader :=
  Tells.map (Skips.accept _ _)

theorem stringLiteral : Skips TokenStep.stringLiteral.toReader :=
  Tells.map (Skips.accept _ _)

theorem inspect {α : Type} (inspected : Cursor → α) : Skips (Reader.inspect inspected) := by
  intro cursor last value ran
  rcases Reader.run_inspect_eq_ok.mp ran with ⟨-, rfl⟩
  exact ⟨[], rfl, .refl _⟩

end Skips

/-- The end of a production that gives its outcome a span. -/
theorem Tells.withSpan {α : Type} {earlier : List (Mention String)}
    {view : α → List (Mention String)} {opening : Span} {f : Span → α}
    (same : ∀ span, view (f span) = earlier) :
    Tells earlier view (Production.spanFrom opening >>= fun span => Pure.pure (f span)) := by
  apply Tells.skip (.inspect _)
  intro span
  exact .pure (same span)

theorem Tells.declare (type : DataType) (name : Identifier) :
    Tells [] (fun _ => [.declare type name.name]) (Production.declare type name) := by
  intro cursor last done ran
  simp only [Production.declare, Production.modifySession, Prod.mk.injEq] at ran
  rcases ran with ⟨-, rfl⟩
  refine ⟨_, rfl, [.declare type name], rfl, ?_, ?_, .refl _⟩
  · exact cursor.session.scope_declare name.name type
  · simp only [Scope.undeclared, List.map_nil, List.append_nil]
    rfl

namespace Productions

open TokenStep Production

section Expressions

variable {operator : Token.Kind → Option BinaryOp} {operand : TokenStep Expr}

theorem tells_link (tells : Tells [] Expr.mentions operand.toReader) (left : Expr)
    (cursor : Cursor) (step : TokenStep Expr)
    (wanted : link operator operand left cursor = some step) :
    Tells left.mentions Expr.mentions step.toReader := by
  unfold link at wanted
  split at wanted
  · cases wanted
    apply Tells.skip (.accept _ _)
    intro accepted
    apply Tells.bind tells
    intro right
    apply Tells.withSpan
    simp
  · cases wanted

/-- Operands are told from left to right. -/
theorem tells_chain (tells : Tells [] Expr.mentions operand.toReader) :
    Tells [] Expr.mentions (chain operator operand).toReader := by
  rw [chain_eq]
  apply Tells.bind tells
  intro left
  exact Tells.iterate (tells_link tells) left

theorem tells_expressionOver (tells : Tells [] Expr.mentions operand.toReader) :
    Tells [] Expr.mentions (expressionOver operand).toReader := by
  unfold expressionOver
  induction levels with
  | nil => exact tells
  | cons operator levels ih => exact tells_chain ih

end Expressions

/-- The outcomes of all productions mention what has been met. -/
structure Tell (productions : Productions) : Prop where
  operand : Tells [] Expr.mentions productions.operand.toReader
  expression : Tells [] Expr.mentions productions.expression.toReader
  block : Tells [] (fun body => (Stmt.block body).mentions) productions.block.toReader
  statement : Tells [] Stmt.mentions productions.statement.toReader

section Inner

variable {inner : Productions} (tell : inner.Tell)

include tell

theorem tells_signed (mark : Symbol) (op : UnaryOp) :
    Tells [] Expr.mentions (operandOver.signed inner mark op).toReader := by
  apply Tells.skip (.symbol mark)
  intro sign
  apply Tells.bind (.nested tell.operand)
  intro operand
  apply Tells.withSpan
  simp

/-- A variable is told when it is read. -/
theorem tells_operandOver : Tells [] Expr.mentions (operandOver inner).toReader := by
  apply Tells.chooseStep
  intro cursor
  cases cursor.kind with
  | integer value => exact Tells.map (Skips.accept _ _)
  | character body => exact Tells.map (Skips.accept _ _)
  | identifier name =>
      apply Tells.use
      intro used done
      apply Tells.pure
      simp
  | symbol mark =>
      cases mark with
      | minus => exact tells_signed tell .minus .neg
      | bang => exact tells_signed tell .bang .not
      | leftParen =>
          apply Tells.skip (.symbol .leftParen)
          intro opening
          apply Tells.bind (.nested tell.expression)
          intro expression
          apply Tells.skip (.symbol .rightParen)
          intro closing
          apply Tells.withSpan
          simp
      | _ => exact nofun
  | _ => exact nofun

/-- The statements of a block are told in their order, and what they declare stays declared. -/
theorem tells_blockOver :
    Tells [] (fun body => (Stmt.block body).mentions) (blockOver inner).toReader := by
  apply Tells.skip (.symbol .leftBrace)
  intro opening
  apply Tells.bind (.many (.nested tell.statement))
  intro statements
  apply Tells.skip (.symbol .rightBrace)
  intro closing
  apply Tells.withSpan
  intro span
  rw [Stmt.mentions_block]
  rfl

end Inner

/-- A conditional statement mentions what its parts do. -/
theorem mentions_conditional (opening : Span) (condition : Expr) (body : Block Stmt)
    (otherwise : Option (Block Stmt)) (stop : Nat) :
    (conditional opening condition body otherwise stop).mentions =
      condition.mentions ++ ((Stmt.block body).mentions ++
        otherwise.toList.flatMap fun otherwise => (Stmt.block otherwise).mentions) := by
  cases otherwise <;> simp [conditional]

/-- The blocks that stand for a row of conditions mention what these and their branches do. -/
theorem mentions_elseIfs (stop : Nat) (arms : List (Span × Expr × Block Stmt))
    (otherwise : Option (Block Stmt)) :
    ((elseIfs stop arms otherwise).toList.flatMap fun body => (Stmt.block body).mentions) =
      (arms.flatMap fun (_, condition, body) =>
        condition.mentions ++ (Stmt.block body).mentions) ++
        otherwise.toList.flatMap fun body => (Stmt.block body).mentions := by
  induction arms with
  | nil => rfl
  | cons arm arms ih =>
      rcases arm with ⟨opening, condition, body⟩
      rw [List.flatMap_cons, List.append_assoc, ← ih]
      change (Stmt.block ⟨[conditional opening condition body (elseIfs stop arms otherwise) stop],
        opening.upTo stop⟩).mentions ++ [] = _
      rw [Stmt.mentions_block_cons, mentions_conditional]
      simp

theorem tells_printStatement : Tells [] Stmt.mentions printStatement.toReader := by
  apply Tells.skip (.keyword .printf)
  intro opening
  apply Tells.skip (.symbol .leftParen)
  intro left
  apply Tells.skip .stringLiteral
  intro format
  have tellsArgument :
      Tells [] (fun argument => argument.toList.map fun argument => .use argument.name)
        (Reader.choose fun cursor =>
          if cursor.kind = .symbol .comma then do
            let _ ← (symbol .comma).toReader
            let argument ← identifier.toReader
            checkDeclared argument
            return some argument
          else pure none) := by
    apply Tells.choose
    intro cursor
    split
    · apply Tells.skip (.symbol .comma)
      intro comma
      apply Tells.use
      intro used done
      apply Tells.pure
      rfl
    · apply Tells.pure
      rfl
  apply Tells.bind tellsArgument
  intro argument
  apply Tells.skip (.symbol .rightParen)
  intro right
  apply Tells.skip (.symbol .semicolon)
  intro semicolon
  apply Tells.withSpan
  simp

/-- The target of an input is told as a use. -/
theorem tells_scanStatement : Tells [] Stmt.mentions scanStatement.toReader := by
  apply Tells.skip (.keyword .scanf)
  intro opening
  apply Tells.skip (.symbol .leftParen)
  intro left
  apply Tells.skip .stringLiteral
  intro format
  apply Tells.skip (.symbol .comma)
  intro comma
  apply Tells.skip (.symbol .ampersand)
  intro ampersand
  apply Tells.use
  intro target done
  apply Tells.skip (.symbol .rightParen)
  intro right
  apply Tells.skip (.symbol .semicolon)
  intro semicolon
  apply Tells.withSpan
  simp

section Statements

variable {expression : TokenStep Expr} {block : TokenStep (Block Stmt)}
  (tellsExpression : Tells [] Expr.mentions expression.toReader)
  (tellsBlock : Tells [] (fun body => (Stmt.block body).mentions) block.toReader)

include tellsExpression

/-- The target is told before the value. -/
theorem tells_assignment : Tells [] Stmt.mentions (assignment expression).toReader := by
  apply Tells.use
  intro target done
  apply Tells.skip (.symbol .equal)
  intro equal
  apply Tells.bind tellsExpression
  intro value
  apply Tells.skip (.symbol .semicolon)
  intro semicolon
  apply Tells.withSpan
  simp

theorem tells_condition : Tells [] Expr.mentions (condition expression) := by
  apply Tells.skip (.symbol .leftParen)
  intro left
  apply Tells.bind tellsExpression
  intro value
  apply Tells.skip (.symbol .rightParen)
  intro right
  apply Tells.pure
  simp

theorem tells_leaveStatement : Tells [] Stmt.mentions (leaveStatement expression).toReader := by
  apply Tells.skip (.keyword .returnWord)
  intro opening
  have tellsValue : Tells [] (fun value => value.toList.flatMap Expr.mentions)
      (Reader.choose fun cursor =>
        if cursor.kind = .symbol .semicolon then pure none
        else do return some (← expression.toReader)) := by
    apply Tells.choose
    intro cursor
    split
    · apply Tells.pure
      rfl
    · apply Tells.bind tellsExpression
      intro value
      apply Tells.pure
      simp
  apply Tells.bind tellsValue
  intro value
  apply Tells.skip (.symbol .semicolon)
  intro semicolon
  apply Tells.withSpan
  simp

include tellsBlock

/-- A variable is declared behind the value that it starts with, and a function is not declared. -/
theorem tells_declaration : Tells [] Stmt.mentions (declaration expression block).toReader := by
  apply Tells.skip (.accept _ _)
  intro type
  apply Tells.skip .identifier
  intro name
  apply Tells.skip (.inspect _)
  intro kind
  split
  · apply Tells.skip (.symbol .leftParen)
    intro left
    apply Tells.skip (.symbol .rightParen)
    intro right
    apply Tells.bind tellsBlock
    intro body
    apply Tells.withSpan
    simp
  · apply Tells.skip (.symbol .equal)
    intro equal
    apply Tells.bind tellsExpression
    intro value
    apply Tells.skip (.symbol .semicolon)
    intro semicolon
    apply Tells.bind (.declare _ name)
    intro done
    apply Tells.withSpan
    simp
  · apply Tells.skip (.symbol .semicolon)
    intro semicolon
    apply Tells.bind (.declare _ name)
    intro done
    apply Tells.withSpan
    simp

theorem tells_loopStatement : Tells [] Stmt.mentions (loopStatement expression block).toReader := by
  apply Tells.skip (.keyword .whileWord)
  intro opening
  apply Tells.bind (tells_condition tellsExpression)
  intro condition
  apply Tells.bind tellsBlock
  intro body
  apply Tells.withSpan
  simp

theorem tells_elseIf :
    Tells [] (fun (_, condition, body) => condition.mentions ++ (Stmt.block body).mentions)
      (ifLoop.elseIf expression block).toReader := by
  apply Tells.skip (.keyword .elseWord)
  intro elseSpan
  apply Tells.skip (.keyword .ifWord)
  intro opening
  apply Tells.bind (tells_condition tellsExpression)
  intro condition
  apply Tells.bind tellsBlock
  intro body
  apply Tells.pure
  simp

/-- Rows of conditions are told one behind the other, as their blocks lie in the tree. -/
theorem tells_ifStatement : Tells [] Stmt.mentions (ifStatement expression block).toReader := by
  rw [ifStatement_eq]
  apply Tells.skip (.keyword .ifWord)
  intro opening
  apply Tells.bind (tells_condition tellsExpression)
  intro condition
  apply Tells.bind tellsBlock
  intro body
  apply Tells.bind (.many (tells_elseIf tellsExpression tellsBlock))
  intro arms
  have tellsOtherwise :
      Tells [] (fun otherwise => otherwise.toList.flatMap fun body => (Stmt.block body).mentions)
        (Reader.choose fun cursor =>
          if cursor.kind = .keyword .elseWord then do
            let _ ← (keyword .elseWord).toReader
            return some (← block.toReader)
          else pure none) := by
    apply Tells.choose
    intro cursor
    split
    · apply Tells.skip (.keyword .elseWord)
      intro elseSpan
      apply Tells.bind tellsBlock
      intro body
      apply Tells.pure
      simp
    · apply Tells.pure
      rfl
  apply Tells.bind tellsOtherwise
  intro otherwise
  apply Tells.skip (.inspect _)
  intro stop
  apply Tells.pure
  rw [mentions_conditional, mentions_elseIfs]
  simp

theorem tells_statementOver :
    Tells [] Stmt.mentions (statementOver expression block).toReader := by
  apply Tells.chooseStep
  intro cursor
  split
  · exact tells_declaration tellsExpression tellsBlock
  · exact tells_declaration tellsExpression tellsBlock
  · exact tells_assignment tellsExpression
  · exact tells_ifStatement tellsExpression tellsBlock
  · exact tells_loopStatement tellsExpression tellsBlock
  · exact tells_printStatement
  · exact tells_scanStatement
  · exact tells_leaveStatement tellsExpression
  · exact Tells.map tellsBlock
  · exact nofun

end Statements

theorem tell_beyond : beyond.Tell := by
  constructor <;> exact nofun

/-- The outcomes of one level mention what has been met if those of the level inside do. -/
theorem tell_level {inner : Productions} (tell : inner.Tell) : (level inner).Tell := by
  have tellsExpression := tells_expressionOver (tells_operandOver tell)
  have tellsBlock := tells_blockOver tell
  constructor
  · exact tells_operandOver tell
  · exact tellsExpression
  · exact tellsBlock
  · exact tells_statementOver tellsExpression tellsBlock

/-- The induction is on the levels. -/
theorem tell_within (room : Nat) : (within room).Tell := by
  induction room with
  | zero => exact tell_level tell_beyond
  | succ room ih => exact tell_level ih

end Productions

end SubsetC
