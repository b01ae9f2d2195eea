import SubsetC.Proofs.Grammar.Regions

/-!
# Every production fills its tokens

The regions of what a production reads lie among the tokens that it takes, in the order in which the
tree has them. Three kinds of nodes are not made by the production that reads their first token: the
operators of a row, each of which starts where the whole row does, an expression in parentheses,
which only gets a wider span, and the conditions behind `else`, which end where the last branch
does.
-/

namespace SubsetC

namespace Productions

open TokenStep Production Cursor

/-- What the productions read fills the tokens that they take. -/
structure Fill (productions : Productions) : Prop where
  operand : productions.operand.Fills Expr.region
  expression : productions.expression.Fills Expr.region
  block : productions.block.Fills blockRegion
  statement : productions.statement.Fills Stmt.region

section Chain

variable {operator : Token.Kind → Option BinaryOp} {operand : TokenStep Expr}

theorem walks_link (fills : operand.Fills Expr.region) {cursor : Cursor} {left : Expr}
    {step : TokenStep Expr} (wanted : link operator operand left cursor = some step) :
    cursor.Walks cursor step.toReader fun value last =>
      ∃ op right, value = .binary op left right (left.span.upTo last.previousStop) ∧
        cursor.Holds [right.region] last := by
  unfold link at wanted
  split at wanted
  · cases wanted
    apply Walks.skip .accept (Reaches.refl cursor).holds
    rintro ⟨op, mark⟩ middle holds -
    apply Walks.part fills holds
    intro right last holds
    exact .inspect (.pure holds.reaches ⟨op, right, rfl, holds⟩)
  · cases wanted

/-- A row of operators starts where its first operand does. -/
theorem walks_iterate (fills : operand.Fills Expr.region) {origin cursor : Cursor} {left : Expr}
    (frames : origin.Frames left.region cursor)
    (moved : Source.remaining cursor < Source.remaining origin) :
    origin.Walks cursor (Reader.iterate (link operator operand) left) fun value last =>
      origin.Frames value.region last := by
  intro outcome last ran
  change Reader.iterateFrom (link operator operand) left cursor = _ at ran
  fun_induction Reader.iterateFrom (link operator operand) left cursor with
  | case1 left cursor unwanted =>
      cases ran
      refine ⟨frames.holds.reaches, ?_⟩
      rintro value ⟨⟩
      exact frames
  | case2 left cursor step wanted error last failed =>
      cases ran
      refine ⟨frames.holds.reaches.trans (walks_link fills wanted failed).1, ?_⟩
      intro value same
      cases same
  | case3 left cursor step wanted left' middle equation ih =>
      rcases (walks_link fills wanted equation).2 left' rfl with ⟨op, right, rfl, found⟩
      have both := (frames.whole moved).trans found
      refine ih ⟨?_, both⟩ (both.moved (List.cons_ne_nil _ _)) ran
      rw [← left.span_region, frames.span]
      rfl

/-- Each operator fills the way from the first operand to its last one. -/
theorem fills_chain (fills : operand.Fills Expr.region) :
    (chain operator operand).Fills Expr.region := by
  intro cursor
  rw [chain_eq]
  apply Walks.bind (P := fun left middle => cursor.Frames left.region middle ∧
    Source.remaining middle < Source.remaining cursor)
  · intro outcome middle ran
    rcases fills cursor ran with ⟨reaches, frames⟩
    refine ⟨reaches, ?_⟩
    rintro left rfl
    exact ⟨frames left rfl, operand.remaining_lt ran⟩
  · rintro left middle - ⟨frames, moved⟩
    exact walks_iterate fills frames moved

end Chain

theorem fills_expressionOver {operand : TokenStep Expr} (fills : operand.Fills Expr.region) :
    (expressionOver operand).Fills Expr.region := by
  unfold expressionOver
  induction levels with
  | nil => exact fills
  | cons operator levels ih => exact fills_chain ih

/-- What is read in some rounds is read one behind the other. -/
theorem holds_of_rounds {statement : TokenStep Stmt} (fills : statement.Fills Stmt.region)
    {wanted : Cursor → Bool} {cursor last : Cursor} {statements : List Stmt}
    (rounds : Reader.Rounds wanted statement cursor statements last) :
    cursor.Holds (statementRegions statements) last := by
  induction rounds with
  | @nil cursor => exact (Reaches.refl cursor).holds
  | cons isWanted ran others ih => exact ((fills.whole _ ran).2 _ rfl).trans ih

section Loop

variable {α : Type} {step : TokenStep α} {P : Cursor → α → Cursor → Prop}
  (walks : ∀ cursor : Cursor, cursor.Walks cursor step.toReader (P cursor))

include walks

/-- Rounds lead on. -/
theorem reaches_of_rounds {wanted : Cursor → Bool} {cursor last : Cursor} {values : List α}
    (rounds : Reader.Rounds wanted step cursor values last) : cursor.Reaches last := by
  induction rounds with
  | @nil cursor => exact .refl cursor
  | cons isWanted ran others ih => exact (walks _ ran).1.trans ih

/-- Whether a loop ends or fails, it has rounds behind it that have succeeded. -/
theorem rounds_of_collect {wanted : Cursor → Bool} {cursor last : Cursor} {values : List α}
    {failure : Option ParseError}
    (ran : Reader.collect wanted step cursor = ((values, failure), last)) :
    ∃ middle, Reader.Rounds wanted step cursor values middle ∧ middle.Reaches last ∧
      (failure = none → last = middle) := by
  rcases Reader.rounds_of_collect ran with ⟨middle, rounds, halts⟩
  refine ⟨middle, rounds, ?_⟩
  cases failure with
  | none =>
      rcases halts with ⟨-, rfl⟩
      exact ⟨.refl last, fun _ => rfl⟩
  | some error => exact ⟨(walks middle halts.2).1, nofun⟩

theorem walks_many (wanted : Cursor → Bool) (cursor : Cursor) :
    cursor.Walks cursor (Reader.many wanted step) fun values last =>
      Reader.Rounds wanted step cursor values last := by
  intro outcome last ran
  simp only [Reader.many] at ran
  cases equation : Reader.collect wanted step cursor with
  | mk found stop =>
      rcases found with ⟨values, failure⟩
      rcases rounds_of_collect walks equation with ⟨middle, rounds, reaches, ends⟩
      have reaches' := (reaches_of_rounds walks rounds).trans reaches
      rw [equation] at ran
      cases failure with
      | none =>
          cases ran
          refine ⟨reaches', ?_⟩
          rintro values ⟨⟩
          rw [ends rfl]
          exact rounds
      | some error =>
          cases ran
          exact ⟨reaches', nofun⟩

end Loop

section Inner

variable {inner : Productions} (fill : inner.Fill)

include fill

theorem fills_signed (mark : Symbol) (op : UnaryOp) :
    (operandOver.signed inner mark op).Fills Expr.region := by
  intro cursor
  apply Walks.symbol (Reaches.refl cursor).holds
  intro first holds
  apply Walks.part fill.operand.nested holds
  intro operand second holds
  exact .withSpan holds fun span => rfl

/-- The outer parentheses set the span of the expression in them. -/
theorem fills_parentheses :
    Fills Expr.region ((symbol .leftParen).andThen fun opening => do
      let expression ← (nested inner.expression).toReader
      let _ ← (symbol .rightParen).toReader
      return expression.withSpan (← spanFrom opening)) := by
  intro cursor
  apply Walks.symbol (Reaches.refl cursor).holds
  intro first holds
  apply Walks.part fill.expression.nested holds
  intro expression second holds
  apply Walks.symbol holds.parts_of_singleton
  intro third holds
  exact .withSpan holds fun span => expression.region_withSpan span

omit fill in
/-- A leaf has no parts. -/
theorem fills_literal (literal : Literal) : (operandOver.literal literal).Fills Expr.region :=
  .map (.accept _ _)

omit fill in
theorem fills_variable :
    Fills Expr.region (identifier.andThen fun used => do
      checkDeclared used
      return .var used.name used.span) := by
  intro cursor
  apply Walks.bind (Fills.identifier cursor)
  rintro used middle reaches frames outcome last ⟨⟩
  refine ⟨reaches.of_eq rfl rfl, ?_⟩
  rintro value ⟨⟩
  exact frames.report _

/-- An operand is a token, or it fills the way to the end of what is in it. -/
theorem fills_operandOver : (operandOver inner).Fills Expr.region := by
  apply Fills.choose
  intro cursor
  cases cursor.kind with
  | integer number => exact fills_literal _
  | character body => exact fills_literal _
  | identifier name => exact fills_variable
  | symbol mark =>
      cases mark with
      | minus => exact fills_signed fill _ _
      | bang => exact fills_signed fill _ _
      | leftParen => exact fills_parentheses fill
      | _ => exact .unexpected _
  | _ => exact .unexpected _

/-- A block fills the way from brace to brace. -/
theorem fills_blockOver : (blockOver inner).Fills blockRegion := by
  intro cursor
  apply Walks.symbol (Reaches.refl cursor).holds
  intro first holds
  have early (wanted : Cursor → Bool) :
      first.Walks first (Reader.many wanted (nested inner.statement)) fun statements last =>
        first.Holds (statementRegions statements) last :=
    (walks_many fill.statement.nested wanted first).mono fun _ _ =>
      holds_of_rounds fill.statement.nested
  apply Walks.gather statementRegions (early _) holds
  intro statements second holds
  apply Walks.symbol holds
  intro third holds
  exact .withSpan holds fun span => rfl

end Inner

theorem fills_printStatement : printStatement.Fills Stmt.region := by
  intro cursor
  apply Walks.keyword (Reaches.refl cursor).holds
  intro first holds
  apply Walks.symbol holds
  intro second holds
  apply Walks.stringLiteral holds
  intro format third holds
  apply Walks.gather (fun argument => argument.toList.map Identifier.region) _ holds
  · intro argument fourth holds
    apply Walks.symbol holds
    intro fifth holds
    apply Walks.symbol holds
    intro sixth holds
    exact .withSpan holds fun span => rfl
  · apply Walks.choose
    split
    · apply Walks.symbol (Reaches.refl third).holds
      intro fourth holds
      apply Walks.identifier holds
      intro argument fifth holds
      apply Walks.modifySession holds
      intro sixth holds
      exact .pure holds.reaches holds
    · have stays := Reaches.refl third
      exact .pure stays stays.holds

theorem fills_scanStatement : scanStatement.Fills Stmt.region := by
  intro cursor
  apply Walks.keyword (Reaches.refl cursor).holds
  intro first holds
  apply Walks.symbol holds
  intro second holds
  apply Walks.stringLiteral holds
  intro format third holds
  apply Walks.symbol holds
  intro fourth holds
  apply Walks.symbol holds
  intro fifth holds
  apply Walks.identifier holds
  intro target sixth holds
  apply Walks.modifySession holds
  intro seventh holds
  apply Walks.symbol holds
  intro eighth holds
  apply Walks.symbol holds
  intro ninth holds
  exact .withSpan holds fun span => rfl

section Statements

variable {expression : TokenStep Expr} {block : TokenStep (Block Stmt)}
  (fills : expression.Fills Expr.region)

include fills

/-- A test in parentheses is read next. -/
theorem walks_condition {α : Type} {origin cursor : Cursor} {parts : List Region}
    {Q : α → Cursor → Prop} {second : Expr → Production α} (holds : origin.Holds parts cursor)
    (late : ∀ test middle, origin.Holds (parts ++ [test.region]) middle →
      origin.Walks middle (second test) Q) :
    origin.Walks cursor (condition expression >>= second) Q := by
  apply Walks.gather (fun test => [test.region]) _ holds late
  apply Walks.symbol (Reaches.refl cursor).holds
  intro first holds
  apply Walks.part fills holds
  intro test second holds
  apply Walks.symbol holds
  intro third holds
  exact .pure holds.reaches holds

theorem fills_assignment : (assignment expression).Fills Stmt.region := by
  intro cursor
  apply Walks.identifier (Reaches.refl cursor).holds
  intro target first holds
  apply Walks.modifySession holds
  intro second holds
  apply Walks.symbol holds
  intro third holds
  apply Walks.part fills holds
  intro value fourth holds
  apply Walks.symbol holds
  intro fifth holds
  exact .withSpan holds fun span => rfl

theorem fills_leaveStatement : (leaveStatement expression).Fills Stmt.region := by
  intro cursor
  apply Walks.keyword (Reaches.refl cursor).holds
  intro first holds
  apply Walks.gather (fun value => value.toList.map Expr.region) _ holds
  · intro value second holds
    apply Walks.symbol holds
    intro third holds
    exact .withSpan holds fun span => rfl
  · apply Walks.choose
    split
    · have stays := Reaches.refl first
      exact .pure stays stays.holds
    · apply Walks.part fills (Reaches.refl first).holds
      intro value second holds
      exact .pure holds.reaches holds

section WithBlock

variable (fillsBlock : block.Fills blockRegion)

include fillsBlock

theorem fills_declaration : (declaration expression block).Fills Stmt.region := by
  intro cursor
  apply Walks.dataType (Reaches.refl cursor).holds
  intro type first holds
  apply Walks.identifier holds
  intro name second holds
  apply Walks.inspect
  split
  · apply Walks.symbol holds
    intro third holds
    apply Walks.symbol holds
    intro fourth holds
    apply Walks.part fillsBlock holds
    intro body fifth holds
    exact .withSpan holds fun span => rfl
  · apply Walks.symbol holds
    intro third holds
    apply Walks.part fills holds
    intro value fourth holds
    apply Walks.symbol holds
    intro fifth holds
    apply Walks.modifySession holds
    intro sixth holds
    exact .withSpan holds fun span => rfl
  · apply Walks.symbol holds
    intro third holds
    apply Walks.modifySession holds
    intro fourth holds
    exact .withSpan holds fun span => rfl

theorem fills_loopStatement : (loopStatement expression block).Fills Stmt.region := by
  intro cursor
  apply Walks.keyword (Reaches.refl cursor).holds
  intro first holds
  apply walks_condition fills holds
  intro test second holds
  apply Walks.part fillsBlock holds
  intro body third holds
  exact .withSpan holds fun span => rfl

omit fills in
/-- A block on its own is a statement with this block inside. -/
theorem fills_blockStatement : Fills Stmt.region (block.map .block) := by
  intro cursor
  apply Walks.map
  apply ((fillsBlock cursor).both (fillsBlock.whole cursor)).mono
  rintro ⟨statements, span⟩ last ⟨frames, holds⟩
  exact ⟨frames.span, holds⟩

omit fills in
theorem walks_lastBranch (cursor : Cursor) :
    cursor.Walks cursor (lastBranch block) fun otherwise last =>
      cursor.Holds (otherwise.toList.map blockRegion) last := by
  apply Walks.choose
  split
  · apply Walks.keyword (Reaches.refl cursor).holds
    intro first holds
    apply Walks.part fillsBlock holds
    intro body second holds
    exact .pure holds.reaches holds
  · have stays := Reaches.refl cursor
    exact .pure stays stays.holds

/-- A condition behind `else`, from its `if` on. -/
theorem walks_elseIf (cursor : Cursor) :
    cursor.Walks cursor (ifLoop.elseIf expression block).toReader fun arm last =>
      ∃ first : Cursor, cursor.Reaches first ∧ arm.1 = first.token.span ∧
        first.Holds [arm.2.1.region, blockRegion arm.2.2] last := by
  apply Walks.keyword (Reaches.refl cursor).holds
  intro first holds
  apply Walks.behind holds.reaches
  apply Walks.keyword (Reaches.refl first).holds
  intro second holds'
  apply walks_condition fills holds'
  intro test third holds'
  apply Walks.part fillsBlock holds'
  intro body fourth holds'
  exact .pure holds'.reaches ⟨first, holds.reaches, rfl, holds'⟩

omit fills fillsBlock in
/-- A condition whose parts have been read up to where the last of all branches ends. -/
theorem holds_conditional {first last : Cursor} {test : Expr} {body : Block Stmt}
    {otherwise : Option (Block Stmt)}
    (holds : first.Holds
      ([test.region, blockRegion body] ++ otherwise.toList.map blockRegion) last) :
    first.Frames (conditional first.token.span test body otherwise last.previousStop).region
      last := by
  cases otherwise with
  | none => exact ⟨rfl, holds⟩
  | some otherwise => exact ⟨rfl, holds⟩

/-- The conditions right after `else`, from the last one on. Each goes up to the end of all. -/
theorem holds_of_arms {cursor middle last : Cursor} {arms : List (Span × Expr × Block Stmt)}
    {otherwise : Option (Block Stmt)}
    (rounds : Reader.Rounds ifLoop.isElseIf (ifLoop.elseIf expression block) cursor arms
      middle)
    (holds : middle.Holds (otherwise.toList.map blockRegion) last) :
    cursor.Holds ((elseIfs last.previousStop arms otherwise).toList.map blockRegion) last := by
  induction rounds with
  | nil => exact holds
  | @cons cursor next middle arm arms isWanted ran others ih =>
      rcases (walks_elseIf fills fillsBlock cursor ran).2 arm rfl with
        ⟨first, reaches, opening, found⟩
      rcases arm with ⟨span, test, body⟩
      obtain rfl : span = first.token.span := opening
      have both := found.trans (ih holds)
      have moved := both.moved (by simp)
      have inside := (holds_conditional both).whole moved
      exact reaches.holds.trans (Frames.whole ⟨rfl, inside⟩ moved)

/-- Each condition of a row fills the way to the end of the row. -/
theorem fills_ifStatement : (ifStatement expression block).Fills Stmt.region := by
  rw [ifStatement_eq]
  intro cursor
  apply Walks.keyword (Reaches.refl cursor).holds
  intro first holds
  apply walks_condition fills holds
  intro test second holds
  apply Walks.part fillsBlock holds
  intro body third holds
  apply (Walks.behind holds.reaches (walks_many (walks_elseIf fills fillsBlock) _ third)).bind
  intro arms fourth reaches rounds
  apply (Walks.behind reaches (walks_lastBranch fillsBlock fourth)).bind
  intro otherwise fifth reaches found
  apply Walks.inspect
  apply Walks.pure reaches
  exact holds_conditional (holds.trans (holds_of_arms fills fillsBlock rounds found))

theorem fills_statementOver : (statementOver expression block).Fills Stmt.region := by
  apply Fills.choose
  intro cursor
  split
  · exact fills_declaration fills fillsBlock
  · exact fills_declaration fills fillsBlock
  · exact fills_assignment fills
  · exact fills_ifStatement fills fillsBlock
  · exact fills_loopStatement fills fillsBlock
  · exact fills_printStatement
  · exact fills_scanStatement
  · exact fills_leaveStatement fills
  · exact fills_blockStatement fillsBlock
  · exact .unexpected _

end WithBlock

end Statements

theorem fill_beyond : beyond.Fill := by
  constructor <;>
    · rintro cursor outcome last ⟨⟩
      exact ⟨.refl cursor, nofun⟩

/-- What the productions of a level read fills their tokens if that of the level inside does. -/
theorem fill_level {inner : Productions} (fill : inner.Fill) : (level inner).Fill := by
  have expression := fills_expressionOver (fills_operandOver fill)
  have block := fills_blockOver fill
  exact ⟨fills_operandOver fill, expression, block, fills_statementOver expression block⟩

/-- The induction is on the levels. -/
theorem fill_within (room : Nat) : (within room).Fill := by
  induction room with
  | zero => exact fill_level fill_beyond
  | succ room ih => exact fill_level ih

end Productions

end SubsetC
