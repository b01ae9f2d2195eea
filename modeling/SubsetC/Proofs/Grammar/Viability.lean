import SubsetC.Proofs.Grammar.Stopping

/-!
# The parser stops at the first impossible token

Each production is viable for the tokens of its derivations within the levels that are left. Where
it fails for want of another token, the rest of a derivation is put together from the simplest parts
there are: a numeral for an expression, two braces for a block. None of them needs another level, so
that the rest fits where the production has got to.
-/

namespace SubsetC

open Grammar

namespace Form

variable {δ α : Type}

/-- The tokens of a derivation that fits into the levels that are left. -/
def Reached (form : Form δ α) (depth : Nat) (tokens : List Token.Kind) : Prop :=
  ∃ derivation, form.tokens derivation = tokens ∧ form.nesting derivation ≤ maxNesting - depth

/-- The tokens of a derivation that fits one level deeper. -/
def Inside (form : Form δ α) (depth : Nat) (tokens : List Token.Kind) : Prop :=
  ∃ derivation, form.tokens derivation = tokens ∧ form.nesting derivation + 1 ≤ maxNesting - depth

end Form

namespace Cursor.Proceeds

variable {α β δ : Type} {cursor : Cursor} {goal : List Token.Kind → Prop}

/-- The symbol is there, so that what follows it need not be reachable. -/
theorem symbolHere {mark : Symbol} {second : Span → Production β}
    (here : cursor.kind = .symbol mark)
    (late : ∀ span (middle : Cursor), middle.depth = cursor.depth →
      middle.Proceeds (second span) fun tokens => goal (.symbol mark :: tokens)) :
    cursor.Proceeds ((TokenStep.symbol mark).toReader >>= second) goal := by
  rcases exists_kinds here (by simp) with ⟨rest, next⟩
  rcases Passes.symbol next with ⟨span, middle, ran, -⟩
  have early : Viable cursor.depth (TokenStep.symbol mark).toReader (· = [.symbol mark]) :=
    .expect trivial
  rcases early.proceeds cursor rfl ran with ⟨leads, taken, kinds, rfl⟩
  intro outcome last ran'
  rw [Reader.run_bind_of_ok ran] at ran'
  rcases late span middle leads.depth ran' with ⟨leads', settled⟩
  refine ⟨leads.trans leads', ?_⟩
  cases outcome with
  | ok value =>
      rcases settled with ⟨taken, kinds', reached⟩
      exact ⟨_ :: taken, by rw [kinds, kinds', List.singleton_append, List.cons_append], reached⟩
  | error error => exact Stuck.behind kinds settled

/-- A production one level deeper. -/
theorem inside {form : Form δ α} {step : TokenStep α}
    (viable : cursor.depth < maxNesting →
      Viable (cursor.depth + 1) step.toReader (form.Reached (cursor.depth + 1))) :
    cursor.Proceeds (TokenStep.nested step).toReader (form.Inside cursor.depth) := by
  apply nested
  intro room inner deeper
  apply ((viable room).proceeds inner deeper).mono
  rintro tokens ⟨derivation, same, fits⟩
  exact ⟨derivation, same, by omega⟩

end Cursor.Proceeds

namespace Productions

open TokenStep Production

variable {depth : Nat}

section Chain

variable {level : Nat} {operator : Token.Kind → Option BinaryOp} {operand : TokenStep Expr}

/-- The tokens of an operator with the operand on its right. -/
def LinkTokens (level depth : Nat) (tokens : List Token.Kind) : Prop :=
  ∃ (op : BinaryOp) (operand : Phrase level), op.level = level + 1 ∧
    .symbol op.symbol :: operand.tokens = tokens ∧ operand.nesting ≤ maxNesting - depth

/-- The rounds so far are operators of a row. -/
theorem exists_links {tokens : List Token.Kind} (row : Row (LinkTokens level depth) tokens) :
    ∃ links : Links level, links.tokens = tokens ∧ links.nesting ≤ maxNesting - depth := by
  induction row with
  | nil => exact ⟨.nil, rfl, Nat.zero_le _⟩
  | cons here others ih =>
      rcases here with ⟨op, operand, fits, rfl, nesting⟩
      rcases ih with ⟨links, rfl, nesting'⟩
      exact ⟨.cons op fits operand links, rfl, Nat.max_le.mpr ⟨nesting, nesting'⟩⟩

/-- Wherever a row is left, it can be completed. -/
theorem viable_chain (isLevel : IsLevel (level + 1) operator)
    (viable : Viable depth operand.toReader ((Form.phrases level).Reached depth)) :
    Viable depth (chain operator operand).toReader ((Form.phrases (level + 1)).Reached depth) := by
  rw [chain_eq]
  apply Viable.bind viable
  rintro left tokens ⟨first, rfl, firstFits⟩
  have rounds : ∀ (value : Expr) (cursor : Cursor) step, cursor.depth = depth →
      link operator operand value cursor = some step →
      cursor.Proceeds step.toReader (LinkTokens level depth) := by
    intro value cursor step atDepth wanted
    unfold link at wanted
    split at wanted
    · rename_i isOperator
      rcases Option.isSome_iff_exists.mp isOperator with ⟨op, entry⟩
      cases wanted
      have early : Viable depth (accept "operator" operator).toReader fun tokens =>
          ∃ op : BinaryOp, op.level = level + 1 ∧ tokens = [.symbol op.symbol] := by
        apply Viable.accept
        · exact ⟨[.symbol op.symbol], by simp [Token.Kind.Written], op,
            ((isLevel _ op).mp entry).2, rfl⟩
        · intro kind found taken
          rcases (isLevel kind found).mp taken with ⟨rfl, fits⟩
          exact ⟨found, fits, rfl⟩
      suffices round : Viable depth _ (LinkTokens level depth) from round.proceeds cursor atDepth
      apply Viable.bind early
      rintro ⟨found, span⟩ tokens ⟨op, fits, rfl⟩
      apply Viable.bind viable
      rintro right tokens ⟨phrase, rfl, nesting⟩
      exact .withSpan ⟨op, phrase, fits, by simp [Form.phrases], nesting⟩
    · cases wanted
  have rest : Viable depth (Reader.iterate (link operator operand) left)
      (Row (LinkTokens level depth)) :=
    ⟨⟨[], by simp, .nil⟩, fun cursor atDepth => .iterate rounds left atDepth⟩
  apply rest.mono
  intro tokens row
  rcases exists_links row with ⟨links, rfl, linksFit⟩
  exact ⟨.row first links, rfl, Nat.max_le.mpr ⟨firstFits, linksFit⟩⟩

end Chain

theorem viable_expressionOver {operand : TokenStep Expr}
    (viable : Viable depth operand.toReader ((Form.phrases 0).Reached depth)) :
    Viable depth (expressionOver operand).toReader ((Form.phrases 6).Reached depth) := by
  have folded {table : List (Token.Kind → Option BinaryOp)} (areLevels : AreLevels table) :
      Viable depth (table.foldr chain operand).toReader
        ((Form.phrases table.length).Reached depth) := by
    induction table with
    | nil => exact viable
    | cons operator rest ih => exact viable_chain areLevels.1 (ih areLevels.2)
  exact folded areLevels_levels

/-- All productions are viable at the given depth. -/
structure AreViable (productions : Productions) (depth : Nat) : Prop where
  operand : Viable depth productions.operand.toReader ((Form.phrases 0).Reached depth)
  expression : Viable depth productions.expression.toReader ((Form.phrases 6).Reached depth)
  block : Viable depth productions.block.toReader (Form.blocks.Reached depth)
  statement : Viable depth productions.statement.toReader (Form.sentences.Reached depth)

/-- A numeral is an operand. -/
theorem reachable_operand : Reachable ((Form.phrases 0).Reached depth) := by
  refine ⟨[.integer 1], ?_, .integer 1, rfl, Nat.zero_le _⟩
  rw [List.forall_mem_singleton]
  change (0 : Int) ≤ (1 : Int64).toInt
  decide

theorem proceeds_literal {literal : Literal} {cursor : Cursor}
    (reached : (Form.phrases 0).Reached depth [cursor.kind]) :
    cursor.Proceeds (operandOver.literal literal).toReader ((Form.phrases 0).Reached depth) := by
  apply Cursor.Proceeds.map
  apply Cursor.Proceeds.accept reachable_operand
  intro found value same taken
  rwa [← same]

/-- Statements one behind the other are those of a block. -/
theorem exists_sequence {tokens : List Token.Kind}
    (row : Row (Form.sentences.Inside depth) tokens) :
    ∃ body : Sequence, body.tokens = tokens ∧ body.nesting ≤ maxNesting - depth := by
  induction row with
  | nil => exact ⟨.nil, rfl, Nat.zero_le _⟩
  | cons here others ih =>
      rcases here with ⟨sentence, rfl, fits⟩
      rcases ih with ⟨body, rfl, fits'⟩
      exact ⟨.cons sentence body, rfl, Nat.max_le.mpr ⟨fits, fits'⟩⟩

/-- The tokens of a condition right after `else`, with its branch. -/
def ArmTokens (depth : Nat) (tokens : List Token.Kind) : Prop :=
  ∃ (condition : Phrase 6) (body : Sequence),
    .keyword .elseWord :: .keyword .ifWord ::
      (testTokens condition ++ blockTokens body.tokens) = tokens ∧
    max condition.nesting body.nesting ≤ maxNesting - depth

/-- Conditions so far are a row that may end here. -/
theorem exists_alternative {tokens : List Token.Kind} (row : Row (ArmTokens depth) tokens)
    {last : Alternative} (fits : last.nesting ≤ maxNesting - depth) :
    ∃ alternative : Alternative, alternative.tokens = tokens ++ last.tokens ∧
      alternative.nesting ≤ maxNesting - depth := by
  induction row with
  | nil => exact ⟨last, rfl, fits⟩
  | cons here others ih =>
      rcases here with ⟨condition, body, rfl, fits'⟩
      rcases ih with ⟨alternative, same, fits''⟩
      exact ⟨.conditional condition body alternative, by simp [Alternative.tokens, same],
        Nat.max_le.mpr ⟨fits', fits''⟩⟩

section Inner

variable {inner : Productions} (viable : depth < maxNesting → inner.AreViable (depth + 1))

include viable

/-- A sign can always be followed by an operand, unless there is no level for it. -/
theorem proceeds_signed (op : UnaryOp) {cursor : Cursor} (atDepth : cursor.depth = depth)
    (here : cursor.kind = .symbol op.symbol) :
    cursor.Proceeds (operandOver.signed inner op.symbol op).toReader
      ((Form.phrases 0).Reached depth) := by
  apply Cursor.Proceeds.symbolHere here
  intro sign middle same
  have viableOperand := fun room => (viable room).operand
  rw [← atDepth, ← same] at viableOperand ⊢
  apply (Cursor.Proceeds.inside viableOperand).bind
  · rintro tokens ⟨operand, rfl, fits⟩
    exact ⟨[], by simp, .signed op operand, by simp [Form.phrases, Phrase.tokens], fits⟩
  · rintro value tokens last ⟨operand, rfl, fits⟩ same'
    apply (Viable.withSpan _).proceeds last rfl
    exact ⟨.signed op operand, by simp [Form.phrases, Phrase.tokens], fits⟩

theorem proceeds_parentheses {cursor : Cursor} (atDepth : cursor.depth = depth)
    (here : cursor.kind = .symbol .leftParen) :
    cursor.Proceeds ((symbol .leftParen).andThen fun opening => do
      let expression ← (nested inner.expression).toReader
      let _ ← (symbol .rightParen).toReader
      return expression.withSpan (← spanFrom opening)).toReader
      ((Form.phrases 0).Reached depth) := by
  apply Cursor.Proceeds.symbolHere here
  intro opening middle same
  have viableExpression := fun room => (viable room).expression
  rw [← atDepth, ← same] at viableExpression ⊢
  apply (Cursor.Proceeds.inside viableExpression).bind
  · rintro tokens ⟨phrase, rfl, fits⟩
    exact ⟨[.symbol .rightParen], by simp [Token.Kind.Written], .parentheses phrase,
      by simp [Form.phrases, Phrase.tokens], fits⟩
  · rintro value tokens last ⟨phrase, rfl, fits⟩ same'
    apply Viable.proceeds _ last rfl
    apply Viable.symbol
    intro closing
    apply Viable.withSpan
    exact ⟨.parentheses phrase, by simp [Form.phrases, Phrase.tokens], fits⟩

theorem viable_operandOver :
    Viable depth (operandOver inner).toReader ((Form.phrases 0).Reached depth) := by
  apply Viable.choose reachable_operand
  intro cursor atDepth
  dsimp only
  cases here : cursor.kind with
  | integer value =>
      apply proceeds_literal
      rw [here]
      exact ⟨.integer value, rfl, Nat.zero_le _⟩
  | character body =>
      apply proceeds_literal
      rw [here]
      exact ⟨.character body, rfl, Nat.zero_le _⟩
  | identifier name =>
      apply Viable.proceeds _ cursor atDepth
      apply Viable.identifier
      intro used name
      apply Viable.checkDeclared
      exact .pure _ ⟨.var name, rfl, Nat.zero_le _⟩
  | symbol mark =>
      cases mark with
      | minus => exact proceeds_signed viable .neg atDepth here
      | bang => exact proceeds_signed viable .not atDepth here
      | leftParen => exact proceeds_parentheses viable atDepth here
      | _ => exact .unexpected reachable_operand
  | _ => exact .unexpected reachable_operand

/-- A block that has been started can be closed. -/
theorem viable_blockOver : Viable depth (blockOver inner).toReader (Form.blocks.Reached depth) := by
  apply Viable.symbol
  intro opening
  have rounds : ∀ cursor : Cursor, cursor.depth = depth →
      cursor.Proceeds (nested inner.statement).toReader (Form.sentences.Inside depth) := by
    rintro cursor rfl
    exact .inside fun room => (viable room).statement
  apply Viable.bind (.many rounds)
  intro statements tokens row
  rcases exists_sequence row with ⟨body, rfl, fits⟩
  apply Viable.symbol
  intro closing
  apply Viable.withSpan
  exact ⟨body, by simp [Form.blocks, blockTokens], fits⟩

end Inner

section Statements

variable {expression : TokenStep Expr} {block : TokenStep (Block Stmt)}

theorem viable_printStatement :
    Viable depth printStatement.toReader (Form.sentences.Reached depth) := by
  apply Viable.keyword
  intro opening
  apply Viable.symbol
  intro left
  apply Viable.stringLiteral
  intro format body
  have argument : Viable depth (Reader.choose fun cursor : Cursor =>
      if cursor.kind = .symbol .comma then do
        let _ ← (symbol .comma).toReader
        let argument ← identifier.toReader
        checkDeclared argument
        return some argument
      else pure none) fun tokens => ∃ name, argumentTokens name = tokens := by
    apply Viable.choose ⟨[], by simp, none, rfl⟩
    intro cursor atDepth
    split
    · apply Viable.proceeds _ cursor atDepth
      apply Viable.symbol
      intro comma
      apply Viable.identifier
      intro used name
      apply Viable.checkDeclared
      exact .pure _ ⟨some name, rfl⟩
    · exact .pure _ ⟨none, rfl⟩
  apply Viable.bind argument
  rintro used tokens ⟨name, rfl⟩
  apply Viable.symbol
  intro right
  apply Viable.symbol
  intro semicolon
  apply Viable.withSpan
  exact ⟨.print body name, by simp [Form.sentences, Sentence.tokens], Nat.zero_le _⟩

theorem viable_scanStatement :
    Viable depth scanStatement.toReader (Form.sentences.Reached depth) := by
  apply Viable.keyword
  intro opening
  apply Viable.symbol
  intro left
  apply Viable.stringLiteral
  intro format body
  apply Viable.symbol
  intro comma
  apply Viable.symbol
  intro ampersand
  apply Viable.identifier
  intro used name
  apply Viable.checkDeclared
  apply Viable.symbol
  intro right
  apply Viable.symbol
  intro semicolon
  apply Viable.withSpan
  exact ⟨.scan body name, rfl, Nat.zero_le _⟩

section WithExpression

variable (viableExpression : Viable depth expression.toReader ((Form.phrases 6).Reached depth))

include viableExpression

theorem viable_condition : Viable depth (condition expression) fun tokens =>
    ∃ phrase : Phrase 6, testTokens phrase = tokens ∧ phrase.nesting ≤ maxNesting - depth := by
  apply Viable.symbol
  intro left
  apply Viable.bind viableExpression
  rintro value tokens ⟨phrase, rfl, fits⟩
  apply Viable.symbol
  intro right
  exact .pure value ⟨phrase, by simp [testTokens, Form.phrases], fits⟩

theorem viable_assignment :
    Viable depth (assignment expression).toReader (Form.sentences.Reached depth) := by
  apply Viable.identifier
  intro target name
  apply Viable.checkDeclared
  apply Viable.symbol
  intro equal
  apply Viable.bind viableExpression
  rintro value tokens ⟨phrase, rfl, fits⟩
  apply Viable.symbol
  intro semicolon
  apply Viable.withSpan
  exact ⟨.assign name phrase, by simp [Form.sentences, Sentence.tokens, Form.phrases], fits⟩

theorem viable_leaveStatement :
    Viable depth (leaveStatement expression).toReader (Form.sentences.Reached depth) := by
  apply Viable.keyword
  intro opening
  have value : Viable depth (Reader.choose fun cursor : Cursor =>
      if cursor.kind = .symbol .semicolon then pure none
      else do return some (← expression.toReader)) fun tokens =>
        ∃ phrase, valueTokens phrase = tokens ∧ valueNesting phrase ≤ maxNesting - depth := by
    apply Viable.choose ⟨[], by simp, none, rfl, Nat.zero_le _⟩
    intro cursor atDepth
    split
    · exact .pure _ ⟨none, rfl, Nat.zero_le _⟩
    · apply Viable.proceeds _ cursor atDepth
      apply Viable.bind viableExpression
      rintro value tokens ⟨phrase, rfl, fits⟩
      exact .pure _ ⟨some phrase, by simp [valueTokens, Form.phrases], fits⟩
  apply Viable.bind value
  rintro value tokens ⟨phrase, rfl, fits⟩
  apply Viable.symbol
  intro semicolon
  apply Viable.withSpan
  exact ⟨.leave phrase, by simp [Form.sentences, Sentence.tokens], fits⟩

section WithBlock

variable (viableBlock : Viable depth block.toReader (Form.blocks.Reached depth))

include viableBlock

theorem viable_declaration :
    Viable depth (declaration expression block).toReader (Form.sentences.Reached depth) := by
  apply Viable.dataType
  intro found type
  apply Viable.identifier
  intro declared name
  apply Viable.inspect
  intro next
  split
  · apply Viable.symbol
    intro left
    apply Viable.symbol
    intro right
    apply Viable.bind viableBlock
    rintro body tokens ⟨sequence, rfl, fits⟩
    apply Viable.withSpan
    exact ⟨.function type name sequence, by simp [Form.sentences, Sentence.tokens, Form.blocks],
      fits⟩
  · apply Viable.symbol
    intro equal
    apply Viable.bind viableExpression
    rintro value tokens ⟨phrase, rfl, fits⟩
    apply Viable.symbol
    intro semicolon
    apply Viable.declare
    apply Viable.withSpan
    exact ⟨.define type name phrase, by simp [Form.sentences, Sentence.tokens, Form.phrases], fits⟩
  · apply Viable.symbol
    intro semicolon
    apply Viable.declare
    apply Viable.withSpan
    exact ⟨.declare type name, rfl, Nat.zero_le _⟩

theorem viable_loopStatement :
    Viable depth (loopStatement expression block).toReader (Form.sentences.Reached depth) := by
  apply Viable.keyword
  intro opening
  apply Viable.bind (viable_condition viableExpression)
  rintro test tokens ⟨phrase, rfl, fits⟩
  apply Viable.bind viableBlock
  rintro body tokens ⟨sequence, rfl, fits'⟩
  apply Viable.withSpan
  exact ⟨.loop phrase sequence, by simp [Form.sentences, Sentence.tokens, Form.blocks],
    Nat.max_le.mpr ⟨fits, fits'⟩⟩

theorem viable_elseIf :
    Viable depth (ifLoop.elseIf expression block).toReader (ArmTokens depth) := by
  apply Viable.keyword
  intro elseSpan
  apply Viable.keyword
  intro opening
  apply Viable.bind (viable_condition viableExpression)
  rintro test tokens ⟨phrase, rfl, fits⟩
  apply Viable.bind viableBlock
  rintro body tokens ⟨sequence, rfl, fits'⟩
  exact .pure _ ⟨phrase, sequence, by simp [Form.blocks], Nat.max_le.mpr ⟨fits, fits'⟩⟩

omit viableExpression in
theorem viable_lastBranch : Viable depth (lastBranch block) fun tokens =>
    ∃ last : Alternative, last.tokens = tokens ∧ last.nesting ≤ maxNesting - depth := by
  apply Viable.choose ⟨[], by simp, .none, rfl, Nat.zero_le _⟩
  intro cursor atDepth
  split
  · apply Viable.proceeds _ cursor atDepth
    apply Viable.keyword
    intro elseSpan
    apply Viable.bind viableBlock
    rintro body tokens ⟨sequence, rfl, fits⟩
    exact .pure _ ⟨.block sequence, by simp [Alternative.tokens, Form.blocks], fits⟩
  · exact .pure _ ⟨.none, rfl, Nat.zero_le _⟩

/-- A row of conditions can end behind each branch. -/
theorem viable_ifStatement :
    Viable depth (ifStatement expression block).toReader (Form.sentences.Reached depth) := by
  rw [ifStatement_eq]
  apply Viable.keyword
  intro opening
  apply Viable.bind (viable_condition viableExpression)
  rintro test tokens ⟨phrase, rfl, fits⟩
  apply Viable.bind viableBlock
  rintro body tokens ⟨sequence, rfl, fits'⟩
  have elseIf := viable_elseIf viableExpression viableBlock
  apply Viable.bind (.many elseIf.proceeds)
  intro arms tokens row
  apply Viable.bind (viable_lastBranch viableBlock)
  rintro otherwise tokens ⟨last, rfl, lastFits⟩
  rcases exists_alternative row lastFits with ⟨alternative, same, alternativeFits⟩
  apply Viable.inspect
  intro stop
  refine .pure _ ⟨.conditional phrase sequence alternative, ?_, ?_⟩
  · simp [Form.sentences, Sentence.tokens, Form.blocks, same]
  · exact Nat.max_le.mpr ⟨Nat.max_le.mpr ⟨fits, fits'⟩, alternativeFits⟩

/-- By its first token a statement can be completed. -/
theorem viable_statementOver :
    Viable depth (statementOver expression block).toReader (Form.sentences.Reached depth) := by
  have leave : Reachable (Form.sentences.Reached depth) :=
    ⟨[.keyword .returnWord, .symbol .semicolon], by simp [Token.Kind.Written], .leave none, rfl,
      Nat.zero_le _⟩
  apply Viable.choose leave
  intro cursor atDepth
  dsimp only
  split
  · exact (viable_declaration viableExpression viableBlock).proceeds cursor atDepth
  · exact (viable_declaration viableExpression viableBlock).proceeds cursor atDepth
  · exact (viable_assignment viableExpression).proceeds cursor atDepth
  · exact (viable_ifStatement viableExpression viableBlock).proceeds cursor atDepth
  · exact (viable_loopStatement viableExpression viableBlock).proceeds cursor atDepth
  · exact viable_printStatement.proceeds cursor atDepth
  · exact viable_scanStatement.proceeds cursor atDepth
  · exact (viable_leaveStatement viableExpression).proceeds cursor atDepth
  · apply Cursor.Proceeds.map
    apply (viableBlock.proceeds cursor atDepth).mono
    rintro tokens ⟨body, rfl, fits⟩
    exact ⟨.block body, rfl, fits⟩
  · exact .unexpected leave

end WithBlock

end WithExpression

end Statements

/-- The productions of a level are viable if those of the level inside are, where there is one. -/
theorem viable_level {inner : Productions}
    (viable : depth < maxNesting → inner.AreViable (depth + 1)) :
    (level inner).AreViable depth := by
  have viableOperand := viable_operandOver viable
  have viableExpression := viable_expressionOver viableOperand
  have viableBlock := viable_blockOver viable
  exact ⟨viableOperand, viableExpression, viableBlock,
    viable_statementOver viableExpression viableBlock⟩

/-- The induction is on the levels that may still be entered. -/
theorem viable_within {room : Nat} (levels : depth + room = maxNesting) :
    (within room).AreViable depth := by
  induction room generalizing depth with
  | zero =>
      apply viable_level
      intro deeper
      omega
  | succ room ih =>
      apply viable_level
      intro deeper
      exact ih (by omega)

end Productions

end SubsetC
