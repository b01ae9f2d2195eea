import SubsetC.Proofs.Grammar.Conditionals
import SubsetC.Proofs.Grammar.Taking
import SubsetC.Proofs.Grammar.Unambiguity

/-!
# What the parser reads is derived

A production is sound for a form of derivations if, whenever it succeeds, the tokens that it has
taken have a derivation whose tree is its outcome and which fits into the levels that were left.
`Productions.sound_level` goes from the productions of one level to those of the level around it,
and `Productions.sound_within` is the induction on the levels. Loops are inductions on their rounds.
-/

namespace SubsetC

open Grammar

/-- What is derived: its tokens, its nesting, and which values it stands for, with what may come
behind it. -/
structure Form (δ α : Type) where
  tokens : δ → List Token.Kind
  nesting : δ → Nat
  Denotes : δ → α → Prop
  Behind : List Token.Kind → Prop

namespace Form

/-- Expressions whose operators have at most the given level. -/
def phrases (level : Nat) : Form (Phrase level) Expr where
  tokens := Phrase.tokens
  nesting := Phrase.nesting
  Denotes phrase expr := expr.bare = phrase.tree
  Behind := Stops level

/-- Operators of the level above behind an expression, which becomes another one. -/
def links (level : Nat) (left : Expr) : Form (Links level) Expr where
  tokens := Links.tokens
  nesting := Links.nesting
  Denotes links expr := expr.bare = links.tree left.bare
  Behind := Stops (level + 1)

/-- Statements. -/
def sentences : Form Sentence Stmt where
  tokens := Sentence.tokens
  nesting := Sentence.nesting
  Denotes sentence stmt := stmt.bare = sentence.tree
  Behind := Ends

/-- Blocks. -/
def blocks : Form Sequence (Block Stmt) where
  tokens body := blockTokens body.tokens
  nesting := Sequence.nesting
  Denotes body block := blockBare block = ⟨body.trees, default⟩
  Behind _ := True

/-- Whatever the production reads is derived, within the levels that are left. -/
def Sound {δ α : Type} (form : Form δ α) (production : Production α) : Prop :=
  ∀ ⦃cursor last : Cursor⦄ ⦃value : α⦄, production.run cursor = (.ok value, last) →
    ∃ derivation, cursor.Took (form.tokens derivation) last ∧
      form.nesting derivation ≤ maxNesting - cursor.depth ∧ form.Denotes derivation value

end Form

namespace TokenStep

variable {α δ : Type}

/-- What succeeds one level deeper has had a level to go to. -/
theorem nested_eq_ok {step : TokenStep α} {cursor last : Cursor} {value : α}
    (ran : (nested step).run cursor = (.ok value, last)) :
    cursor.depth < maxNesting ∧ ∃ inner,
      step.run { cursor with depth := cursor.depth + 1 } = (.ok value, inner) ∧
        last = { inner with depth := inner.depth - 1 } := by
  simp only [nested] at ran
  split at ran
  · cases ran
  · rename_i room
    rw [Prod.mk.injEq] at ran
    exact ⟨Nat.lt_of_not_le room, _, Prod.ext ran.1 rfl, ran.2.symm⟩

/-- One level deeper there is one level less. -/
theorem sound_nested {form : Form δ α} {step : TokenStep α} (sound : form.Sound step.toReader)
    {cursor last : Cursor} {value : α} (ran : (nested step).run cursor = (.ok value, last)) :
    ∃ derivation, cursor.Took (form.tokens derivation) last ∧
      form.nesting derivation + 1 ≤ maxNesting - cursor.depth ∧ form.Denotes derivation value := by
  rcases nested_eq_ok ran with ⟨room, inner, entered, rfl⟩
  rcases sound entered with ⟨derivation, took, fits, denotes⟩
  refine ⟨derivation, ⟨took.kinds, ?_, took.temporaries, took.labels⟩, ?_, denotes⟩
  · have depth := took.depth
    simp only at depth ⊢
    omega
  · simp only at fits
    omega

end TokenStep

namespace Productions

open TokenStep Production

/-- An entry of the table of operators is that of a level. -/
def IsLevel (level : Nat) (operator : Token.Kind → Option BinaryOp) : Prop :=
  ∀ kind op, operator kind = some op ↔ kind = .symbol op.symbol ∧ op.level = level

/-- The entries of a table are those of the levels from the last one on, which is 1. -/
def AreLevels : List (Token.Kind → Option BinaryOp) → Prop
  | [] => True
  | operator :: rest => IsLevel (rest.length + 1) operator ∧ AreLevels rest

/-- The table has the six levels of operators in their order. -/
theorem areLevels_levels : AreLevels levels := by
  refine ⟨?_, ?_, ?_, ?_, ?_, ?_, trivial⟩
  all_goals
    intro kind op
    constructor
    · intro entry
      dsimp only at entry
      split at entry <;> cases entry <;> exact ⟨rfl, rfl⟩
    · rintro ⟨rfl, level⟩
      cases op <;> first | rfl | cases level

/-- A round of the loop for the operators of one level. -/
def link (operator : Token.Kind → Option BinaryOp) (operand : TokenStep Expr) (left : Expr)
    (cursor : Cursor) : Option (TokenStep Expr) :=
  if (operator cursor.kind).isSome then
    some <| (accept "operator" operator).andThen fun (op, _) => do
      let right ← operand.toReader
      return .binary op left right (← spanFrom left.span)
  else none

theorem chain_eq (operator : Token.Kind → Option BinaryOp) (operand : TokenStep Expr) :
    chain operator operand = operand.andThen (Reader.iterate (link operator operand)) := rfl

section Chain

variable {level : Nat} {operator : Token.Kind → Option BinaryOp} {operand : TokenStep Expr}

/-- A round adds an operator with the operand on its right. -/
theorem sound_link (isLevel : IsLevel (level + 1) operator)
    (sound : (Form.phrases level).Sound operand.toReader) {left value : Expr}
    {cursor last : Cursor} {step : TokenStep Expr}
    (wanted : link operator operand left cursor = some step)
    (ran : step.run cursor = (.ok value, last)) :
    ∃ op, op.level = level + 1 ∧ ∃ right : Phrase level,
      cursor.Took (.symbol op.symbol :: right.tokens) last ∧
        right.nesting ≤ maxNesting - cursor.depth ∧
        value.bare = .binary op left.bare right.tree default := by
  unfold link at wanted
  split at wanted
  · cases wanted
    rcases Step.run_andThen_eq_ok.mp ran with ⟨⟨op, mark⟩, middle, accepted, ran⟩
    rcases Reader.run_bind_eq_ok.mp ran with ⟨right, behind, operandRan, ran⟩
    rcases withSpan_eq_ok ran with ⟨span, rfl, rfl⟩
    rcases accept_eq_ok accepted with ⟨kind, entry, took⟩
    rcases (isLevel kind op).mp entry with ⟨rfl, fits⟩
    rcases sound operandRan with ⟨phrase, took', nesting, denotes⟩
    rw [took.depth] at nesting
    refine ⟨op, fits, phrase, took.trans took', nesting, ?_⟩
    rw [Expr.bare, denotes]
  · cases wanted

/-- Each round adds an operator to the row. -/
theorem sound_iterate (isLevel : IsLevel (level + 1) operator)
    (sound : (Form.phrases level).Sound operand.toReader) (left : Expr) :
    (Form.links level left).Sound (Reader.iterate (link operator operand) left) := by
  intro cursor last value ran
  change Reader.iterateFrom (link operator operand) left cursor = _ at ran
  fun_induction Reader.iterateFrom (link operator operand) left cursor with
  | case1 left cursor unwanted =>
      cases ran
      exact ⟨.nil, .refl _, Nat.zero_le _, rfl⟩
  | case2 left cursor step wanted error last failed => cases ran
  | case3 left cursor step wanted left' middle equation ih =>
      rcases sound_link isLevel sound wanted equation with ⟨op, fits, right, took, nesting, denotes⟩
      rcases ih ran with ⟨links, took', nesting', denotes'⟩
      rw [took.depth] at nesting'
      refine ⟨.cons op fits right links, ?_, Nat.max_le.mpr ⟨nesting, nesting'⟩, ?_⟩
      · exact took.trans took'
      · change value.bare = links.tree left'.bare at denotes'
        rw [denotes] at denotes'
        exact denotes'

/-- What is read is a row of operators of this level. -/
theorem sound_chain (isLevel : IsLevel (level + 1) operator)
    (sound : (Form.phrases level).Sound operand.toReader) :
    (Form.phrases (level + 1)).Sound (chain operator operand).toReader := by
  intro cursor last value ran
  rw [chain_eq] at ran
  rcases Step.run_andThen_eq_ok.mp ran with ⟨first, middle, firstRan, ran⟩
  rcases sound firstRan with ⟨phrase, took, nesting, denotes⟩
  rcases sound_iterate isLevel sound first ran with ⟨links, took', nesting', denotes'⟩
  rw [took.depth] at nesting'
  refine ⟨.row phrase links, took.trans took', Nat.max_le.mpr ⟨nesting, nesting'⟩, ?_⟩
  change value.bare = links.tree first.bare at denotes'
  rw [denotes] at denotes'
  exact denotes'

end Chain

theorem sound_foldr {table : List (Token.Kind → Option BinaryOp)} (areLevels : AreLevels table)
    {operand : TokenStep Expr} (sound : (Form.phrases 0).Sound operand.toReader) :
    (Form.phrases table.length).Sound (table.foldr chain operand).toReader := by
  induction table with
  | nil => exact sound
  | cons operator rest ih => exact sound_chain areLevels.1 (ih areLevels.2)

theorem sound_expressionOver {operand : TokenStep Expr}
    (sound : (Form.phrases 0).Sound operand.toReader) :
    (Form.phrases 6).Sound (expressionOver operand).toReader :=
  sound_foldr areLevels_levels sound

/-- All productions are sound. -/
structure Sound (productions : Productions) : Prop where
  operand : (Form.phrases 0).Sound productions.operand.toReader
  expression : (Form.phrases 6).Sound productions.expression.toReader
  block : Form.blocks.Sound productions.block.toReader
  statement : Form.sentences.Sound productions.statement.toReader

/-- Without its place an expression is the same in parentheses. -/
theorem bare_withSpan (expr : Expr) (span : Span) : (expr.withSpan span).bare = expr.bare := by
  cases expr <;> rfl

section Operand

variable {inner : Productions} {cursor last : Cursor} {value : Expr}

theorem sound_signed (sound : inner.Sound) (op : UnaryOp)
    (ran : (operandOver.signed inner op.symbol op).run cursor = (.ok value, last)) :
    ∃ phrase, cursor.Took ((Form.phrases 0).tokens phrase) last ∧
      (Form.phrases 0).nesting phrase ≤ maxNesting - cursor.depth ∧
        (Form.phrases 0).Denotes phrase value := by
  rcases Step.run_andThen_eq_ok.mp ran with ⟨sign, middle, signRan, ran⟩
  rcases Reader.run_bind_eq_ok.mp ran with ⟨operand, behind, operandRan, ran⟩
  rcases withSpan_eq_ok ran with ⟨span, rfl, rfl⟩
  have took := symbol_eq_ok signRan
  rcases sound_nested sound.operand operandRan with ⟨phrase, took', nesting, denotes⟩
  rw [took.depth] at nesting
  refine ⟨.signed op phrase, took.trans took', nesting, ?_⟩
  change Expr.unary op operand.bare default = .unary op phrase.tree default
  rw [show operand.bare = phrase.tree from denotes]

theorem sound_literal {literal : Literal} {kind : Token.Kind} (here : cursor.kind = kind)
    (ran : (operandOver.literal literal).run cursor = (.ok value, last)) :
    cursor.Took [kind] last ∧ value.bare = .literal literal default := by
  rcases Step.run_map_eq_ok.mp ran with ⟨⟨found, span⟩, accepted, rfl⟩
  rcases accept_eq_ok accepted with ⟨found', same, took⟩
  have head : cursor.kind = found' := by
    rw [Cursor.kind_eq, took.kinds]
    rfl
  rw [← here, head]
  exact ⟨took, rfl⟩

theorem sound_parentheses (sound : inner.Sound)
    (ran : ((symbol .leftParen).andThen fun opening => do
      let expression ← (nested inner.expression).toReader
      let _ ← (symbol .rightParen).toReader
      return expression.withSpan (← spanFrom opening)).run cursor = (.ok value, last)) :
    ∃ phrase, cursor.Took ((Form.phrases 0).tokens phrase) last ∧
      (Form.phrases 0).nesting phrase ≤ maxNesting - cursor.depth ∧
        (Form.phrases 0).Denotes phrase value := by
  rcases Step.run_andThen_eq_ok.mp ran with ⟨opening, first, openingRan, ran⟩
  rcases Reader.run_bind_eq_ok.mp ran with ⟨expression, second, expressionRan, ran⟩
  rcases Reader.run_bind_eq_ok.mp ran with ⟨closing, third, closingRan, ran⟩
  rcases withSpan_eq_ok ran with ⟨span, rfl, rfl⟩
  have took := symbol_eq_ok openingRan
  rcases sound_nested sound.expression expressionRan with ⟨phrase, took', nesting, denotes⟩
  rw [took.depth] at nesting
  refine ⟨.parentheses phrase, took.trans (took'.trans (symbol_eq_ok closingRan)), nesting, ?_⟩
  change (expression.withSpan span).bare = phrase.tree
  rw [bare_withSpan]
  exact denotes

/-- Each form of an operand has a derivation of its own. -/
theorem sound_operandOver (sound : inner.Sound) :
    (Form.phrases 0).Sound (operandOver inner).toReader := by
  intro cursor last value ran
  unfold operandOver at ran
  change (Step.choose _).run cursor = _ at ran
  rw [Step.run_choose] at ran
  cases here : cursor.kind with
  | integer number =>
      rw [here] at ran
      rcases sound_literal here ran with ⟨took, denotes⟩
      exact ⟨.integer number, took, Nat.zero_le _, denotes⟩
  | character body =>
      rw [here] at ran
      rcases sound_literal here ran with ⟨took, denotes⟩
      exact ⟨.character body, took, Nat.zero_le _, denotes⟩
  | identifier name =>
      rw [here] at ran
      rcases Step.run_andThen_eq_ok.mp ran with ⟨used, middle, usedRan, ran⟩
      rcases Reader.run_bind_eq_ok.mp ran with ⟨checked, behind, checkRan, ran⟩
      rcases Reader.run_pure_eq_ok.mp ran with ⟨rfl, rfl⟩
      refine ⟨.var used.name, ?_, Nat.zero_le _, rfl⟩
      exact (identifier_eq_ok usedRan).trans (checkDeclared_eq_ok checkRan)
  | symbol mark =>
      rw [here] at ran
      cases mark with
      | minus => exact sound_signed sound .neg ran
      | bang => exact sound_signed sound .not ran
      | leftParen => exact sound_parentheses sound ran
      | _ => cases ran
  | _ =>
      rw [here] at ran
      cases ran

end Operand

section Block

/-- The statements of a block lie one level deeper. -/
theorem sound_repeats {statement : TokenStep Stmt} (sound : Form.sentences.Sound statement.toReader)
    {wanted : Cursor → Bool} {cursor last : Cursor} {statements : List Stmt}
    (repeats : Reader.Repeats wanted (nested statement) cursor statements last) :
    ∃ body : Sequence, cursor.Took body.tokens last ∧ body.nesting ≤ maxNesting - cursor.depth ∧
      statementsBare statements = body.trees := by
  induction repeats with
  | @stop cursor unwanted => exact ⟨.nil, .refl cursor, Nat.zero_le _, rfl⟩
  | again isWanted ran others ih =>
      rcases sound_nested sound ran with ⟨sentence, took, nesting, denotes⟩
      rcases ih with ⟨body, took', nesting', denotes'⟩
      rw [took.depth] at nesting'
      refine ⟨.cons sentence body, took.trans took', Nat.max_le.mpr ⟨nesting, nesting'⟩, ?_⟩
      rw [statementsBare, denotes', show Stmt.bare _ = _ from denotes]
      rfl

/-- The statements of a block are derived one by one. -/
theorem sound_blockOver {inner : Productions} (sound : inner.Sound) :
    Form.blocks.Sound (blockOver inner).toReader := by
  intro cursor last value ran
  rcases Step.run_andThen_eq_ok.mp ran with ⟨opening, first, openingRan, ran⟩
  rcases Reader.run_bind_eq_ok.mp ran with ⟨statements, second, statementsRan, ran⟩
  rcases Reader.run_bind_eq_ok.mp ran with ⟨closing, third, closingRan, ran⟩
  rcases withSpan_eq_ok ran with ⟨span, rfl, rfl⟩
  have took := symbol_eq_ok openingRan
  rcases sound_repeats sound.statement (Reader.run_many_eq_ok.mp statementsRan) with
    ⟨body, took', nesting, denotes⟩
  rw [took.depth] at nesting
  refine ⟨body, took.trans (took'.trans (symbol_eq_ok closingRan)), nesting, ?_⟩
  change (⟨statementsBare statements, default⟩ : Block Stmt) = ⟨body.trees, default⟩
  rw [denotes]

end Block

section Statement

variable {expression : TokenStep Expr} {block : TokenStep (Block Stmt)}

theorem sound_declaration (soundExpression : (Form.phrases 6).Sound expression.toReader)
    (soundBlock : Form.blocks.Sound block.toReader) :
    Form.sentences.Sound (declaration expression block).toReader := by
  intro cursor last value ran
  rcases Step.run_andThen_eq_ok.mp ran with ⟨⟨type, opening⟩, first, typeRan, ran⟩
  rcases Reader.run_bind_eq_ok.mp ran with ⟨name, second, nameRan, ran⟩
  rcases Reader.run_bind_eq_ok.mp ran with ⟨found, third, kindRan, ran⟩
  rcases kind_eq_ok kindRan with ⟨-, rfl⟩
  have took := (dataType_eq_ok typeRan).trans (identifier_eq_ok nameRan)
  split at ran
  · rcases Reader.run_bind_eq_ok.mp ran with ⟨left, fourth, leftRan, ran⟩
    rcases Reader.run_bind_eq_ok.mp ran with ⟨right, fifth, rightRan, ran⟩
    rcases Reader.run_bind_eq_ok.mp ran with ⟨body, sixth, bodyRan, ran⟩
    rcases withSpan_eq_ok ran with ⟨span, rfl, rfl⟩
    have took' := took.trans ((symbol_eq_ok leftRan).trans (symbol_eq_ok rightRan))
    rcases soundBlock bodyRan with ⟨sequence, took'', nesting, denotes⟩
    rw [took'.depth] at nesting
    refine ⟨.function type name.name sequence, took'.trans took'', nesting, ?_⟩
    change Stmt.function type name.bare (blockBare body) default = _
    rw [show blockBare body = _ from denotes]
    rfl
  · rcases Reader.run_bind_eq_ok.mp ran with ⟨equal, fourth, equalRan, ran⟩
    rcases Reader.run_bind_eq_ok.mp ran with ⟨value, fifth, valueRan, ran⟩
    rcases Reader.run_bind_eq_ok.mp ran with ⟨semicolon, sixth, semicolonRan, ran⟩
    rcases Reader.run_bind_eq_ok.mp ran with ⟨declared, seventh, declareRan, ran⟩
    rcases withSpan_eq_ok ran with ⟨span, rfl, rfl⟩
    have took' := took.trans (symbol_eq_ok equalRan)
    rcases soundExpression valueRan with ⟨phrase, took'', nesting, denotes⟩
    rw [took'.depth] at nesting
    refine ⟨.define type name.name phrase, ?_, nesting, ?_⟩
    · exact took'.trans (took''.trans ((symbol_eq_ok semicolonRan).trans
        (declare_eq_ok declareRan)))
    · change Stmt.define type name.bare value.bare default = _
      rw [show value.bare = _ from denotes]
      rfl
  · rcases Reader.run_bind_eq_ok.mp ran with ⟨semicolon, fourth, semicolonRan, ran⟩
    rcases Reader.run_bind_eq_ok.mp ran with ⟨declared, fifth, declareRan, ran⟩
    rcases withSpan_eq_ok ran with ⟨span, rfl, rfl⟩
    refine ⟨.declare type name.name, ?_, Nat.zero_le _, rfl⟩
    exact took.trans ((symbol_eq_ok semicolonRan).trans (declare_eq_ok declareRan))

theorem sound_assignment (sound : (Form.phrases 6).Sound expression.toReader) :
    Form.sentences.Sound (assignment expression).toReader := by
  intro cursor last value ran
  rcases Step.run_andThen_eq_ok.mp ran with ⟨target, first, targetRan, ran⟩
  rcases Reader.run_bind_eq_ok.mp ran with ⟨checked, second, checkRan, ran⟩
  rcases Reader.run_bind_eq_ok.mp ran with ⟨equal, third, equalRan, ran⟩
  rcases Reader.run_bind_eq_ok.mp ran with ⟨value, fourth, valueRan, ran⟩
  rcases Reader.run_bind_eq_ok.mp ran with ⟨semicolon, fifth, semicolonRan, ran⟩
  rcases withSpan_eq_ok ran with ⟨span, rfl, rfl⟩
  have took := (identifier_eq_ok targetRan).trans
    ((checkDeclared_eq_ok checkRan).trans (symbol_eq_ok equalRan))
  rcases sound valueRan with ⟨phrase, took', nesting, denotes⟩
  rw [took.depth] at nesting
  refine ⟨.assign target.name phrase, ?_, nesting, ?_⟩
  · exact took.trans (took'.trans (symbol_eq_ok semicolonRan))
  · change Stmt.assign target.bare value.bare default = _
    rw [show value.bare = _ from denotes]
    rfl

/-- A test in parentheses. -/
theorem sound_condition (sound : (Form.phrases 6).Sound expression.toReader)
    {cursor last : Cursor} {value : Expr}
    (ran : (condition expression).run cursor = (.ok value, last)) :
    ∃ phrase, cursor.Took (testTokens phrase) last ∧
      phrase.nesting ≤ maxNesting - cursor.depth ∧ value.bare = phrase.tree := by
  rcases Reader.run_bind_eq_ok.mp ran with ⟨left, first, leftRan, ran⟩
  rcases Reader.run_bind_eq_ok.mp ran with ⟨value, second, valueRan, ran⟩
  rcases Reader.run_bind_eq_ok.mp ran with ⟨right, third, rightRan, ran⟩
  rcases Reader.run_pure_eq_ok.mp ran with ⟨rfl, rfl⟩
  have took := symbol_eq_ok leftRan
  rcases sound valueRan with ⟨phrase, took', nesting, denotes⟩
  rw [took.depth] at nesting
  exact ⟨phrase, took.trans (took'.trans (symbol_eq_ok rightRan)), nesting, denotes⟩

theorem sound_loopStatement (soundExpression : (Form.phrases 6).Sound expression.toReader)
    (soundBlock : Form.blocks.Sound block.toReader) :
    Form.sentences.Sound (loopStatement expression block).toReader := by
  intro cursor last value ran
  rcases Step.run_andThen_eq_ok.mp ran with ⟨opening, first, openingRan, ran⟩
  rcases Reader.run_bind_eq_ok.mp ran with ⟨condition, second, conditionRan, ran⟩
  rcases Reader.run_bind_eq_ok.mp ran with ⟨body, third, bodyRan, ran⟩
  rcases withSpan_eq_ok ran with ⟨span, rfl, rfl⟩
  have took := keyword_eq_ok openingRan
  rcases sound_condition soundExpression conditionRan with ⟨phrase, took', nesting, denotes⟩
  rcases soundBlock bodyRan with ⟨sequence, took'', nesting', denotes'⟩
  rw [took.depth] at nesting
  rw [took'.depth, took.depth] at nesting'
  refine ⟨.loop phrase sequence, took.trans (took'.trans took''),
    Nat.max_le.mpr ⟨nesting, nesting'⟩, ?_⟩
  change Stmt.loop condition.bare (blockBare body) default = _
  rw [denotes, show blockBare body = _ from denotes']
  rfl

theorem sound_printStatement : Form.sentences.Sound printStatement.toReader := by
  intro cursor last value ran
  rcases Step.run_andThen_eq_ok.mp ran with ⟨opening, first, openingRan, ran⟩
  rcases Reader.run_bind_eq_ok.mp ran with ⟨left, second, leftRan, ran⟩
  rcases Reader.run_bind_eq_ok.mp ran with ⟨format, third, formatRan, ran⟩
  rcases Reader.run_bind_eq_ok.mp ran with ⟨argument, fourth, argumentRan, ran⟩
  rcases Reader.run_bind_eq_ok.mp ran with ⟨right, fifth, rightRan, ran⟩
  rcases Reader.run_bind_eq_ok.mp ran with ⟨semicolon, sixth, semicolonRan, ran⟩
  rcases withSpan_eq_ok ran with ⟨span, rfl, rfl⟩
  have tookArgument : third.Took (argumentTokens (argument.map Identifier.name)) fourth := by
    rw [Reader.run_choose] at argumentRan
    split at argumentRan
    · rcases Reader.run_bind_eq_ok.mp argumentRan with ⟨comma, point, commaRan, argumentRan⟩
      rcases Reader.run_bind_eq_ok.mp argumentRan with ⟨name, point', nameRan, argumentRan⟩
      rcases Reader.run_bind_eq_ok.mp argumentRan with ⟨checked, point'', checkRan, argumentRan⟩
      rcases Reader.run_pure_eq_ok.mp argumentRan with ⟨rfl, rfl⟩
      exact (symbol_eq_ok commaRan).trans
        ((identifier_eq_ok nameRan).trans (checkDeclared_eq_ok checkRan))
    · rcases Reader.run_pure_eq_ok.mp argumentRan with ⟨rfl, rfl⟩
      exact .refl _
  have took := (keyword_eq_ok openingRan).trans
    ((symbol_eq_ok leftRan).trans (stringLiteral_eq_ok formatRan))
  refine ⟨.print format (argument.map Identifier.name), ?_, Nat.zero_le _, ?_⟩
  · exact took.trans (tookArgument.trans
      ((symbol_eq_ok rightRan).trans (symbol_eq_ok semicolonRan)))
  · cases argument <;> rfl

theorem sound_scanStatement : Form.sentences.Sound scanStatement.toReader := by
  intro cursor last value ran
  rcases Step.run_andThen_eq_ok.mp ran with ⟨opening, first, openingRan, ran⟩
  rcases Reader.run_bind_eq_ok.mp ran with ⟨left, second, leftRan, ran⟩
  rcases Reader.run_bind_eq_ok.mp ran with ⟨format, third, formatRan, ran⟩
  rcases Reader.run_bind_eq_ok.mp ran with ⟨comma, fourth, commaRan, ran⟩
  rcases Reader.run_bind_eq_ok.mp ran with ⟨ampersand, fifth, ampersandRan, ran⟩
  rcases Reader.run_bind_eq_ok.mp ran with ⟨target, sixth, targetRan, ran⟩
  rcases Reader.run_bind_eq_ok.mp ran with ⟨checked, seventh, checkRan, ran⟩
  rcases Reader.run_bind_eq_ok.mp ran with ⟨right, eighth, rightRan, ran⟩
  rcases Reader.run_bind_eq_ok.mp ran with ⟨semicolon, ninth, semicolonRan, ran⟩
  rcases withSpan_eq_ok ran with ⟨span, rfl, rfl⟩
  have took := (keyword_eq_ok openingRan).trans
    ((symbol_eq_ok leftRan).trans (stringLiteral_eq_ok formatRan))
  have took' := (symbol_eq_ok commaRan).trans
    ((symbol_eq_ok ampersandRan).trans (identifier_eq_ok targetRan))
  have took'' := (checkDeclared_eq_ok checkRan).trans
    ((symbol_eq_ok rightRan).trans (symbol_eq_ok semicolonRan))
  exact ⟨.scan format target.name, took.trans (took'.trans took''), Nat.zero_le _, rfl⟩

theorem sound_leaveStatement (sound : (Form.phrases 6).Sound expression.toReader) :
    Form.sentences.Sound (leaveStatement expression).toReader := by
  intro cursor last value ran
  rcases Step.run_andThen_eq_ok.mp ran with ⟨opening, first, openingRan, ran⟩
  rcases Reader.run_bind_eq_ok.mp ran with ⟨value, second, valueRan, ran⟩
  rcases Reader.run_bind_eq_ok.mp ran with ⟨semicolon, third, semicolonRan, ran⟩
  rcases withSpan_eq_ok ran with ⟨span, rfl, rfl⟩
  have took := keyword_eq_ok openingRan
  rw [Reader.run_choose] at valueRan
  split at valueRan
  · rcases Reader.run_pure_eq_ok.mp valueRan with ⟨rfl, rfl⟩
    exact ⟨.leave none, took.trans (symbol_eq_ok semicolonRan), Nat.zero_le _, rfl⟩
  · rcases Reader.run_bind_eq_ok.mp valueRan with ⟨value, point, exprRan, valueRan⟩
    rcases Reader.run_pure_eq_ok.mp valueRan with ⟨rfl, rfl⟩
    rcases sound exprRan with ⟨phrase, took', nesting, denotes⟩
    rw [took.depth] at nesting
    refine ⟨.leave (some phrase), ?_, nesting, ?_⟩
    · exact took.trans (took'.trans (symbol_eq_ok semicolonRan))
    · change Stmt.leave (some value.bare) default = _
      rw [show value.bare = _ from denotes]
      rfl

/-- A conditional statement is one or the other form by its second branch. -/
theorem bare_conditional (opening : Span) (condition : Expr) (body : Block Stmt)
    (otherwise : Option (Block Stmt)) (stop : Nat) :
    (conditional opening condition body otherwise stop).bare =
      conditionalTree condition.bare (statementsBare body.statements)
        (otherwise.map blockBare) := by
  rcases body with ⟨statements, span⟩
  cases otherwise <;> rfl

/-- At the end of a row there is a block or nothing. -/
theorem sound_lastBranch (sound : Form.blocks.Sound block.toReader) {cursor last : Cursor}
    {otherwise : Option (Block Stmt)}
    (ran : (lastBranch block).run cursor = (.ok otherwise, last)) :
    ∃ base : Alternative, cursor.Took base.tokens last ∧
      base.nesting ≤ maxNesting - cursor.depth ∧ otherwise.map blockBare = base.tree? := by
  rw [lastBranch, Reader.run_choose] at ran
  split at ran
  · rcases Reader.run_bind_eq_ok.mp ran with ⟨elseSpan, point, elseRan, ran⟩
    rcases Reader.run_bind_eq_ok.mp ran with ⟨body, point', bodyRan, ran⟩
    rcases Reader.run_pure_eq_ok.mp ran with ⟨rfl, rfl⟩
    have took := keyword_eq_ok elseRan
    rcases sound bodyRan with ⟨sequence, took', nesting, denotes⟩
    rw [took.depth] at nesting
    exact ⟨.block sequence, took.trans took', nesting, congrArg some denotes⟩
  · rcases Reader.run_pure_eq_ok.mp ran with ⟨rfl, rfl⟩
    exact ⟨.none, .refl _, Nat.zero_le _, rfl⟩

section Conditional

variable (soundExpression : (Form.phrases 6).Sound expression.toReader)
  (soundBlock : Form.blocks.Sound block.toReader)

include soundExpression soundBlock

/-- A condition and its branch. -/
theorem sound_branch {cursor middle last : Cursor} {condition : Expr} {body : Block Stmt}
    (conditionRan : (Productions.condition expression).run cursor = (.ok condition, middle))
    (bodyRan : block.run middle = (.ok body, last)) :
    ∃ (phrase : Phrase 6) (sequence : Sequence),
      cursor.Took (testTokens phrase ++ blockTokens sequence.tokens) last ∧
      max phrase.nesting sequence.nesting ≤ maxNesting - cursor.depth ∧
      condition.bare = phrase.tree ∧ statementsBare body.statements = sequence.trees := by
  rcases sound_condition soundExpression conditionRan with ⟨phrase, took, nesting, denotes⟩
  rcases soundBlock bodyRan with ⟨sequence, took', nesting', denotes'⟩
  rw [took.depth] at nesting'
  rcases body with ⟨statements, span⟩
  exact ⟨phrase, sequence, took.trans took', Nat.max_le.mpr ⟨nesting, nesting'⟩, denotes,
    congrArg Block.statements denotes'⟩

/-- A condition right after `else`. -/
theorem sound_elseIf {cursor last : Cursor} {opening : Span} {condition : Expr} {body : Block Stmt}
    (ran : (ifLoop.elseIf expression block).run cursor =
      (.ok (opening, condition, body), last)) :
    ∃ (phrase : Phrase 6) (sequence : Sequence),
      cursor.Took (.keyword .elseWord :: .keyword .ifWord ::
        (testTokens phrase ++ blockTokens sequence.tokens)) last ∧
      max phrase.nesting sequence.nesting ≤ maxNesting - cursor.depth ∧
      condition.bare = phrase.tree ∧ statementsBare body.statements = sequence.trees := by
  rcases Step.run_andThen_eq_ok.mp ran with ⟨elseSpan, first, elseRan, ran⟩
  rcases Reader.run_bind_eq_ok.mp ran with ⟨opening, second, ifRan, ran⟩
  rcases Reader.run_bind_eq_ok.mp ran with ⟨condition, third, conditionRan, ran⟩
  rcases Reader.run_bind_eq_ok.mp ran with ⟨body, fourth, bodyRan, ran⟩
  rcases Reader.run_pure_eq_ok.mp ran with ⟨same, rfl⟩
  cases same
  rcases sound_branch soundExpression soundBlock conditionRan bodyRan with
    ⟨phrase, sequence, branch, nesting, denotesCondition, denotesBody⟩
  have words := (keyword_eq_ok elseRan).trans (keyword_eq_ok ifRan)
  rw [words.depth] at nesting
  exact ⟨phrase, sequence, words.trans branch, nesting, denotesCondition, denotesBody⟩

/-- The conditions right after `else`, from the last one on. -/
theorem sound_arms {cursor middle last : Cursor} {arms : List (Span × Expr × Block Stmt)}
    {otherwise : Option (Block Stmt)} {base : Alternative} (stop : Nat)
    (repeats : Reader.Repeats ifLoop.isElseIf (ifLoop.elseIf expression block) cursor arms
      middle)
    (took : middle.Took base.tokens last) (nesting : base.nesting ≤ maxNesting - middle.depth)
    (denotes : otherwise.map blockBare = base.tree?) :
    ∃ alternative : Alternative, cursor.Took alternative.tokens last ∧
      alternative.nesting ≤ maxNesting - cursor.depth ∧
      (elseIfs stop arms otherwise).map blockBare = alternative.tree? := by
  induction repeats with
  | stop unwanted => exact ⟨base, took, nesting, denotes⟩
  | @again cursor next middle arm arms isWanted ran others ih =>
      rcases ih took nesting with ⟨alternative, took', nesting', denotes'⟩
      rcases arm with ⟨opening, condition, body⟩
      rcases sound_elseIf soundExpression soundBlock ran with
        ⟨phrase, sequence, branch, nesting'', denotesCondition, denotesBody⟩
      rw [branch.depth] at nesting'
      refine ⟨.conditional phrase sequence alternative, ?_, Nat.max_le.mpr ⟨nesting'', nesting'⟩,
        ?_⟩
      · simpa [Alternative.tokens] using branch.trans took'
      · change some (blockBare ⟨[conditional opening condition body (elseIfs stop arms otherwise)
          stop], opening.upTo stop⟩) = some _
        rw [blockBare, statementsBare, statementsBare, bare_conditional, denotesCondition,
          denotesBody, denotes']

/-- The conditions of a row hang on one another in the derivation, as they do in the tree. -/
theorem sound_ifStatement : Form.sentences.Sound (ifStatement expression block).toReader := by
  intro cursor last value ran
  rw [ifStatement_eq] at ran
  rcases Step.run_andThen_eq_ok.mp ran with ⟨opening, first, openingRan, ran⟩
  rcases Reader.run_bind_eq_ok.mp ran with ⟨condition, second, conditionRan, ran⟩
  rcases Reader.run_bind_eq_ok.mp ran with ⟨body, third, bodyRan, ran⟩
  rcases Reader.run_bind_eq_ok.mp ran with ⟨arms, fourth, armsRan, ran⟩
  rcases Reader.run_bind_eq_ok.mp ran with ⟨otherwise, fifth, otherwiseRan, ran⟩
  rcases Reader.run_bind_eq_ok.mp ran with ⟨stop, same, stopRan, ran⟩
  rcases Reader.run_inspect_eq_ok.mp stopRan with ⟨-, rfl⟩
  rcases Reader.run_pure_eq_ok.mp ran with ⟨rfl, rfl⟩
  rcases sound_lastBranch soundBlock otherwiseRan with ⟨base, tookBase, nestingBase, denotesBase⟩
  rcases sound_arms soundExpression soundBlock stop (Reader.run_many_eq_ok.mp armsRan) tookBase
    nestingBase denotesBase with ⟨alternative, took', nesting', denotes'⟩
  have took := keyword_eq_ok openingRan
  rcases sound_branch soundExpression soundBlock conditionRan bodyRan with
    ⟨phrase, sequence, branch, nesting, denotesCondition, denotesBody⟩
  rw [branch.depth, took.depth] at nesting'
  rw [took.depth] at nesting
  refine ⟨.conditional phrase sequence alternative, ?_, Nat.max_le.mpr ⟨nesting, nesting'⟩, ?_⟩
  · have whole := took.trans (branch.trans took')
    rw [List.append_assoc] at whole
    exact whole
  · change (conditional opening condition body (elseIfs stop arms otherwise) stop).bare = _
    rw [bare_conditional, denotesCondition, denotesBody, denotes']
    rfl

theorem sound_statementOver : Form.sentences.Sound (statementOver expression block).toReader := by
  intro cursor last value ran
  change (Step.choose _).run cursor = _ at ran
  rw [Step.run_choose] at ran
  split at ran
  · exact sound_declaration soundExpression soundBlock ran
  · exact sound_declaration soundExpression soundBlock ran
  · exact sound_assignment soundExpression ran
  · exact sound_ifStatement soundExpression soundBlock ran
  · exact sound_loopStatement soundExpression soundBlock ran
  · exact sound_printStatement ran
  · exact sound_scanStatement ran
  · exact sound_leaveStatement soundExpression ran
  · rcases Step.run_map_eq_ok.mp ran with ⟨body, bodyRan, rfl⟩
    rcases soundBlock bodyRan with ⟨sequence, took, nesting, denotes⟩
    exact ⟨.block sequence, took, nesting, congrArg Stmt.block denotes⟩
  · cases ran

end Conditional

end Statement

theorem sound_beyond : beyond.Sound := by
  constructor <;>
    · intro cursor last value ran
      cases ran

/-- The productions of a level are sound if those of the level inside are. -/
theorem sound_level {inner : Productions} (sound : inner.Sound) : (level inner).Sound := by
  have soundExpression := sound_expressionOver (sound_operandOver sound)
  have soundBlock := sound_blockOver sound
  exact ⟨sound_operandOver sound, soundExpression, soundBlock,
    sound_statementOver soundExpression soundBlock⟩

/-- The induction is on the levels that may still be entered. -/
theorem sound_within (room : Nat) : (within room).Sound := by
  induction room with
  | zero => exact sound_level sound_beyond
  | succ room ih => exact sound_level ih

end Productions

end SubsetC
