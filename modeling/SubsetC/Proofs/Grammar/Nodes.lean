import SubsetC.Proofs.Grammar.Completeness
import SubsetC.Proofs.Grammar.Spans

/-!
# Every node stands where it has been read

All nodes of what a production reads stand among the tokens in front of which it started. For the
node on top this follows from soundness and from how its span is set; the nodes inside of it have
been read by the productions inside. Two kinds of nodes are read by no production of their own: the
operators of a row but the last one, which stand for the row up to them, and the conditions behind
`else`, each of which stands for the row from it on.
-/

namespace SubsetC

open Grammar

namespace Grammar

/-- One more operator with the operand on its right. -/
def Links.snoc {level : Nat} : Links level → (op : BinaryOp) → op.level = level + 1 →
    Phrase level → Links level
  | .nil, op, fits, operand => .cons op fits operand .nil
  | .cons op' fits' operand' rest, op, fits, operand =>
      .cons op' fits' operand' (rest.snoc op fits operand)

section Snoc

variable {level : Nat} (op : BinaryOp) (fits : op.level = level + 1) (operand : Phrase level)

/-- One more operator at the end of a row. -/
theorem Links.tokens_snoc (links : Links level) :
    (links.snoc op fits operand).tokens = links.tokens ++ .symbol op.symbol :: operand.tokens := by
  fun_induction links.snoc op fits operand with
  | case1 => simp [tokens]
  | case2 level op' fits' operand' rest op fits operand ih => simp [tokens, ih]

theorem Links.nesting_snoc (links : Links level) :
    (links.snoc op fits operand).nesting = max links.nesting operand.nesting := by
  fun_induction links.snoc op fits operand with
  | case1 => simp [nesting]
  | case2 level op' fits' operand' rest op fits operand ih => simp [nesting, ih, Nat.max_assoc]

/-- The last operator is the root. -/
theorem Links.tree_snoc (links : Links level) (left : Expr) :
    (links.snoc op fits operand).tree left =
      .binary op (links.tree left) operand.tree default := by
  fun_induction links.snoc op fits operand generalizing left with
  | case1 => simp [tree]
  | case2 level op' fits' operand' rest op fits operand ih => simp [tree, ih]

include fits in
/-- A row with one more operator. -/
theorem exists_longer (row : Phrase (level + 1)) :
    ∃ longer : Phrase (level + 1),
      longer.tokens = row.tokens ++ .symbol op.symbol :: operand.tokens ∧
      longer.nesting = max row.nesting operand.nesting ∧
      longer.tree = .binary op row.tree operand.tree default := by
  cases row with
  | row first links =>
      refine ⟨.row first (links.snoc op fits operand), ?_, ?_, ?_⟩
      · simp [Phrase.tokens, links.tokens_snoc]
      · simp [Phrase.nesting, links.nesting_snoc, Nat.max_assoc]
      · simp [Phrase.tree, links.tree_snoc]

end Snoc

/-- An expression of one level is one of each level above it. -/
theorem exists_wider {level target : Nat} (phrase : Phrase level) (above : level ≤ target) :
    ∃ wider : Phrase target, wider.tokens = phrase.tokens ∧ wider.nesting = phrase.nesting ∧
      wider.tree = phrase.tree := by
  induction above with
  | refl => exact ⟨phrase, rfl, rfl, rfl⟩
  | step above ih =>
      rcases ih with ⟨wider, tokens, nesting, tree⟩
      refine ⟨.row wider .nil, ?_, ?_, tree⟩
      · rw [Phrase.tokens, Links.tokens, List.append_nil, tokens]
      · rw [Phrase.nesting, Links.nesting, Nat.max_zero, nesting]

/-- No expression is derived without a token. -/
theorem Phrase.tokens_ne_nil {level : Nat} (phrase : Phrase level) : phrase.tokens ≠ [] := by
  intro empty
  apply phrase.head_ne_semicolon [.symbol .semicolon]
  rw [empty]
  rfl

theorem Sentence.tokens_ne_nil (sentence : Sentence) : sentence.tokens ≠ [] := by
  rcases sentence.head_tokens with ⟨kind, rest, tokens, -⟩
  rw [tokens]
  exact List.cons_ne_nil kind rest

end Grammar

namespace Cursor

variable {first last : Cursor}

/-- An expression of any level stands where its tokens are. -/
theorem expr_stands {level : Nat} {phrase : Phrase level} {expr : Expr} (short : level ≤ 6)
    (took : first.Took phrase.tokens last) (fits : phrase.nesting ≤ maxNesting)
    (denotes : expr.bare = phrase.tree) (reaches : first.Reaches last)
    (same : expr.span = first.token.span.upTo last.previousStop) : expr.Stands first.tokens := by
  rcases exists_wider phrase short with ⟨wider, tokens, nesting, tree⟩
  rw [← tokens] at took
  rw [← nesting] at fits
  rw [← tree] at denotes
  exact stands_of_took wider took wider.tokens_ne_nil fits denotes reaches same

/-- A part of its own is read next. -/
theorem Runs.part {α β : Type} {origin cursor : Cursor} {Q : α → Cursor → Prop} {place : β → Span}
    {Inside : List Token → β → Prop} {first : Production β} {second : β → Production α}
    (places : Production.Places place Inside first)
    (mono : ∀ {tokens tokens' value}, Inside tokens value → tokens <:+: tokens' →
      Inside tokens' value)
    (reaches : origin.Reaches cursor)
    (late : ∀ value middle, origin.Reaches middle →
      place value = cursor.token.span.upTo middle.previousStop → Inside origin.tokens value →
      origin.Runs middle (second value) Q) : origin.Runs cursor (first >>= second) Q := by
  intro outcome last ran
  rcases Reader.run_bind_eq_ok.mp ran with ⟨value, middle, firstRan, ran⟩
  rcases places cursor firstRan with ⟨reaches', span, inside⟩
  exact late value middle (reaches.trans reaches') span (mono inside reaches.inside) ran

end Cursor

namespace Productions

open TokenStep Production Cursor

/-- What the productions read stands where they have read it, with all nodes. -/
structure Place (productions : Productions) : Prop where
  operand : Places Expr.span Expr.AllStand productions.operand.toReader
  expression : Places Expr.span Expr.AllStand productions.expression.toReader
  block : Places Block.span (fun tokens block => Stmt.AllStand tokens (blockNodes block))
    productions.block.toReader
  statement : Places Stmt.span (fun tokens stmt => Stmt.AllStand tokens stmt.nodes)
    productions.statement.toReader

/-- By soundness the node on top stands if those below it do. -/
theorem places_expression {level : Nat} {production : Production Expr} (short : level ≤ 6)
    (sound : (Form.phrases level).Sound production)
    (below : Places Expr.span
      Expr.BelowStand production) :
    Places Expr.span Expr.AllStand production := by
  intro cursor value last ran
  rcases below cursor ran with ⟨reaches, span, inside⟩
  rcases sound ran with ⟨phrase, took, nesting, denotes⟩
  refine ⟨reaches, span, ?_⟩
  intro node mem
  rcases inside node mem with rfl | stands
  · exact expr_stands short took (Nat.le_trans nesting (Nat.sub_le _ _)) denotes reaches span
  · exact stands

section Chain

variable {level : Nat} {operator : Token.Kind → Option BinaryOp} {operand : TokenStep Expr}

theorem runs_link (places : Places Expr.span Expr.AllStand operand.toReader)
    {origin cursor : Cursor}
    {left : Expr} {step : TokenStep Expr} (wanted : link operator operand left cursor = some step)
    (reaches : origin.Reaches cursor) :
    origin.Runs cursor step.toReader fun value last =>
      ∃ op right, value = .binary op left right (left.span.upTo last.previousStop) ∧
        right.AllStand origin.tokens := by
  unfold link at wanted
  split at wanted
  · cases wanted
    apply (Runs.accept reaches).bind
    rintro ⟨op, mark⟩ middle reaches' -
    apply Runs.part places Expr.AllStand.mono reaches'
    intro right behind reaches'' span rightStands
    exact .withSpan reaches'' ⟨op, right, rfl, rightStands⟩
  · cases wanted

/-- Each round stands on the tokens of the rounds so far. -/
theorem runs_iterate (isLevel : IsLevel (level + 1) operator) (short : level + 1 ≤ 6)
    (sound : (Form.phrases level).Sound operand.toReader)
    (places : Places Expr.span Expr.AllStand operand.toReader) {origin cursor : Cursor}
    {left : Expr} (row : Phrase (level + 1)) (took : origin.Took row.tokens cursor)
    (fits : row.nesting ≤ maxNesting) (denotes : left.bare = row.tree)
    (reaches : origin.Reaches cursor)
    (span : left.span = origin.token.span.upTo cursor.previousStop)
    (stand : left.AllStand origin.tokens) :
    origin.Runs cursor (Reader.iterate (link operator operand) left) fun value last =>
      value.span = origin.token.span.upTo last.previousStop ∧ value.AllStand origin.tokens := by
  intro outcome last ran
  change Reader.iterateFrom (link operator operand) left cursor = _ at ran
  fun_induction Reader.iterateFrom (link operator operand) left cursor generalizing row with
  | case1 left cursor unwanted =>
      cases ran
      exact ⟨reaches, span, stand⟩
  | case2 left cursor step wanted error last failed => cases ran
  | case3 left cursor step wanted left' middle equation ih =>
      rcases sound_link isLevel sound wanted equation with
        ⟨op, opFits, right, took', rightFits, denotes'⟩
      rcases exists_longer op opFits right row with ⟨longer, tokens, nesting, tree⟩
      rcases runs_link places wanted reaches equation with
        ⟨reaches', op', right', rfl, rightStands⟩
      have tookLonger : origin.Took longer.tokens middle := by
        rw [tokens]
        exact took.trans took'
      have longerFits : longer.nesting ≤ maxNesting := by
        rw [nesting]
        omega
      have longerDenotes := denotes'
      rw [denotes, ← tree] at longerDenotes
      have longerSpan : left.span.upTo middle.previousStop =
          origin.token.span.upTo middle.previousStop := by
        rw [span]
        rfl
      apply ih longer tookLonger longerFits longerDenotes reaches' longerSpan _ ran
      intro node mem
      rcases List.mem_cons.mp mem with rfl | inside
      · exact expr_stands short tookLonger longerFits longerDenotes reaches' longerSpan
      · rcases List.mem_append.mp inside with inLeft | inRight
        · exact stand node inLeft
        · exact rightStands node inRight

/-- Every operator of a row stands on the tokens from the first operand on. -/
theorem places_chain (isLevel : IsLevel (level + 1) operator) (short : level + 1 ≤ 6)
    (sound : (Form.phrases level).Sound operand.toReader)
    (places : Places Expr.span Expr.AllStand operand.toReader) :
    Places Expr.span Expr.AllStand (chain operator operand).toReader := by
  intro cursor value last ran
  rw [chain_eq] at ran
  rcases Step.run_andThen_eq_ok.mp ran with ⟨first, middle, firstRan, ran⟩
  rcases places cursor firstRan with ⟨reaches, span, stand⟩
  rcases sound firstRan with ⟨phrase, took, nesting, denotes⟩
  rcases exists_wider phrase (Nat.le_succ level) with ⟨row, tokens, nesting', tree⟩
  apply runs_iterate isLevel short sound places row _ _ _ reaches span stand ran
  · rw [tokens]
    exact took
  · rw [nesting']
    exact Nat.le_trans nesting (Nat.sub_le _ _)
  · rw [tree]
    exact denotes

end Chain

theorem places_expressionOver {operand : TokenStep Expr}
    (sound : (Form.phrases 0).Sound operand.toReader)
    (places : Places Expr.span Expr.AllStand operand.toReader) :
    Places Expr.span Expr.AllStand (expressionOver operand).toReader := by
  have folded {table : List (Token.Kind → Option BinaryOp)} (areLevels : AreLevels table)
      (short : table.length ≤ 6) :
      Places Expr.span Expr.AllStand (table.foldr chain operand).toReader := by
    induction table with
    | nil => exact places
    | cons operator rest ih =>
        apply places_chain areLevels.1 short (sound_foldr areLevels.2 sound)
        exact ih areLevels.2 (Nat.le_of_succ_le short)
  exact folded areLevels_levels (Nat.le_refl 6)

/-- What is read in a loop is read one behind the other. -/
theorem stand_of_repeats {statement : TokenStep Stmt}
    (places : Places Stmt.span (fun tokens stmt => Stmt.AllStand tokens stmt.nodes)
      statement.toReader)
    {wanted : Cursor → Bool} {cursor last : Cursor} {statements : List Stmt}
    (repeats : Reader.Repeats wanted statement cursor statements last) :
    cursor.Reaches last ∧ Stmt.AllStand cursor.tokens (statementNodes statements) := by
  induction repeats with
  | @stop cursor unwanted =>
      refine ⟨.refl cursor, ?_⟩
      rintro node ⟨⟩
  | again isWanted ran others ih =>
      rcases places _ ran with ⟨reaches, span, stand⟩
      refine ⟨reaches.trans ih.1, ?_⟩
      intro node mem
      rcases List.mem_append.mp mem with here | behind
      · exact stand node here
      · exact (ih.2 node behind).mono reaches.inside

section Inner

variable {inner : Productions} (place : inner.Place)

include place

/-- A sign with its operand. -/
theorem below_signed (mark : Symbol) (op : UnaryOp) :
    Places Expr.span Expr.BelowStand
      (operandOver.signed inner mark op).toReader := by
  intro cursor
  apply Runs.symbol (.refl cursor)
  intro first reaches
  apply Runs.part place.operand.nested Expr.AllStand.mono reaches
  intro operand second reaches span stand
  apply Runs.withSpan reaches
  refine ⟨rfl, ?_⟩
  intro node mem
  rcases List.mem_cons.mp mem with rfl | inside
  · exact .inl rfl
  · exact .inr (stand node inside)

/-- The outer parentheses set the span of the expression in them. -/
theorem below_parentheses :
    Places Expr.span Expr.BelowStand
      ((symbol .leftParen).andThen fun opening => do
        let expression ← (nested inner.expression).toReader
        let _ ← (symbol .rightParen).toReader
        return expression.withSpan (← spanFrom opening)).toReader := by
  intro cursor
  apply Runs.symbol (.refl cursor)
  intro first reaches
  apply Runs.part place.expression.nested Expr.AllStand.mono reaches
  intro expression second reaches span stand
  apply Runs.symbol reaches
  intro third reaches
  apply Runs.withSpan reaches
  refine ⟨by cases expression <;> rfl, ?_⟩
  intro node mem
  rcases Expr.mem_nodes_withSpan mem with rfl | inside
  · exact .inl rfl
  · exact .inr (stand node inside)

omit place in
/-- A leaf is alone. -/
theorem below_literal (literal : Literal) :
    Places Expr.span Expr.BelowStand
      (operandOver.literal literal).toReader := by
  intro cursor
  apply Runs.map
  intro found last ran
  rcases Runs.accept (.refl cursor) ran with ⟨reaches, span, stop⟩
  refine ⟨reaches, ?_, fun node mem => .inl (List.mem_singleton.mp mem)⟩
  rw [stop, Expr.span, span]
  rfl

/-- Below an operand in parentheses stands what is inside of them. -/
theorem below_operandOver :
    Places Expr.span Expr.BelowStand
      (operandOver inner).toReader := by
  intro cursor value last ran
  change (Step.choose _).run cursor = _ at ran
  rw [Step.run_choose] at ran
  cases here : cursor.kind with
  | integer number =>
      rw [here] at ran
      exact below_literal _ cursor ran
  | character body =>
      rw [here] at ran
      exact below_literal _ cursor ran
  | identifier name =>
      rw [here] at ran
      revert ran
      apply Runs.identifier (.refl cursor)
      intro used first reaches stop
      apply Runs.modifySession reaches
      intro second reaches same
      apply Runs.pure reaches
      refine ⟨?_, fun node mem => .inl (List.mem_singleton.mp mem)⟩
      rw [same, stop]
      rfl
  | symbol mark =>
      rw [here] at ran
      cases mark with
      | minus => exact below_signed place _ _ cursor ran
      | bang => exact below_signed place _ _ cursor ran
      | leftParen => exact below_parentheses place cursor ran
      | _ => cases ran
  | _ =>
      rw [here] at ran
      cases ran

/-- The statements of a block stand between its braces. -/
theorem places_blockOver :
    Places Block.span (fun tokens block => Stmt.AllStand tokens (blockNodes block))
      (blockOver inner).toReader := by
  intro cursor
  apply Runs.symbol (.refl cursor)
  intro first reaches
  apply Runs.bind (P := fun statements _ => Stmt.AllStand cursor.tokens (statementNodes statements))
  · intro statements second ran
    rcases stand_of_repeats place.statement.nested (Reader.run_many_eq_ok.mp ran) with
      ⟨reaches', stand⟩
    exact ⟨reaches.trans reaches', stand.mono reaches.inside⟩
  · intro statements second reaches stand
    apply Runs.symbol reaches
    intro third reaches
    exact .withSpan reaches ⟨rfl, stand⟩

end Inner

section Statements

/-- A statement stands with all that is inside of it. -/
theorem allStand_of_below {tokens : List Token} {stmt : Stmt}
    (here : Form.sentences.Stands tokens stmt.span stmt) (below : stmt.BelowStand tokens) :
    Stmt.AllStand tokens stmt.nodes := by
  intro node mem
  rw [Stmt.nodes_eq] at mem
  rcases List.mem_cons.mp mem with rfl | inside
  · exact ⟨here, below.expressions⟩
  · rcases List.mem_flatMap.mp inside with ⟨block, own, within⟩
    exact below.statements block own node within

/-- By soundness a statement stands if what is inside of it does. -/
theorem places_statement {production : Production Stmt} (sound : Form.sentences.Sound production)
    (below : Places Stmt.span Stmt.BelowStand production) :
    Places Stmt.span (fun tokens stmt => Stmt.AllStand tokens stmt.nodes) production := by
  intro cursor value last ran
  rcases below cursor ran with ⟨reaches, span, inside⟩
  rcases sound ran with ⟨sentence, took, nesting, denotes⟩
  refine ⟨reaches, span, allStand_of_below ?_ inside⟩
  exact stands_of_took sentence took sentence.tokens_ne_nil
    (Nat.le_trans nesting (Nat.sub_le _ _)) denotes reaches span

variable {expression : TokenStep Expr} {block : TokenStep (Block Stmt)}

theorem below_printStatement :
    Places Stmt.span Stmt.BelowStand printStatement.toReader := by
  intro cursor
  apply Runs.keyword (.refl cursor)
  intro first reaches
  apply Runs.symbol reaches
  intro second reaches
  apply Runs.stringLiteral reaches
  intro format third reaches
  apply Runs.bind (P := fun _ _ => True)
  · apply Runs.choose
    split
    · apply Runs.symbol reaches
      intro fourth reaches
      apply Runs.identifier reaches
      intro argument fifth reaches stop
      apply Runs.modifySession reaches
      intro sixth reaches same
      exact .pure reaches trivial
    · exact .pure reaches trivial
  · intro argument fourth reaches done
    apply Runs.symbol reaches
    intro fifth reaches
    apply Runs.symbol reaches
    intro sixth reaches
    apply Runs.withSpan reaches
    exact ⟨rfl, by simp [Stmt.ownExpressions], by simp [Stmt.ownBlocks]⟩

theorem below_scanStatement : Places Stmt.span Stmt.BelowStand scanStatement.toReader := by
  intro cursor
  apply Runs.keyword (.refl cursor)
  intro first reaches
  apply Runs.symbol reaches
  intro second reaches
  apply Runs.stringLiteral reaches
  intro format third reaches
  apply Runs.symbol reaches
  intro fourth reaches
  apply Runs.symbol reaches
  intro fifth reaches
  apply Runs.identifier reaches
  intro target sixth reaches stop
  apply Runs.modifySession reaches
  intro seventh reaches same
  apply Runs.symbol reaches
  intro eighth reaches
  apply Runs.symbol reaches
  intro ninth reaches
  apply Runs.withSpan reaches
  exact ⟨rfl, by simp [Stmt.ownExpressions], by simp [Stmt.ownBlocks]⟩

section WithExpression

variable (places : Places Expr.span Expr.AllStand expression.toReader)

include places

/-- A test in parentheses is read next. -/
theorem runs_condition {α : Type} {origin cursor : Cursor} {Q : α → Cursor → Prop}
    {second : Expr → Production α} (reaches : origin.Reaches cursor)
    (late : ∀ test middle, origin.Reaches middle → test.AllStand origin.tokens →
      origin.Runs middle (second test) Q) :
    origin.Runs cursor (condition expression >>= second) Q := by
  have early : origin.Runs cursor (condition expression) fun test _ =>
      test.AllStand origin.tokens := by
    apply Runs.symbol reaches
    intro first reaches
    apply Runs.part places Expr.AllStand.mono reaches
    intro test second reaches span stand
    apply Runs.symbol reaches
    intro third reaches
    exact .pure reaches stand
  exact early.bind late

theorem below_assignment :
    Places Stmt.span Stmt.BelowStand (assignment expression).toReader := by
  intro cursor
  apply Runs.identifier (.refl cursor)
  intro target first reaches stop
  apply Runs.modifySession reaches
  intro second reaches same
  apply Runs.symbol reaches
  intro third reaches
  apply Runs.part places Expr.AllStand.mono reaches
  intro value fourth reaches span stand
  apply Runs.symbol reaches
  intro fifth reaches
  apply Runs.withSpan reaches
  exact ⟨rfl, by simpa [Stmt.ownExpressions] using stand, by simp [Stmt.ownBlocks]⟩

theorem below_leaveStatement :
    Places Stmt.span Stmt.BelowStand (leaveStatement expression).toReader := by
  intro cursor
  apply Runs.keyword (.refl cursor)
  intro first reaches
  apply Runs.bind (P := fun value _ => ∀ expr ∈ value, Expr.AllStand cursor.tokens expr)
  · apply Runs.choose
    split
    · exact .pure reaches (by simp)
    · apply Runs.part places Expr.AllStand.mono reaches
      intro value second reaches span stand
      exact .pure reaches (by simpa using stand)
  · intro value second reaches stand
    apply Runs.symbol reaches
    intro third reaches
    apply Runs.withSpan reaches
    exact ⟨rfl, by simpa [Stmt.ownExpressions] using stand, by simp [Stmt.ownBlocks]⟩

section WithBlock

variable (placesBlock : Places Block.span
  (fun tokens block => Stmt.AllStand tokens (blockNodes block)) block.toReader)

include placesBlock

theorem below_declaration :
    Places Stmt.span Stmt.BelowStand (declaration expression block).toReader := by
  intro cursor
  apply Runs.dataType (.refl cursor)
  intro type first reaches
  apply Runs.identifier reaches
  intro name second reaches stop
  apply Runs.inspect
  split
  · apply Runs.symbol reaches
    intro third reaches
    apply Runs.symbol reaches
    intro fourth reaches
    apply Runs.part placesBlock Stmt.AllStand.mono reaches
    intro body fifth reaches span stand
    apply Runs.withSpan reaches
    exact ⟨rfl, by simp [Stmt.ownExpressions], by simpa [Stmt.ownBlocks] using stand⟩
  · apply Runs.symbol reaches
    intro third reaches
    apply Runs.part places Expr.AllStand.mono reaches
    intro value fourth reaches span stand
    apply Runs.symbol reaches
    intro fifth reaches
    apply Runs.modifySession reaches
    intro sixth reaches same
    apply Runs.withSpan reaches
    exact ⟨rfl, by simpa [Stmt.ownExpressions] using stand, by simp [Stmt.ownBlocks]⟩
  · apply Runs.symbol reaches
    intro third reaches
    apply Runs.modifySession reaches
    intro fourth reaches same
    apply Runs.withSpan reaches
    exact ⟨rfl, by simp [Stmt.ownExpressions], by simp [Stmt.ownBlocks]⟩

theorem below_loopStatement :
    Places Stmt.span Stmt.BelowStand (loopStatement expression block).toReader := by
  intro cursor
  apply Runs.keyword (.refl cursor)
  intro first reaches
  apply runs_condition places reaches
  intro test second reaches testStands
  apply Runs.part placesBlock Stmt.AllStand.mono reaches
  intro body third reaches span stand
  apply Runs.withSpan reaches
  exact ⟨rfl, by simpa [Stmt.ownExpressions] using testStands,
    by simpa [Stmt.ownBlocks] using stand⟩

omit places in
theorem runs_lastBranch {origin cursor : Cursor} (reaches : origin.Reaches cursor) :
    origin.Runs cursor (lastBranch block) fun otherwise _ =>
      ∀ block ∈ otherwise, Stmt.AllStand origin.tokens (blockNodes block) := by
  apply Runs.choose
  split
  · apply Runs.keyword reaches
    intro first reaches
    apply Runs.part placesBlock Stmt.AllStand.mono reaches
    intro body second reaches span stand
    exact .pure reaches (by simpa using stand)
  · exact .pure reaches (by simp)

/-- A condition behind `else`, from its `if` on. -/
theorem runs_elseIf {cursor last : Cursor} {opening : Span} {test : Expr} {body : Block Stmt}
    (ran : (ifLoop.elseIf expression block).run cursor = (.ok (opening, test, body), last)) :
    ∃ first : Cursor, cursor.Took [.keyword .elseWord] first ∧ cursor.Reaches first ∧
      opening = first.token.span ∧ first.Reaches last ∧ test.AllStand first.tokens ∧
      Stmt.AllStand first.tokens (blockNodes body) := by
  rcases Step.run_andThen_eq_ok.mp ran with ⟨elseSpan, first, elseRan, ran⟩
  have runs : first.Runs first (do
      let opening ← (keyword .ifWord).toReader
      let condition ← condition expression
      return (opening, condition, ← block.toReader)) fun arm _ =>
        arm.1 = first.token.span ∧ arm.2.1.AllStand first.tokens ∧
          Stmt.AllStand first.tokens (blockNodes arm.2.2) := by
    apply Runs.keyword (.refl first)
    intro second reaches
    apply runs_condition places reaches
    intro test third reaches testStands
    apply Runs.part placesBlock Stmt.AllStand.mono reaches
    intro body fourth reaches span stand
    exact .pure reaches ⟨rfl, testStands, stand⟩
  rcases runs ran with ⟨reaches, span, testStands, stand⟩
  exact ⟨first, keyword_eq_ok elseRan, (Runs.expect (.refl cursor) elseRan).1, span, reaches,
    testStands, stand⟩

section Conditional

variable (soundExpression : (Form.phrases 6).Sound expression.toReader)
  (soundBlock : Form.blocks.Sound block.toReader)

omit places placesBlock in
/-- Below a conditional statement stand its condition and its branches. -/
theorem below_conditional {tokens : List Token} {opening : Span} {test : Expr} {body : Block Stmt}
    {otherwise : Option (Block Stmt)} {stop : Nat} (testStands : test.AllStand tokens)
    (bodyStands : Stmt.AllStand tokens (blockNodes body))
    (otherwiseStands : ∀ block ∈ otherwise, Stmt.AllStand tokens (blockNodes block)) :
    (conditional opening test body otherwise stop).BelowStand tokens := by
  cases otherwise with
  | none =>
      exact ⟨by simpa [conditional, Stmt.ownExpressions] using testStands,
        by simpa [conditional, Stmt.ownBlocks] using bodyStands⟩
  | some otherwise =>
      refine ⟨by simpa [conditional, Stmt.ownExpressions] using testStands, ?_⟩
      simpa [conditional, Stmt.ownBlocks] using ⟨bodyStands, otherwiseStands otherwise rfl⟩

include soundExpression soundBlock

/-- The conditions right after `else`, from the last one on. Each goes up to the end of all. -/
theorem stand_of_arms {cursor middle last : Cursor} {arms : List (Span × Expr × Block Stmt)}
    {otherwise : Option (Block Stmt)} {base : Alternative}
    (repeats : Reader.Repeats ifLoop.isElseIf (ifLoop.elseIf expression block) cursor arms
      middle)
    (took : middle.Took base.tokens last) (nesting : base.nesting ≤ maxNesting - middle.depth)
    (denotes : otherwise.map blockBare = base.tree?) (reaches : middle.Reaches last)
    (stand : ∀ block ∈ otherwise, Stmt.AllStand middle.tokens (blockNodes block)) :
    cursor.Reaches last ∧ ∀ block ∈ elseIfs last.previousStop arms otherwise,
      Stmt.AllStand cursor.tokens (blockNodes block) := by
  induction repeats with
  | stop unwanted => exact ⟨reaches, stand⟩
  | @again cursor next middle arm arms isWanted ran others ih =>
      rcases ih took nesting reaches stand with ⟨reachesLast, standLast⟩
      rcases sound_arms soundExpression soundBlock last.previousStop others took nesting
        denotes with
        ⟨alternative, tookLast, fitsLast, denotesLast⟩
      rcases arm with ⟨opening, test, body⟩
      rcases sound_elseIf soundExpression soundBlock ran with
        ⟨phrase, sequence, tookArm, fits, denotesTest, denotesBody⟩
      rcases runs_elseIf places placesBlock ran with
        ⟨first, tookElse, reachesFirst, rfl, reachesNext, testStands, bodyStands⟩
      have standInside :
          (conditional first.token.span test body (elseIfs last.previousStop arms otherwise)
            last.previousStop).BelowStand first.tokens := by
        apply below_conditional testStands bodyStands
        intro block mem
        exact (standLast block mem).mono reachesNext.inside
      have here : Form.sentences.Stands first.tokens
          (first.token.span.upTo last.previousStop)
          (conditional first.token.span test body (elseIfs last.previousStop arms otherwise)
            last.previousStop) := by
        have tookNext := tookArm.behind [.keyword .elseWord] tookElse
        apply stands_of_took (Sentence.conditional phrase sequence alternative)
        · simpa [Form.sentences, Sentence.tokens] using tookNext.trans tookLast
        · exact Sentence.tokens_ne_nil _
        · apply Nat.max_le.mpr
          exact ⟨Nat.le_trans fits (Nat.sub_le _ _), Nat.le_trans fitsLast (Nat.sub_le _ _)⟩
        · change (conditional _ _ _ _ _).bare = conditionalTree _ _ _
          rw [bare_conditional, denotesTest, denotesBody, denotesLast]
        · exact reachesNext.trans reachesLast
        · rfl
      refine ⟨reachesFirst.trans (reachesNext.trans reachesLast), ?_⟩
      intro block mem
      cases mem
      intro node mem
      change node ∈ Stmt.nodes (conditional _ _ _ _ _) ++ [] at mem
      rw [List.append_nil] at mem
      rw [← span_conditional] at here
      exact (allStand_of_below here standInside node mem).mono reachesFirst.inside

/-- Each condition of a row stands on the tokens up to the end of the row. -/
theorem below_ifStatement :
    Places Stmt.span Stmt.BelowStand (ifStatement expression block).toReader := by
  rw [ifStatement_eq]
  intro cursor
  apply Runs.keyword (.refl cursor)
  intro first reaches
  apply runs_condition places reaches
  intro test second reaches testStands
  apply Runs.part placesBlock Stmt.AllStand.mono reaches
  intro body third reaches span bodyStands value last ran
  rcases Reader.run_bind_eq_ok.mp ran with ⟨arms, fourth, armsRan, ran⟩
  rcases Reader.run_bind_eq_ok.mp ran with ⟨otherwise, fifth, otherwiseRan, ran⟩
  rcases Reader.run_bind_eq_ok.mp ran with ⟨stop, same, stopRan, ran⟩
  rcases Reader.run_inspect_eq_ok.mp stopRan with ⟨rfl, rfl⟩
  rcases Reader.run_pure_eq_ok.mp ran with ⟨rfl, rfl⟩
  rcases sound_lastBranch soundBlock otherwiseRan with ⟨base, took, nesting, denotes⟩
  rcases runs_lastBranch placesBlock (.refl fourth) otherwiseRan with ⟨reachesLast, stand⟩
  rcases stand_of_arms places placesBlock soundExpression soundBlock
    (Reader.run_many_eq_ok.mp armsRan) took nesting denotes reachesLast stand with
    ⟨reachesArms, standArms⟩
  refine ⟨reaches.trans reachesArms, span_conditional _ _ _ _ _, ?_⟩
  apply below_conditional testStands bodyStands
  intro block mem
  exact (standArms block mem).mono reaches.inside

theorem places_statementOver :
    Places Stmt.span (fun tokens stmt => Stmt.AllStand tokens stmt.nodes)
      (statementOver expression block).toReader := by
  apply places_statement (sound_statementOver soundExpression soundBlock)
  intro cursor value last ran
  change (Step.choose _).run cursor = _ at ran
  rw [Step.run_choose] at ran
  split at ran
  · exact below_declaration places placesBlock cursor ran
  · exact below_declaration places placesBlock cursor ran
  · exact below_assignment places cursor ran
  · exact below_ifStatement places placesBlock soundExpression soundBlock cursor ran
  · exact below_loopStatement places placesBlock cursor ran
  · exact below_printStatement cursor ran
  · exact below_scanStatement cursor ran
  · exact below_leaveStatement places cursor ran
  · rcases Step.run_map_eq_ok.mp ran with ⟨body, bodyRan, rfl⟩
    rcases placesBlock cursor bodyRan with ⟨reaches, span, stand⟩
    exact ⟨reaches, span, by simp [Stmt.ownExpressions], by simpa [Stmt.ownBlocks] using stand⟩
  · cases ran

end Conditional

end WithBlock

end WithExpression

end Statements

/-- What the productions of a level read stands if what those of the level inside read does. -/
theorem place_level {inner : Productions} (sound : inner.Sound) (place : inner.Place) :
    (level inner).Place := by
  have soundOperand := sound_operandOver sound
  have operand : Places Expr.span Expr.AllStand (operandOver inner).toReader :=
    places_expression (Nat.zero_le 6) soundOperand (below_operandOver place)
  have expression := places_expressionOver soundOperand operand
  have block := places_blockOver place
  exact ⟨operand, expression, block,
    places_statementOver expression block (sound_expressionOver soundOperand)
      (sound_blockOver sound)⟩

/-- The induction is on the levels. -/
theorem place_within (room : Nat) : (within room).Place := by
  induction room with
  | zero =>
      apply place_level sound_beyond
      constructor <;>
        · intro cursor value last ran
          cases ran
  | succ room ih => exact place_level (sound_within room) ih

end Productions

end SubsetC
