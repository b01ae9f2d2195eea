import SubsetC.Proofs.Grammar.Soundness

/-!
# What is derived the parser reads

A production is complete for a form of derivations if it succeeds on the tokens of each derivation
that fits into the levels that are left, and takes these and no more. Nothing is said of the
outcome: by soundness it has a derivation of its own, and there is only one. The productions for a
given room are complete where no more than this room is left.
-/

namespace SubsetC

open Grammar

/-- Whatever is derived within the levels that are left is read, from the given depth on. -/
def Form.Complete {δ α : Type} (form : Form δ α) (least : Nat) (production : Production α) : Prop :=
  ∀ ⦃cursor : Cursor⦄ (derivation : δ) ⦃rest : List Token.Kind⦄, least ≤ cursor.depth →
    cursor.depth ≤ maxNesting → cursor.kinds = form.tokens derivation ++ rest → form.Behind rest →
    form.nesting derivation ≤ maxNesting - cursor.depth → cursor.Passes production rest

namespace Cursor

variable {cursor : Cursor} {rest : List Token.Kind}

/-- The next token is the first of those that are left. -/
theorem kind_of_kinds {kind : Token.Kind} (next : cursor.kinds = kind :: rest) :
    cursor.kind = kind := by
  rw [kind_eq, next]
  rfl

/-- What is next, unless it is the end, is the first of the tokens that are left. -/
theorem exists_kinds {kind : Token.Kind} (here : cursor.kind = kind) (inside : kind ≠ .endOfInput) :
    ∃ rest, cursor.kinds = kind :: rest := by
  rw [kind_eq] at here
  cases kinds : cursor.kinds with
  | nil =>
      rw [kinds] at here
      exact absurd here.symm inside
  | cons first others =>
      rw [kinds] at here
      exact ⟨others, congrArg (· :: others) here⟩

namespace Passes

variable {α : Type}

/-- What has run already may be left out. -/
theorem after {β : Type} {first : Production α} {second : α → Production β} {value : α}
    {middle : Cursor} (ran : first.run cursor = (.ok value, middle))
    (depth : middle.depth = cursor.depth) (passes : middle.Passes (second value) rest) :
    cursor.Passes (first >>= second) rest := by
  rcases passes with ⟨outcome, last, ran', kinds', depth'⟩
  exact ⟨outcome, last, Reader.run_bind_eq_ok.mpr ⟨value, middle, ran, ran'⟩, kinds',
    depth'.trans depth⟩

theorem choose {step : Cursor → TokenStep α} (passes : cursor.Passes (step cursor).toReader rest) :
    cursor.Passes (Step.choose step).toReader rest := passes

theorem decide {production : Cursor → Production α}
    (passes : cursor.Passes (production cursor) rest) :
    cursor.Passes (Reader.choose production) rest := passes

/-- Whatever fits into one level less is read one level deeper. -/
theorem nested {δ : Type} {form : Form δ α} {least : Nat} {step : TokenStep α} (derivation : δ)
    (complete : form.Complete (least + 1) step.toReader) (deep : least ≤ cursor.depth)
    (next : cursor.kinds = form.tokens derivation ++ rest) (behind : form.Behind rest)
    (fits : form.nesting derivation + 1 ≤ maxNesting - cursor.depth) :
    cursor.Passes (TokenStep.nested step).toReader rest := by
  have room : ¬maxNesting ≤ cursor.depth := by omega
  have entered :
      ({ cursor with depth := cursor.depth + 1 } : Cursor).Passes step.toReader rest := by
    apply complete derivation
    · exact Nat.succ_le_succ deep
    · exact Nat.lt_of_not_le room
    · exact next
    · exact behind
    · change form.nesting derivation ≤ maxNesting - (cursor.depth + 1)
      omega
  rcases entered with ⟨value, inner, ran, kinds, depth⟩
  refine ⟨value, { inner with depth := inner.depth - 1 }, ?_, kinds, ?_⟩
  · simp only [TokenStep.nested, if_neg room, ran]
  · change inner.depth - 1 = cursor.depth
    rw [depth]
    rfl

end Passes

end Cursor

namespace Productions

open TokenStep Production Cursor

section Chain

variable {level least : Nat} {operator : Token.Kind → Option BinaryOp} {operand : TokenStep Expr}

/-- Where no operator of this level follows, the loop is over. -/
theorem link_eq_none (isLevel : IsLevel (level + 1) operator) {left : Expr} {cursor : Cursor}
    (stops : Stops (level + 1) cursor.kinds) : link operator operand left cursor = none := by
  unfold link
  rw [if_neg]
  intro wanted
  rcases Option.isSome_iff_exists.mp wanted with ⟨op, entry⟩
  rcases (isLevel _ op).mp entry with ⟨here, fits⟩
  rw [kind_eq] at here
  cases kinds : cursor.kinds with
  | nil =>
      rw [kinds] at here
      cases here
  | cons kind others =>
      rw [kinds] at here stops
      exact stops op (Nat.le_of_eq fits) (congrArg some here)

/-- Each operator is one more round. -/
theorem complete_iterate (isLevel : IsLevel (level + 1) operator)
    (complete : (Form.phrases level).Complete least operand.toReader) (links : Links level)
    {left : Expr} {cursor : Cursor} {rest : List Token.Kind} (deep : least ≤ cursor.depth)
    (shallow : cursor.depth ≤ maxNesting) (next : cursor.kinds = links.tokens ++ rest)
    (stops : Stops (level + 1) rest) (fits : links.nesting ≤ maxNesting - cursor.depth) :
    cursor.Passes (Reader.iterate (link operator operand) left) rest := by
  match links with
  | .nil =>
      have unwanted : link operator operand left cursor = none := by
        apply link_eq_none isLevel
        rw [next]
        exact stops
      exact ⟨left, cursor, Reader.run_iterate_of_none unwanted, next, rfl⟩
  | .cons op opFits right others =>
      rw [Links.tokens, List.cons_append, List.append_assoc] at next
      rcases Nat.max_le.mp fits with ⟨rightFits, othersFit⟩
      have entry : operator (.symbol op.symbol) = some op := (isLevel _ op).mpr ⟨rfl, opFits⟩
      have wanted : (operator cursor.kind).isSome = true := by
        rw [kind_of_kinds next, entry]
        rfl
      obtain ⟨step, named⟩ : ∃ step, link operator operand left cursor = some step :=
        ⟨_, if_pos wanted⟩
      have round : cursor.Passes step.toReader (others.tokens ++ rest) := by
        rw [link, if_pos wanted] at named
        cases named
        refine .andThen (.accept next entry) fun mark point kinds depth => ?_
        refine .bind (others.tokens ++ rest) ?_ fun right' last kinds' depth' => ?_
        · apply complete right
          · omega
          · omega
          · exact kinds
          · exact others.stops stops
          · rwa [depth]
        · exact .withSpan _ _ kinds'
      rcases round with ⟨left', middle, ran, kinds, depth⟩
      have iterates : middle.Passes (Reader.iterate (link operator operand) left') rest := by
        apply complete_iterate isLevel complete others
        · omega
        · omega
        · exact kinds
        · exact stops
        · rwa [depth]
      rcases iterates with ⟨value, last, ran', kinds', depth'⟩
      refine ⟨value, last, ?_, kinds', by omega⟩
      rw [Reader.run_iterate_of_some named ran, ran']

/-- A row of operators is read whole, up to an operator that binds less tightly. -/
theorem complete_chain (isLevel : IsLevel (level + 1) operator)
    (complete : (Form.phrases level).Complete least operand.toReader) :
    (Form.phrases (level + 1)).Complete least (chain operator operand).toReader := by
  intro cursor phrase rest deep shallow next stops fits
  cases phrase with
  | row first links =>
      rw [chain_eq]
      rcases Nat.max_le.mp fits with ⟨firstFits, linksFit⟩
      change cursor.kinds = first.tokens ++ links.tokens ++ rest at next
      rw [List.append_assoc] at next
      refine .andThen (complete first deep shallow next (links.stops stops) firstFits)
        fun left middle kinds depth => ?_
      apply complete_iterate isLevel complete links
      · omega
      · omega
      · exact kinds
      · exact stops
      · rwa [depth]

end Chain

theorem complete_foldr {least : Nat} {table : List (Token.Kind → Option BinaryOp)}
    (areLevels : AreLevels table) {operand : TokenStep Expr}
    (complete : (Form.phrases 0).Complete least operand.toReader) :
    (Form.phrases table.length).Complete least (table.foldr chain operand).toReader := by
  induction table with
  | nil => exact complete
  | cons operator rest ih => exact complete_chain areLevels.1 (ih areLevels.2)

theorem complete_expressionOver {least : Nat} {operand : TokenStep Expr}
    (complete : (Form.phrases 0).Complete least operand.toReader) :
    (Form.phrases 6).Complete least (expressionOver operand).toReader :=
  complete_foldr areLevels_levels complete

/-- All productions are complete from the given depth on. -/
structure Complete (productions : Productions) (least : Nat) : Prop where
  operand : (Form.phrases 0).Complete least productions.operand.toReader
  expression : (Form.phrases 6).Complete least productions.expression.toReader
  block : Form.blocks.Complete least productions.block.toReader
  statement : Form.sentences.Complete least productions.statement.toReader

section Operand

variable {inner : Productions} {least : Nat}

/-- A sign takes one of the levels that are left. -/
theorem complete_signed (complete : inner.Complete (least + 1)) (op : UnaryOp)
    {operand : Phrase 0} {cursor : Cursor} {rest : List Token.Kind} (deep : least ≤ cursor.depth)
    (next : cursor.kinds = .symbol op.symbol :: (operand.tokens ++ rest))
    (fits : operand.nesting + 1 ≤ maxNesting - cursor.depth) :
    cursor.Passes (operandOver.signed inner op.symbol op).toReader rest := by
  refine .andThen (.symbol next) fun sign point kinds depth => ?_
  refine .bind rest ?_ fun value last kinds' depth' => .withSpan _ _ kinds'
  apply Passes.nested operand complete.operand
  · omega
  · exact kinds
  · exact stops_zero rest
  · rwa [depth]

/-- The first token tells which operand is derived. -/
theorem complete_operandOver (complete : inner.Complete (least + 1)) :
    (Form.phrases 0).Complete least (operandOver inner).toReader := by
  intro cursor phrase rest deep shallow next behind fits
  refine .choose ?_
  cases phrase with
  | integer value =>
      rw [kind_of_kinds next]
      exact .map (.accept next rfl)
  | character body =>
      rw [kind_of_kinds next]
      exact .map (.accept next rfl)
  | var name =>
      rw [kind_of_kinds next]
      refine .andThen (.identifier next) fun used point kinds depth => ?_
      exact .bind rest (.checkDeclared _ kinds) fun checked last kinds' depth' => .pure _ kinds'
  | signed op operand =>
      rw [kind_of_kinds next]
      cases op with
      | neg => exact complete_signed complete .neg deep next fits
      | not => exact complete_signed complete .not deep next fits
  | parentheses phrase =>
      change cursor.kinds = .symbol .leftParen :: (phrase.tokens ++ [.symbol .rightParen] ++ rest)
        at next
      rw [List.append_assoc] at next
      rw [kind_of_kinds next]
      refine .andThen (.symbol next) fun opening point kinds depth => ?_
      refine .bind (.symbol .rightParen :: rest) ?_ fun value point' kinds' depth' => ?_
      · apply Passes.nested phrase complete.expression
        · omega
        · exact kinds
        · exact stops_rightParen 6 rest
        · rwa [depth]
      · exact .bind rest (.symbol kinds') fun closing last kinds'' depth'' => .withSpan _ _ kinds''

end Operand

section Block

/-- Each statement of a block is wanted and read, and the brace is wanted no more. -/
theorem complete_repeats {least : Nat} {statement : TokenStep Stmt}
    (complete : Form.sentences.Complete (least + 1) statement.toReader) (body : Sequence)
    {cursor : Cursor} {rest : List Token.Kind} (deep : least ≤ cursor.depth)
    (next : cursor.kinds = body.tokens ++ .symbol .rightBrace :: rest)
    (fits : body.nesting ≤ maxNesting - cursor.depth) :
    ∃ statements last, Reader.Repeats
        (fun cursor => cursor.kind != .symbol .rightBrace && cursor.kind != .endOfInput)
        (nested statement) cursor statements last ∧
      last.kinds = .symbol .rightBrace :: rest ∧ last.depth = cursor.depth := by
  match body with
  | .nil =>
      refine ⟨[], cursor, .stop ?_, next, rfl⟩
      rw [kind_of_kinds next]
      rfl
  | .cons sentence others =>
      rw [Sequence.tokens, List.append_assoc] at next
      rcases Nat.max_le.mp fits with ⟨sentenceFits, othersFit⟩
      rcases Passes.nested sentence complete deep next (others.ends rest) sentenceFits with
        ⟨value, middle, ran, kinds, depth⟩
      rcases complete_repeats complete others (depth ▸ deep) kinds (depth ▸ othersFit) with
        ⟨statements, last, repeats, kinds', depth'⟩
      refine ⟨value :: statements, last, .again ?_ ran repeats, kinds', depth'.trans depth⟩
      rcases sentence.head_tokens with ⟨kind, behind, tokens, other, -, other'⟩
      rw [tokens] at next
      rw [kind_of_kinds next]
      simp [other, other']

/-- The statements of a block are read up to its brace. -/
theorem complete_blockOver {inner : Productions} {least : Nat}
    (complete : inner.Complete (least + 1)) :
    Form.blocks.Complete least (blockOver inner).toReader := by
  intro cursor body rest deep shallow next behind fits
  change cursor.kinds = .symbol .leftBrace :: (body.tokens ++ [.symbol .rightBrace] ++ rest) at next
  rw [List.append_assoc] at next
  refine .andThen (.symbol next) fun opening point kinds depth => ?_
  rcases complete_repeats complete.statement body (depth ▸ deep) kinds (depth ▸ fits) with
    ⟨statements, last, repeats, kinds', depth'⟩
  refine .bind (.symbol .rightBrace :: rest)
    ⟨statements, last, Reader.run_many_eq_ok.mpr repeats, kinds', depth'⟩
    fun statements point' kinds' depth' => ?_
  exact .bind rest (.symbol kinds') fun closing last kinds'' depth'' => .withSpan _ _ kinds''

end Block

section Statement

variable {least : Nat} {expression : TokenStep Expr} {block : TokenStep (Block Stmt)}
  {cursor : Cursor} {rest : List Token.Kind}

theorem complete_value (complete : (Form.phrases 6).Complete least expression.toReader)
    {value : Phrase 6} (deep : least ≤ cursor.depth) (shallow : cursor.depth ≤ maxNesting)
    (next : cursor.kinds = value.tokens ++ .symbol .semicolon :: rest)
    (fits : value.nesting ≤ maxNesting - cursor.depth) :
    cursor.Passes expression.toReader (.symbol .semicolon :: rest) :=
  complete value deep shallow next (stops_semicolon 6 rest) fits

theorem complete_body (complete : Form.blocks.Complete least block.toReader) {body : Sequence}
    (deep : least ≤ cursor.depth) (shallow : cursor.depth ≤ maxNesting)
    (next : cursor.kinds = blockTokens body.tokens ++ rest)
    (fits : body.nesting ≤ maxNesting - cursor.depth) : cursor.Passes block.toReader rest :=
  complete body deep shallow next trivial fits

theorem complete_condition (complete : (Form.phrases 6).Complete least expression.toReader)
    {phrase : Phrase 6} (deep : least ≤ cursor.depth) (shallow : cursor.depth ≤ maxNesting)
    (next : cursor.kinds = testTokens phrase ++ rest)
    (fits : phrase.nesting ≤ maxNesting - cursor.depth) :
    cursor.Passes (condition expression) rest := by
  rw [testTokens, List.cons_append, List.append_assoc] at next
  refine .bind _ (.symbol next) fun left point kinds depth => ?_
  refine .bind (.symbol .rightParen :: rest) ?_ fun value point' kinds' depth' => ?_
  · apply complete phrase
    · omega
    · omega
    · exact kinds
    · exact stops_rightParen 6 rest
    · rwa [depth]
  · exact .bind rest (.symbol kinds') fun right last kinds'' depth'' => .pure _ kinds''

/-- A test with its branch. -/
theorem complete_branch {α : Type} {then_ : Expr → Block Stmt → Production α}
    {last : List Token.Kind} {condition : Phrase 6} {body : Sequence}
    (completeExpression : (Form.phrases 6).Complete least expression.toReader)
    (completeBlock : Form.blocks.Complete least block.toReader) (deep : least ≤ cursor.depth)
    (shallow : cursor.depth ≤ maxNesting)
    (next : cursor.kinds = testTokens condition ++ (blockTokens body.tokens ++ rest))
    (fits : max condition.nesting body.nesting ≤ maxNesting - cursor.depth)
    (passes : ∀ value branch (point : Cursor), point.kinds = rest → point.depth = cursor.depth →
      point.Passes (then_ value branch) last) :
    cursor.Passes (do
      let value ← Productions.condition expression
      let branch ← block.toReader
      then_ value branch) last := by
  rcases Nat.max_le.mp fits with ⟨conditionFits, bodyFits⟩
  refine .bind _ (complete_condition completeExpression deep shallow next conditionFits)
    fun value point kinds depth => ?_
  refine .bind rest ?_ fun branch point' kinds' depth' => ?_
  · apply complete_body completeBlock
    · omega
    · omega
    · exact kinds
    · rwa [depth]
  · exact passes value branch point' kinds' (depth'.trans depth)

section Declaration

variable {type : DataType} {name : String}

/-- Behind a declaration without a value there is a semicolon. -/
theorem complete_declare (next : cursor.kinds =
      .keyword type.keyword :: .identifier name :: .symbol .semicolon :: rest) :
    cursor.Passes (declaration expression block).toReader rest := by
  refine .andThen (.dataType next) fun typed point kinds depth => ?_
  refine .bind _ (.identifier kinds) fun identifier point' kinds' depth' => .lookAhead ?_
  rw [kind_of_kinds kinds']
  refine .bind rest (.symbol kinds') fun semicolon point'' kinds'' depth'' => ?_
  exact .bind rest (.declare _ _ kinds'') fun declared last kinds depth => .withSpan _ _ kinds

theorem complete_define (complete : (Form.phrases 6).Complete least expression.toReader)
    {value : Phrase 6} (deep : least ≤ cursor.depth) (shallow : cursor.depth ≤ maxNesting)
    (next : cursor.kinds = .keyword type.keyword :: .identifier name :: .symbol .equal ::
      (value.tokens ++ .symbol .semicolon :: rest))
    (fits : value.nesting ≤ maxNesting - cursor.depth) :
    cursor.Passes (declaration expression block).toReader rest := by
  refine .andThen (.dataType next) fun typed first kinds depth => ?_
  refine .bind _ (.identifier kinds) fun identifier second kinds depth' => .lookAhead ?_
  rw [kind_of_kinds kinds]
  refine .bind _ (.symbol kinds) fun equal third kinds depth'' => ?_
  refine .bind (.symbol .semicolon :: rest) ?_ fun value fourth kinds depth' => ?_
  · apply complete_value complete
    · omega
    · omega
    · exact kinds
    · rwa [depth'', depth', depth]
  · refine .bind rest (.symbol kinds) fun semicolon fifth kinds depth => ?_
    exact .bind rest (.declare _ _ kinds) fun declared last kinds depth => .withSpan _ _ kinds

theorem complete_function (complete : Form.blocks.Complete least block.toReader)
    {body : Sequence} (deep : least ≤ cursor.depth) (shallow : cursor.depth ≤ maxNesting)
    (next : cursor.kinds = .keyword type.keyword :: .identifier name :: .symbol .leftParen ::
      .symbol .rightParen :: (blockTokens body.tokens ++ rest))
    (fits : body.nesting ≤ maxNesting - cursor.depth) :
    cursor.Passes (declaration expression block).toReader rest := by
  refine .andThen (.dataType next) fun typed first kinds depth => ?_
  refine .bind _ (.identifier kinds) fun identifier second kinds depth' => .lookAhead ?_
  rw [kind_of_kinds kinds]
  refine .bind _ (.symbol kinds) fun left third kinds depth'' => ?_
  refine .bind _ (.symbol kinds) fun right fourth kinds depthRight => ?_
  refine .bind rest ?_ fun body last kinds depth => .withSpan _ _ kinds
  apply complete_body complete
  · omega
  · omega
  · exact kinds
  · rwa [depthRight, depth'', depth', depth]

end Declaration

/-- An identifier in front starts an assignment. -/
theorem complete_assignment (complete : (Form.phrases 6).Complete least expression.toReader)
    {target : String} {value : Phrase 6} (deep : least ≤ cursor.depth)
    (shallow : cursor.depth ≤ maxNesting)
    (next : cursor.kinds = .identifier target :: .symbol .equal ::
      (value.tokens ++ .symbol .semicolon :: rest))
    (fits : value.nesting ≤ maxNesting - cursor.depth) :
    cursor.Passes (assignment expression).toReader rest := by
  refine .andThen (.identifier next) fun identifier first kinds depth => ?_
  refine .bind _ (.checkDeclared _ kinds) fun checked second kinds depth' => ?_
  refine .bind _ (.symbol kinds) fun equal third kinds depth'' => ?_
  refine .bind (.symbol .semicolon :: rest) ?_ fun value fourth kinds depth' => ?_
  · apply complete_value complete
    · omega
    · omega
    · exact kinds
    · rwa [depth'', depth', depth]
  · exact .bind rest (.symbol kinds) fun semicolon last kinds depth => .withSpan _ _ kinds

theorem complete_loopStatement
    (completeExpression : (Form.phrases 6).Complete least expression.toReader)
    (completeBlock : Form.blocks.Complete least block.toReader) {condition : Phrase 6}
    {body : Sequence} (deep : least ≤ cursor.depth) (shallow : cursor.depth ≤ maxNesting)
    (next : cursor.kinds = .keyword .whileWord ::
      (testTokens condition ++ (blockTokens body.tokens ++ rest)))
    (fits : max condition.nesting body.nesting ≤ maxNesting - cursor.depth) :
    cursor.Passes (loopStatement expression block).toReader rest := by
  refine .andThen (.keyword next) fun opening point kinds depth => ?_
  apply complete_branch completeExpression completeBlock
  · omega
  · omega
  · exact kinds
  · rwa [depth]
  · exact fun value branch last kinds depth => .withSpan _ _ kinds

theorem complete_printStatement {format : String} {argument : Option String}
    (next : cursor.kinds = .keyword .printf :: .symbol .leftParen :: .string format ::
      (argumentTokens argument ++ .symbol .rightParen :: .symbol .semicolon :: rest)) :
    cursor.Passes printStatement.toReader rest := by
  refine .andThen (.keyword next) fun opening first kinds depth => ?_
  refine .bind _ (.symbol kinds) fun left second kinds depth => ?_
  refine .bind _ (.stringLiteral kinds) fun format third kinds depth => ?_
  refine .bind (.symbol .rightParen :: .symbol .semicolon :: rest) ?_
    fun argument fourth kinds depth => ?_
  · refine .decide ?_
    cases argument with
    | none =>
        rw [if_neg]
        · exact .pure none kinds
        · rw [kind_of_kinds kinds]
          decide
    | some name =>
        rw [if_pos (kind_of_kinds kinds)]
        refine .bind _ (.symbol kinds) fun comma point kinds depth => ?_
        refine .bind _ (.identifier kinds) fun identifier point kinds depth => ?_
        exact .bind _ (.checkDeclared _ kinds) fun checked last kinds depth => .pure _ kinds
  · refine .bind _ (.symbol kinds) fun right fifth kinds depth => ?_
    exact .bind rest (.symbol kinds) fun semicolon last kinds depth => .withSpan _ _ kinds

theorem complete_scanStatement {format target : String}
    (next : cursor.kinds = .keyword .scanf :: .symbol .leftParen :: .string format ::
      .symbol .comma :: .symbol .ampersand :: .identifier target :: .symbol .rightParen ::
        .symbol .semicolon :: rest) :
    cursor.Passes scanStatement.toReader rest := by
  refine .andThen (.keyword next) fun opening first kinds depth => ?_
  refine .bind _ (.symbol kinds) fun left second kinds depth => ?_
  refine .bind _ (.stringLiteral kinds) fun format third kinds depth => ?_
  refine .bind _ (.symbol kinds) fun comma fourth kinds depth => ?_
  refine .bind _ (.symbol kinds) fun ampersand fifth kinds depth => ?_
  refine .bind _ (.identifier kinds) fun identifier sixth kinds depth => ?_
  refine .bind _ (.checkDeclared _ kinds) fun checked seventh kinds depth => ?_
  refine .bind _ (.symbol kinds) fun right eighth kinds depth => ?_
  exact .bind rest (.symbol kinds) fun semicolon last kinds depth => .withSpan _ _ kinds

/-- No value starts with a semicolon, so it is seen whether there is one. -/
theorem complete_leaveStatement (complete : (Form.phrases 6).Complete least expression.toReader)
    {value : Option (Phrase 6)} (deep : least ≤ cursor.depth) (shallow : cursor.depth ≤ maxNesting)
    (next : cursor.kinds =
      .keyword .returnWord :: (valueTokens value ++ .symbol .semicolon :: rest))
    (fits : valueNesting value ≤ maxNesting - cursor.depth) :
    cursor.Passes (leaveStatement expression).toReader rest := by
  refine .andThen (.keyword next) fun opening point kinds depth => ?_
  refine .bind (.symbol .semicolon :: rest) ?_ fun value point kinds depth => ?_
  · refine .decide ?_
    cases value with
    | none =>
        rw [if_pos (kind_of_kinds kinds)]
        exact .pure none kinds
    | some value =>
        rw [if_neg]
        · refine .bind (.symbol .semicolon :: rest) ?_ fun value last kinds depth => .pure _ kinds
          apply complete_value complete
          · omega
          · omega
          · exact kinds
          · rwa [depth]
        · intro here
          apply value.head_ne_semicolon (.symbol .semicolon :: rest)
          change point.kinds = value.tokens ++ _ at kinds
          rw [kind_eq, kinds] at here
          rcases Option.getD_eq_iff.mp here with same | ⟨-, other⟩
          · exact same
          · cases other
  · exact .bind rest (.symbol kinds) fun semicolon last kinds depth => .withSpan _ _ kinds

/-- Whether one more condition follows is told by the kinds of two tokens. -/
theorem isElseIf_eq (cursor : Cursor) : ifLoop.isElseIf cursor =
    (cursor.kinds.take 2 == [.keyword .elseWord, .keyword .ifWord]) := by
  rw [kinds, TokenStream.kinds, ← List.map_take]
  rfl

/-- Where a statement may end, `else` does not follow. -/
theorem ne_elseWord_of_ends (next : cursor.kinds = rest) (ends : Ends rest) :
    cursor.kind ≠ .keyword .elseWord := by
  intro here
  rw [kind_eq, next] at here
  rcases Option.getD_eq_iff.mp here with same | ⟨-, other⟩
  · exact ends same
  · cases other

section Conditional

variable (completeExpression : (Form.phrases 6).Complete least expression.toReader)
  (completeBlock : Form.blocks.Complete least block.toReader)

include completeExpression completeBlock

/-- Each condition right after `else` is one more round, and the last branch is left. -/
theorem complete_arms (alternative : Alternative) {cursor : Cursor} (deep : least ≤ cursor.depth)
    (shallow : cursor.depth ≤ maxNesting) (next : cursor.kinds = alternative.tokens ++ rest)
    (ends : Ends rest) (fits : alternative.nesting ≤ maxNesting - cursor.depth) :
    ∃ arms middle, Reader.Repeats ifLoop.isElseIf (ifLoop.elseIf expression block) cursor
        arms middle ∧ middle.depth = cursor.depth ∧ middle.Passes (lastBranch block) rest := by
  match alternative with
  | .none =>
      have noElse := ne_elseWord_of_ends next ends
      refine ⟨[], cursor, .stop ?_, rfl, .decide ?_⟩
      · rw [isElseIf_eq, next, beq_eq_false_iff_ne]
        intro words
        have head := congrArg List.head? words
        rw [List.head?_take, if_neg (by decide)] at head
        exact ends head
      · rw [if_neg noElse]
        exact .pure none next
  | .block body =>
      refine ⟨[], cursor, .stop ?_, rfl, .decide ?_⟩
      · rw [isElseIf_eq, next]
        rfl
      · rw [if_pos (kind_of_kinds next)]
        refine .bind _ (.keyword next) fun word point kinds depth => ?_
        refine .bind rest ?_ fun branch last kinds depth => .pure _ kinds
        apply complete_body completeBlock
        · omega
        · omega
        · exact kinds
        · rwa [depth]
  | .conditional condition body otherwise =>
      rcases Nat.max_le.mp fits with ⟨branchFits, otherwiseFits⟩
      rw [Alternative.tokens, List.cons_append, List.cons_append, List.append_assoc,
        List.append_assoc] at next
      have round : cursor.Passes (ifLoop.elseIf expression block).toReader
          (otherwise.tokens ++ rest) := by
        refine .andThen (.keyword next) fun word point kinds depth => ?_
        refine .bind _ (.keyword kinds) fun opening point' kinds' depth' => ?_
        apply complete_branch completeExpression completeBlock
        · omega
        · omega
        · exact kinds'
        · rwa [depth', depth]
        · exact fun value branch last kinds depth => .pure _ kinds
      rcases round with ⟨arm, point, ran, kinds, depth⟩
      rcases complete_arms otherwise (depth ▸ deep) (depth ▸ shallow) kinds ends
        (depth ▸ otherwiseFits) with ⟨arms, middle, repeats, depth', passes⟩
      refine ⟨arm :: arms, middle, .again ?_ ran repeats, depth'.trans depth, passes⟩
      rw [isElseIf_eq, next]
      rfl

/-- A conditional statement is read with all that hangs on it. -/
theorem complete_ifStatement {condition : Phrase 6} {body : Sequence} {otherwise : Alternative}
    (deep : least ≤ cursor.depth) (shallow : cursor.depth ≤ maxNesting)
    (next : cursor.kinds = .keyword .ifWord ::
      (testTokens condition ++ (blockTokens body.tokens ++ (otherwise.tokens ++ rest))))
    (ends : Ends rest)
    (fits : max (max condition.nesting body.nesting) otherwise.nesting ≤
      maxNesting - cursor.depth) :
    cursor.Passes (ifStatement expression block).toReader rest := by
  rw [ifStatement_eq]
  rcases Nat.max_le.mp fits with ⟨branchFits, otherwiseFits⟩
  refine .andThen (.keyword next) fun opening point kinds depth => ?_
  apply complete_branch completeExpression completeBlock
  · omega
  · omega
  · exact kinds
  · rwa [depth]
  · intro value branch point' kinds' depth'
    have deep' : least ≤ point'.depth := by omega
    have shallow' : point'.depth ≤ maxNesting := by omega
    have fits' : otherwise.nesting ≤ maxNesting - point'.depth := by rwa [depth', depth]
    rcases complete_arms completeExpression completeBlock otherwise deep' shallow' kinds' ends
      fits' with ⟨arms, middle, repeats, depth'', passes⟩
    refine .after (Reader.run_many_eq_ok.mpr repeats) depth'' ?_
    refine .bind rest passes fun last point kinds depth => ?_
    exact .after rfl rfl (.pure _ kinds)

/-- The first token tells which form a statement has. -/
theorem complete_statementOver :
    Form.sentences.Complete least (statementOver expression block).toReader := by
  intro cursor sentence rest deep shallow next ends fits
  refine .choose ?_
  change cursor.kinds = sentence.tokens ++ rest at next
  cases sentence with
  | declare type name =>
      have passes : cursor.Passes (declaration expression block).toReader rest :=
        complete_declare next
      rw [kind_of_kinds next]
      cases type with
      | int => exact passes
      | char => exact passes
  | define type name value =>
      simp only [Sentence.tokens, List.cons_append, List.append_assoc, List.nil_append] at next
      have passes : cursor.Passes (declaration expression block).toReader rest :=
        complete_define completeExpression deep shallow next fits
      rw [kind_of_kinds next]
      cases type with
      | int => exact passes
      | char => exact passes
  | function type name body =>
      have passes : cursor.Passes (declaration expression block).toReader rest :=
        complete_function completeBlock deep shallow next fits
      rw [kind_of_kinds next]
      cases type with
      | int => exact passes
      | char => exact passes
  | assign target value =>
      simp only [Sentence.tokens, List.cons_append, List.append_assoc, List.nil_append] at next
      rw [kind_of_kinds next]
      exact complete_assignment completeExpression deep shallow next fits
  | conditional condition body otherwise =>
      simp only [Sentence.tokens, List.cons_append, List.append_assoc] at next
      rw [kind_of_kinds next]
      exact complete_ifStatement completeExpression completeBlock deep shallow next ends fits
  | loop condition body =>
      simp only [Sentence.tokens, List.cons_append, List.append_assoc] at next
      rw [kind_of_kinds next]
      exact complete_loopStatement completeExpression completeBlock deep shallow next fits
  | print format argument =>
      simp only [Sentence.tokens, List.cons_append, List.append_assoc, List.nil_append] at next
      rw [kind_of_kinds next]
      exact complete_printStatement next
  | scan format target =>
      rw [kind_of_kinds next]
      exact complete_scanStatement next
  | leave value =>
      simp only [Sentence.tokens, List.cons_append, List.append_assoc, List.nil_append] at next
      rw [kind_of_kinds next]
      exact complete_leaveStatement completeExpression deep shallow next fits
  | block body =>
      rw [kind_of_kinds next]
      exact .map (complete_body completeBlock deep shallow next fits)

end Conditional

end Statement

theorem complete_beyond : beyond.Complete (maxNesting + 1) := by
  constructor <;>
    · intro cursor derivation rest deep shallow
      omega

/-- The productions of a level are complete from one level above the level inside on. -/
theorem complete_level {inner : Productions} {least : Nat} (complete : inner.Complete (least + 1)) :
    (level inner).Complete least := by
  have completeExpression := complete_expressionOver (complete_operandOver complete)
  have completeBlock := complete_blockOver complete
  exact ⟨complete_operandOver complete, completeExpression, completeBlock,
    complete_statementOver completeExpression completeBlock⟩

/-- The induction is on the levels that may still be entered. -/
theorem complete_within {room : Nat} (fits : room ≤ maxNesting) :
    (within room).Complete (maxNesting - room) := by
  induction room with
  | zero => exact complete_level complete_beyond
  | succ room ih =>
      apply complete_level
      rw [show maxNesting - (room + 1) + 1 = maxNesting - room by omega]
      exact ih (Nat.le_of_succ_le fits)

end Productions

end SubsetC
