import SubsetC.Proofs.Grammar.Alike
import SubsetC.Proofs.Grammar.Recognition

/-!
# Places decide nothing in the parser

Each production ends alike on two layouts of the same tokens. The places that it reads go into trees
and reports only, and what it decides on is the next tokens and the declared names. The productions
are taken one after the other, then their levels; `parse_alike` is about a whole source.
-/

namespace SubsetC

/-- The statements of a list lose their places one by one. -/
theorem statementsBare_eq_map (statements : List Stmt) :
    statementsBare statements = statements.map Stmt.bare := by
  induction statements with
  | nil => rfl
  | cons first rest ih => rw [statementsBare, ih, List.map_cons]

theorem blockBare_eq (block : Block Stmt) :
    blockBare block = ⟨block.statements.map Stmt.bare, default⟩ := by
  rcases block with ⟨statements, span⟩
  rw [blockBare, statementsBare_eq_map]

namespace Productions

open TokenStep Production

/-- Each of the productions ends alike on two layouts. -/
structure ArePlaceless (inner : Productions) : Prop where
  operand : Placeless Expr.bare inner.operand.toReader
  expression : Placeless Expr.bare inner.expression.toReader
  block : Placeless blockBare inner.block.toReader
  statement : Placeless Stmt.bare inner.statement.toReader

section Expressions

variable {operand : TokenStep Expr}

/-- The rounds of both parsers go together, and operators have no places. -/
theorem placeless_chain (operator : Token.Kind → Option BinaryOp)
    (placelessOperand : Placeless Expr.bare operand.toReader) :
    Placeless Expr.bare (chain operator operand).toReader := by
  refine placelessOperand.andThen fun left left' same => .iterate ?_ same
  intro left left' sameLeft cursor cursor' alike
  rw [alike.kind]
  split
  · refine .goOn ?_
    refine (placeless_accept "operator" operator).andThen ?_
    rintro ⟨op, span⟩ ⟨op', span'⟩ (rfl : op = op')
    refine placelessOperand.bind fun right right' sameRight => ?_
    refine alike_withSpan fun span span' => ?_
    rw [Expr.bare, Expr.bare, sameLeft, sameRight]
  · exact .stop

theorem placeless_expressionOver (placelessOperand : Placeless Expr.bare operand.toReader) :
    Placeless Expr.bare (expressionOver operand).toReader := by
  unfold expressionOver
  induction levels with
  | nil => exact placelessOperand
  | cons operator rest ih => exact placeless_chain operator ih

theorem placeless_literal (value : Literal) :
    Placeless Expr.bare (operandOver.literal value).toReader :=
  (placeless_accept _ _).map fun _ _ _ => rfl

variable {inner : Productions}

theorem placeless_signed (placeless : inner.ArePlaceless) (mark : Symbol) (op : UnaryOp) :
    Placeless Expr.bare (operandOver.signed inner mark op).toReader := by
  refine (placeless_expect _).andThen fun sign sign' _ => ?_
  refine (placeless_nested placeless.operand).bind fun operand operand' same => ?_
  refine alike_withSpan fun span span' => ?_
  rw [Expr.bare, Expr.bare, same]

/-- The next tokens of both parsers are alike, so they choose alike. -/
theorem placeless_operandOver (placeless : inner.ArePlaceless) :
    Placeless Expr.bare (operandOver inner).toReader := by
  refine .chooseStep fun cursor cursor' same => ?_
  rw [same.kind]
  cases cursor'.kind with
  | integer value => exact placeless_literal _
  | character body => exact placeless_literal _
  | identifier name =>
      refine placeless_identifier.andThen fun used used' same => ?_
      refine (alike_checkDeclared same).bind fun _ _ _ => .pure ?_
      rw [Expr.bare, Expr.bare, Identifier.name_of_bare same]
  | symbol mark =>
      cases mark with
      | minus => exact placeless_signed placeless _ _
      | bang => exact placeless_signed placeless _ _
      | leftParen =>
          refine (placeless_expect _).andThen fun opening opening' _ => ?_
          refine (placeless_nested placeless.expression).bind fun expression expression' same => ?_
          refine (placeless_expect _).bind fun _ _ _ => ?_
          refine alike_withSpan fun span span' => ?_
          rw [bare_withSpan, bare_withSpan, same]
      | _ => exact placeless_unexpected _
  | _ => exact placeless_unexpected _

/-- Blocks of like statements are alike. -/
theorem placeless_blockOver (placeless : inner.ArePlaceless) :
    Placeless blockBare (blockOver inner).toReader := by
  refine (placeless_expect _).andThen fun opening opening' _ => ?_
  have asks (cursor cursor' : Cursor) (same : cursor.Alike cursor') :
      (cursor.kind != .symbol .rightBrace && cursor.kind != .endOfInput) =
        (cursor'.kind != .symbol .rightBrace && cursor'.kind != .endOfInput) := by
    rw [same.kind]
  refine (placeless_many asks (placeless_nested placeless.statement)).bind
    fun statements statements' same => ?_
  refine (placeless_expect _).bind fun _ _ _ => ?_
  refine alike_withSpan fun span span' => ?_
  rw [blockBare_eq, blockBare_eq, same]

end Expressions

/-- A condition with its branch, places left out. -/
def bareArm (arm : Span × Expr × Block Stmt) : Expr × Block Stmt :=
  (arm.2.1.bare, blockBare arm.2.2)

theorem bare_conditional_eq {condition condition' : Expr} {body body' : Block Stmt}
    {otherwise otherwise' : Option (Block Stmt)} (opening opening' : Span) (stop stop' : Nat)
    (sameCondition : condition.bare = condition'.bare) (sameBody : blockBare body = blockBare body')
    (sameOtherwise : otherwise.map blockBare = otherwise'.map blockBare) :
    (conditional opening condition body otherwise stop).bare =
      (conditional opening' condition' body' otherwise' stop').bare := by
  rw [blockBare_eq, blockBare_eq, Block.mk.injEq] at sameBody
  rw [bare_conditional, bare_conditional, statementsBare_eq_map, statementsBare_eq_map,
    sameCondition, sameBody.1, sameOtherwise]

/-- Rows of like conditions are alike, wherever they end. -/
theorem map_elseIfs {arms arms' : List (Span × Expr × Block Stmt)}
    {otherwise otherwise' : Option (Block Stmt)} (stop stop' : Nat)
    (sameArms : arms.map bareArm = arms'.map bareArm)
    (sameOtherwise : otherwise.map blockBare = otherwise'.map blockBare) :
    (elseIfs stop arms otherwise).map blockBare =
      (elseIfs stop' arms' otherwise').map blockBare := by
  induction arms generalizing arms' with
  | nil =>
      rw [List.map_nil, eq_comm, List.map_eq_nil_iff] at sameArms
      rw [sameArms]
      exact sameOtherwise
  | cons arm arms ih =>
      rw [List.map_cons, eq_comm, List.map_eq_cons_iff] at sameArms
      rcases sameArms with ⟨arm', rest', rfl, sameArm, sameRest⟩
      rcases arm with ⟨opening, condition, body⟩
      rcases arm' with ⟨opening', condition', body'⟩
      rw [bareArm, bareArm, Prod.mk.injEq] at sameArm
      have inside := ih sameRest.symm
      have statement := bare_conditional_eq opening opening' stop stop' sameArm.1.symm
        sameArm.2.symm inside
      change some (blockBare ⟨[conditional opening condition body (elseIfs stop arms otherwise)
          stop], opening.upTo stop⟩) =
        some (blockBare ⟨[conditional opening' condition' body' (elseIfs stop' rest' otherwise')
          stop'], opening'.upTo stop'⟩)
      rw [blockBare_eq, blockBare_eq, List.map_singleton, List.map_singleton, statement]

section Statements

variable {expression : TokenStep Expr} {block : TokenStep (Block Stmt)}

theorem placeless_printStatement : Placeless Stmt.bare printStatement.toReader := by
  refine (placeless_expect _).andThen fun opening opening' _ => ?_
  refine (placeless_expect _).bind fun _ _ _ => ?_
  refine placeless_stringLiteral.bind fun format format' sameFormat => ?_
  refine Production.Alike.bindOption Identifier.bare
    (.choose fun cursor cursor' same => ?_) fun argument argument' sameArgument => ?_
  · rw [same.kind]
    split
    · refine (placeless_expect _).bind fun _ _ _ => ?_
      refine placeless_identifier.bind fun argument argument' same => ?_
      exact (alike_checkDeclared same).bind fun _ _ _ => .pure (congrArg some same)
    · exact .pure rfl
  refine (placeless_expect _).bind fun _ _ _ => ?_
  refine (placeless_expect _).bind fun _ _ _ => ?_
  refine alike_withSpan fun span span' => ?_
  rw [Stmt.bare, Stmt.bare, sameArgument, show format = format' from sameFormat]

theorem placeless_scanStatement : Placeless Stmt.bare scanStatement.toReader := by
  refine (placeless_expect _).andThen fun opening opening' _ => ?_
  refine (placeless_expect _).bind fun _ _ _ => ?_
  refine placeless_stringLiteral.bind fun format format' sameFormat => ?_
  refine (placeless_expect _).bind fun _ _ _ => ?_
  refine (placeless_expect _).bind fun _ _ _ => ?_
  refine placeless_identifier.bind fun target target' sameTarget => ?_
  refine (alike_checkDeclared sameTarget).bind fun _ _ _ => ?_
  refine (placeless_expect _).bind fun _ _ _ => ?_
  refine (placeless_expect _).bind fun _ _ _ => ?_
  refine alike_withSpan fun span span' => ?_
  rw [Stmt.bare, Stmt.bare, sameTarget, show format = format' from sameFormat]

section WithExpression

variable (placelessExpression : Placeless Expr.bare expression.toReader)

include placelessExpression

theorem placeless_condition : Placeless Expr.bare (condition expression) := by
  refine (placeless_expect _).bind fun _ _ _ => ?_
  refine placelessExpression.bind fun value value' same => ?_
  exact (placeless_expect _).bind fun _ _ _ => .pure same

theorem placeless_assignment : Placeless Stmt.bare (assignment expression).toReader := by
  refine placeless_identifier.andThen fun target target' sameTarget => ?_
  refine (alike_checkDeclared sameTarget).bind fun _ _ _ => ?_
  refine (placeless_expect _).bind fun _ _ _ => ?_
  refine placelessExpression.bind fun value value' sameValue => ?_
  refine (placeless_expect _).bind fun _ _ _ => ?_
  refine alike_withSpan fun span span' => ?_
  rw [Stmt.bare, Stmt.bare, sameTarget, sameValue]

theorem placeless_leaveStatement : Placeless Stmt.bare (leaveStatement expression).toReader := by
  refine (placeless_expect _).andThen fun opening opening' _ => ?_
  refine Production.Alike.bindOption Expr.bare
    (.choose fun cursor cursor' same => ?_) fun value value' sameValue => ?_
  · rw [same.kind]
    split
    · exact .pure rfl
    · exact placelessExpression.bind fun value value' same => .pure (congrArg some same)
  refine (placeless_expect _).bind fun _ _ _ => ?_
  refine alike_withSpan fun span span' => ?_
  rw [Stmt.bare, Stmt.bare, sameValue]

section WithBlock

variable (placelessBlock : Placeless blockBare block.toReader)

include placelessBlock

/-- Both parsers declare the same name with the same type. -/
theorem placeless_declaration : Placeless Stmt.bare (declaration expression block).toReader := by
  refine (placeless_accept _ _).andThen ?_
  rintro ⟨type, opening⟩ ⟨type', opening'⟩ (rfl : type = type')
  refine placeless_identifier.bind fun name name' sameName => ?_
  refine placeless_kind.bind ?_
  rintro kind kind' (rfl : kind = kind')
  split
  · refine (placeless_expect _).bind fun _ _ _ => ?_
    refine (placeless_expect _).bind fun _ _ _ => ?_
    refine placelessBlock.bind fun body body' sameBody => ?_
    refine alike_withSpan fun span span' => ?_
    rw [Stmt.bare, Stmt.bare, sameName, sameBody]
  · refine (placeless_expect _).bind fun _ _ _ => ?_
    refine placelessExpression.bind fun value value' sameValue => ?_
    refine (placeless_expect _).bind fun _ _ _ => ?_
    refine (alike_declare type sameName).bind fun _ _ _ => ?_
    refine alike_withSpan fun span span' => ?_
    rw [Stmt.bare, Stmt.bare, sameName, sameValue]
  · refine (placeless_expect _).bind fun _ _ _ => ?_
    refine (alike_declare type sameName).bind fun _ _ _ => ?_
    refine alike_withSpan fun span span' => ?_
    rw [Stmt.bare, Stmt.bare, sameName]

theorem placeless_loopStatement :
    Placeless Stmt.bare (loopStatement expression block).toReader := by
  refine (placeless_expect _).andThen fun opening opening' _ => ?_
  refine (placeless_condition placelessExpression).bind fun condition condition' sameCondition => ?_
  refine placelessBlock.bind fun body body' sameBody => ?_
  refine alike_withSpan fun span span' => ?_
  rw [Stmt.bare, Stmt.bare, sameCondition, sameBody]

theorem placeless_elseIf : Placeless bareArm (ifLoop.elseIf expression block).toReader := by
  refine (placeless_expect _).andThen fun _ _ _ => ?_
  refine (placeless_expect _).bind fun opening opening' _ => ?_
  refine (placeless_condition placelessExpression).bind fun condition condition' sameCondition => ?_
  refine placelessBlock.bind fun body body' sameBody => .pure ?_
  rw [bareArm, bareArm, sameCondition, sameBody]

/-- Both parsers read equally many conditions, by the kinds of the tokens. -/
theorem placeless_ifStatement : Placeless Stmt.bare (ifStatement expression block).toReader := by
  rw [ifStatement_eq]
  refine (placeless_expect _).andThen fun opening opening' _ => ?_
  refine (placeless_condition placelessExpression).bind fun first first' sameFirst => ?_
  refine placelessBlock.bind fun body body' sameBody => ?_
  have asks (cursor cursor' : Cursor) (same : cursor.Alike cursor') :
      ifLoop.isElseIf cursor = ifLoop.isElseIf cursor' := by
    rw [isElseIf_eq, isElseIf_eq, same.kinds]
  refine (placeless_many asks (placeless_elseIf placelessExpression placelessBlock)).bind
    fun arms arms' sameArms => ?_
  refine Production.Alike.bindOption blockBare
    (.choose fun cursor cursor' same => ?_) fun otherwise otherwise' sameOtherwise => ?_
  · rw [same.kind]
    split
    · refine (placeless_expect _).bind fun _ _ _ => ?_
      exact placelessBlock.bind fun body body' same => .pure (congrArg some same)
    · exact .pure rfl
  -- The end of the last branch goes into the spans of all the blocks behind `else`.
  refine (Production.Alike.place _ _).bind fun stop stop' _ => .pure ?_
  exact bare_conditional_eq opening opening' stop stop' sameFirst sameBody
    (map_elseIfs stop stop' sameArms sameOtherwise)

theorem placeless_statementOver :
    Placeless Stmt.bare (statementOver expression block).toReader := by
  refine .chooseStep fun cursor cursor' same => ?_
  rw [same.kind]
  split
  · exact placeless_declaration placelessExpression placelessBlock
  · exact placeless_declaration placelessExpression placelessBlock
  · exact placeless_assignment placelessExpression
  · exact placeless_ifStatement placelessExpression placelessBlock
  · exact placeless_loopStatement placelessExpression placelessBlock
  · exact placeless_printStatement
  · exact placeless_scanStatement
  · exact placeless_leaveStatement placelessExpression
  · exact placelessBlock.map fun body body' same => congrArg Stmt.block same
  · exact placeless_unexpected _

end WithBlock

end WithExpression

end Statements

theorem placeless_beyond : beyond.ArePlaceless :=
  ⟨placeless_tooDeep, placeless_tooDeep, placeless_tooDeep, placeless_tooDeep⟩

/-- Productions of one level do not see places if those inside of it do not. -/
theorem placeless_level {inner : Productions} (placeless : inner.ArePlaceless) :
    (level inner).ArePlaceless := by
  have placelessExpression := placeless_expressionOver (placeless_operandOver placeless)
  have placelessBlock := placeless_blockOver placeless
  exact ⟨placeless_operandOver placeless, placelessExpression, placelessBlock,
    placeless_statementOver placelessExpression placelessBlock⟩

theorem placeless_within (room : Nat) : (within room).ArePlaceless := by
  induction room with
  | zero => exact placeless_level placeless_beyond
  | succ room ih => exact placeless_level ih

end Productions

/-- The syntax error that is reported makes no difference. -/
theorem alike_readAll (source : String) (session : Session) :
    (parse source session).2.Alike (readAll source session).2.session := by
  rw [session_parse]
  split
  · exact .refl _
  · exact .report_other _ (by decide) _ _

/-- Two layouts of the same tokens are read to the same statements, with the same failure if there
is one and with the same declarations and semantic problems. -/
theorem parse_alike {source layout : String} (session : Session)
    (same : (TokenStream.ofSource source).kinds = (TokenStream.ofSource layout).kinds) :
    statementsBare (parse source session).1.1.statements =
        statementsBare (parse layout session).1.1.statements ∧
      (parse source session).1.2.map ParseError.bare =
        (parse layout session).1.2.map ParseError.bare ∧
      (parse source session).2.Alike (parse layout session).2 := by
  have asks (cursor cursor' : Cursor) (alike : cursor.Alike cursor') :
      (cursor.kind != .endOfInput) = (cursor'.kind != .endOfInput) := by
    rw [alike.kind]
  rcases Production.alike_collect asks (Productions.placeless_within maxNesting).statement
    (Cursor.alike_start session same) with ⟨statements, failures, alike⟩
  have first := alike_readAll source session
  have second := alike_readAll layout session
  refine ⟨?_, failures, first.trans (alike.session.trans second.symm)⟩
  rw [statementsBare_eq_map, statementsBare_eq_map]
  exact statements

end SubsetC
