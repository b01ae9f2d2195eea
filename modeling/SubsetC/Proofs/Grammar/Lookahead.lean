import SubsetC.Proofs.Grammar.Completeness

/-!
# The parser looks no further than the next token

Two sources may have the same tokens up to a point and then go apart. As long as the next token lies
before that point the parser goes the same way on both: a production that ends there on one ends on
the other as well, at the same token and with the same kind of outcome (`Production.Together`). Only
the row of conditions behind `else` looks at two tokens, and it takes the first of them in any case.
-/

namespace SubsetC

open Grammar

namespace Cursor

/-- What can be looked at: the tokens that have not been taken, and the end behind them. -/
def window (cursor : Cursor) : List (Option Token.Kind) :=
  cursor.kinds.map some ++ [none]

/-- Behind what lies ahead of both parsers there are `rest` and `rest'`, where they may go apart. -/
structure Beside (rest rest' : List (Option Token.Kind)) (first second : Cursor) : Prop where
  depth : first.depth = second.depth
  window : ∃ common, first.window = common ++ rest ∧ second.window = common ++ rest'

/-- The window is as long as what is left. -/
theorem length_window (cursor : Cursor) :
    cursor.window.length = Source.remaining cursor + 1 := by
  simp [window, kinds, TokenStream.kinds, Source.remaining]

variable {rest rest' : List (Option Token.Kind)} {first second : Cursor}

namespace Beside

/-- Both have the same token next, and go on side by side behind it; or both are at the end. -/
theorem next (beside : Beside rest rest' first second)
    (inside : rest.length < first.window.length) :
    (first.stream.ahead = [] ∧ second.stream.ahead = []) ∨
      ∃ lexeme others lexeme' others', first.stream.ahead = lexeme :: others ∧
        second.stream.ahead = lexeme' :: others' ∧ lexeme.token.kind = lexeme'.token.kind ∧
        Beside rest rest' first.advance second.advance := by
  rcases beside with ⟨depth, common, window, window'⟩
  rw [window, List.length_append] at inside
  cases common with
  | nil => simp at inside
  | cons kind common =>
      have shape (cursor : Cursor) : cursor.window =
          cursor.stream.ahead.map (fun lexeme => some lexeme.token.kind) ++ [none] := by
        simp [Cursor.window, kinds, TokenStream.kinds]
      have advance (cursor : Cursor) (lexeme : Lexeme) (others : List Lexeme)
          (ahead : cursor.stream.ahead = lexeme :: others) :
          cursor.advance.window = cursor.window.tail := by
        simp [shape, Cursor.advance, TokenStream.advance, ahead]
      have shapes := shape first
      have shapes' := shape second
      rw [window, List.cons_append] at shapes
      rw [window', List.cons_append] at shapes'
      cases ahead : first.stream.ahead with
      | nil =>
          rw [ahead] at shapes
          cases ahead' : second.stream.ahead with
          | nil => exact .inl ⟨rfl, rfl⟩
          | cons lexeme' others' => simp_all
      | cons lexeme others =>
          rw [ahead] at shapes
          cases ahead' : second.stream.ahead with
          | nil => simp_all
          | cons lexeme' others' =>
              rw [ahead'] at shapes'
              simp only [List.map_cons, List.cons_append, List.cons.injEq] at shapes shapes'
              refine .inr ⟨lexeme, others, lexeme', others', rfl, rfl, ?_, depth, common, ?_, ?_⟩
              · exact Option.some.inj (shapes.1.symm.trans shapes'.1)
              · rw [advance first lexeme others ahead, window, List.cons_append, List.tail_cons]
              · rw [advance second lexeme' others' ahead', window', List.cons_append,
                  List.tail_cons]

theorem kind (beside : Beside rest rest' first second)
    (inside : rest.length < first.window.length) : first.kind = second.kind := by
  rcases beside.next inside with
    ⟨ahead, ahead'⟩ | ⟨lexeme, others, lexeme', others', ahead, ahead', same, -⟩
  · simp [Cursor.kind, token, TokenStream.current, ahead, ahead', TokenStream.endToken]
  · simp [Cursor.kind, token, TokenStream.current, ahead, ahead', same]

end Beside

end Cursor

namespace Production

/-- Two outcomes are both values or both errors. -/
inductive SameOutcome {α : Type} : Except ParseError α → Except ParseError α → Prop
  | ok {value value' : α} : SameOutcome (.ok value) (.ok value')
  | error {error error' : ParseError} : SameOutcome (.error error) (.error error')

/-- Where the first production ends before the sources go apart, the second one ends too. -/
def Together (rest rest' : List (Option Token.Kind)) {α : Type} (first second : Production α) :
    Prop :=
  ∀ ⦃cursor cursor' : Cursor⦄, Cursor.Beside rest rest' cursor cursor' →
    ∀ ⦃outcome : Except ParseError α⦄ ⦃last : Cursor⦄, first.run cursor = (outcome, last) →
      rest.length < last.window.length →
      ∃ outcome' last', second.run cursor' = (outcome', last') ∧ SameOutcome outcome outcome' ∧
        Cursor.Beside rest rest' last last'

variable {α β : Type} {rest rest' : List (Option Token.Kind)}

/-- Before the end of a production there is no less to look at. -/
theorem inside_of_ran (production : Production α) {cursor last : Cursor}
    {outcome : Except ParseError α} (ran : production.run cursor = (outcome, last))
    (inside : rest.length < last.window.length) : rest.length < cursor.window.length := by
  have taken := production.remaining_le cursor
  rw [ran] at taken
  rw [Cursor.length_window] at inside ⊢
  simp only at taken
  omega

namespace Together

theorem pure (value value' : α) :
    Together rest rest' (Pure.pure value) (Pure.pure value') := by
  rintro cursor cursor' beside outcome last ⟨⟩ inside
  exact ⟨_, _, rfl, .ok, beside⟩

/-- Two parsers that have gone together go on together. -/
theorem bind {first first' : Production α} {second second' : α → Production β}
    (early : Together rest rest' first first')
    (late : ∀ value value', Together rest rest' (second value) (second' value')) :
    Together rest rest' (first >>= second) (first' >>= second') := by
  intro cursor cursor' beside outcome last ran inside
  rw [Reader.run_bind] at ran
  split at ran
  · rename_i value middle succeeded
    rcases early beside succeeded (inside_of_ran _ ran inside) with
      ⟨outcome', middle', ran', same, beside'⟩
    cases same with
    | @ok _ value' =>
        rcases late value value' beside' ran inside with ⟨outcome', last', ran'', same, beside''⟩
        exact ⟨outcome', last', (Reader.run_bind_of_ok ran').trans ran'', same, beside''⟩
  · rename_i error middle failed
    cases ran
    rcases early beside failed inside with ⟨outcome', last', ran', same, beside'⟩
    cases same with
    | @error _ error' =>
        exact ⟨.error error', last', by rw [Reader.run_bind, ran'], .error, beside'⟩

/-- Nothing is taken and nothing depends on what comes next. -/
theorem silent {first second : Production α}
    (succeeds : ∀ cursor, ∃ value session, first.run cursor = (.ok value, { cursor with session }))
    (succeeds' : ∀ cursor, ∃ value session,
      second.run cursor = (.ok value, { cursor with session })) :
    Together rest rest' first second := by
  intro cursor cursor' beside outcome last ran inside
  rcases succeeds cursor with ⟨value, session, ran'⟩
  rcases succeeds' cursor' with ⟨value', session', ran''⟩
  rw [ran, Prod.mk.injEq] at ran'
  rcases ran' with ⟨rfl, rfl⟩
  exact ⟨_, _, ran'', .ok, beside.depth, beside.window⟩

theorem inspect (view view' : Cursor → α) :
    Together rest rest' (Reader.inspect view) (Reader.inspect view') :=
  silent (fun cursor => ⟨_, cursor.session, rfl⟩) fun cursor => ⟨_, cursor.session, rfl⟩

theorem modifySession (f f' : Session → Session) :
    Together rest rest' (Production.modifySession f) (Production.modifySession f') :=
  silent (fun _ => ⟨_, _, rfl⟩) fun _ => ⟨_, _, rfl⟩

theorem choose {reader reader' : Cursor → Production α}
    (together : ∀ cursor cursor' : Cursor, cursor.kind = cursor'.kind →
      Together rest rest' (reader cursor) (reader' cursor')) :
    Together rest rest' (Reader.choose reader) (Reader.choose reader') := by
  intro cursor cursor' beside outcome last ran inside
  rw [Reader.run_choose] at ran
  have kinds := beside.kind (inside_of_ran _ ran inside)
  exact together cursor cursor' kinds beside ran inside

/-- A look at the next token. -/
theorem kind {second second' : Token.Kind → Production β}
    (late : ∀ next, Together rest rest' (second next) (second' next)) :
    Together rest rest' (Production.kind >>= second) (Production.kind >>= second') := by
  intro cursor cursor' beside outcome last ran inside
  change (second cursor.kind).run cursor = _ at ran
  have kinds := beside.kind (inside_of_ran _ ran inside)
  rw [kinds] at ran
  exact late cursor'.kind beside ran inside

/-- The same token is accepted by both, or refused by both. -/
theorem accept (expected : String) (accepted : Token.Kind → Option α) :
    Together rest rest' (TokenStep.accept expected accepted).toReader
      (TokenStep.accept expected accepted).toReader := by
  intro cursor cursor' beside outcome last ran inside
  simp only [TokenStep.accept] at ran ⊢
  rcases beside.next (inside_of_ran (TokenStep.accept expected accepted).toReader ran
    inside) with ⟨ahead, ahead'⟩ | ⟨lexeme, others, lexeme', others', ahead, ahead', same, next⟩
  · rw [ahead] at ran
    rw [ahead']
    cases ran
    exact ⟨_, _, rfl, .error, beside⟩
  · rw [ahead] at ran
    rw [ahead']
    simp only [same] at ran ⊢
    cases taken : accepted lexeme'.token.kind with
    | none =>
        rw [taken] at ran
        cases ran
        exact ⟨_, _, rfl, .error, beside⟩
    | some value =>
        rw [taken] at ran
        cases ran
        exact ⟨_, _, rfl, .ok, next⟩

theorem unexpected (expected : String) :
    Together rest rest' (TokenStep.unexpected expected : TokenStep α).toReader
      (TokenStep.unexpected expected : TokenStep α).toReader := by
  rintro cursor cursor' beside outcome last ⟨⟩ inside
  exact ⟨_, _, rfl, .error, beside⟩

theorem tooDeep : Together rest rest' (TokenStep.tooDeep : TokenStep α).toReader
    (TokenStep.tooDeep : TokenStep α).toReader := by
  rintro cursor cursor' beside outcome last ⟨⟩ inside
  exact ⟨_, _, rfl, .error, beside⟩

theorem map (f : α → β) {step : TokenStep α}
    (together : Together rest rest' step.toReader step.toReader) :
    Together rest rest' (step.map f).toReader (step.map f).toReader :=
  together.bind fun value value' => .pure (f value) (f value')

/-- Both go one level deeper, or neither does. -/
theorem nested {step : TokenStep α} (together : Together rest rest' step.toReader step.toReader) :
    Together rest rest' (TokenStep.nested step).toReader (TokenStep.nested step).toReader := by
  intro cursor cursor' beside outcome last ran inside
  simp only [TokenStep.nested] at ran
  split at ran
  · rename_i full
    cases ran
    rw [beside.depth] at full
    exact ⟨.error _, cursor', if_pos full, .error, beside⟩
  · rename_i room
    rw [Prod.mk.injEq] at ran
    rcases ran with ⟨rfl, rfl⟩
    rw [beside.depth] at room
    have deeper : Cursor.Beside rest rest' { cursor with depth := cursor.depth + 1 }
        { cursor' with depth := cursor'.depth + 1 } :=
      ⟨congrArg (· + 1) beside.depth, beside.window⟩
    rcases together deeper rfl inside with ⟨outcome', last', ran', same, beside'⟩
    refine ⟨outcome', { last' with depth := last'.depth - 1 }, ?_, same, ?_, beside'.window⟩
    · simp only [TokenStep.nested, if_neg room, ran']
    · exact congrArg (· - 1) beside'.depth

section Loops

/-- Each round is called for by the next token alone. -/
theorem iterate {next : α → Cursor → Option (TokenStep α)}
    (rounds : ∀ value value' (cursor cursor' : Cursor), cursor.kind = cursor'.kind →
      Option.Rel (fun step step' => Together rest rest' step.toReader step'.toReader)
        (next value cursor) (next value' cursor')) (value value' : α) :
    Together rest rest' (Reader.iterate next value) (Reader.iterate next value') := by
  intro cursor cursor' beside outcome last ran inside
  have insideHere := inside_of_ran _ ran inside
  change Reader.iterateFrom next value cursor = _ at ran
  fun_induction Reader.iterateFrom next value cursor generalizing value' cursor' with
  | case1 value cursor unwanted =>
      have related := rounds value value' cursor cursor' (beside.kind insideHere)
      rw [unwanted] at related
      generalize named : next value' cursor' = option at related
      cases related
      cases ran
      exact ⟨_, _, Reader.run_iterate_of_none named, .ok, beside⟩
  | case2 value cursor step wanted error last failed =>
      have related := rounds value value' cursor cursor' (beside.kind insideHere)
      rw [wanted] at related
      generalize named : next value' cursor' = option at related
      cases related with
      | some together =>
          cases ran
          rcases together beside failed inside with ⟨outcome', last', ran', same, beside'⟩
          cases same
          exact ⟨_, _, Reader.run_iterate_of_error named ran', .error, beside'⟩
  | case3 value cursor step wanted outcome' middle succeeded ih =>
      have related := rounds value value' cursor cursor' (beside.kind insideHere)
      rw [wanted] at related
      generalize named : next value' cursor' = option at related
      have insideMiddle : rest.length < middle.window.length :=
        inside_of_ran (Reader.iterate _ _) ran inside
      cases related with
      | some together =>
          rcases together beside succeeded insideMiddle with ⟨_, middle', ran', same, beside'⟩
          cases same
          rw [Reader.run_iterate_of_some named ran']
          exact ih _ beside' insideMiddle ran

/-- A loop before a production. Where the loop is wanted on one side only, neither another round
nor what follows ends before the sources go apart. -/
theorem loop {wanted : Cursor → Bool} {step : TokenStep α} {second second' : List α → Production β}
    (agree : ∀ cursor cursor' : Cursor, Cursor.Beside rest rest' cursor cursor' →
      rest.length < cursor.window.length → wanted cursor = wanted cursor' ∨
        (step.run cursor).2.window.length ≤ rest.length ∧
          ∀ values, ((second values).run cursor).2.window.length ≤ rest.length)
    (round : Together rest rest' step.toReader step.toReader)
    (late : ∀ values values', Together rest rest' (second values) (second' values')) :
    Together rest rest' (Reader.many wanted step >>= second)
      (Reader.many wanted step >>= second') := by
  intro cursor cursor' beside outcome last ran inside
  induction remaining : Source.remaining cursor using Nat.strongRecOn
    generalizing cursor cursor' second second' with
  | ind number ih =>
      have insideHere := inside_of_ran _ ran inside
      rw [Reader.run_many_bind] at ran ⊢
      rcases agree cursor cursor' beside insideHere with same | ⟨roundOutside, lateOutside⟩
      · rw [← same]
        split at ran
        · rename_i isWanted
          rw [if_pos isWanted]
          split at ran
          · rename_i value middle succeeded
            have insideMiddle := inside_of_ran _ ran inside
            rcases round beside succeeded insideMiddle with ⟨outcome', middle', ran', sort, beside'⟩
            cases sort with
            | @ok _ value' =>
                rw [ran']
                have fewer := step.remaining_lt succeeded
                rw [remaining] at fewer
                refine ih _ fewer ?_ ?_ beside' ran rfl
                · intro point point' beside insidePoint
                  rcases agree point point' beside insidePoint with same | ⟨here, behind⟩
                  · exact .inl same
                  · exact .inr ⟨here, fun values => behind (value :: values)⟩
                · intro values values'
                  exact late (value :: values) (value' :: values')
          · rename_i error middle failed
            cases ran
            rcases round beside failed inside with ⟨outcome', last', ran', sort, beside'⟩
            cases sort
            rw [ran']
            exact ⟨_, _, rfl, .error, beside'⟩
        · rename_i unwanted
          rw [if_neg unwanted]
          exact late [] [] beside ran inside
      · -- neither branch of the unfolded loop ends inside
        split at ran
        · split at ran
          · rename_i value middle succeeded
            have insideMiddle := inside_of_ran _ ran inside
            rw [succeeded] at roundOutside
            exact absurd insideMiddle (Nat.not_lt.mpr roundOutside)
          · rename_i error middle failed
            cases ran
            rw [failed] at roundOutside
            exact absurd inside (Nat.not_lt.mpr roundOutside)
        · have outside := lateOutside []
          rw [ran] at outside
          exact absurd inside (Nat.not_lt.mpr outside)

/-- A loop that is called for by the next token alone. -/
theorem many {wanted : Cursor → Bool} {step : TokenStep α}
    (agree : ∀ cursor cursor' : Cursor, cursor.kind = cursor'.kind → wanted cursor = wanted cursor')
    (round : Together rest rest' step.toReader step.toReader) :
    Together rest rest' (Reader.many wanted step) (Reader.many wanted step) := by
  have followed : Together rest rest' (Reader.many wanted step >>= Pure.pure)
      (Reader.many wanted step >>= Pure.pure) := by
    apply loop _ round
    · intro values values'
      exact .pure values values'
    · intro cursor cursor' beside inside
      exact .inl (agree cursor cursor' (beside.kind inside))
  intro cursor cursor' beside outcome last ran inside
  rw [← Reader.run_bind_pure] at ran
  rcases followed beside ran inside with ⟨outcome', last', ran', same, beside'⟩
  rw [Reader.run_bind_pure] at ran'
  exact ⟨outcome', last', ran', same, beside'⟩

end Loops

section Tokens

theorem expect (kind : Token.Kind) :
    Together rest rest' (TokenStep.expect kind).toReader (TokenStep.expect kind).toReader :=
  map _ (accept _ _)

theorem symbol (mark : Symbol) :
    Together rest rest' (TokenStep.symbol mark).toReader (TokenStep.symbol mark).toReader :=
  expect (.symbol mark)

theorem keyword (word : Keyword) :
    Together rest rest' (TokenStep.keyword word).toReader (TokenStep.keyword word).toReader :=
  expect (.keyword word)

theorem dataType :
    Together rest rest' TokenStep.dataType.toReader TokenStep.dataType.toReader :=
  accept _ _

theorem identifier :
    Together rest rest' TokenStep.identifier.toReader TokenStep.identifier.toReader :=
  map _ (accept _ _)

theorem stringLiteral :
    Together rest rest' TokenStep.stringLiteral.toReader TokenStep.stringLiteral.toReader :=
  map _ (accept _ _)

end Tokens

/-- The end of a production that gives its outcome a span. -/
theorem withSpan (opening opening' : Span) (f f' : Span → α) :
    Together rest rest' (spanFrom opening >>= fun span => Pure.pure (f span))
      (spanFrom opening' >>= fun span => Pure.pure (f' span)) :=
  (inspect _ _).bind fun span span' => .pure (f span) (f' span')

theorem checkDeclared (used used' : Identifier) :
    Together rest rest' (Production.checkDeclared used) (Production.checkDeclared used') :=
  modifySession _ _

theorem declare (type type' : DataType) (name name' : Identifier) :
    Together rest rest' (Production.declare type name) (Production.declare type' name') :=
  modifySession _ _

end Together

end Production

namespace Productions

open TokenStep Production

variable {rest rest' : List (Option Token.Kind)}

/-- The rounds go together, for the operators are the same. -/
theorem together_chain {operator : Token.Kind → Option BinaryOp} {operand : TokenStep Expr}
    (together : Together rest rest' operand.toReader operand.toReader) :
    Together rest rest' (chain operator operand).toReader (chain operator operand).toReader := by
  rw [chain_eq]
  apply together.bind
  apply Together.iterate
  intro left left' cursor cursor' same
  unfold link
  rw [same]
  by_cases isOperator : (operator cursor'.kind).isSome = true
  · rw [if_pos isOperator, if_pos isOperator]
    apply Option.Rel.some
    apply (Together.accept _ _).bind
    intro found found'
    apply together.bind
    intro right right'
    exact .withSpan _ _ _ _
  · rw [if_neg isOperator, if_neg isOperator]
    exact .none

theorem together_expressionOver {operand : TokenStep Expr}
    (together : Together rest rest' operand.toReader operand.toReader) :
    Together rest rest' (expressionOver operand).toReader (expressionOver operand).toReader := by
  have folded (table : List (Token.Kind → Option BinaryOp)) :
      Together rest rest' (table.foldr chain operand).toReader
        (table.foldr chain operand).toReader := by
    induction table with
    | nil => exact together
    | cons operator others ih => exact together_chain ih
  exact folded levels

/-- All productions go the same way on both sides. -/
structure AreTogether (rest rest' : List (Option Token.Kind)) (productions : Productions) :
    Prop where
  operand : Together rest rest' productions.operand.toReader productions.operand.toReader
  expression : Together rest rest' productions.expression.toReader productions.expression.toReader
  block : Together rest rest' productions.block.toReader productions.block.toReader
  statement : Together rest rest' productions.statement.toReader productions.statement.toReader

section Inner

variable {inner : Productions} (together : inner.AreTogether rest rest')

include together

theorem together_signed (mark : Symbol) (op : UnaryOp) :
    Together rest rest' (operandOver.signed inner mark op).toReader
      (operandOver.signed inner mark op).toReader := by
  apply (Together.symbol mark).bind
  intro sign sign'
  apply together.operand.nested.bind
  intro operand operand'
  exact .withSpan _ _ _ _

theorem together_operandOver :
    Together rest rest' (operandOver inner).toReader (operandOver inner).toReader := by
  apply Together.choose
  intro cursor cursor' same
  dsimp only
  rw [same]
  cases cursor'.kind with
  | integer value => exact .map _ (.accept _ _)
  | character body => exact .map _ (.accept _ _)
  | identifier name =>
      apply Together.identifier.bind
      intro used used'
      apply (Together.checkDeclared used used').bind
      intro checked checked'
      exact .pure _ _
  | symbol mark =>
      cases mark with
      | minus => exact together_signed together _ _
      | bang => exact together_signed together _ _
      | leftParen =>
          apply (Together.symbol .leftParen).bind
          intro opening opening'
          apply together.expression.nested.bind
          intro expression expression'
          apply (Together.symbol .rightParen).bind
          intro closing closing'
          exact .withSpan _ _ _ _
      | _ => exact .unexpected _
  | _ => exact .unexpected _

/-- The statements of a block go together up to the same brace. -/
theorem together_blockOver :
    Together rest rest' (blockOver inner).toReader (blockOver inner).toReader := by
  apply (Together.symbol .leftBrace).bind
  intro opening opening'
  refine Together.bind (.many ?_ together.statement.nested) fun statements statements' => ?_
  · intro cursor cursor' same
    rw [same]
  · apply (Together.symbol .rightBrace).bind
    intro closing closing'
    exact .withSpan _ _ _ _

end Inner

/-- The two tokens that start one more condition are the same on both sides, or the sources go
apart right behind `else`. -/
theorem isElseIf_beside {cursor cursor' : Cursor} (beside : Cursor.Beside rest rest' cursor cursor')
    (inside : rest.length < cursor.window.length) :
    ifLoop.isElseIf cursor = ifLoop.isElseIf cursor' ∨
      cursor.kind = .keyword .elseWord ∧ cursor.window.length ≤ rest.length + 1 := by
  rcases beside.next inside with
    ⟨ahead, ahead'⟩ | ⟨lexeme, others, lexeme', others', ahead, ahead', same, next⟩
  · left
    simp only [ifLoop.isElseIf, ahead, ahead']
  · have behind : cursor.advance.stream.ahead = others := by
      simp only [Cursor.advance, TokenStream.advance, ahead]
    have behind' : cursor'.advance.stream.ahead = others' := by
      simp only [Cursor.advance, TokenStream.advance, ahead']
    by_cases more : rest.length < cursor.advance.window.length
    · left
      rcases next.next more with
        ⟨ahead₂, ahead₂'⟩ | ⟨second, others₂, second', others₂', ahead₂, ahead₂', same₂, -⟩
      · rw [behind] at ahead₂
        rw [behind'] at ahead₂'
        simp [ifLoop.isElseIf, ahead, ahead', ahead₂, ahead₂']
      · rw [behind] at ahead₂
        rw [behind'] at ahead₂'
        simp [ifLoop.isElseIf, ahead, ahead', ahead₂, ahead₂', same, same₂]
    · by_cases word : lexeme.token.kind = .keyword .elseWord
      · right
        constructor
        · simp [Cursor.kind, Cursor.token, TokenStream.current, ahead, word]
        · have shorter := Cursor.remaining_advance_lt ahead
          rw [Cursor.length_window] at more ⊢
          simp only [Source.remaining, ahead, behind, List.length_cons] at more ⊢
          omega
      · left
        have other : (lexeme'.token.kind == .keyword .elseWord) = false := by
          rw [beq_eq_false_iff_ne, ← same]
          exact word
        simp [ifLoop.isElseIf, ahead, ahead', same, other]

/-- A reserved word that is there is taken, whatever follows it. -/
theorem length_window_keyword {β : Type} {word : Keyword} {second : Span → Production β}
    {cursor : Cursor} (here : cursor.kind = .keyword word) :
    (((keyword word).toReader >>= second).run cursor).2.window.length < cursor.window.length := by
  rcases Cursor.exists_kinds here (by simp) with ⟨behind, next⟩
  rcases Cursor.Passes.keyword next with ⟨span, middle, ran, -⟩
  rw [Reader.run_bind_of_ok ran, Cursor.length_window, Cursor.length_window]
  have fewer := (keyword word).remaining_lt ran
  have left := (second span).remaining_le middle
  omega

/-- What follows leaves no more to look at. -/
theorem length_window_bind {α β : Type} (first : Production α) (second : α → Production β)
    (cursor : Cursor) : ((first >>= second).run cursor).2.window.length ≤
      (first.run cursor).2.window.length := by
  rw [Cursor.length_window, Cursor.length_window, Reader.run_bind]
  split
  · rename_i value middle ran
    rw [ran]
    exact Nat.succ_le_succ ((second value).remaining_le middle)
  · rename_i error middle ran
    exact Nat.le_of_eq (congrArg (fun reached => Source.remaining reached.2 + 1) ran.symm)

section Statements

variable {expression : TokenStep Expr} {block : TokenStep (Block Stmt)}

theorem together_printStatement :
    Together rest rest' printStatement.toReader printStatement.toReader := by
  apply (Together.keyword .printf).bind
  intro opening opening'
  apply (Together.symbol .leftParen).bind
  intro left left'
  apply Together.stringLiteral.bind
  intro format format'
  refine Together.bind ?_ fun argument argument' => ?_
  · apply Together.choose
    intro cursor cursor' same
    rw [same]
    split
    · apply (Together.symbol .comma).bind
      intro comma comma'
      apply Together.identifier.bind
      intro used used'
      apply (Together.checkDeclared used used').bind
      intro checked checked'
      exact .pure _ _
    · exact .pure _ _
  · apply (Together.symbol .rightParen).bind
    intro right right'
    apply (Together.symbol .semicolon).bind
    intro semicolon semicolon'
    exact .withSpan _ _ _ _

theorem together_scanStatement :
    Together rest rest' scanStatement.toReader scanStatement.toReader := by
  apply (Together.keyword .scanf).bind
  intro opening opening'
  apply (Together.symbol .leftParen).bind
  intro left left'
  apply Together.stringLiteral.bind
  intro format format'
  apply (Together.symbol .comma).bind
  intro comma comma'
  apply (Together.symbol .ampersand).bind
  intro ampersand ampersand'
  apply Together.identifier.bind
  intro target target'
  apply (Together.checkDeclared target target').bind
  intro checked checked'
  apply (Together.symbol .rightParen).bind
  intro right right'
  apply (Together.symbol .semicolon).bind
  intro semicolon semicolon'
  exact .withSpan _ _ _ _

section WithExpression

variable (togetherExpression : Together rest rest' expression.toReader expression.toReader)

include togetherExpression

theorem together_condition :
    Together rest rest' (condition expression) (condition expression) := by
  apply (Together.symbol .leftParen).bind
  intro left left'
  apply togetherExpression.bind
  intro value value'
  apply (Together.symbol .rightParen).bind
  intro right right'
  exact .pure _ _

theorem together_assignment :
    Together rest rest' (assignment expression).toReader (assignment expression).toReader := by
  apply Together.identifier.bind
  intro target target'
  apply (Together.checkDeclared target target').bind
  intro checked checked'
  apply (Together.symbol .equal).bind
  intro equal equal'
  apply togetherExpression.bind
  intro value value'
  apply (Together.symbol .semicolon).bind
  intro semicolon semicolon'
  exact .withSpan _ _ _ _

theorem together_leaveStatement :
    Together rest rest' (leaveStatement expression).toReader
      (leaveStatement expression).toReader := by
  apply (Together.keyword .returnWord).bind
  intro opening opening'
  refine Together.bind ?_ fun value value' => ?_
  · apply Together.choose
    intro cursor cursor' same
    rw [same]
    split
    · exact .pure _ _
    · apply togetherExpression.bind
      intro value value'
      exact .pure _ _
  · apply (Together.symbol .semicolon).bind
    intro semicolon semicolon'
    exact .withSpan _ _ _ _

section WithBlock

variable (togetherBlock : Together rest rest' block.toReader block.toReader)

include togetherBlock

theorem together_declaration :
    Together rest rest' (declaration expression block).toReader
      (declaration expression block).toReader := by
  apply Together.dataType.bind
  rintro ⟨type, opening⟩ ⟨type', opening'⟩
  apply Together.identifier.bind
  intro name name'
  apply Together.kind
  intro next
  split
  · apply (Together.symbol .leftParen).bind
    intro left left'
    apply (Together.symbol .rightParen).bind
    intro right right'
    apply togetherBlock.bind
    intro body body'
    exact .withSpan _ _ _ _
  · apply (Together.symbol .equal).bind
    intro equal equal'
    apply togetherExpression.bind
    intro value value'
    apply (Together.symbol .semicolon).bind
    intro semicolon semicolon'
    apply (Together.declare type type' name name').bind
    intro declared declared'
    exact .withSpan _ _ _ _
  · apply (Together.symbol .semicolon).bind
    intro semicolon semicolon'
    apply (Together.declare type type' name name').bind
    intro declared declared'
    exact .withSpan _ _ _ _

theorem together_loopStatement :
    Together rest rest' (loopStatement expression block).toReader
      (loopStatement expression block).toReader := by
  apply (Together.keyword .whileWord).bind
  intro opening opening'
  apply (together_condition togetherExpression).bind
  intro test test'
  apply togetherBlock.bind
  intro body body'
  exact .withSpan _ _ _ _

theorem together_elseIf :
    Together rest rest' (ifLoop.elseIf expression block).toReader
      (ifLoop.elseIf expression block).toReader := by
  apply (Together.keyword .elseWord).bind
  intro elseSpan elseSpan'
  apply (Together.keyword .ifWord).bind
  intro opening opening'
  apply (together_condition togetherExpression).bind
  intro test test'
  apply togetherBlock.bind
  intro body body'
  exact .pure _ _

omit togetherExpression in
theorem together_lastBranch : Together rest rest' (lastBranch block) (lastBranch block) := by
  apply Together.choose
  intro cursor cursor' same
  rw [same]
  split
  · apply (Together.keyword .elseWord).bind
    intro elseSpan elseSpan'
    apply togetherBlock.bind
    intro branch branch'
    exact .pure _ _
  · exact .pure _ _

/-- Two tokens tell whether a row goes on; the second one may lie behind the window. -/
theorem together_ifStatement :
    Together rest rest' (ifStatement expression block).toReader
      (ifStatement expression block).toReader := by
  rw [ifStatement_eq]
  apply (Together.keyword .ifWord).bind
  intro opening opening'
  apply (together_condition togetherExpression).bind
  intro test test'
  apply togetherBlock.bind
  intro body body'
  apply Together.loop _ (together_elseIf togetherExpression togetherBlock)
  · intro arms arms'
    apply (together_lastBranch togetherBlock).bind
    intro otherwise otherwise'
    apply (Together.inspect _ _).bind
    intro stop stop'
    exact .pure _ _
  · intro cursor cursor' beside inside
    rcases isElseIf_beside beside inside with same | ⟨here, short⟩
    · exact .inl same
    · right
      constructor
      · have taken : ((ifLoop.elseIf expression block).run cursor).2.window.length <
            cursor.window.length := length_window_keyword here
        omega
      · intro arms
        apply Nat.le_trans (length_window_bind _ _ cursor)
        rw [lastBranch, Reader.run_choose, if_pos here]
        exact Nat.le_of_lt_succ (Nat.lt_of_lt_of_le (length_window_keyword here) short)

theorem together_statementOver :
    Together rest rest' (statementOver expression block).toReader
      (statementOver expression block).toReader := by
  apply Together.choose
  intro cursor cursor' same
  dsimp only
  rw [same]
  split
  · exact together_declaration togetherExpression togetherBlock
  · exact together_declaration togetherExpression togetherBlock
  · exact together_assignment togetherExpression
  · exact together_ifStatement togetherExpression togetherBlock
  · exact together_loopStatement togetherExpression togetherBlock
  · exact together_printStatement
  · exact together_scanStatement
  · exact together_leaveStatement togetherExpression
  · exact togetherBlock.map _
  · exact .unexpected _

end WithBlock

end WithExpression

end Statements

/-- Productions of one level go together if those inside of it do. -/
theorem together_level {inner : Productions} (together : inner.AreTogether rest rest') :
    (level inner).AreTogether rest rest' := by
  have togetherOperand := together_operandOver together
  have togetherExpression := together_expressionOver togetherOperand
  have togetherBlock := together_blockOver together
  exact ⟨togetherOperand, togetherExpression, togetherBlock,
    together_statementOver togetherExpression togetherBlock⟩

/-- The induction is on the levels. -/
theorem together_within (room : Nat) : (within room).AreTogether rest rest' := by
  induction room with
  | zero => exact together_level ⟨.tooDeep, .tooDeep, .tooDeep, .tooDeep⟩
  | succ room ih => exact together_level ih

end Productions

end SubsetC
