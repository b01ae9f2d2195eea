import Mathlib.Data.List.Chain
import SubsetC.Proofs.Grammar.Heights

/-!
# Chains that are not counted as nesting

A chain of conditions right after `else` has the same tree as the chain in which each of them is
written in a block of its own. The blocks are counted as nesting, so the second chain is refused
once it is longer than `maxNesting`. The first one is read at any length: `ifFrom` calls itself for
each of its conditions, and no level is entered. A row of binary operators is not counted either.
With them trees get as high as one likes, while `height_parse` bounds what the rows leave.
-/

namespace SubsetC

open Grammar

/-! ## Calls in each other -/

namespace Productions

/-- A call of `ifFrom` at the first point makes one at the second point: behind the first branch
`else` is next, and another condition. -/
def Calls (productions : Productions) (cursor next : Cursor) : Prop :=
  ∃ head behind, (ifHead productions.expression productions.block).run cursor = (.ok head, behind) ∧
    behind.kind = .keyword .elseWord ∧ behind.advance.kind = .keyword .ifWord ∧
    next = behind.advance

variable {productions : Productions} {cursor next : Cursor} {rest : List Token.Kind}

/-- The outcome of a call is made of what the call inside of it gives. -/
theorem ifFrom_of_calls (calls : productions.Calls cursor next) :
    ∃ opening condition body,
      ifFrom productions.expression productions.block cursor =
        let (nested, last) := ifFrom productions.expression productions.block next
        (nested.map fun nested => conditional opening condition body
          (some ⟨[nested], nested.span⟩) last.previousStop, last) := by
  rcases calls with ⟨⟨opening, condition, body⟩, behind, headRan, elseNext, ifNext, rfl⟩
  refine ⟨opening, condition, body, ?_⟩
  conv => lhs; rw [ifFrom]
  split
  · rename_i failed
    rw [headRan] at failed
    cases failed
  · rename_i ran
    rw [headRan] at ran
    cases ran
    rw [if_pos elseNext, if_pos ifNext]
    rcases ifFrom productions.expression productions.block behind.advance with ⟨outcome, last⟩
    cases outcome <;> rfl

/-- A block behind `else` that fails lets the statement fail. -/
theorem ifFrom_of_block_error {expression : TokenStep Expr} {block : TokenStep (Block Stmt)}
    {head : Span × Expr × Block Stmt} {behind last : Cursor} {error : ParseError}
    (headRan : (ifHead expression block).run cursor = (.ok head, behind))
    (elseNext : behind.kind = .keyword .elseWord)
    (blockNext : behind.advance.kind ≠ .keyword .ifWord)
    (failed : block.run behind.advance = (.error error, last)) :
    ifFrom expression block cursor = (.error error, last) := by
  rw [ifFrom]
  split
  · rename_i headFailed
    rw [headRan] at headFailed
    cases headFailed
  · rename_i ran
    rw [headRan] at ran
    cases ran
    rw [if_pos elseNext, if_neg blockNext]
    have noBlock : (block.map some).run behind.advance = (.error error, last) := by
      change (block.toReader >>= fun value => pure (some value)).run behind.advance = _
      rw [Reader.run_bind, failed]
    rw [noBlock]
    rfl

end Productions

namespace Cursor

/-- A step forward leaves all tokens but the first. -/
theorem kinds_advance {cursor : Cursor} {kind : Token.Kind} {rest : List Token.Kind}
    (next : cursor.kinds = kind :: rest) : cursor.advance.kinds = rest := by
  cases ahead : cursor.stream.ahead with
  | nil => simp [kinds, TokenStream.kinds, ahead] at next
  | cons lexeme others =>
      have took := (took_advance ahead).kinds
      rw [next, List.singleton_append, List.cons.injEq] at took
      exact took.2.symm

end Cursor

namespace Productions

section Complete

variable {productions : Productions} {least : Nat} {condition : Phrase 6} {body : Sequence}
  {cursor : Cursor} {rest : List Token.Kind}

/-- A condition with its branch is read, and what comes behind `else` is left. -/
theorem complete_ifHead (complete : productions.Complete least) (deep : least ≤ cursor.depth)
    (shallow : cursor.depth ≤ maxNesting)
    (next : cursor.kinds =
      .keyword .ifWord :: (testTokens condition ++ (blockTokens body.tokens ++ rest)))
    (fits : max condition.nesting body.nesting ≤ maxNesting - cursor.depth) :
    cursor.Passes (ifHead productions.expression productions.block).toReader rest := by
  refine .andThen (.keyword next) fun opening point kinds depth => ?_
  apply complete_branch complete.expression complete.block
  · omega
  · omega
  · exact kinds
  · rwa [depth]
  · exact fun value branch last kinds depth => .pure _ kinds

/-- Each condition right after `else` is one more call inside of the one before. -/
theorem exists_calls (complete : productions.Complete least) (alternative : Alternative)
    {condition : Phrase 6} {body : Sequence} {cursor : Cursor} (deep : least ≤ cursor.depth)
    (shallow : cursor.depth ≤ maxNesting)
    (next : cursor.kinds = .keyword .ifWord ::
      (testTokens condition ++ (blockTokens body.tokens ++ (alternative.tokens ++ rest))))
    (fits : max (max condition.nesting body.nesting) alternative.nesting ≤
      maxNesting - cursor.depth) :
    ∃ calls : List Cursor, calls.length = alternative.arms ∧
      List.IsChain productions.Calls (cursor :: calls) := by
  match alternative with
  | .none | .block body => exact ⟨[], rfl, .singleton cursor⟩
  | .conditional condition' body' otherwise =>
      rcases Nat.max_le.mp fits with ⟨branchFits, otherwiseFits⟩
      rcases complete_ifHead complete deep shallow next branchFits with
        ⟨head, behind, headRan, kinds, depth⟩
      rw [Alternative.tokens, List.cons_append, List.cons_append, List.append_assoc,
        List.append_assoc] at kinds
      have kinds' := Cursor.kinds_advance kinds
      have depth' : behind.advance.depth = cursor.depth := depth
      rcases exists_calls complete otherwise (depth' ▸ deep) (depth' ▸ shallow) kinds'
        (depth' ▸ otherwiseFits) with ⟨calls, length, chain⟩
      refine ⟨behind.advance :: calls, congrArg (· + 1) length, .cons_cons ?_ chain⟩
      exact ⟨head, behind, headRan, Cursor.kind_of_kinds kinds, Cursor.kind_of_kinds kinds', rfl⟩

end Complete

end Productions

/-! ## Two ways to write a chain -/

namespace Grammar

/-- The condition of all chains. -/
def one : Phrase 6 :=
  .row (.row (.row (.row (.row (.row (.integer 1) .nil) .nil) .nil) .nil) .nil) .nil

/-- Conditions right after `else`. -/
def arms : (count : Nat) → Alternative
  | 0 => .none
  | count + 1 => .conditional one .nil (arms count)

/-- A chain of conditions right after `else`. -/
def elseIfChain (count : Nat) : Sentence :=
  .conditional one .nil (arms count)

/-- The same chain with a block around each condition behind `else`. -/
def blockChain : (count : Nat) → Sentence
  | 0 => .conditional one .nil .none
  | count + 1 => .conditional one .nil (.block (.cons (blockChain count) .nil))

/-- A text of the statement. -/
def Sentence.text (sentence : Sentence) : String :=
  String.ofList (Segment.joined sentence.tokens)

example : (elseIfChain 1).text = "if ( 1 ) \x7b \x7d else if ( 1 ) \x7b \x7d" := by decide +kernel

example : (blockChain 1).text =
    "if ( 1 ) \x7b \x7d else \x7b if ( 1 ) \x7b \x7d \x7d" := by decide +kernel

/-- The text of a statement is a program of this statement alone. -/
theorem derives_text {sentence : Sentence} (written : ∀ kind ∈ sentence.tokens, kind.Written) :
    Derives [sentence] sentence.text := by
  have alone : programTokens [sentence] = sentence.tokens := List.flatMap_singleton ..
  have derives := @derives_joined [sentence] (by rwa [alone])
  rwa [alone] at derives

theorem tokens_one : one.tokens = [.integer 1] := rfl

theorem written_one : ∀ kind ∈ testTokens one, kind.Written := by
  have literal : (Token.Kind.integer 1).Written := show (0 : Int) ≤ (1 : Int64).toInt by decide
  simp only [testTokens, tokens_one, List.forall_mem_cons, List.forall_mem_append]
  exact ⟨trivial, ⟨literal, by simp⟩, trivial, by simp⟩

/-- There are as many conditions as were asked for. -/
theorem arms_arms (count : Nat) : (arms count).arms = count := by
  induction count with
  | zero => rfl
  | succ count ih => exact congrArg (· + 1) ih

/-- Conditions right after `else` do not nest. -/
theorem nesting_elseIfChain (count : Nat) : (elseIfChain count).nesting = 0 := by
  have flat : (arms count).nesting = 0 := by
    induction count with
    | zero => rfl
    | succ count ih =>
        rw [arms, Alternative.nesting, ih]
        rfl
  rw [elseIfChain, Sentence.nesting, flat]
  rfl

/-- Each block nests once. -/
theorem nesting_blockChain (count : Nat) : (blockChain count).nesting = count := by
  induction count with
  | zero => rfl
  | succ count ih =>
      change max (max 0 0) (max ((blockChain count).nesting + 1) 0) = count + 1
      omega

/-- However long the chain is, it starts with a condition. -/
theorem exists_tokens_blockChain (count : Nat) :
    ∃ others, (blockChain count).tokens = .keyword .ifWord :: others := by
  cases count with
  | zero => exact ⟨_, rfl⟩
  | succ count => exact ⟨_, rfl⟩

/-- Both ways to write a chain have one tree. -/
theorem tree_blockChain (count : Nat) : (blockChain count).tree = (elseIfChain count).tree := by
  induction count with
  | zero => rfl
  | succ count ih =>
      change conditionalTree one.tree [] (some ⟨[(blockChain count).tree], default⟩) = _
      rw [ih]
      rfl

/-- Each condition makes the tree higher by a statement and a block. -/
theorem height_elseIfChain (count : Nat) : (elseIfChain count).tree.height = 2 * count + 2 := by
  induction count with
  | zero => rfl
  | succ count ih =>
      change max (max _ _) (max (elseIfChain count).tree.height 0 + 1) + 1 = _
      rw [ih]
      simp [one, Phrase.tree, Links.tree, Expr.height, blockHeight, Sequence.trees,
        statementsHeight]
      omega

theorem written_elseIfChain (count : Nat) : ∀ kind ∈ (elseIfChain count).tokens, kind.Written := by
  have row : ∀ kind ∈ (arms count).tokens, kind.Written := by
    induction count with
    | zero => simp [arms, Alternative.tokens]
    | succ count ih =>
        simp only [arms, Alternative.tokens, blockTokens, Sequence.tokens, List.nil_append,
          List.forall_mem_cons, List.forall_mem_append]
        exact ⟨trivial, trivial, written_one, ⟨trivial, trivial, by simp⟩, ih⟩
  simp only [elseIfChain, Sentence.tokens, blockTokens, Sequence.tokens, List.nil_append,
    List.forall_mem_cons, List.forall_mem_append]
  exact ⟨trivial, written_one, ⟨trivial, trivial, by simp⟩, row⟩

theorem written_blockChain (count : Nat) : ∀ kind ∈ (blockChain count).tokens, kind.Written := by
  induction count with
  | zero => exact written_elseIfChain 0
  | succ count ih =>
      simp only [blockChain, Sentence.tokens, Alternative.tokens, blockTokens, Sequence.tokens,
        List.nil_append, List.append_nil, List.forall_mem_cons, List.forall_mem_append]
      exact ⟨trivial, written_one, ⟨trivial, trivial, by simp⟩, trivial, trivial, ih, trivial,
        by simp⟩

/-! ## Rows of operators -/

/-- Ones with plus signs in front of them. -/
def sum : (signs : Nat) → Links 1
  | 0 => .nil
  | signs + 1 => .cons .add rfl (.row (.integer 1) .nil) (sum signs)

/-- A return of a row of ones. -/
def leaveSum (signs : Nat) : Sentence :=
  .leave (some (.row (.row (.row (.row (.row (.row (.integer 1) .nil) (sum signs)) .nil) .nil) .nil)
    .nil))

theorem written_leaveSum (signs : Nat) : ∀ kind ∈ (leaveSum signs).tokens, kind.Written := by
  have literal : (Token.Kind.integer 1).Written := show (0 : Int) ≤ (1 : Int64).toInt by decide
  have row : ∀ kind ∈ (sum signs).tokens, kind.Written := by
    induction signs with
    | zero => simp [sum, Links.tokens]
    | succ signs ih =>
        simp only [sum, Links.tokens, Phrase.tokens, List.forall_mem_cons, List.forall_mem_append,
          List.append_nil]
        exact ⟨trivial, ⟨literal, by simp⟩, ih⟩
  have tokens : (leaveSum signs).tokens =
      .keyword .returnWord :: .integer 1 :: ((sum signs).tokens ++ [.symbol .semicolon]) := by
    simp [leaveSum, Sentence.tokens, valueTokens, Phrase.tokens, Links.tokens]
  simp only [tokens, List.forall_mem_cons, List.forall_mem_append]
  exact ⟨trivial, literal, row, trivial, by simp⟩

/-- Operators do not nest. -/
theorem nesting_leaveSum (signs : Nat) : (leaveSum signs).nesting = 0 := by
  have row : (sum signs).nesting = 0 := by
    induction signs with
    | zero => rfl
    | succ signs ih => simp [sum, Links.nesting, Phrase.nesting, ih]
  simp [leaveSum, Sentence.nesting, valueNesting, Phrase.nesting, Links.nesting, row]

/-- Each sign lies above all that is to the left of it. -/
theorem height_sum (signs : Nat) (left : Expr) (positive : 0 < left.height) :
    ((sum signs).tree left).height = left.height + signs := by
  induction signs generalizing left with
  | zero => rfl
  | succ signs ih =>
      have node : (Expr.binary .add left (.literal (.int 1) default) default).height =
          left.height + 1 := by
        simp only [Expr.height]
        omega
      have others := ih (.binary .add left (.literal (.int 1) default) default) (by omega)
      rw [node] at others
      exact others.trans (by omega)

theorem height_leaveSum (signs : Nat) : (leaveSum signs).tree.height = signs + 2 := by
  have row := height_sum signs (.literal (.int 1) default) Nat.one_pos
  change ((sum signs).tree (.literal (.int 1) default)).height + 1 = signs + 2
  rw [row, Expr.height]
  omega

end Grammar

/-! ## Where blocks are refused -/

/-- The production fails since there is no level for what comes next. -/
def Cursor.Refuses {α : Type} (cursor : Cursor) (production : Production α) : Prop :=
  ∃ line last, production.run cursor = (.error (.nestingTooDeep line), last)

namespace Cursor.Refuses

variable {α β : Type} {cursor : Cursor}

theorem bind {first : Production α} (refuses : cursor.Refuses first) (second : α → Production β) :
    cursor.Refuses (first >>= second) := by
  rcases refuses with ⟨line, last, failed⟩
  exact ⟨line, last, by rw [Reader.run_bind, failed]⟩

theorem after {first : Production α} {second : α → Production β} {value : α} {middle : Cursor}
    (ran : first.run cursor = (.ok value, middle)) (refuses : middle.Refuses (second value)) :
    cursor.Refuses (first >>= second) := by
  rcases refuses with ⟨line, last, failed⟩
  exact ⟨line, last, by rw [Reader.run_bind, ran]; exact failed⟩

/-- Rounds are over with the first refusal. -/
theorem many {wanted : Cursor → Bool} {step : TokenStep α} (isWanted : wanted cursor = true)
    (refuses : cursor.Refuses step.toReader) : cursor.Refuses (Reader.many wanted step) := by
  rcases refuses with ⟨line, last, failed⟩
  exact ⟨line, last, by simp only [Reader.many, Reader.collect_of_error isWanted failed]⟩

/-- In the deepest level nothing can be nested. -/
theorem nested_of_full {step : TokenStep α} (full : maxNesting ≤ cursor.depth) :
    cursor.Refuses (TokenStep.nested step).toReader :=
  ⟨_, _, if_pos full⟩

/-- What is refused one level deeper is refused here. -/
theorem nested {step : TokenStep α}
    (refuses : ({ cursor with depth := cursor.depth + 1 } : Cursor).Refuses step.toReader) :
    cursor.Refuses (TokenStep.nested step).toReader := by
  by_cases full : maxNesting ≤ cursor.depth
  · exact nested_of_full full
  · rcases refuses with ⟨line, last, failed⟩
    refine ⟨line, { last with depth := last.depth - 1 }, ?_⟩
    simp only [TokenStep.nested, if_neg full, failed]

end Cursor.Refuses

namespace Productions

open TokenStep

variable {inner : Productions} {cursor : Cursor} {count : Nat} {rest : List Token.Kind}

/-- A block is refused at the first statement for which there is no level. -/
theorem refuses_blockOver
    (next : cursor.kinds = .symbol .leftBrace :: ((blockChain count).tokens ++ rest))
    (inside : ∀ point : Cursor, point.kinds = (blockChain count).tokens ++ rest →
      point.depth = cursor.depth → point.Refuses (nested inner.statement).toReader) :
    cursor.Refuses (blockOver inner).toReader := by
  rcases Cursor.Passes.symbol next with ⟨opening, point, ran, kinds, depth⟩
  rcases exists_tokens_blockChain count with ⟨others, tokens⟩
  have refuses := inside point kinds depth
  rw [tokens, List.cons_append] at kinds
  have wanted : (point.kind != .symbol .rightBrace && point.kind != .endOfInput) = true := by
    rw [Cursor.kind_of_kinds kinds]
    rfl
  exact .after ran ((Cursor.Refuses.many wanted refuses).bind _)

/-- A chain of blocks is refused if its second condition is. -/
theorem refuses_level {least : Nat} (complete : (level inner).Complete least)
    (deep : least ≤ cursor.depth) (shallow : cursor.depth ≤ maxNesting)
    (next : cursor.kinds = (blockChain (count + 1)).tokens ++ rest)
    (inside : ∀ (point : Cursor) (rest : List Token.Kind),
      point.kinds = (blockChain count).tokens ++ rest → point.depth = cursor.depth →
        point.Refuses (nested inner.statement).toReader) :
    cursor.Refuses (level inner).statement.toReader := by
  simp only [blockChain, Sentence.tokens, Alternative.tokens, Sequence.tokens, List.append_nil,
    List.cons_append, List.append_assoc] at next
  have flat : max one.nesting Sequence.nil.nesting ≤ maxNesting - cursor.depth := Nat.zero_le _
  rcases complete_ifHead complete deep shallow next flat with
    ⟨head, behind, headRan, kinds, depth⟩
  have kinds' := Cursor.kinds_advance kinds
  rw [blockTokens, List.cons_append, List.append_assoc] at kinds'
  have elseNext := Cursor.kind_of_kinds kinds
  have blockNext : behind.advance.kind ≠ .keyword .ifWord := by
    rw [Cursor.kind_of_kinds kinds']
    nofun
  rcases refuses_blockOver kinds' fun point tokens back => inside point _ tokens (back.trans depth)
    with ⟨line, last, failed⟩
  refine ⟨line, last, ?_⟩
  change (statementOver (level inner).expression (level inner).block).run cursor = _
  rw [statementOver, Step.run_choose, Cursor.kind_of_kinds next]
  exact ifFrom_of_block_error headRan elseNext blockNext failed

/-- A chain of more blocks than there are levels is refused. The induction is on the levels: each of
them lets one more condition in. -/
theorem refuses_blockChain {room : Nat} (fits : room ≤ maxNesting) (deeper : room < count)
    (here : cursor.depth + room = maxNesting)
    (next : cursor.kinds = (blockChain count).tokens ++ rest) :
    cursor.Refuses (within room).statement.toReader := by
  obtain ⟨count, rfl⟩ := Nat.exists_eq_add_one_of_ne_zero (Nat.ne_zero_of_lt deeper)
  induction room generalizing count cursor rest with
  | zero =>
      apply refuses_level (complete_within fits) (by omega) (by omega) next
      intro point rest tokens depth
      exact .nested_of_full (by omega)
  | succ room ih =>
      apply refuses_level (complete_within fits) (by omega) (by omega) next
      intro point rest tokens depth
      obtain ⟨count, rfl⟩ :=
        Nat.exists_eq_add_one_of_ne_zero (Nat.ne_zero_of_lt (Nat.lt_of_succ_lt_succ deeper))
      apply Cursor.Refuses.nested
      apply ih (Nat.le_of_succ_le fits) _ count
      · exact Nat.lt_of_succ_lt_succ deeper
      · exact tokens
      · simp only [depth]
        omega

end Productions

/-! ## The chains as sources -/

/-- A parser of the text has the tokens of the statement before it. -/
theorem kinds_start_text {sentence : Sentence} (written : ∀ kind ∈ sentence.tokens, kind.Written)
    (session : Session) : (Cursor.start sentence.text session).kinds = sentence.tokens := by
  have derives := derives_text written
  rw [Derives, ← Cursor.kinds_start _ session] at derives
  have kinds := List.append_cancel_right derives
  rwa [show programTokens [sentence] = sentence.tokens from List.flatMap_singleton ..] at kinds

/-- A statement that lies within the levels there are is all that is read of its text. -/
theorem parse_text {sentence : Sentence} (written : ∀ kind ∈ sentence.tokens, kind.Written)
    (fits : sentence.nesting ≤ maxNesting) (session : Session) :
    (parse sentence.text session).1.2 = none ∧
      statementsBare (parse sentence.text session).1.1.statements = [sentence.tree] := by
  have fits : Fits [sentence] := by simpa [Fits] using fits
  exact ⟨accepts_program (derives_text written) fits,
    statements_program (derives_text written) fits⟩

/-- The tree of the text is one higher than the statement. -/
theorem height_parse_text {sentence : Sentence} (written : ∀ kind ∈ sentence.tokens, kind.Written)
    (fits : sentence.nesting ≤ maxNesting) (session : Session) :
    (parse sentence.text session).1.1.height = sentence.tree.height + 1 := by
  rw [Tree.height, ← statementsHeight_bare, (parse_text written fits session).2]
  simp [statementsHeight]

/-- On the chain, as many calls of `ifFrom` lie in each other as it has conditions after `else`. -/
theorem calls_elseIfChain (count : Nat) (session : Session) :
    ∃ calls : List Cursor, calls.length = count ∧
      List.IsChain (Productions.within maxNesting).Calls
        (Cursor.start (elseIfChain count).text session :: calls) := by
  have kinds := kinds_start_text (written_elseIfChain count) session
  have fits : max (max one.nesting Sequence.nil.nesting) (arms count).nesting ≤ maxNesting := by
    have flat := nesting_elseIfChain count
    rw [elseIfChain, Sentence.nesting] at flat
    rw [flat]
    exact Nat.zero_le _
  have complete := Productions.complete_within (Nat.le_refl maxNesting)
  rw [Nat.sub_self] at complete
  rcases @Productions.exists_calls _ 0 [] complete (arms count) one .nil
    (Cursor.start (elseIfChain count).text session) (Nat.zero_le _) (Nat.zero_le _)
    (by rw [List.append_nil]; exact kinds) fits with ⟨calls, length, chain⟩
  exact ⟨calls, length.trans (arms_arms count), chain⟩

/-- A chain of more blocks than there are levels is refused, and nothing of it is kept. -/
theorem parse_blockChain {count : Nat} (deeper : maxNesting < count) (session : Session) :
    (∃ line, (parse (blockChain count).text session).1.2 = some (.nestingTooDeep line)) ∧
      (parse (blockChain count).text session).1.1.statements = [] := by
  have kinds := kinds_start_text (written_blockChain count) session
  have next : (Cursor.start (blockChain count).text session).kinds =
      (blockChain count).tokens ++ [] := by rw [List.append_nil, kinds]
  rcases Productions.refuses_blockChain (Nat.le_refl _) deeper (Nat.zero_add _) next with
    ⟨line, last, failed⟩
  rcases exists_tokens_blockChain count with ⟨others, tokens⟩
  have wanted :
      ((Cursor.start (blockChain count).text session).kind != .endOfInput) = true := by
    rw [Cursor.kind_of_kinds (kinds.trans tokens)]
    rfl
  have collected : readAll (blockChain count).text session =
      (([], some (.nestingTooDeep line)), last) := Reader.collect_of_error wanted failed
  refine ⟨⟨line, ?_⟩, ?_⟩
  · rw [failure_parse, collected]
  · change (readAll (blockChain count).text session).1.1 = []
    rw [collected]

/-- The tree of the chain has a height of its own for each number of conditions. -/
theorem height_parse_elseIfChain (count : Nat) (session : Session) :
    (parse (elseIfChain count).text session).1.2 = none ∧
      (parse (elseIfChain count).text session).1.1.height = 2 * count + 3 := by
  have fits : (elseIfChain count).nesting ≤ maxNesting := by
    rw [nesting_elseIfChain]
    exact Nat.zero_le _
  exact ⟨(parse_text (written_elseIfChain count) fits session).1,
    (height_parse_text (written_elseIfChain count) fits session).trans
      (congrArg (· + 1) (height_elseIfChain count))⟩

/-- So has that of the row of operators. -/
theorem height_parse_leaveSum (signs : Nat) (session : Session) :
    (parse (leaveSum signs).text session).1.2 = none ∧
      (parse (leaveSum signs).text session).1.1.height = signs + 3 := by
  have fits : (leaveSum signs).nesting ≤ maxNesting := by
    rw [nesting_leaveSum]
    exact Nat.zero_le _
  exact ⟨(parse_text (written_leaveSum signs) fits session).1,
    (height_parse_text (written_leaveSum signs) fits session).trans
      (congrArg (· + 1) (height_leaveSum signs))⟩

/-- As long as the blocks can be read, the two chains have the same tree. -/
theorem parse_blockChain_of_le {count : Nat} (shallow : count ≤ maxNesting) (session : Session) :
    (parse (blockChain count).text session).1.2 = none ∧
      statementsBare (parse (blockChain count).text session).1.1.statements =
        statementsBare (parse (elseIfChain count).text session).1.1.statements := by
  have flatFits : (elseIfChain count).nesting ≤ maxNesting := by
    rw [nesting_elseIfChain]
    exact Nat.zero_le _
  have blocksFit : (blockChain count).nesting ≤ maxNesting := by
    rw [nesting_blockChain]
    exact shallow
  have flatRead := parse_text (written_elseIfChain count) flatFits session
  have blocksRead := parse_text (written_blockChain count) blocksFit session
  exact ⟨blocksRead.1, by rw [blocksRead.2, flatRead.2, tree_blockChain]⟩

/-- The limit on nesting bounds the height of a tree by its longest row, and no more. Conditions
right after `else` are read at any number, with as many calls of `ifFrom` in each other and a tree
of that height; written with blocks, the same tree is refused where the chain is longer than the
limit. Operators are read at any number as well. -/
theorem height_escapes_nesting (source : String) (session : Session) (count : Nat) :
    let flat := parse (elseIfChain count).text session
    let blocks := parse (blockChain count).text session
    let operators := parse (leaveSum count).text session
    (parse source session).1.1.height ≤
        (maxNesting + 1) * (8 * (parse source session).1.1.row + 2) + 1 ∧
      (flat.1.2 = none ∧ flat.1.1.height = 2 * count + 3 ∧
        ∃ calls : List Cursor, calls.length = count ∧
          List.IsChain (Productions.within maxNesting).Calls
            (Cursor.start (elseIfChain count).text session :: calls)) ∧
      (count ≤ maxNesting → blocks.1.2 = none ∧
        statementsBare blocks.1.1.statements = statementsBare flat.1.1.statements) ∧
      (maxNesting < count → (∃ line, blocks.1.2 = some (.nestingTooDeep line)) ∧
        blocks.1.1.statements = []) ∧
      operators.1.2 = none ∧ operators.1.1.height = count + 3 := by
  intro flat blocks operators
  have flatRead := height_parse_elseIfChain count session
  refine ⟨height_parse source session, ⟨flatRead.1, flatRead.2, calls_elseIfChain count session⟩,
    ?_, ?_, height_parse_leaveSum count session⟩
  · exact fun shallow => parse_blockChain_of_le shallow session
  · exact fun deeper => parse_blockChain deeper session

/-- No bound holds of all trees. -/
theorem height_unbounded :
    ¬∃ bound, ∀ source session, (parse source session).1.1.height ≤ bound := by
  rintro ⟨bound, bounded⟩
  have low := bounded (elseIfChain bound).text .empty
  rw [(height_parse_elseIfChain bound .empty).2] at low
  omega

end SubsetC
