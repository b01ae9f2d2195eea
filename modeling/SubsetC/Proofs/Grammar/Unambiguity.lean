import SubsetC.Proofs.Grammar.Derivations

/-!
# The grammar is unambiguous

Two derivations of which one derives the front of a text and the other one too are the same, if what
comes behind could not go on with either: behind an expression no operator of its levels, and behind
a statement no `else`. With nothing behind them, the tokens have one derivation at most.
-/

namespace SubsetC.Grammar

/-- No operator of the levels comes next. -/
def Stops (level : Nat) (rest : List Token.Kind) : Prop :=
  ∀ op : BinaryOp, op.level ≤ level → rest.head? ≠ some (.symbol op.symbol)

/-- What stops a row of loose operators stops a row of tight ones. -/
theorem Stops.mono {level level' : Nat} {rest : List Token.Kind} (stops : Stops level rest)
    (less : level' ≤ level) : Stops level' rest := by
  intro op low
  exact stops op (Nat.le_trans low less)

/-- Operators of the level above may follow. -/
theorem Links.stops {level : Nat} (links : Links level) {rest : List Token.Kind}
    (stops : Stops (level + 1) rest) : Stops level (links.tokens ++ rest) := by
  cases links with
  | nil => exact stops.mono (Nat.le_succ level)
  | cons op fits operand links =>
      intro other low same
      simp only [Links.tokens, List.cons_append, List.head?_cons, Option.some.injEq,
        Token.Kind.symbol.injEq] at same
      rw [BinaryOp.symbol_injective same] at fits
      omega

/-- No operator binds tighter than operands do. -/
theorem stops_zero (rest : List Token.Kind) : Stops 0 rest := by
  intro op low
  cases op <;> cases low

theorem stops_rightParen (level : Nat) (rest : List Token.Kind) :
    Stops level (.symbol .rightParen :: rest) := by
  intro op low same
  cases op <;> cases same

theorem stops_semicolon (level : Nat) (rest : List Token.Kind) :
    Stops level (.symbol .semicolon :: rest) := by
  intro op low same
  cases op <;> cases same

mutual

/-- The tokens of an expression tell its derivation, and where it ends. -/
theorem Phrase.unique {level : Nat} (first second : Phrase level) {rest rest' : List Token.Kind}
    (stops : Stops level rest) (stops' : Stops level rest')
    (same : first.tokens ++ rest = second.tokens ++ rest') : first = second ∧ rest = rest' := by
  match level, first, second with
  | _, .integer value, second =>
      cases second <;> simp_all [Phrase.tokens]
  | _, .character body, second =>
      cases second <;> simp_all [Phrase.tokens]
  | _, .var name, second =>
      cases second <;> simp_all [Phrase.tokens]
  | _, .parentheses inner, second =>
      cases second with
      | parentheses inner' =>
          simp only [Phrase.tokens, List.cons_append, List.append_assoc, List.cons.injEq, true_and,
            List.nil_append] at same
          rcases Phrase.unique inner inner' (stops_rightParen 6 rest) (stops_rightParen 6 rest')
            same with ⟨rfl, behind⟩
          exact ⟨rfl, (List.cons.inj behind).2⟩
      | signed op' operand' =>
          cases op' <;> simp [Phrase.tokens, UnaryOp.symbol] at same
      | _ => simp [Phrase.tokens] at same
  | _, .signed op operand, second =>
      cases second with
      | signed op' operand' =>
          simp only [Phrase.tokens, List.cons_append, List.cons.injEq,
            Token.Kind.symbol.injEq] at same
          rcases same with ⟨mark, same⟩
          rcases UnaryOp.symbol_injective mark with rfl
          rcases Phrase.unique operand operand' stops stops' same with ⟨rfl, rfl⟩
          exact ⟨rfl, rfl⟩
      | parentheses inner' =>
          cases op <;> simp [Phrase.tokens, UnaryOp.symbol] at same
      | _ => simp [Phrase.tokens] at same
  | _, .row operand links, second =>
      cases second with
      | row operand' links' =>
          rw [Phrase.tokens, Phrase.tokens, List.append_assoc, List.append_assoc] at same
          rcases Phrase.unique operand operand' (links.stops stops) (links'.stops stops') same with
            ⟨rfl, behind⟩
          rcases Links.unique links links' stops stops' behind with ⟨rfl, rfl⟩
          exact ⟨rfl, rfl⟩

/-- Rows with the same tokens have the same operators and operands. -/
theorem Links.unique {level : Nat} (first second : Links level) {rest rest' : List Token.Kind}
    (stops : Stops (level + 1) rest) (stops' : Stops (level + 1) rest')
    (same : first.tokens ++ rest = second.tokens ++ rest') : first = second ∧ rest = rest' := by
  match level, first, second with
  | _, .nil, .nil => exact ⟨rfl, same⟩
  | _, .nil, .cons op fits operand links =>
      -- The shorter row would be followed by an operator of its own level.
      have next : rest.head? = some (.symbol op.symbol) := by
        simp only [Links.tokens, List.nil_append, List.cons_append] at same
        rw [same, List.head?_cons]
      exact absurd next (stops op (Nat.le_of_eq fits))
  | _, .cons op fits operand links, .nil =>
      have next : rest'.head? = some (.symbol op.symbol) := by
        simp only [Links.tokens, List.nil_append, List.cons_append] at same
        rw [← same, List.head?_cons]
      exact absurd next (stops' op (Nat.le_of_eq fits))
  | _, .cons op fits operand links, .cons op' fits' operand' links' =>
      simp only [Links.tokens, List.cons_append, List.cons.injEq, Token.Kind.symbol.injEq,
        List.append_assoc] at same
      rcases same with ⟨mark, same⟩
      rcases BinaryOp.symbol_injective mark with rfl
      rcases Phrase.unique operand operand' (links.stops stops) (links'.stops stops') same with
        ⟨rfl, behind⟩
      rcases Links.unique links links' stops stops' behind with ⟨rfl, rfl⟩
      exact ⟨rfl, rfl⟩

end

theorem test_unique {condition condition' : Phrase 6} {rest rest' : List Token.Kind}
    (same : testTokens condition ++ rest = testTokens condition' ++ rest') :
    condition = condition' ∧ rest = rest' := by
  simp only [testTokens, List.cons_append, List.append_assoc, List.cons.injEq, true_and,
    List.nil_append] at same
  rcases Phrase.unique condition condition' (stops_rightParen 6 rest) (stops_rightParen 6 rest')
    same with ⟨rfl, behind⟩
  exact ⟨rfl, (List.cons.inj behind).2⟩

/-- A value up to the semicolon. -/
theorem value_unique {value value' : Phrase 6} {rest rest' : List Token.Kind}
    (same : value.tokens ++ .symbol .semicolon :: rest =
      value'.tokens ++ .symbol .semicolon :: rest') :
    value = value' ∧ rest = rest' := by
  rcases Phrase.unique value value' (stops_semicolon 6 rest) (stops_semicolon 6 rest') same with
    ⟨rfl, behind⟩
  exact ⟨rfl, (List.cons.inj behind).2⟩

/-- An expression starts with no semicolon. -/
theorem Phrase.head_ne_semicolon {level : Nat} (phrase : Phrase level) (rest : List Token.Kind) :
    (phrase.tokens ++ rest).head? ≠ some (.symbol .semicolon) := by
  match level, phrase with
  | _, .integer value => simp [Phrase.tokens]
  | _, .character body => simp [Phrase.tokens]
  | _, .var name => simp [Phrase.tokens]
  | _, .parentheses inner => simp [Phrase.tokens]
  | _, .signed op operand => cases op <;> simp [Phrase.tokens, UnaryOp.symbol]
  | _, .row first links =>
      rw [Phrase.tokens, List.append_assoc]
      exact first.head_ne_semicolon _

/-- No `else` comes next. -/
def Ends (rest : List Token.Kind) : Prop :=
  rest.head? ≠ some (.keyword .elseWord)

/-- A statement starts neither with a brace that closes a block nor with `else`, and not behind the
last token. -/
theorem Sentence.head_tokens (sentence : Sentence) :
    ∃ kind rest, sentence.tokens = kind :: rest ∧ kind ≠ .symbol .rightBrace ∧
      kind ≠ .keyword .elseWord ∧ kind ≠ .endOfInput := by
  cases sentence with
  | declare type name => cases type <;> exact ⟨_, _, rfl, by decide, by decide, by decide⟩
  | define type name value => cases type <;> exact ⟨_, _, rfl, by decide, by decide, by decide⟩
  | function type name body => cases type <;> exact ⟨_, _, rfl, by decide, by decide, by decide⟩
  | assign target value => exact ⟨_, _, rfl, by simp, by simp, by simp⟩
  | _ => exact ⟨_, _, rfl, by decide, by decide, by decide⟩

/-- What follows a statement in a block is no `else`. -/
theorem Sequence.ends (sequence : Sequence) (rest : List Token.Kind) :
    Ends (sequence.tokens ++ .symbol .rightBrace :: rest) := by
  cases sequence with
  | nil => simp [Ends, Sequence.tokens]
  | cons first others =>
      rcases first.head_tokens with ⟨kind, behind, tokens, -, other, -⟩
      simpa [Ends, Sequence.tokens, tokens] using other

theorem argument_unique {argument argument' : Option String} {rest rest' : List Token.Kind}
    (same : argumentTokens argument ++ .symbol .rightParen :: rest =
      argumentTokens argument' ++ .symbol .rightParen :: rest') :
    argument = argument' ∧ rest = rest' := by
  cases argument <;> cases argument' <;> simp_all [argumentTokens]

theorem optionalValue_unique {value value' : Option (Phrase 6)} {rest rest' : List Token.Kind}
    (same : valueTokens value ++ .symbol .semicolon :: rest =
      valueTokens value' ++ .symbol .semicolon :: rest') : value = value' ∧ rest = rest' := by
  cases value with
  | none =>
      cases value' with
      | none => exact ⟨rfl, (List.cons.inj same).2⟩
      | some value' =>
          have head := value'.head_ne_semicolon (.symbol .semicolon :: rest')
          change [] ++ .symbol .semicolon :: rest = value'.tokens ++ _ at same
          rw [← same] at head
          exact absurd rfl head
  | some value =>
      cases value' with
      | none =>
          have head := value.head_ne_semicolon (.symbol .semicolon :: rest)
          change value.tokens ++ _ = [] ++ .symbol .semicolon :: rest' at same
          rw [same] at head
          exact absurd rfl head
      | some value' =>
          rcases value_unique same with ⟨rfl, rfl⟩
          exact ⟨rfl, rfl⟩

mutual

/-- The tokens of a statement tell its derivation, and where it ends. -/
theorem Sentence.unique (first second : Sentence) {rest rest' : List Token.Kind}
    (ends : Ends rest) (ends' : Ends rest')
    (same : first.tokens ++ rest = second.tokens ++ rest') : first = second ∧ rest = rest' := by
  match first with
  | .declare type name =>
      cases second with
      | declare type' name' =>
          simp only [Sentence.tokens, List.cons_append, List.nil_append, List.cons.injEq,
            Token.Kind.keyword.injEq, Token.Kind.identifier.injEq, true_and] at same
          rcases same with ⟨word, rfl, rfl⟩
          rcases DataType.keyword_injective word with rfl
          exact ⟨rfl, rfl⟩
      | _ => simp [Sentence.tokens, blockTokens, Keyword.dataType?] at same
  | .define type name value =>
      cases second with
      | define type' name' value' =>
          simp only [Sentence.tokens, List.cons_append, List.append_assoc, List.nil_append,
            List.cons.injEq, Token.Kind.keyword.injEq, Token.Kind.identifier.injEq,
            true_and] at same
          rcases same with ⟨word, rfl, same⟩
          rcases DataType.keyword_injective word with rfl
          rcases value_unique same with ⟨rfl, rfl⟩
          exact ⟨rfl, rfl⟩
      | _ => simp [Sentence.tokens, blockTokens, Keyword.dataType?] at same
  | .function type name body =>
      cases second with
      | function type' name' body' =>
          simp only [Sentence.tokens, blockTokens, List.cons_append, List.append_assoc,
            List.nil_append, List.cons.injEq, Token.Kind.keyword.injEq, Token.Kind.identifier.injEq,
            true_and] at same
          rcases same with ⟨word, rfl, same⟩
          rcases DataType.keyword_injective word with rfl
          rcases Sequence.unique body body' same with ⟨rfl, rfl⟩
          exact ⟨rfl, rfl⟩
      | _ => simp [Sentence.tokens, blockTokens, Keyword.dataType?] at same
  | .assign target value =>
      cases second with
      | assign target' value' =>
          simp only [Sentence.tokens, List.cons_append, List.append_assoc, List.nil_append,
            List.cons.injEq, Token.Kind.identifier.injEq, true_and] at same
          rcases same with ⟨rfl, same⟩
          rcases value_unique same with ⟨rfl, rfl⟩
          exact ⟨rfl, rfl⟩
      | _ => simp [Sentence.tokens, blockTokens] at same
  | .conditional condition body otherwise =>
      cases second with
      | conditional condition' body' otherwise' =>
          simp only [Sentence.tokens, blockTokens, List.cons_append, List.append_assoc,
            List.nil_append, List.cons.injEq, true_and] at same
          rcases test_unique same with ⟨rfl, branch⟩
          rcases Sequence.unique body body' (List.cons.inj branch).2 with ⟨rfl, behind⟩
          rcases Alternative.unique otherwise otherwise' ends ends' behind with ⟨rfl, rfl⟩
          exact ⟨rfl, rfl⟩
      | _ => simp [Sentence.tokens, blockTokens, Keyword.dataType?] at same
  | .loop condition body =>
      cases second with
      | loop condition' body' =>
          simp only [Sentence.tokens, blockTokens, List.cons_append, List.append_assoc,
            List.nil_append, List.cons.injEq, true_and] at same
          rcases test_unique same with ⟨rfl, branch⟩
          rcases Sequence.unique body body' (List.cons.inj branch).2 with ⟨rfl, rfl⟩
          exact ⟨rfl, rfl⟩
      | _ => simp [Sentence.tokens, blockTokens, Keyword.dataType?] at same
  | .print format argument =>
      cases second with
      | print format' argument' =>
          simp only [Sentence.tokens, List.cons_append, List.append_assoc, List.nil_append,
            List.cons.injEq, Token.Kind.string.injEq, true_and] at same
          rcases same with ⟨rfl, same⟩
          rcases argument_unique same with ⟨rfl, behind⟩
          exact ⟨rfl, (List.cons.inj behind).2⟩
      | _ => simp [Sentence.tokens, blockTokens, Keyword.dataType?] at same
  | .scan format target =>
      cases second with
      | scan format' target' => simp_all [Sentence.tokens]
      | _ => simp [Sentence.tokens, blockTokens, Keyword.dataType?] at same
  | .leave value =>
      cases second with
      | leave value' =>
          simp only [Sentence.tokens, List.cons_append, List.append_assoc, List.nil_append,
            List.cons.injEq, true_and] at same
          rcases optionalValue_unique same with ⟨rfl, rfl⟩
          exact ⟨rfl, rfl⟩
      | _ => simp [Sentence.tokens, blockTokens, Keyword.dataType?] at same
  | .block body =>
      cases second with
      | block body' =>
          simp only [Sentence.tokens, blockTokens, List.cons_append, List.append_assoc,
            List.nil_append, List.cons.injEq, true_and] at same
          rcases Sequence.unique body body' same with ⟨rfl, rfl⟩
          exact ⟨rfl, rfl⟩
      | _ => simp [Sentence.tokens, blockTokens] at same

/-- The same goes for what is behind a branch. -/
theorem Alternative.unique (first second : Alternative) {rest rest' : List Token.Kind}
    (ends : Ends rest) (ends' : Ends rest')
    (same : first.tokens ++ rest = second.tokens ++ rest') : first = second ∧ rest = rest' := by
  match first with
  | .none =>
      cases second with
      | none => exact ⟨rfl, same⟩
      | _ =>
          change rest = _ at same
          rw [same] at ends
          exact absurd rfl ends
  | .block body =>
      cases second with
      | none =>
          change _ = rest' at same
          rw [← same] at ends'
          exact absurd rfl ends'
      | block body' =>
          simp only [Alternative.tokens, blockTokens, List.cons_append, List.append_assoc,
            List.nil_append, List.cons.injEq, true_and] at same
          rcases Sequence.unique body body' same with ⟨rfl, rfl⟩
          exact ⟨rfl, rfl⟩
      | conditional condition' body' otherwise' =>
          simp [Alternative.tokens, blockTokens] at same
  | .conditional condition body otherwise =>
      cases second with
      | none =>
          change _ = rest' at same
          rw [← same] at ends'
          exact absurd rfl ends'
      | block body' => simp [Alternative.tokens, blockTokens] at same
      | conditional condition' body' otherwise' =>
          simp only [Alternative.tokens, blockTokens, List.cons_append, List.append_assoc,
            List.nil_append, List.cons.injEq, true_and] at same
          rcases test_unique same with ⟨rfl, branch⟩
          rcases Sequence.unique body body' (List.cons.inj branch).2 with ⟨rfl, behind⟩
          rcases Alternative.unique otherwise otherwise' ends ends' behind with ⟨rfl, rfl⟩
          exact ⟨rfl, rfl⟩

/-- The statements of a block, up to its brace. -/
theorem Sequence.unique (first second : Sequence) {rest rest' : List Token.Kind}
    (same : first.tokens ++ .symbol .rightBrace :: rest =
      second.tokens ++ .symbol .rightBrace :: rest') : first = second ∧ rest = rest' := by
  match first with
  | .nil =>
      cases second with
      | nil => exact ⟨rfl, (List.cons.inj same).2⟩
      | cons sentence' others' =>
          rcases sentence'.head_tokens with ⟨kind, behind, tokens, other, -, -⟩
          simp only [Sequence.tokens, tokens, List.nil_append, List.cons_append,
            List.cons.injEq] at same
          exact absurd same.1.symm other
  | .cons sentence others =>
      cases second with
      | nil =>
          rcases sentence.head_tokens with ⟨kind, behind, tokens, other, -, -⟩
          simp only [Sequence.tokens, tokens, List.nil_append, List.cons_append,
            List.cons.injEq] at same
          exact absurd same.1 other
      | cons sentence' others' =>
          simp only [Sequence.tokens, List.append_assoc] at same
          rcases Sentence.unique sentence sentence' (others.ends rest) (others'.ends rest')
            same with ⟨rfl, behind⟩
          rcases Sequence.unique others others' behind with ⟨rfl, rfl⟩
          exact ⟨rfl, rfl⟩

end

end SubsetC.Grammar
