import SubsetC.Proofs.Grammar.Declarations
import SubsetC.Proofs.Tree.Nodes

/-!
# Nodes stand where their tokens are

The span of a node starts with the first token of the node and ends with the last one. A node
`Stands` among the tokens of a source if its span covers some of them in a row, of which it is read.
The parser takes the end of a span from the token taken last, so that a production is followed from
its first token on: `Cursor.Runs` says what holds of its outcome and of the point that it has
reached. By soundness the tokens between the two points have a derivation.
-/

namespace SubsetC

open Grammar

/-- The span starts where the first of the tokens starts and ends where the last one ends. -/
def Span.Covers (span : Span) (row : List Token) : Prop :=
  ∃ opening closing, row.head? = some opening ∧ row.getLast? = some closing ∧
    span = opening.span.upTo closing.span.stop

/-- Some of the tokens, in a row, derive the value, and the span covers them. -/
def Form.Stands {δ α : Type} (form : Form δ α) (tokens : List Token) (span : Span) (value : α) :
    Prop :=
  ∃ (row : List Token) (derivation : δ), row <:+: tokens ∧ span.Covers row ∧
    row.map Token.kind = form.tokens derivation ∧ form.nesting derivation ≤ maxNesting ∧
    form.Denotes derivation value

/-- What stands on some tokens stands on more of them. -/
theorem Form.Stands.mono {δ α : Type} {form : Form δ α} {tokens tokens' : List Token} {span : Span}
    {value : α} (stands : form.Stands tokens span value) (inside : tokens <:+: tokens') :
    form.Stands tokens' span value := by
  rcases stands with ⟨row, derivation, within, holds⟩
  exact ⟨row, derivation, within.trans inside, holds⟩

namespace Expr

/-- The expression stands among the tokens. -/
def Stands (tokens : List Token) (expr : Expr) : Prop :=
  (Form.phrases 6).Stands tokens expr.span expr

/-- The expression and all expressions inside of it stand among the tokens. -/
def AllStand (tokens : List Token) (expr : Expr) : Prop :=
  ∀ node ∈ expr.nodes, node.Stands tokens

/-- All expressions inside of the expression stand among the tokens. -/
def BelowStand (tokens : List Token) (expr : Expr) : Prop :=
  ∀ node ∈ expr.nodes, node = expr ∨ node.Stands tokens

theorem AllStand.mono {tokens tokens' : List Token} {expr : Expr} (stand : expr.AllStand tokens)
    (inside : tokens <:+: tokens') : expr.AllStand tokens' :=
  fun node mem => Form.Stands.mono (stand node mem) inside

end Expr

namespace Stmt

/-- The statement and its own expressions stand among the tokens. -/
def Stands (tokens : List Token) (stmt : Stmt) : Prop :=
  Form.sentences.Stands tokens stmt.span stmt ∧ ∀ expr ∈ stmt.ownExpressions, expr.AllStand tokens

theorem Stands.mono {tokens tokens' : List Token} {stmt : Stmt} (stands : stmt.Stands tokens)
    (inside : tokens <:+: tokens') : stmt.Stands tokens' :=
  ⟨Form.Stands.mono stands.1 inside, fun expr mem => (stands.2 expr mem).mono inside⟩

/-- The statements stand among the tokens. -/
def AllStand (tokens : List Token) (stmts : List Stmt) : Prop :=
  ∀ stmt ∈ stmts, stmt.Stands tokens

theorem AllStand.mono {tokens tokens' : List Token} {stmts : List Stmt}
    (stand : AllStand tokens stmts) (inside : tokens <:+: tokens') : AllStand tokens' stmts :=
  fun stmt mem => (stand stmt mem).mono inside

/-- All expressions and statements inside of the statement stand among the tokens. -/
structure BelowStand (tokens : List Token) (stmt : Stmt) : Prop where
  expressions : ∀ expr ∈ stmt.ownExpressions, expr.AllStand tokens
  statements : ∀ block ∈ stmt.ownBlocks, AllStand tokens (blockNodes block)

end Stmt

namespace Cursor

/-- These tokens are taken between the two points. -/
structure Crosses (first : Cursor) (taken : List Token) (last : Cursor) : Prop where
  tokens : first.tokens = taken ++ last.tokens
  stop : last.previousStop =
    (taken.getLast?.map fun token => token.span.stop).getD first.previousStop

/-- Two ways, one behind the other. -/
theorem Crosses.trans {first middle last : Cursor} {early late : List Token}
    (before : first.Crosses early middle) (behind : middle.Crosses late last) :
    first.Crosses (early ++ late) last where
  tokens := by rw [before.tokens, behind.tokens, List.append_assoc]
  stop := by
    rw [behind.stop, before.stop, List.getLast?_append]
    cases late.getLast? <;> rfl

/-- The parser gets from one point to the other. -/
def Reaches (first last : Cursor) : Prop :=
  ∃ taken, first.Crosses taken last

theorem token_of_tokens {cursor : Cursor} {token : Token} {rest : List Token}
    (tokens : cursor.tokens = token :: rest) : cursor.token = token := by
  rcases cursor with ⟨⟨ahead, trailing, stop⟩, previousStop, depth, session⟩
  cases ahead with
  | nil => cases tokens
  | cons lexeme others => exact (List.cons.inj tokens).1

/-- A step forward crosses one token. -/
theorem Crosses.advance {cursor : Cursor} {lexeme : Lexeme} {rest : List Lexeme}
    (ahead : cursor.stream.ahead = lexeme :: rest) :
    cursor.Crosses [lexeme.token] cursor.advance where
  tokens := tokens_advance ahead
  stop := by
    rw [List.getLast?_singleton, ← token_of_tokens (tokens_advance ahead)]
    rfl

/-- No tokens are crossed just if the parser has not moved. -/
theorem Crosses.tokens_eq_iff {first last : Cursor} {taken : List Token}
    (crosses : first.Crosses taken last) : last.tokens = first.tokens ↔ taken = [] := by
  rw [crosses.tokens]
  exact List.self_eq_append_left

/-- From the first of the tokens that are taken up to the last one. -/
theorem Crosses.covers {first last : Cursor} {taken : List Token}
    (crosses : first.Crosses taken last) (some : taken ≠ []) :
    (first.token.span.upTo last.previousStop).Covers taken := by
  rcases List.exists_cons_of_ne_nil some with ⟨opening, others, rfl⟩
  have closing := List.getLast?_eq_some_getLast (List.cons_ne_nil opening others)
  refine ⟨opening, _, rfl, closing, ?_⟩
  rw [crosses.stop, closing, token_of_tokens crosses.tokens]
  rfl

/-- The kinds of tokens are those of the tokens. -/
theorem kinds_eq_tokens (cursor : Cursor) : cursor.kinds = cursor.tokens.map Token.kind := by
  simp [kinds, TokenStream.kinds, tokens]

namespace Reaches

variable {first middle last : Cursor}

theorem refl (cursor : Cursor) : cursor.Reaches cursor :=
  ⟨[], rfl, rfl⟩

theorem trans (before : first.Reaches middle) (behind : middle.Reaches last) :
    first.Reaches last := by
  rcases before with ⟨early, crosses⟩
  rcases behind with ⟨late, crosses'⟩
  exact ⟨early ++ late, crosses.trans crosses'⟩

/-- Only the tokens and the end of the last one count. -/
theorem of_eq (before : first.Reaches middle) (tokens : last.tokens = middle.tokens)
    (stop : last.previousStop = middle.previousStop) : first.Reaches last := by
  rcases before with ⟨taken, crosses⟩
  exact ⟨taken, by rw [crosses.tokens, tokens], by rw [stop, crosses.stop]⟩

theorem advance {cursor : Cursor} {lexeme : Lexeme} {rest : List Lexeme}
    (ahead : cursor.stream.ahead = lexeme :: rest) : cursor.Reaches cursor.advance :=
  ⟨[lexeme.token], .advance ahead⟩

theorem inside (reaches : first.Reaches last) : last.tokens <:+: first.tokens := by
  rcases reaches with ⟨taken, crosses⟩
  rw [crosses.tokens]
  exact (List.suffix_append _ _).isInfix

end Reaches

/-- What has a derivation stands where its tokens are. -/
theorem stands_of_took {δ α : Type} {form : Form δ α} {first last : Cursor} (derivation : δ)
    {span : Span} {value : α} (took : first.Took (form.tokens derivation) last)
    (nonempty : form.tokens derivation ≠ []) (fits : form.nesting derivation ≤ maxNesting)
    (denotes : form.Denotes derivation value) (reaches : first.Reaches last)
    (same : span = first.token.span.upTo last.previousStop) :
    form.Stands first.tokens span value := by
  rcases reaches with ⟨taken, crosses⟩
  have kinds : taken.map Token.kind = form.tokens derivation := by
    have whole := took.kinds
    rw [kinds_eq_tokens, kinds_eq_tokens, crosses.tokens, List.map_append] at whole
    exact List.append_cancel_right whole
  refine ⟨taken, derivation, ?_, ?_, kinds, fits, denotes⟩
  · rw [crosses.tokens]
    exact (List.prefix_append _ _).isInfix
  · rw [same]
    apply crosses.covers
    rintro rfl
    exact nonempty kinds.symm

/-- Run from here, the production gets to a point behind `origin` where this holds of its
outcome. -/
def Runs {α : Type} (origin cursor : Cursor) (production : Production α) (Q : α → Cursor → Prop) :
    Prop :=
  ∀ ⦃value : α⦄ ⦃last : Cursor⦄, production.run cursor = (.ok value, last) →
    origin.Reaches last ∧ Q value last

namespace Runs

open TokenStep Production

variable {α β : Type} {origin cursor : Cursor} {Q : α → Cursor → Prop}

theorem pure {value : α} (reaches : origin.Reaches cursor) (holds : Q value cursor) :
    origin.Runs cursor (Pure.pure value) Q := by
  rintro outcome last ⟨⟩
  exact ⟨reaches, holds⟩

theorem bind {first : Production β} {second : β → Production α} {P : β → Cursor → Prop}
    (early : origin.Runs cursor first P)
    (late : ∀ value middle, origin.Reaches middle → P value middle →
      origin.Runs middle (second value) Q) : origin.Runs cursor (first >>= second) Q := by
  intro outcome last ran
  rcases Reader.run_bind_eq_ok.mp ran with ⟨value, middle, firstRan, ran⟩
  rcases early firstRan with ⟨reaches, holds⟩
  exact late value middle reaches holds ran

theorem map {f : β → α} {step : TokenStep β}
    (runs : origin.Runs cursor step.toReader fun value last => Q (f value) last) :
    origin.Runs cursor (step.map f).toReader Q := by
  intro outcome last ran
  rcases Step.run_map_eq_ok.mp ran with ⟨value, stepRan, rfl⟩
  exact runs stepRan

/-- The token that is taken is the next one. -/
theorem accept {expected : String} {accepted : Token.Kind → Option α}
    (reaches : origin.Reaches cursor) :
    origin.Runs cursor (TokenStep.accept expected accepted).toReader fun found last =>
      found.2 = cursor.token.span ∧ last.previousStop = cursor.token.span.stop := by
  intro found last ran
  simp only [TokenStep.accept] at ran
  split at ran
  · cases ran
  · rename_i lexeme rest ahead
    split at ran
    · cases ran
    · cases ran
      refine ⟨reaches.trans (.advance ahead), ?_, rfl⟩
      rw [token_of_tokens (tokens_advance ahead)]

theorem expect {kind : Token.Kind} (reaches : origin.Reaches cursor) :
    origin.Runs cursor (TokenStep.expect kind).toReader fun span _ => span = cursor.token.span := by
  apply map
  intro found last ran
  rcases accept reaches ran with ⟨reaches', span, -⟩
  exact ⟨reaches', span⟩

theorem symbol {mark : Symbol} {second : Span → Production α} (reaches : origin.Reaches cursor)
    (late : ∀ middle, origin.Reaches middle →
      origin.Runs middle (second cursor.token.span) Q) :
    origin.Runs cursor ((TokenStep.symbol mark).toReader >>= second) Q := by
  apply (expect reaches).bind
  rintro span middle reaches' rfl
  exact late middle reaches'

theorem keyword {word : Keyword} {second : Span → Production α} (reaches : origin.Reaches cursor)
    (late : ∀ middle, origin.Reaches middle →
      origin.Runs middle (second cursor.token.span) Q) :
    origin.Runs cursor ((TokenStep.keyword word).toReader >>= second) Q := by
  apply (expect reaches).bind
  rintro span middle reaches' rfl
  exact late middle reaches'

theorem identifier {second : Identifier → Production α} (reaches : origin.Reaches cursor)
    (late : ∀ name middle, origin.Reaches middle →
      middle.previousStop = cursor.token.span.stop →
      origin.Runs middle (second ⟨name, cursor.token.span⟩) Q) :
    origin.Runs cursor (TokenStep.identifier.toReader >>= second) Q := by
  have early : origin.Runs cursor TokenStep.identifier.toReader fun used last =>
      used.span = cursor.token.span ∧ last.previousStop = cursor.token.span.stop :=
    map (accept reaches)
  apply early.bind
  rintro ⟨name, span⟩ middle reaches' ⟨rfl, stop⟩
  exact late name middle reaches' stop

theorem stringLiteral {second : String → Production α} (reaches : origin.Reaches cursor)
    (late : ∀ body middle, origin.Reaches middle → origin.Runs middle (second body) Q) :
    origin.Runs cursor (TokenStep.stringLiteral.toReader >>= second) Q := by
  have early : origin.Runs cursor TokenStep.stringLiteral.toReader fun _ _ => True := by
    apply map
    intro found last ran
    exact ⟨(accept reaches ran).1, trivial⟩
  apply early.bind
  intro body middle reaches' done
  exact late body middle reaches'

theorem dataType {second : DataType × Span → Production α} (reaches : origin.Reaches cursor)
    (late : ∀ type middle, origin.Reaches middle →
      origin.Runs middle (second (type, cursor.token.span)) Q) :
    origin.Runs cursor (TokenStep.dataType.toReader >>= second) Q := by
  apply (accept reaches).bind
  rintro ⟨type, span⟩ middle reaches' ⟨rfl, -⟩
  exact late type middle reaches'

/-- Whatever is declared or reported, the parser stays where it is. -/
theorem modifySession {f : Session → Session} {second : Unit → Production α}
    (reaches : origin.Reaches cursor)
    (late : ∀ middle, origin.Reaches middle → middle.previousStop = cursor.previousStop →
      origin.Runs middle (second ()) Q) :
    origin.Runs cursor (Production.modifySession f >>= second) Q := by
  intro outcome last ran
  exact late { cursor with session := f cursor.session } (reaches.of_eq rfl rfl) rfl ran

theorem inspect {view : Cursor → β} {second : β → Production α}
    (late : origin.Runs cursor (second (view cursor)) Q) :
    origin.Runs cursor (Reader.inspect view >>= second) Q := late

theorem choose {reader : Cursor → Production α} (runs : origin.Runs cursor (reader cursor) Q) :
    origin.Runs cursor (Reader.choose reader) Q := runs

/-- The end of a production that gives its outcome a span. -/
theorem withSpan {opening : Span} {f : Span → α} (reaches : origin.Reaches cursor)
    (holds : Q (f (opening.upTo cursor.previousStop)) cursor) :
    origin.Runs cursor (spanFrom opening >>= fun span => Pure.pure (f span)) Q :=
  inspect (pure reaches holds)

end Runs

end Cursor

/-- The outcome of the production stands from the next token on up to the one taken last, and this
holds of it among the tokens. -/
def Production.Places {α : Type} (place : α → Span) (Inside : List Token → α → Prop)
    (production : Production α) : Prop :=
  ∀ cursor : Cursor, cursor.Runs cursor production fun value last =>
    place value = cursor.token.span.upTo last.previousStop ∧ Inside cursor.tokens value

/-- The level does not matter for where something stands. -/
theorem Production.Places.nested {α : Type} {place : α → Span} {Inside : List Token → α → Prop}
    {step : TokenStep α} (places : Places place Inside step.toReader) :
    Places place Inside (TokenStep.nested step).toReader := by
  intro cursor value last ran
  rcases TokenStep.nested_eq_ok ran with ⟨-, inner, entered, rfl⟩
  rcases places _ entered with ⟨⟨taken, tokens, stop⟩, holds⟩
  exact ⟨⟨taken, tokens, stop⟩, holds⟩

end SubsetC
