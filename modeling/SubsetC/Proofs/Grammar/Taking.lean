import SubsetC.Proofs.Grammar.Derivations
import SubsetC.Proofs.Reader
import SubsetC.Proofs.Token.Scanning
import SubsetC.Tree.Parser

/-!
# Taking tokens

`Cursor.Took` says which tokens a parser has taken between two points, at the same depth and without
naming temporaries or labels. For each step that takes a single token there are two lemmas: what it
took if it has succeeded, and that it succeeds if the token is there.
-/

namespace SubsetC

namespace Cursor

/-- What the tokens are that have not been taken. -/
def kinds (cursor : Cursor) : List Token.Kind :=
  cursor.stream.kinds

/-- The next token is the first of those that are left, or the end. -/
theorem kind_eq (cursor : Cursor) : cursor.kind = cursor.kinds.head?.getD .endOfInput := by
  rcases cursor with ⟨⟨ahead, trailing, stop⟩, previousStop, depth, session⟩
  cases ahead <;> rfl

/-- Between the two points the tokens have been taken and nothing has been named. -/
structure Took (first : Cursor) (tokens : List Token.Kind) (last : Cursor) : Prop where
  kinds : first.kinds = tokens ++ last.kinds
  depth : last.depth = first.depth
  temporaries : last.session.temporaries = first.session.temporaries
  labels : last.session.labels = first.session.labels

namespace Took

/-- Nothing is taken on no way at all. -/
theorem refl (cursor : Cursor) : Took cursor [] cursor :=
  ⟨rfl, rfl, rfl, rfl⟩

/-- Two ways, one behind the other. -/
theorem trans {first middle last : Cursor} {early late : List Token.Kind}
    (before : Took first early middle) (after : Took middle late last) :
    Took first (early ++ late) last where
  kinds := by rw [before.kinds, after.kinds, List.append_assoc]
  depth := by rw [after.depth, before.depth]
  temporaries := by rw [after.temporaries, before.temporaries]
  labels := by rw [after.labels, before.labels]

/-- What has been taken since a point on the way. -/
theorem behind {first middle last : Cursor} (early : List Token.Kind) {late : List Token.Kind}
    (whole : Took first (early ++ late) last) (before : Took first early middle) :
    Took middle late last where
  kinds := by
    have same := whole.kinds
    rw [before.kinds, List.append_assoc] at same
    exact List.append_cancel_left same
  depth := by rw [whole.depth, before.depth]
  temporaries := by rw [whole.temporaries, before.temporaries]
  labels := by rw [whole.labels, before.labels]

end Took

/-- Reporting names neither temporaries nor labels. -/
theorem session_reportLexical (session : Session) (errors : List LexicalError) :
    (reportLexical session errors).temporaries = session.temporaries ∧
      (reportLexical session errors).labels = session.labels := by
  induction errors generalizing session with
  | nil => exact ⟨rfl, rfl⟩
  | cons error errors ih => exact ih _

/-- A step forward takes the first token that is left. -/
theorem took_advance {cursor : Cursor} {lexeme : Lexeme} {rest : List Lexeme}
    (ahead : cursor.stream.ahead = lexeme :: rest) :
    cursor.Took [lexeme.token.kind] cursor.advance where
  kinds := by simp [kinds, TokenStream.kinds, advance, TokenStream.advance, ahead]
  depth := rfl
  temporaries := (session_reportLexical _ _).1
  labels := (session_reportLexical _ _).2

end Cursor

namespace TokenStep

variable {α : Type} {cursor last : Cursor}

/-- What has been accepted is the token that has been taken. -/
theorem accept_eq_ok {expected : String} {accepted : Token.Kind → Option α} {value : α}
    {span : Span} (ran : (accept expected accepted).run cursor = (.ok (value, span), last)) :
    ∃ kind, accepted kind = some value ∧ cursor.Took [kind] last := by
  simp only [accept] at ran
  split at ran
  · cases ran
  · rename_i lexeme rest ahead
    split at ran
    · cases ran
    · rename_i found taken
      simp only [Prod.mk.injEq, Except.ok.injEq] at ran
      rcases ran with ⟨⟨rfl, rfl⟩, rfl⟩
      exact ⟨lexeme.token.kind, taken, Cursor.took_advance ahead⟩

/-- A given token has been taken if it was there. -/
theorem expect_eq_ok {kind : Token.Kind} {span : Span}
    (ran : (expect kind).run cursor = (.ok span, last)) : cursor.Took [kind] last := by
  rcases Step.run_map_eq_ok.mp ran with ⟨⟨found, span'⟩, accepted, -⟩
  rcases accept_eq_ok accepted with ⟨kind, same, took⟩
  split at same
  · rename_i equal
    rwa [equal] at took
  · cases same

theorem symbol_eq_ok {mark : Symbol} {span : Span}
    (ran : (symbol mark).run cursor = (.ok span, last)) : cursor.Took [.symbol mark] last :=
  expect_eq_ok ran

theorem keyword_eq_ok {word : Keyword} {span : Span}
    (ran : (keyword word).run cursor = (.ok span, last)) : cursor.Took [.keyword word] last :=
  expect_eq_ok ran

/-- The identifier that has been taken is the outcome. -/
theorem identifier_eq_ok {identifier : Identifier}
    (ran : TokenStep.identifier.run cursor = (.ok identifier, last)) :
    cursor.Took [.identifier identifier.name] last := by
  rcases Step.run_map_eq_ok.mp ran with ⟨⟨name, span⟩, accepted, rfl⟩
  rcases accept_eq_ok accepted with ⟨kind, same, took⟩
  split at same
  · cases same
    exact took
  · cases same

/-- The text between the quotes is the outcome. -/
theorem stringLiteral_eq_ok {body : String} (ran : stringLiteral.run cursor = (.ok body, last)) :
    cursor.Took [.string body] last := by
  rcases Step.run_map_eq_ok.mp ran with ⟨⟨text, span⟩, accepted, rfl⟩
  rcases accept_eq_ok accepted with ⟨kind, same, took⟩
  split at same
  · cases same
    exact took
  · cases same

/-- The reserved word is the one of the type. -/
theorem dataType_eq_ok {type : DataType} {span : Span}
    (ran : dataType.run cursor = (.ok (type, span), last)) :
    cursor.Took [.keyword type.keyword] last := by
  rcases accept_eq_ok ran with ⟨found, same, took⟩
  split at same
  · cases same
    exact took
  · cases same
    exact took
  · cases same

end TokenStep

namespace Production

variable {cursor last : Cursor}

theorem kind_eq_ok {found : Token.Kind} (ran : kind.run cursor = (.ok found, last)) :
    cursor.kind = found ∧ cursor = last :=
  Reader.run_inspect_eq_ok.mp ran

/-- The end of a production that gives its outcome a span. -/
theorem withSpan_eq_ok {α : Type} {opening : Span} {f : Span → α} {outcome : α}
    (ran : (spanFrom opening >>= fun span => pure (f span) : Production α).run cursor =
      (.ok outcome, last)) : ∃ span, f span = outcome ∧ cursor = last := by
  rcases Reader.run_bind_eq_ok.mp ran with ⟨span, middle, spanRan, ran⟩
  rcases Reader.run_inspect_eq_ok.mp spanRan with ⟨-, rfl⟩
  exact ⟨span, Reader.run_pure_eq_ok.mp ran⟩

/-- A check takes no token. -/
theorem checkDeclared_eq_ok {identifier : Identifier} {outcome : Unit}
    (ran : (checkDeclared identifier).run cursor = (.ok outcome, last)) : cursor.Took [] last := by
  simp only [checkDeclared, modifySession, Prod.mk.injEq] at ran
  rcases ran with ⟨-, rfl⟩
  refine ⟨rfl, rfl, ?_, ?_⟩
  · simp only
    split <;> rfl
  · simp only
    split <;> rfl

/-- A declaration is entered without a token being taken. -/
theorem declare_eq_ok {type : DataType} {identifier : Identifier} {outcome : Unit}
    (ran : (declare type identifier).run cursor = (.ok outcome, last)) : cursor.Took [] last := by
  simp only [declare, modifySession, Prod.mk.injEq] at ran
  rcases ran with ⟨-, rfl⟩
  exact ⟨rfl, rfl, rfl, rfl⟩

end Production

/-- The production succeeds and leaves the given tokens, at the same depth. -/
def Cursor.Passes {α : Type} (cursor : Cursor) (production : Production α)
    (rest : List Token.Kind) : Prop :=
  ∃ value last, production.run cursor = (.ok value, last) ∧ last.kinds = rest ∧
    last.depth = cursor.depth

namespace Cursor.Passes

variable {α β : Type} {cursor : Cursor} {rest : List Token.Kind}

theorem pure (value : α) (next : cursor.kinds = rest) : cursor.Passes (Pure.pure value) rest :=
  ⟨value, cursor, rfl, next, rfl⟩

/-- The tokens that the first production leaves are those that the second one meets. -/
theorem bind {first : Production α} {second : α → Production β} (middle : List Token.Kind)
    (early : cursor.Passes first middle)
    (late : ∀ value (last : Cursor), last.kinds = middle → last.depth = cursor.depth →
      last.Passes (second value) rest) : cursor.Passes (first >>= second) rest := by
  rcases early with ⟨value, between, ran, kinds, depth⟩
  rcases late value between kinds depth with ⟨outcome, last, ran', kinds', depth'⟩
  exact ⟨outcome, last, Reader.run_bind_eq_ok.mpr ⟨value, between, ran, ran'⟩, kinds',
    depth'.trans depth⟩

/-- The same behind a step. -/
theorem andThen {first : TokenStep α} {second : α → Production β} {middle : List Token.Kind}
    (early : cursor.Passes first.toReader middle)
    (late : ∀ value (last : Cursor), last.kinds = middle → last.depth = cursor.depth →
      last.Passes (second value) rest) : cursor.Passes (first.andThen second).toReader rest :=
  bind middle early late

/-- Changing the outcome takes no token. -/
theorem map {f : α → β} {step : TokenStep α} (passes : cursor.Passes step.toReader rest) :
    cursor.Passes (step.map f).toReader rest := by
  rcases passes with ⟨value, last, ran, kinds, depth⟩
  exact ⟨f value, last, Step.run_map_eq_ok.mpr ⟨value, ran, rfl⟩, kinds, depth⟩

/-- An accepted token is taken if it is next. -/
theorem accept {expected : String} {accepted : Token.Kind → Option α} {value : α}
    {kind : Token.Kind} (next : cursor.kinds = kind :: rest) (taken : accepted kind = some value) :
    cursor.Passes (TokenStep.accept expected accepted).toReader rest := by
  cases ahead : cursor.stream.ahead with
  | nil => simp [Cursor.kinds, TokenStream.kinds, ahead] at next
  | cons lexeme others =>
      have took := took_advance ahead
      rw [took.kinds, List.singleton_append, List.cons.injEq] at next
      rw [← next.1] at taken
      refine ⟨(value, lexeme.token.span), cursor.advance, ?_, next.2, took.depth⟩
      simp only [TokenStep.accept, ahead, taken]

/-- A given token is taken if it is next. -/
theorem expect {kind : Token.Kind} (next : cursor.kinds = kind :: rest) :
    cursor.Passes (TokenStep.expect kind).toReader rest :=
  .map (.accept next (if_pos rfl))

theorem symbol {mark : Symbol} (next : cursor.kinds = .symbol mark :: rest) :
    cursor.Passes (TokenStep.symbol mark).toReader rest :=
  expect next

theorem keyword {word : Keyword} (next : cursor.kinds = .keyword word :: rest) :
    cursor.Passes (TokenStep.keyword word).toReader rest :=
  expect next

theorem identifier {name : String} (next : cursor.kinds = .identifier name :: rest) :
    cursor.Passes TokenStep.identifier.toReader rest :=
  .map (.accept next rfl)

theorem stringLiteral {body : String} (next : cursor.kinds = .string body :: rest) :
    cursor.Passes TokenStep.stringLiteral.toReader rest :=
  .map (.accept next rfl)

theorem dataType {type : DataType} (next : cursor.kinds = .keyword type.keyword :: rest) :
    cursor.Passes TokenStep.dataType.toReader rest := by
  cases type with
  | int => exact .accept next rfl
  | char => exact .accept next rfl

theorem checkDeclared (identifier : Identifier) (next : cursor.kinds = rest) :
    cursor.Passes (Production.checkDeclared identifier) rest :=
  ⟨(), _, rfl, next, rfl⟩

theorem declare (type : DataType) (identifier : Identifier) (next : cursor.kinds = rest) :
    cursor.Passes (Production.declare type identifier) rest :=
  ⟨(), _, rfl, next, rfl⟩

/-- Looking at the next token takes none. -/
theorem lookAhead {second : Token.Kind → Production α}
    (passes : cursor.Passes (second cursor.kind) rest) :
    cursor.Passes (Production.kind >>= second) rest := passes

/-- Nor does giving the outcome a span. -/
theorem withSpan (opening : Span) (f : Span → α) (next : cursor.kinds = rest) :
    cursor.Passes (Production.spanFrom opening >>= fun span => Pure.pure (f span)) rest :=
  ⟨_, cursor, rfl, next, rfl⟩

end Cursor.Passes

end SubsetC
