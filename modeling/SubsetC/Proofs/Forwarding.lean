import SubsetC.Proofs.Grammar.Failures
import SubsetC.Proofs.Grammar.Spans
import SubsetC.Proofs.Grammar.Trails

/-!
# Lexical errors on the way

The parser sees one token ahead, and it has reported the errors before that token and no others.
Each token that is taken brings the errors before the one behind it: `Cursor.Forwards` adds up along
a trail, so that every lexical error that the parser passes is reported once, in the order of the
source, and `parse_forwards` says how many of them there are in the end.
-/

namespace SubsetC

/-- The problems that the parser has met between the tokens. -/
def Session.lexical (session : Session) : List Diagnostic :=
  (session.diagnostics.inPhase .lexical).toList

/-- The report of a lexical error. -/
def LexicalError.diagnostic (error : LexicalError) : Diagnostic :=
  .error .lexical error.message error.line

theorem Session.lexical_report_other (session : Session) {phase : Phase} (other : phase ≠ .lexical)
    (message : String) (line : UInt32) :
    (session.report (.error phase message line)).lexical = session.lexical := by
  simp [lexical, inPhase_report, Diagnostic.error, other]

/-- The errors of a stream are those before its next token and those behind it. -/
theorem TokenStream.errors_eq (stream : TokenStream) :
    stream.errors = stream.current.errors ++ stream.advance.errors := by
  rcases stream with ⟨ahead, trailing, stop⟩
  cases ahead with
  | nil => exact (List.append_nil trailing).symm
  | cons lexeme others => simp [errors, current, advance]

/-- Where no token is left there are no errors either that have not been met. -/
theorem TokenStream.tokens_at_end {stream : TokenStream} (nothing : stream.ahead = []) :
    stream.tokens = [stream.endToken] ∧ stream.advance.errors = [] := by
  simp [tokens, errors, advance, nothing]

namespace Cursor

theorem lexical_reportLexical (session : Session) (errors : List LexicalError) :
    (reportLexical session errors).lexical =
      session.lexical ++ errors.map LexicalError.diagnostic := by
  induction errors generalizing session with
  | nil => exact (List.append_nil _).symm
  | cons error errors ih =>
      apply (ih _).trans
      rw [Session.lexical, Session.inPhase_report, List.map_cons, List.append_cons]
      rfl

/-- The errors that the parser has not met: those behind its next token. -/
def unmet (cursor : Cursor) : List LexicalError :=
  cursor.stream.advance.errors

/-- Between the two points these tokens are taken, and these errors are met and reported. -/
structure Forwards (first : Cursor) (taken : List Token) (met : List LexicalError)
    (last : Cursor) : Prop where
  crosses : first.Crosses taken last
  stop : last.stream.stop = first.stream.stop
  unmet : first.unmet = met ++ last.unmet
  lexical : last.session.lexical =
    first.session.lexical ++ met.map LexicalError.diagnostic

namespace Forwards

variable {first middle last : Cursor}

theorem trans {early late : List Token} {met met' : List LexicalError}
    (before : first.Forwards early met middle) (behind : middle.Forwards late met' last) :
    first.Forwards (early ++ late) (met ++ met') last where
  crosses := before.crosses.trans behind.crosses
  stop := behind.stop.trans before.stop
  unmet := by rw [before.unmet, behind.unmet, List.append_assoc]
  lexical := by rw [behind.lexical, before.lexical, List.map_append, List.append_assoc]

/-- Nothing is taken and nothing is met, whatever else becomes of the session. -/
theorem stay (cursor : Cursor) {session : Session} {depth : Nat}
    (same : session.lexical = cursor.session.lexical) :
    cursor.Forwards [] [] { cursor with session, depth } where
  crosses := ⟨rfl, rfl⟩
  stop := rfl
  unmet := rfl
  lexical := by rw [same, List.map_nil, List.append_nil]

theorem take {cursor : Cursor} {lexeme : Lexeme} {rest : List Lexeme}
    (ahead : cursor.stream.ahead = lexeme :: rest) :
    cursor.Forwards [lexeme.token] cursor.advance.stream.current.errors cursor.advance where
  crosses := .advance ahead
  stop := by simp [Cursor.advance, TokenStream.advance, ahead]
  unmet := TokenStream.errors_eq _
  lexical := lexical_reportLexical _ _

/-- The end of the source is left behind all tokens. -/
theorem stream_tokens {taken : List Token} {met : List LexicalError}
    (forwards : first.Forwards taken met last) :
    first.stream.tokens = taken ++ last.stream.tokens :=
  calc first.stream.tokens = first.tokens ++ [first.stream.endToken] := rfl
    _ = taken ++ (last.tokens ++ [first.stream.endToken]) := by
      rw [forwards.crosses.tokens, List.append_assoc]
    _ = taken ++ last.stream.tokens := by
      rw [TokenStream.endToken, ← forwards.stop]
      rfl

end Forwards

/-- Along a trail the errors before each next token are reported as soon as it comes up. -/
theorem Trail.forwards {first last : Cursor} {points : List Cursor}
    (trail : first.Trail points last) : ∃ taken met, first.Forwards taken met last := by
  induction trail with
  | stay cursor => exact ⟨_, _, .stay cursor rfl⟩
  | take ahead => exact ⟨_, _, .take ahead⟩
  | report cursor message line =>
      refine ⟨_, _, .stay cursor ?_⟩
      exact cursor.session.lexical_report_other (by decide) message line
  | declare cursor name type => exact ⟨_, _, .stay cursor rfl⟩
  | @nested cursor last points room inside ih =>
      rcases ih with ⟨taken, met, forwards⟩
      have inward : cursor.Forwards [] [] cursor.inward := .stay cursor rfl
      have outward : last.Forwards [] [] last.outward := .stay last rfl
      exact ⟨_, _, inward.trans (forwards.trans outward)⟩
  | trans before behind ih ih' =>
      rcases ih with ⟨early, met, forwards⟩
      rcases ih' with ⟨late, met', forwards'⟩
      exact ⟨_, _, forwards.trans forwards'⟩

/-- Reading an expression forwards the errors on its way. -/
theorem exists_forwards_expression (cursor : Cursor) :
    ∃ taken met, cursor.Forwards taken met cursor.expression.2 := by
  rcases cursor.exists_trail_expression with ⟨points, trail⟩
  exact trail.forwards

/-- Reading a tree forwards the errors on its way; a syntax error is none of them. -/
theorem exists_forwards_tree (cursor : Cursor) :
    ∃ taken met, cursor.Forwards taken met cursor.tree.2 := by
  rcases cursor.exists_trail_tree with ⟨points, last, trail, same⟩
  rcases trail.forwards with ⟨taken, met, forwards⟩
  rw [same]
  refine ⟨_, _, forwards.trans (.stay last ?_)⟩
  split
  · rfl
  · exact last.session.lexical_report_other (by decide) _ _

end Cursor

/-- The lexical errors that the parser reports are those before the token at which reading stops,
once each and in the order of the source, and the tokens that it takes are those before it. Without
a syntax error these are all errors, and all tokens but the end of the source. -/
theorem parse_forwards (source : String) (session : Session) :
    let left := (Cursor.start source session).tree.2.stream
    ∃ taken met, (lex source).1 = taken ++ left.tokens ∧
      (lex source).2 = met ++ left.advance.errors ∧
      (parse source session).2.lexical = session.lexical ++ met.map LexicalError.diagnostic ∧
      ((parse source session).1.2 = none →
        left.tokens = [left.endToken] ∧ left.advance.errors = []) := by
  rcases (Cursor.start source session).exists_forwards_tree with ⟨taken, met, forwards⟩
  refine ⟨taken, (TokenStream.ofSource source).current.errors ++ met, ?_, ?_, ?_, ?_⟩
  · exact forwards.stream_tokens
  · change (TokenStream.ofSource source).errors = _
    rw [TokenStream.errors_eq, List.append_assoc]
    exact congrArg (_ ++ ·) forwards.unmet
  · change (Cursor.start source session).tree.2.session.lexical = _
    rw [forwards.lexical, List.map_append, ← List.append_assoc]
    exact congrArg (· ++ _) (Cursor.lexical_reportLexical _ _)
  · intro accepted
    rcases exists_point source session with ⟨program, point, took, fits, denotes, stops⟩
    rw [accepted] at stops
    rcases stops with ⟨ended, rfl⟩
    have nothing : (readAll source session).2.stream.ahead = [] :=
      List.map_eq_nil_iff.mp (Cursor.kinds_eq_nil took (bne_eq_false_iff_eq.mpr ended))
    exact TokenStream.tokens_at_end nothing

/-- Two errors in a source that is read to its end, the second one behind its last token. -/
theorem parse_forwards_trailing :
    let source := "a = @ 1;\n$"
    (parse source .empty).1.2 = none ∧
    (lex source).2 = [.illegalCharacter '@' 1, .illegalCharacter '$' 2] ∧
    (parse source .empty).2.lexical = (lex source).2.map LexicalError.diagnostic := by
  intro source
  have accepted : (parse source .empty).1.2 = none := by decide +kernel
  rcases parse_forwards source .empty with ⟨taken, met, -, errors, reported, whole⟩
  rw [(whole accepted).2, List.append_nil] at errors
  refine ⟨accepted, by decide +kernel, ?_⟩
  rw [reported, errors]
  rfl

end SubsetC
