import SubsetC.Proofs.Forwarding
import SubsetC.Proofs.Regions

/-!
# A parser that is asked more than once

A tree goes from the token that comes next to the one that is taken last. If no token is taken for
it, the last one is that of an earlier call: it ends before the tree starts, and the two ends of the
span are no stretch of the source unless they fall together. `span_tree_iff` says which trees have a
text, whatever has been read before.
-/

namespace SubsetC

namespace Cursor

/-- What a parser can be asked to read. -/
inductive Call where
  | expression
  | tree
  deriving DecidableEq, Repr

/-- The parser after a call, whether or not it has succeeded. -/
def call (cursor : Cursor) : Call → Cursor
  | .expression => cursor.expression.2
  | .tree => cursor.tree.2

theorem exists_forwards_call (cursor : Cursor) (call : Call) :
    ∃ taken met, cursor.Forwards taken met (cursor.call call) := by
  cases call with
  | expression => exact cursor.exists_forwards_expression
  | tree => exact cursor.exists_forwards_tree

/-- Calls go on where those before them have stopped. -/
theorem exists_forwards_calls (cursor : Cursor) (calls : List Call) :
    ∃ taken met, cursor.Forwards taken met (calls.foldl call cursor) := by
  induction calls generalizing cursor with
  | nil => exact ⟨_, _, .stay cursor rfl⟩
  | cons first others ih =>
      rcases cursor.exists_forwards_call first with ⟨early, met, before⟩
      rcases ih (cursor.call first) with ⟨late, met', behind⟩
      exact ⟨_, _, before.trans behind⟩

end Cursor

/-- What has a text does not end before it starts. -/
theorem Span.start_le_stop_of_text? {source slice : String} {span : Span}
    (text : span.text? source = some slice) : span.start ≤ span.stop := by
  apply Nat.le_of_not_lt
  intro reversed
  simp [text?, reversed] at text

/-- A token does not end before it starts, nor behind the end of the source. -/
theorem bounds_of_mem_lex {source : String} {token : Token} (mem : token ∈ (lex source).1) :
    token.span.start ≤ token.span.stop ∧
      token.span.stop ≤ Position.byteLength source.toList := by
  rcases exists_between_of_mem_lex mem with ⟨before, text, rest, whole, span⟩
  have start := Position.offset_after_start before
  have stop := Position.offset_after_start (before ++ text)
  rw [Position.byteLength_append] at stop
  rw [span, whole, Position.byteLength_append, Position.byteLength_append]
  simp only [Span.between]
  omega

/-- The tokens of a source stand one behind the other, the end of the source included. -/
theorem inPlace_lex (source : String) : Token.InPlace (lex source).1 where
  forward token mem := (bounds_of_mem_lex mem).1
  inTurn := by
    have inTurn := Segment.inTurn_segments source.toList
    have lexed := inTurn.lex_eq (Segment.flatMap_text_segments source.toList).symm
    have inside : ∀ token ∈ (lex source).1, token.span.stop ≤ _ :=
      fun token mem => (bounds_of_mem_lex mem).2
    rw [lexed] at inside ⊢
    rw [List.pairwise_append]
    refine ⟨Segment.pairwise_gather_token? _ _, List.pairwise_singleton _ _, ?_⟩
    intro token mem final isEnd
    rw [List.mem_singleton.mp isEnd]
    have before := inside token (List.mem_append_left _ mem)
    rwa [← Position.offset_after_start] at before

section Reached

variable {source : String} {session : Session} {taken more : List Token} {met : List LexicalError}
  {cursor last : Cursor} (forwards : (Cursor.start source session).Forwards taken met cursor)

include forwards

/-- The next token, or the end, is one of the source. -/
theorem token_mem_lex : cursor.token ∈ (lex source).1 := by
  rcases cursor.exists_tokens with ⟨after, tokens⟩
  have whole : (lex source).1 = taken ++ cursor.stream.tokens := forwards.stream_tokens
  rw [whole, tokens]
  simp

/-- What has been taken ends before the next token starts. -/
theorem previousStop_le_start (started : taken ≠ []) :
    cursor.previousStop ≤ cursor.token.span.start := by
  rcases cursor.exists_tokens with ⟨after, tokens⟩
  have whole : (lex source).1 = taken ++ cursor.stream.tokens := forwards.stream_tokens
  have inTurn := (inPlace_lex source).inTurn
  rw [whole, tokens, List.pairwise_append] at inTurn
  have closing := List.getLast?_eq_some_getLast started
  rw [forwards.crosses.stop, closing]
  exact inTurn.2.2 _ (List.getLast_mem started) _ List.mem_cons_self

/-- Before anything is taken, the token taken last counts as the next one. -/
theorem previousStop_of_fresh (fresh : taken = []) :
    cursor.previousStop = cursor.token.span.stop := by
  subst fresh
  rcases cursor.exists_tokens with ⟨after, tokens⟩
  rcases (Cursor.start source session).exists_tokens with ⟨after', tokens'⟩
  have whole := forwards.stream_tokens
  rw [tokens, tokens'] at whole
  rw [forwards.crosses.stop, ← (List.cons.inj whole).1]
  rfl

/-- Tokens that are taken in a row have a text. -/
theorem exists_text_of_taken (crosses : cursor.Crosses more last) (moved : more ≠ []) :
    ∃ slice, (cursor.token.span.upTo last.previousStop).text? source = some slice := by
  have inside : more <:+: (Cursor.start source session).tokens := by
    rw [forwards.crosses.tokens, crosses.tokens]
    exact ⟨taken, last.tokens, List.append_assoc _ _ _⟩
  rcases exists_slice inside (crosses.covers moved) with ⟨slice, text, -⟩
  exact ⟨slice, text⟩

/-- From the start of the next token there is a text up to its end, and one up to its start. -/
theorem exists_text_of_ends {stop : Nat} (ends : stop = cursor.token.span.stop ∨
    stop = cursor.token.span.start) :
    ∃ slice, (cursor.token.span.upTo stop).text? source = some slice := by
  rcases exists_between_of_mem_lex (token_mem_lex forwards) with
    ⟨before, text, rest, whole, span⟩
  rcases ends with rfl | rfl
  · refine ⟨_, Eq.trans ?_ (Span.text?_between whole)⟩
    rw [span]
    rfl
  · have cut : source.toList = before ++ ([] ++ (text ++ rest)) := whole
    refine ⟨_, Eq.trans ?_ (Span.text?_between cut)⟩
    rw [span, List.append_nil]
    rfl

/-- The tree that is read next has a text if a token is taken for it, if none has been taken before,
or if nothing stands between the last one and the next. -/
theorem exists_text_of_usable (crosses : cursor.Crosses more last)
    (usable : more ≠ [] ∨ taken = [] ∨ cursor.previousStop = cursor.token.span.start) :
    ∃ slice, (cursor.token.span.upTo last.previousStop).text? source = some slice := by
  by_cases moved : more = []
  · subst moved
    have stop : last.previousStop = cursor.previousStop := crosses.stop
    rw [stop]
    apply exists_text_of_ends forwards
    rcases usable with moved | fresh | joined
    · exact absurd rfl moved
    · exact .inl (previousStop_of_fresh forwards fresh)
    · exact .inr joined
  · exact exists_text_of_taken forwards crosses moved

/-- In all other cases it ends before it starts. -/
theorem usable_of_le (crosses : cursor.Crosses more last)
    (forward : cursor.token.span.start ≤ last.previousStop) :
    more ≠ [] ∨ taken = [] ∨ cursor.previousStop = cursor.token.span.start := by
  by_contra unusable
  simp only [not_or, not_not] at unusable
  rcases unusable with ⟨rfl, started, apart⟩
  have stop : last.previousStop = cursor.previousStop := crosses.stop
  rw [stop] at forward
  exact apart (Nat.le_antisymm (previousStop_le_start forwards started) forward)

end Reached

/-- After any calls, the tree that is read next has a text just if it does not end before it starts.
That is so if a token is taken for it, if none has been taken before, or if nothing stands between
the token taken last and the next one. -/
theorem span_tree_iff (source : String) (session : Session) (calls : List Cursor.Call) :
    let cursor := calls.foldl Cursor.call (Cursor.start source session)
    let span := cursor.tree.1.1.span
    ((span.text? source).isSome ↔ span.start ≤ span.stop) ∧
    (span.start ≤ span.stop ↔
      cursor.tree.2.tokens ≠ cursor.tokens ∨
      cursor.tokens = (Cursor.start source session).tokens ∨
      cursor.previousStop = cursor.token.span.start) := by
  intro cursor span
  rcases (Cursor.start source session).exists_forwards_calls calls with ⟨taken, met, forwards⟩
  rcases cursor.exists_forwards_tree with ⟨more, met', onward⟩
  have crosses := onward.crosses
  have text := exists_text_of_usable forwards crosses
  have usable := usable_of_le forwards crosses
  rw [ne_eq, crosses.tokens_eq_iff, forwards.crosses.tokens_eq_iff, Option.isSome_iff_exists]
  refine ⟨⟨?_, fun forward => text (usable forward)⟩, usable, ?_⟩
  · rintro ⟨slice, found⟩
    exact Span.start_le_stop_of_text? found
  · intro here
    rcases text here with ⟨slice, found⟩
    exact Span.start_le_stop_of_text? found

/-- Behind an expression and a blank, the tree of nothing ends where the expression does. -/
example :
    ([Cursor.Call.expression].foldl Cursor.call (.start "1 " .empty)).tree.1.1.span =
      ⟨2, 1, 1⟩ := by
  decide +kernel

end SubsetC
