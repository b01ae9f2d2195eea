import SubsetC.Proofs.Token.Rules

/-!
# What segments become

The tokens and the errors of a source are gathered from its segments in their order.
`Segment.Account` relates a token and an error to the text that they come from and to the text
around it.
-/

namespace SubsetC

namespace Position

/-- Every character takes a byte at least. -/
theorem byteLength_pos {text : List Char} (nonempty : text ≠ []) : 0 < byteLength text := by
  cases text with
  | nil => exact absurd rfl nonempty
  | cons c text =>
      have positive := c.utf8Size_pos
      simp only [byteLength]
      omega

/-- A point is reached in two steps. -/
theorem after_append (position : Position) (text more : List Char) :
    position.after (text ++ more) = (position.after text).after more := by
  simp only [after, byteLength_append, List.count_append, Nat.toUInt32_eq, UInt32.ofNat_add,
    Nat.add_assoc, UInt32.add_assoc]

@[simp]
theorem offset_after_start (text : List Char) : (start.after text).offset = byteLength text := by
  simp [start, after]

end Position

open Position (byteLength)

namespace Span

/-- A text is cut where its first part ends. -/
theorem splitAtByte?_byteLength (text more : List Char) :
    splitAtByte? (byteLength text) (text ++ more) = some (text, more) := by
  induction text with
  | nil => simp [byteLength, splitAtByte?]
  | cons c text ih =>
      have positive := c.utf8Size_pos
      rcases Nat.exists_eq_succ_of_ne_zero
        (Nat.ne_of_gt (Nat.add_pos_left positive (byteLength text))) with ⟨offset, same⟩
      have fits : c.utf8Size ≤ offset + 1 := by omega
      have left : offset + 1 - c.utf8Size = byteLength text := by omega
      rw [byteLength, same, List.cons_append, splitAtByte?, if_pos fits, left, ih]
      rfl

/-- A stretch between two places of the source has the text between them. -/
theorem text?_between {source : String} {before text rest : List Char}
    (whole : source.toList = before ++ (text ++ rest)) :
    (between (Position.start.after before) (Position.start.after (before ++ text))).text? source =
      some (String.ofList text) := by
  have length : byteLength (before ++ text) - byteLength before = byteLength text := by
    rw [Position.byteLength_append]
    omega
  have inOrder : ¬byteLength (before ++ text) < byteLength before := by
    rw [Position.byteLength_append]
    omega
  simp [text?, between, whole, splitAtByte?_byteLength, inOrder, length]

end Span

namespace Segment

/-- The line on which the text behind `before` starts. -/
def lineBehind (before : List Char) : UInt32 :=
  (Position.start.after before).line

/-- Where the segment stands if `before` stands before it. -/
def span (before : List Char) (segment : Segment) : Span :=
  .between (Position.start.after before) (Position.start.after (before ++ segment.text))

/-- The token that the segment becomes. -/
def token? (before : List Char) (segment : Segment) : Option Token :=
  segment.role.kind?.map (⟨·, segment.span before⟩)

/-- What is reported of the segment. -/
def error? (before : List Char) (segment : Segment) : Option LexicalError :=
  match segment.role with
  | .token _ | .skipped => none
  | .oversized => some (.integerOutOfRange (String.ofList segment.text) (lineBehind before))
  | .unterminated => some (.unterminatedComment (lineBehind before))
  | .illegal c => some (.illegalCharacter c (lineBehind before))

/-- What the segments become, in order; `before` stands before the first. -/
def gather {α : Type} (become : List Char → Segment → Option α) (before : List Char) :
    List Segment → List α
  | [] => []
  | segment :: rest =>
      (become before segment).toList ++ gather become (before ++ segment.text) rest

theorem tokens_ofSegments (before : List Char) (errors : List LexicalError) (cut : List Segment) :
    (TokenStream.ofSegments (Position.start.after before) errors cut).ahead.map Lexeme.token =
      gather token? before cut := by
  induction cut generalizing before errors with
  | nil => rfl
  | cons segment cut ih =>
      rcases segment with ⟨role, text⟩
      cases role <;>
        simp [TokenStream.ofSegments, gather, token?, span, Role.kind?, ← Position.after_append, ih]

theorem errors_ofSegments (before : List Char) (errors : List LexicalError) (cut : List Segment) :
    (TokenStream.ofSegments (Position.start.after before) errors cut).errors =
      errors ++ gather error? before cut := by
  induction cut generalizing before errors with
  | nil => simp [TokenStream.ofSegments, TokenStream.errors, gather]
  | cons segment cut ih =>
      simp only [TokenStream.errors] at ih ⊢
      rcases segment with ⟨role, text⟩
      cases role <;>
        simp [TokenStream.ofSegments, gather, error?, lineBehind, ← Position.after_append, ih]

theorem stop_ofSegments (before : List Char) (errors : List LexicalError) (cut : List Segment) :
    (TokenStream.ofSegments (Position.start.after before) errors cut).stop =
      Position.start.after (before ++ cut.flatMap text) := by
  induction cut generalizing before errors with
  | nil => simp [TokenStream.ofSegments]
  | cons segment cut ih =>
      rcases segment with ⟨role, text⟩
      cases role <;> simp [TokenStream.ofSegments, ← Position.after_append, ih]

/-- The token that marks the end of a text. -/
def endOf (text : List Char) : Token :=
  ⟨.endOfInput, .between (Position.start.after text) (Position.start.after text)⟩

/-- Segments that come one after the other are what the text of them is lexed into. -/
theorem InTurn.lex_eq {cut : List Segment} (inTurn : InTurn cut) {source : String}
    (whole : source.toList = cut.flatMap text) :
    lex source = (gather token? [] cut ++ [endOf source.toList], gather error? [] cut) := by
  have stream : TokenStream.ofSource source =
      TokenStream.ofSegments (Position.start.after []) [] cut := by
    rw [TokenStream.ofSource, whole, inTurn.segments_eq]
    rfl
  have tokens := tokens_ofSegments [] [] cut
  have errors := errors_ofSegments [] [] cut
  have stop := stop_ofSegments [] [] cut
  rw [← stream] at tokens errors stop
  rw [List.nil_append, ← whole] at stop
  simp [lex, TokenStream.tokens, TokenStream.endToken, tokens, errors, stop, endOf]

/-- All digits that stand here in a row. -/
structure IsRun (before text after : List Char) : Prop where
  nonempty : text ≠ []
  isDigit : ∀ c ∈ text, c.isDigit = true
  starts : ∀ c, before.getLast? = some c → c.isDigit = false
  ends : ∀ c, after.head? = some c → c.isDigit = false

/-- What a text becomes and what is reported of it, where `before` stands before it and `after`
behind it. -/
inductive Account (before text after : List Char) :
    Option Token.Kind → Option LexicalError → Prop where
  | spelled {kind : Token.Kind} (spelling : text = kind.spelling.toList)
      (inside : kind ≠ .endOfInput) (other : ∀ value, kind ≠ .integer value) :
      Account before text after (some kind) none
  | numeral {value : Int64} (run : IsRun before text after)
      (saturates : value.toInt = min (Decimal.value text : Int) Int64.maxValue.toInt) :
      Account before text after (some (.integer value))
        (if Int64.maxValue.toInt < Decimal.value text then
          some (.integerOutOfRange (String.ofList text) (lineBehind before))
        else none)
  | skipped (rule : Matches .skipped text) : Account before text after none none
  | unterminated (rule : Matches .unterminated text) (last : after = []) :
      Account before text after none (some (.unterminatedComment (lineBehind before)))
  | illegal {c : Char} (alone : text = [c])
      (nothing : ∀ role front, Matches role front → ¬front <+: c :: after) :
      Account before text after none (some (.illegalCharacter c (lineBehind before)))

/-- The text of the last segment ends the text of all. -/
theorem getLast?_flatMap_text {cut : List Segment} {c : Char}
    (last : (cut.flatMap text).getLast? = some c) :
    ∃ earlier segment later, cut = earlier ++ segment :: later ∧
      segment.text.getLast? = some c ∧ later.flatMap text = [] := by
  induction cut with
  | nil => cases last
  | cons segment cut ih =>
      rw [List.flatMap_cons, List.getLast?_append] at last
      cases behind : (cut.flatMap text).getLast? with
      | none =>
          rw [behind] at last
          exact ⟨[], segment, cut, rfl, last, List.getLast?_eq_none_iff.mp behind⟩
      | some d =>
          rw [behind] at last
          rcases ih (behind.trans last) with ⟨earlier, segment', later, rfl, others⟩
          exact ⟨segment :: earlier, segment', later, rfl, others⟩

/-- A comment that is not closed goes on to the end. -/
theorem eq_nil_of_unterminated {body after : List Char} (inside : ¬['*', '/'] <:+: body)
    (greatest : ∀ role text, Matches role text → text <+: '/' :: '*' :: body ++ after →
      text.length ≤ ('/' :: '*' :: body).length) : after = [] := by
  cases found : commentLength? (body ++ after) with
  | none =>
      have whole := Matches.unterminated (not_infix_of_commentLength? found)
      have short := greatest _ _ whole (List.prefix_refl _)
      simp only [List.length_cons, List.length_append] at short
      exact List.eq_nil_of_length_eq_zero (by omega)
  | some length =>
      rcases exists_body found with ⟨body', same, inside'⟩
      have front : '/' :: '*' :: (body' ++ ['*', '/']) <+: '/' :: '*' :: body ++ after := by
        rw [← same]
        exact (List.prefix_cons_inj _).mpr ((List.prefix_cons_inj _).mpr (List.take_prefix _ _))
      have short := greatest _ _ (.blockComment inside') front
      -- The body would hold the end of the comment.
      have within : body' ++ ['*', '/'] <+: body := by
        have taken : body' ++ ['*', '/'] <+: body ++ after := same ▸ List.take_prefix _ _
        apply List.prefix_of_prefix_length_le taken (List.prefix_append body after)
        simpa using short
      exact absurd ((List.suffix_append body' ['*', '/']).isInfix.trans within.isInfix) inside

section InTurn

variable {earlier later : List Segment} {segment : Segment}
  (inTurn : InTurn (earlier ++ segment :: later))

include inTurn

/-- The digits of a segment are all that stand there. -/
theorem InTurn.isRun (isDigit : ∀ c ∈ segment.text, c.isDigit = true) :
    IsRun (earlier.flatMap text) segment.text (later.flatMap text) := by
  rcases inTurn.isNext.exists_cons with ⟨first, rest, same⟩
  refine ⟨by simp [same], isDigit, ?_, ?_⟩
  · -- The segment that ends with `c` goes as far as any rule allows.
    intro c last
    rcases getLast?_flatMap_text last with ⟨earlier', previous, blank, rfl, last', empty⟩
    rw [List.append_assoc, List.cons_append] at inTurn
    have next := inTurn.isNext
    rw [List.flatMap_append, List.flatMap_cons, empty, List.nil_append, same] at next
    exact next.getLast_of_digit (isDigit first (by simp [same])) last'
  · intro c start
    rcases List.head?_eq_some_iff.mp start with ⟨behind, whole⟩
    have next := inTurn.isNext
    rw [whole] at next
    rw [← Bool.not_eq_true]
    intro digit
    have last := List.getLast?_eq_some_getLast (same ▸ List.cons_ne_nil first rest)
    have other := next.getLast_of_digit digit last
    rw [isDigit _ (List.getLast_mem _)] at other
    cases other

/-- Each segment is accounted for in its turn. -/
theorem InTurn.account :
    Account (earlier.flatMap text) segment.text (later.flatMap text) segment.role.kind?
      (segment.error? (earlier.flatMap text)) := by
  have run := inTurn.isRun
  cases inTurn.isNext with
  | @longest role text' _ rule greatest =>
      cases rule with
      | space nonempty spaces => exact .skipped (.space nonempty spaces)
      | newline => exact .skipped .newline
      | lineComment sameLine => exact .skipped (.lineComment sameLine)
      | directive sameLine => exact .skipped (.directive sameLine)
      | blockComment inside => exact .skipped (.blockComment inside)
      | unterminated inside =>
          exact .unterminated (.unterminated inside) (eq_nil_of_unterminated inside greatest)
      | @numeral _ value nonempty isDigit same =>
          have small : value.toInt ≤ Int64.maxValue.toInt := Int.le_of_lt_add_one value.toInt_lt
          have account := @Account.numeral _ _ _ value (run isDigit) (by simp only; omega)
          rwa [if_neg (by simp only; omega)] at account
      | oversized nonempty isDigit large =>
          have account := @Account.numeral _ _ _ Int64.maxValue (run isDigit) (by simp only; omega)
          rwa [if_pos large] at account
      | @spelled kind written other =>
          apply Account.spelled rfl _ other
          rintro rfl
          exact written
  | illegal nothing => exact .illegal rfl nothing

end InTurn

section Spans

variable {before : List Char} {segment : Segment}

theorem span_start : (segment.span before).start = byteLength before :=
  Position.offset_after_start before

theorem span_stop : (segment.span before).stop = byteLength (before ++ segment.text) :=
  Position.offset_after_start (before ++ segment.text)

/-- The token of a segment covers the segment. -/
theorem span_token? {token : Token} (found : segment.token? before = some token) :
    token.span = segment.span before := by
  rcases Option.map_eq_some_iff.mp found with ⟨kind, -, rfl⟩
  rfl

/-- Tokens start behind the point from which they are gathered. -/
theorem le_start_of_mem_gather {cut : List Segment} {token : Token}
    (mem : token ∈ gather token? before cut) : byteLength before ≤ token.span.start := by
  induction cut generalizing before with
  | nil => cases mem
  | cons segment cut ih =>
      rw [gather, List.mem_append, Option.mem_toList] at mem
      rcases mem with found | others
      · rw [span_token? found, span_start]
      · have behind := ih others
        rw [Position.byteLength_append] at behind
        omega

/-- Each token ends before the next one starts. -/
theorem pairwise_gather_token? (before : List Char) (cut : List Segment) :
    (gather token? before cut).Pairwise fun first second =>
      first.span.stop ≤ second.span.start := by
  induction cut generalizing before with
  | nil => exact .nil
  | cons segment cut ih =>
      rw [gather, List.pairwise_append]
      refine ⟨?_, ih _, ?_⟩
      · cases segment.token? before <;> simp
      · intro first here second there
        rw [span_token? (Option.mem_toList.mp here), span_stop]
        exact le_start_of_mem_gather there

/-- Each byte belongs to a segment. -/
theorem exists_segment_at {cut : List Segment} {offset : Nat} (behind : byteLength before ≤ offset)
    (inside : offset < byteLength (before ++ cut.flatMap text)) :
    ∃ earlier segment later, cut = earlier ++ segment :: later ∧
      (segment.span (before ++ earlier.flatMap text)).start ≤ offset ∧
      offset < (segment.span (before ++ earlier.flatMap text)).stop := by
  induction cut generalizing before with
  | nil =>
      simp only [List.flatMap_nil, List.append_nil] at inside
      omega
  | cons segment cut ih =>
      by_cases here : offset < byteLength (before ++ segment.text)
      · refine ⟨[], segment, cut, rfl, ?_, ?_⟩
        · simpa [span_start] using behind
        · simpa [span_stop] using here
      · rw [List.flatMap_cons, ← List.append_assoc] at inside
        rcases ih (Nat.le_of_not_lt here) inside with ⟨earlier, found, later, rfl, starts, stops⟩
        refine ⟨segment :: earlier, found, later, rfl, ?_, ?_⟩
        · simpa using starts
        · simpa using stops

end Spans

end Segment

end SubsetC
