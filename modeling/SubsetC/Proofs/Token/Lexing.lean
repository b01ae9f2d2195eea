import SubsetC.Proofs.Token.Matching
import SubsetC.Token.Lexer

/-!
# The lexer goes from segment to segment

`Lexer.At` says what the lexer has read and what it has ahead, wherever its scanner was started, and
that the lines are counted right. One step takes it over one segment (`Lexer.At.step`), also where
the scanner fails and is started again: what it has given up makes no difference. So the lexer gives
the tokens of `TokenStream` one by one, with the errors that stand before them
(`Lexer.Reads.nextToken`), and all at once what `lex` says (`Lexer.tokenize_ofSource`).
-/

namespace SubsetC

open Position (byteLength)
open Segment

namespace Scanner

variable {giveUp : List Char → Nat} {scanner : Scanner} {first : Char} {rest : List Char}

/-- At a character that starts no segment no rule matches. -/
theorem longest?_illegal {c : Char} (illegal : (scan first rest).1 = .illegal c) :
    Rule.longest? (first :: rest) = none := by
  apply Rule.longest?_eq_none
  intro rule
  rw [Option.eq_none_iff_forall_ne_some]
  intro length found
  have opens := Rule.opens_of_length? found
  revert illegal
  unfold scan
  split
  · simp
  split
  · simp
  split
  · simp
  split
  · split <;> simp
  split
  · simp only [numeral]
    split <;> simp
  split
  · simp
  split
  · rename_i quote
    subst quote
    split
    · simp
    · rename_i noBody
      have same : rule = .character := Rule.eq_of_opens (by decide) opens
      subst same
      simp [Rule.length?, noBody] at found
  split
  · rename_i quote
    subst quote
    split
    · simp
    · rename_i noBody
      have same : rule = .string := Rule.eq_of_opens (by decide) opens
      subst same
      simp [Rule.length?, noBody] at found
  split
  · simp
  · rename_i noSymbol
    have symbol : ∃ mark, rule = .symbol mark := by
      apply Rule.symbol_of_length? found <;> assumption
    rcases symbol with ⟨mark, rfl⟩
    rcases Rule.exists_scan? found with ⟨other, length', same, -⟩
    rw [noSymbol] at same
    cases same

/-- Where no rule matches, a turn fails. -/
theorem turn_illegal {c : Char} (here : scanner.remainder = first :: rest)
    (illegal : (scan first rest).1 = .illegal c) :
    scanner.turn giveUp = some (.fail .illegal, scanner.take (giveUp (first :: rest))) := by
  simp only [turn, here, longest?_illegal illegal]

/-- At the end there is nothing to be matched. -/
theorem next_nil (here : scanner.remainder = []) :
    scanner.next giveUp = some (none, scanner.take 0) := by
  rw [next, dif_pos here]

/-- Skipped text makes no difference to what comes next. -/
theorem next_of_turn {action : Action} {scanner' : Scanner}
    (here : scanner.remainder = first :: rest)
    (turned : scanner.turn giveUp = some (action, scanner')) :
    scanner.next giveUp = match action with
      | .emit kind => some (some (.ok kind), scanner')
      | .fail failure => some (some (.error failure), scanner')
      | .skip => scanner'.next giveUp := by
  have more : ¬scanner.remainder = [] := by
    rw [here]
    nofun
  rw [next, dif_neg more]
  split <;> rename_i found <;> rw [turned] at found <;> cases found <;> rfl

/-- If the scanner has given up as many bytes as the character has, it is that character. -/
theorem take_of_size {length : Nat} (here : scanner.remainder = first :: rest)
    (size : (scanner.take length).stop - (scanner.take length).start = first.utf8Size) :
    (scanner.take length).slice = [first] ∧ (scanner.take length).remainder = rest := by
  have bytes : byteLength ((first :: rest).take length) = first.utf8Size := by
    rw [stop, start, Position.byteLength_append, Nat.add_sub_cancel_left] at size
    rwa [← here]
  have positive := first.utf8Size_pos
  simp only [take, here]
  cases length with
  | zero =>
      simp only [List.take_zero, byteLength] at bytes
      omega
  | succ more =>
      simp only [List.take_succ_cons, List.drop_succ_cons, byteLength] at bytes ⊢
      have none : rest.take more = [] := by
        by_contra some
        have longer := Position.byteLength_pos some
        omega
      have whole := List.take_append_drop more rest
      rw [none, List.nil_append] at whole
      exact ⟨by rw [none], whole⟩

end Scanner

namespace Lexer

/-- The lexer has read `before` and has `after` ahead. -/
structure At (lexer : Lexer) (before after : List Char) : Prop where
  whole : lexer.source.toList = before ++ after
  remainder : lexer.scanner.remainder = after
  offset : lexer.base + lexer.scanner.stop = byteLength before
  line : lexer.scanner.line = lineBehind before

/-- A lexer starts in front of its whole source. -/
theorem at_ofSource (source : String) : (ofSource source).At [] source.toList :=
  ⟨rfl, rfl, rfl, rfl⟩

variable {giveUp : List Char → Nat} {lexer : Lexer} {before text rest : List Char}

/-- The lexer when its scanner has taken a text. -/
def past (lexer : Lexer) (text rest : List Char) : Lexer :=
  { lexer with scanner := lexer.scanner.past text rest }

/-- The line behind two texts is found in two steps. -/
theorem lineBehind_append (before text : List Char) :
    lineBehind (before ++ text) = lineBehind before + (text.count '\n').toUInt32 := by
  rw [lineBehind, Position.after_append]
  rfl

/-- Behind a segment the lexer stands in front of the rest. -/
theorem At.past (here : lexer.At before (text ++ rest)) :
    (lexer.past text rest).At (before ++ text) rest where
  whole := by
    rw [List.append_assoc]
    exact here.whole
  remainder := rfl
  offset := by
    change lexer.base + byteLength (lexer.scanner.before ++ lexer.scanner.slice ++ text) = _
    rw [Position.byteLength_append, Position.byteLength_append before, ← here.offset, Scanner.stop,
      Nat.add_assoc]
  line := by
    rw [lineBehind_append, ← here.line]
    rfl

/-- The scanner knows where the text starts and ends that it has taken. -/
theorem At.span_past (here : lexer.At before (text ++ rest)) :
    (lexer.past text rest).span =
      ⟨byteLength before, byteLength (before ++ text), lineBehind (before ++ text)⟩ := by
  have behind := here.past
  rw [span, behind.offset, behind.line, ← here.offset]
  rfl

/-- Behind the character at which the scanner failed, the lexer goes on; the scanner may have given
up more, and then another one is started. -/
theorem At.recover {first : Char} (here : lexer.At before (first :: rest)) (newline : first ≠ '\n')
    (length : Nat) :
    ∃ lexer', ({ lexer with scanner := lexer.scanner.take length } : Lexer).recover = some lexer' ∧
      lexer'.At (before ++ [first]) rest ∧
      lexer'.errors = lexer.errors ++ [.illegalCharacter first (lineBehind before)] := by
  have start : lexer.base + (lexer.scanner.take length).start = byteLength before := here.offset
  have sameLine : lineBehind (before ++ [first]) = lineBehind before := by
    rw [lineBehind_append, List.count_eq_zero.mpr (by simpa using newline.symm)]
    exact UInt32.add_zero _
  have whole : lexer.source.toList = before ++ [first] ++ rest := by
    rw [here.whole, List.append_assoc, List.singleton_append]
  have cut : Span.splitAtByte? (byteLength before) lexer.source.toList =
      some (before, first :: rest) := by
    rw [here.whole, Span.splitAtByte?_byteLength]
  have bytes : byteLength before + first.utf8Size = byteLength (before ++ [first]) := by
    rw [Position.byteLength_append]
    rfl
  have cut' : Span.splitAtByte? (byteLength (before ++ [first])) lexer.source.toList =
      some (before ++ [first], rest) := by
    rw [whole, Span.splitAtByte?_byteLength]
  have recovers : ({ lexer with scanner := lexer.scanner.take length } : Lexer).recover =
      some (if (lexer.scanner.take length).stop - (lexer.scanner.take length).start ≠ first.utf8Size
        then ⟨lexer.source, byteLength (before ++ [first]), .ofText rest lexer.scanner.line,
          lexer.errors ++ [.illegalCharacter first lexer.scanner.line]⟩
        else ⟨lexer.source, lexer.base, lexer.scanner.take length,
          lexer.errors ++ [.illegalCharacter first lexer.scanner.line]⟩) := by
    simp only [Lexer.recover, start, cut, push, bytes, cut', Option.bind_eq_bind, Option.bind_some]
    split <;> rfl
  refine ⟨_, recovers, ?_⟩
  rw [← here.line]
  split
  · exact ⟨⟨whole, rfl, Nat.add_zero _, here.line.trans sameLine.symm⟩, rfl⟩
  · rename_i size
    rcases Scanner.take_of_size here.remainder (not_not.mp size) with ⟨slice, remainder⟩
    refine ⟨⟨whole, remainder, ?_, here.line.trans sameLine.symm⟩, rfl⟩
    rw [Scanner.stop, slice, Position.byteLength_append, Position.byteLength_append before,
      ← here.offset, Nat.add_assoc]
    rfl

/-- The comment without an end is cut out of the source, and its lines are taken off again. -/
theorem At.closeComment (here : lexer.At before (text ++ rest)) :
    (lexer.past text rest).closeComment =
      some ((lexer.past text rest).push (.unterminatedComment (lineBehind before))) := by
  have cut : (lexer.past text rest).span.text? (lexer.past text rest).source =
      some (String.ofList text) := by
    rw [here.span_past]
    have between := Span.text?_between here.whole
    rwa [Span.between, Position.offset_after_start, Position.offset_after_start] at between
  have line : (lexer.past text rest).scanner.line - (text.count '\n').toUInt32 =
      lineBehind before := by
    rw [← here.line]
    exact UInt32.add_sub_cancel _ _
  simp only [Lexer.closeComment, cut, String.toList_ofList, line, Option.bind_eq_bind,
    Option.bind_some]
  rfl

/-- Nothing but what the scanner comes to counts. -/
theorem nextToken_congr {scanner : Scanner}
    (same : lexer.scanner.next giveUp = scanner.next giveUp) :
    lexer.nextToken giveUp = ({ lexer with scanner } : Lexer).nextToken giveUp := by
  rw [nextToken, nextToken, same]

/-- What the lexer makes of an answer is a token, or else it looks for one from there on. -/
theorem nextToken_of_next {answer : Option (Except Scanner.Failure Token.Kind)} {scanner : Scanner}
    (found : lexer.scanner.next giveUp = some (answer, scanner)) :
    lexer.nextToken giveUp =
      (({ lexer with scanner } : Lexer).settle answer).bind fun settled =>
        match settled with
        | (some token, lexer') => some (token, lexer')
        | (none, lexer') => lexer'.nextToken giveUp := by
  rw [nextToken]
  split
  · rename_i failed
    rw [found] at failed
    cases failed
  · rename_i found'
    rw [found] at found'
    cases found'
    split <;> rename_i settled <;> rw [settled] <;> rfl

/-- What the lexer does at a segment: it gives its token, or goes on, and keeps what is to be
reported. -/
structure Steps (giveUp : List Char → Nat) (lexer lexer' : Lexer) (before : List Char)
    (segment : Segment) (later : List Char) : Prop where
  reaches : lexer'.At (before ++ segment.text) later
  errors : lexer'.errors = lexer.errors ++ (segment.error? before).toList
  nextToken : lexer.nextToken giveUp = match segment.token? before with
    | some token => some (token, lexer')
    | none => lexer'.nextToken giveUp

theorem At.push {after : List Char} (here : lexer.At before after) (error : LexicalError) :
    (lexer.push error).At before after :=
  ⟨here.whole, here.remainder, here.offset, here.line⟩

/-- A text of a rule is taken by the scanner at once. -/
theorem At.step_of_matches {role : Role} (rule : Matches role text)
    (here : lexer.At before (text ++ rest))
    (turned : lexer.scanner.turn giveUp = some (role.action, lexer.scanner.past text rest)) :
    ∃ lexer', Steps giveUp lexer lexer' before ⟨role, text⟩ rest := by
  rcases rule.exists_cons with ⟨first, more, same⟩
  have remainder : lexer.scanner.remainder = first :: (more ++ rest) := by
    rw [here.remainder, same, List.cons_append]
  have nexted := Scanner.next_of_turn remainder turned
  have sameLine (kind : Token.Kind) (token : role.kind? = some kind) :
      lineBehind (before ++ text) = lineBehind before := by
    rw [lineBehind_append, List.count_eq_zero.mpr (rule.newline_not_mem token)]
    exact UInt32.add_zero _
  have span (kind : Token.Kind) (token : role.kind? = some kind) :
      (lexer.past text rest).span = Segment.span before ⟨role, text⟩ := by
    rw [here.span_past, sameLine kind token, Segment.span, Span.between,
      Position.offset_after_start, Position.offset_after_start]
    rfl
  cases role with
  | token kind =>
      refine ⟨lexer.past text rest, here.past, (List.append_nil _).symm, ?_⟩
      rw [nextToken_of_next nexted]
      change some ((⟨kind, (lexer.past text rest).span⟩ : Token), _) = _
      rw [span kind rfl]
      rfl
  | oversized =>
      refine ⟨_, here.past.push (.integerOutOfRange (String.ofList text) (lineBehind before)), rfl,
        ?_⟩
      rw [nextToken_of_next nexted]
      change some ((⟨_, (lexer.past text rest).span⟩ : Token), (lexer.past text rest).push
        (.integerOutOfRange (String.ofList text) (lexer.past text rest).scanner.line)) = _
      rw [span _ rfl, here.past.line, sameLine _ rfl]
      rfl
  | skipped =>
      refine ⟨lexer.past text rest, here.past, (List.append_nil _).symm, ?_⟩
      exact nextToken_congr nexted
  | unterminated =>
      refine ⟨_, here.past.push (.unterminatedComment (lineBehind before)), rfl, ?_⟩
      rw [nextToken_of_next nexted]
      change ((lexer.past text rest).closeComment.map _).bind _ = _
      rw [here.closeComment]
      rfl
  | illegal c => exact absurd rfl (rule.legal c)

/-- At each place the lexer takes one step over the segment that comes first. -/
theorem At.step {first : Char} (here : lexer.At before (first :: rest)) :
    ∃ lexer', Steps giveUp lexer lexer' before
      ⟨(scan first rest).1, first :: rest.take (scan first rest).2⟩
      (rest.drop (scan first rest).2) := by
  rcases matches_of_scan first rest with rule | illegal
  · have turned := @Scanner.turn_eq giveUp _ _ _ here.remainder rule.legal
    refine At.step_of_matches rule ?_ turned
    rwa [List.cons_append, List.take_append_drop]
  · have turned := @Scanner.turn_illegal giveUp _ _ _ _ here.remainder (congrArg Prod.fst illegal)
    have nexted := Scanner.next_of_turn here.remainder turned
    have newline : first ≠ '\n' := by
      rintro rfl
      rw [scan_newline] at illegal
      cases illegal
    rcases here.recover newline (giveUp (first :: rest)) with ⟨lexer', recovers, reaches, errors⟩
    rw [illegal]
    refine ⟨lexer', reaches, errors, ?_⟩
    rw [nextToken_of_next nexted, settle, recovers]
    rfl

/-- At the end the lexer stays, and what it gives is the end of the source. -/
theorem At.nextToken_nil (here : lexer.At before []) :
    ∃ lexer', lexer.nextToken giveUp = some (endOf before, lexer') ∧ lexer'.At before [] ∧
      lexer'.errors = lexer.errors := by
  have whole : lexer.source.toList = before := here.whole.trans (List.append_nil _)
  refine ⟨{ lexer with scanner := lexer.scanner.take 0 }, ?_, ?_, rfl⟩
  · rw [nextToken_of_next (Scanner.next_nil here.remainder), settle, endToken, whole]
    change some ((⟨_, ⟨_, _, lexer.scanner.line⟩⟩ : Token), _) = _
    rw [here.line, endOf, Span.between, Position.offset_after_start]
    rfl
  · refine ⟨here.whole, here.remainder, ?_, here.line⟩
    rw [← here.offset]
    simp [Scanner.stop, Scanner.take]

/-- The lexer has the tokens of the stream ahead, and the errors between them. -/
def Reads (lexer : Lexer) (stream : TokenStream) : Prop :=
  ∃ before after, lexer.At before after ∧
    stream = .ofSegments (Position.start.after before) [] (segments after)

/-- Before the first token nothing has been noted. -/
theorem reads_ofSource (source : String) : (ofSource source).Reads (TokenStream.ofSource source) :=
  ⟨[], source.toList, at_ofSource source, rfl⟩

theorem ofSegments_cons (before : List Char) (pending : List LexicalError) (segment : Segment)
    (cut : List Segment) :
    TokenStream.ofSegments (Position.start.after before) pending (segment :: cut) =
      match segment.token? before with
      | some token =>
        let stream := TokenStream.ofSegments (Position.start.after (before ++ segment.text)) [] cut
        { stream with
          ahead := ⟨pending ++ (segment.error? before).toList, token⟩ :: stream.ahead }
      | none =>
        .ofSegments (Position.start.after (before ++ segment.text))
          (pending ++ (segment.error? before).toList) cut := by
  rcases segment with ⟨role, text⟩
  cases role <;>
    simp [TokenStream.ofSegments, token?, error?, Role.kind?, Segment.span, lineBehind,
      ← Position.after_append]

/-- The errors that are met before the next token are kept with those that were met before. -/
theorem At.nextToken {lexer : Lexer} {before after : List Char} (here : lexer.At before after)
    (kept pending : List LexicalError) (errors : lexer.errors = kept ++ pending) :
    ∃ lexer' stream,
      stream = TokenStream.ofSegments (Position.start.after before) pending (segments after) ∧
      lexer.nextToken giveUp = some (stream.current.token, lexer') ∧
      lexer'.errors = kept ++ stream.current.errors ∧ lexer'.Reads stream.advance := by
  match after with
  | [] =>
      rcases here.nextToken_nil with ⟨lexer', next, there, same⟩
      exact ⟨lexer', _, rfl, next, same.trans errors, before, [], there, rfl⟩
  | first :: rest =>
      rcases here.step with ⟨lexer', reaches, met, next⟩
      rw [errors, List.append_assoc] at met
      rw [segments_cons, ofSegments_cons, next]
      cases found : token? before _ with
      | some token => exact ⟨lexer', _, rfl, rfl, met, _, _, reaches, rfl⟩
      | none => exact At.nextToken reaches kept _ met
termination_by after.length
decreasing_by
  rw [List.length_drop, List.length_cons]
  omega

/-- The next token of the lexer is the next one of the stream, and the errors before it are kept.
What the scanner gives up where it fails makes no difference. -/
theorem Reads.nextToken {stream : TokenStream} (reads : lexer.Reads stream) :
    ∃ lexer', lexer.nextToken giveUp = some (stream.current.token, lexer') ∧
      lexer'.errors = lexer.errors ++ stream.current.errors ∧ lexer'.Reads stream.advance := by
  rcases reads with ⟨before, after, here, rfl⟩
  rcases here.nextToken lexer.errors [] (List.append_nil _).symm with ⟨lexer', _, rfl, result⟩
  exact ⟨lexer', result⟩

/-- The noted errors are handed out once. -/
theorem Reads.takeErrors {stream : TokenStream} (reads : lexer.Reads stream) :
    lexer.takeErrors.1 = lexer.errors ∧ lexer.takeErrors.2.errors = [] ∧
      lexer.takeErrors.2.Reads stream := by
  rcases reads with ⟨before, after, here, same⟩
  exact ⟨rfl, rfl, before, after, ⟨here.whole, here.remainder, here.offset, here.line⟩, same⟩

/-- No token before the end is the one that marks the end. -/
theorem Reads.kind_ne {stream : TokenStream} (reads : lexer.Reads stream) {lexeme : Lexeme}
    (mem : lexeme ∈ stream.ahead) : lexeme.token.kind ≠ .endOfInput := by
  rcases reads with ⟨before, after, here, rfl⟩
  have kind : lexeme.token.kind ∈ (TokenStream.ofSegments (Position.start.after before) []
      (segments after)).kinds := List.mem_map.mpr ⟨lexeme, mem, rfl⟩
  rw [TokenStream.kinds_ofSegments] at kind
  rcases List.mem_filterMap.mp kind with ⟨segment, mem', found⟩
  have written := written_of_mem_segments mem' found
  intro same
  rw [same] at written
  exact written

/-- A round gives a token and goes on, unless it is the end of the source. -/
theorem tokenize_of_nextToken {token : Token} {lexer' : Lexer}
    (next : lexer.nextToken giveUp = some (token, lexer')) :
    lexer.tokenize giveUp =
      if token.kind = .endOfInput then some ([token], lexer'.errors)
      else (lexer'.tokenize giveUp).map fun (tokens, errors) => (token :: tokens, errors) := by
  rw [Lexer.tokenize]
  split
  · rename_i failed
    rw [next] at failed
    cases failed
  · rename_i found
    rw [next] at found
    cases found
    rfl

/-- All that is left comes at once. -/
theorem Reads.tokenize {stream : TokenStream} (reads : lexer.Reads stream) :
    lexer.tokenize giveUp = some (stream.tokens, lexer.errors ++ stream.errors) := by
  rcases stream with ⟨ahead, trailing, stop⟩
  induction ahead generalizing lexer with
  | nil =>
      rcases @Reads.nextToken giveUp _ _ reads with ⟨lexer', next, errors, -⟩
      have stops : (TokenStream.current ⟨[], trailing, stop⟩).token.kind = .endOfInput := rfl
      rw [tokenize_of_nextToken next, if_pos stops, errors]
      rfl
  | cons lexeme ahead ih =>
      rcases @Reads.nextToken giveUp _ _ reads with ⟨lexer', next, errors, reads'⟩
      have goesOn : (TokenStream.current ⟨lexeme :: ahead, trailing, stop⟩).token.kind ≠
          .endOfInput := reads.kind_ne List.mem_cons_self
      rw [tokenize_of_nextToken next, if_neg goesOn, ih reads', errors]
      simp [TokenStream.tokens, TokenStream.errors, TokenStream.current, TokenStream.endToken]

/-- From the start of a source the lexer gives all that its segments become. -/
theorem tokenize_ofSource (giveUp : List Char → Nat) (source : String) :
    (ofSource source).tokenize giveUp = some (lex source) :=
  (reads_ofSource source).tokenize

end Lexer

end SubsetC
