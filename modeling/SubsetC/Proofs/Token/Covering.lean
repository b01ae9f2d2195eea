import SubsetC.Proofs.Token.Lexing

/-!
# Tokens and what lies between them

A source is cut into segments, and `lex_covers` says what becomes of each: it is a token, or it is
reported, or it is white space or a comment. The lexer comes to all of them, however much the
scanner gives up where it fails, and to each of them once.
-/

namespace SubsetC

open Position (byteLength)

open Segment

/-- Whatever the scanner gives up where it fails, the lexer comes to an end, and the source is cut
into segments without a gap and without an overlap, each of which is a token, is reported, or is
white space or a comment. Behind each of them, a single illegal character included, the rest is
lexed as a source of its own. -/
theorem lex_covers (giveUp : List Char → Nat) (source : String) :
    ∃ cut : List Segment, cut.flatMap text = source.toList ∧
      (Lexer.ofSource source).tokenize giveUp =
        some (gather token? [] cut ++ [endOf source.toList], gather error? [] cut) ∧
      (∀ earlier segment later, cut = earlier ++ segment :: later →
        Account (earlier.flatMap text) segment.text (later.flatMap text) segment.role.kind?
          (segment.error? (earlier.flatMap text)) ∧
        (segment.span (earlier.flatMap text)).start < (segment.span (earlier.flatMap text)).stop ∧
        (segment.span (earlier.flatMap text)).stop ≤ byteLength source.toList ∧
        (segment.span (earlier.flatMap text)).text? source = some (String.ofList segment.text) ∧
        (Lexer.ofSource (String.ofList (later.flatMap text))).tokenize giveUp =
          some (gather token? [] later ++ [endOf (later.flatMap text)], gather error? [] later)) ∧
      (gather token? [] cut).Pairwise (fun first second => first.span.stop ≤ second.span.start) ∧
      ∀ offset < byteLength source.toList, ∃ earlier segment later,
        cut = earlier ++ segment :: later ∧
        (segment.span (earlier.flatMap text)).start ≤ offset ∧
        offset < (segment.span (earlier.flatMap text)).stop := by
  have whole := flatMap_text_segments source.toList
  have inTurn := inTurn_segments source.toList
  refine ⟨segments source.toList, whole, ?_, ?_, pairwise_gather_token? _ _, ?_⟩
  · rw [Lexer.tokenize_ofSource, inTurn.lex_eq whole.symm]
  · intro earlier segment later same
    rw [same] at whole inTurn
    rw [List.flatMap_append, List.flatMap_cons] at whole
    refine ⟨inTurn.account, ?_, ?_, Span.text?_between whole.symm, ?_⟩
    · rcases inTurn.isNext.exists_cons with ⟨first, rest, nonempty⟩
      have positive := Position.byteLength_pos (List.cons_ne_nil first rest)
      rw [span_start, span_stop, Position.byteLength_append, nonempty]
      omega
    · rw [span_stop, ← whole, ← List.append_assoc,
        Position.byteLength_append _ (later.flatMap text)]
      omega
    · have behind := inTurn.of_append_right.2.lex_eq String.toList_ofList
      rw [Lexer.tokenize_ofSource, behind, String.toList_ofList]
  · intro offset inside
    have within : offset < byteLength ([] ++ (segments source.toList).flatMap text) := by
      rwa [List.nil_append, whole]
    exact exists_segment_at (Nat.zero_le _) within

end SubsetC
