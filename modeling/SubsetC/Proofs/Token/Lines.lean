import Mathlib.Algebra.Ring.Nat
import SubsetC.Proofs.Token.Covering
import SubsetC.Proofs.Tree.Regions

/-!
# Lines

The line of a place is one more than the number of line feeds before it. `lex_lines` says that the
lexer, which carries a counter from match to match and from one scanner to the next, gives every
token the line on which it starts, and every error the line on which the text starts that it is
about: also behind an opening quote that is dropped alone, and for a comment that the source ends
in. A line feed is a segment by itself or stands in a block comment, so that it is enough if the
actions of these two rules move the counter on.
-/

namespace SubsetC

open Position (byteLength)

namespace Segment

theorem IsNext.newline_mem {segment : Segment} {after : List Char} (next : segment.IsNext after)
    (mem : '\n' ∈ segment.text) : segment.text = ['\n'] ∨ ['/', '*'] <+: segment.text := by
  cases next with
  | longest rule greatest => exact rule.newline_mem mem
  | illegal nothing =>
      -- a line feed is no character that starts nothing
      cases List.mem_singleton.mp mem
      exact absurd (List.prefix_append ['\n'] _) (nothing _ _ .newline)

/-- What is gathered comes from a segment. -/
theorem exists_segment_of_mem {α : Type} {become : List Char → Segment → Option α}
    {before : List Char} {cut : List Segment} {found : α} (mem : found ∈ gather become before cut) :
    ∃ earlier segment later, cut = earlier ++ segment :: later ∧
      become (before ++ earlier.flatMap text) segment = some found := by
  induction cut generalizing before with
  | nil => cases mem
  | cons segment cut ih =>
      rcases List.mem_append.mp mem with here | others
      · exact ⟨[], segment, cut, rfl, by simpa using here⟩
      · rcases ih others with ⟨earlier, segment', later, rfl, same⟩
        exact ⟨segment :: earlier, segment', later, rfl, by simpa using same⟩

end Segment

/-- Lines are counted as long as there are not too many of them. -/
theorem Position.toNat_line_after {before rest : List Char}
    (few : (before ++ rest).count '\n' + 1 < 2 ^ 32) :
    (Position.start.after before).line.toNat = before.count '\n' + 1 := by
  rw [List.count_append] at few
  have count : (before.count '\n').toUInt32.toNat = before.count '\n' :=
    UInt32.toNat_ofNat_of_lt' (show _ < 2 ^ 32 by omega)
  simp only [after, start, UInt32.toNat_add, count, UInt32.toNat_one]
  omega

theorem Span.sits_between {source : String} {before text rest : List Char}
    (few : source.toList.count '\n' + 1 < 2 ^ 32)
    (whole : source.toList = before ++ (text ++ rest)) :
    (Span.between (Position.start.after before) (Position.start.after (before ++ text))).Sits
      source := by
  refine ⟨before, text, rest, whole, ?_, ?_, ?_⟩
  · exact Position.offset_after_start before
  · exact Position.offset_after_start (before ++ text)
  · rw [whole] at few
    exact Position.toNat_line_after few

open Segment

/-- Each token goes over some text of the source. -/
theorem exists_between_of_mem_lex {source : String} {token : Token} (mem : token ∈ (lex source).1) :
    ∃ before text rest, source.toList = before ++ (text ++ rest) ∧
      token.span =
        .between (Position.start.after before) (Position.start.after (before ++ text)) := by
  have whole := flatMap_text_segments source.toList
  rw [(inTurn_segments source.toList).lex_eq whole.symm, List.mem_append, List.mem_singleton] at mem
  rcases mem with inside | rfl
  · rcases exists_segment_of_mem inside with ⟨earlier, segment, later, cut, found⟩
    rw [cut, List.flatMap_append, List.flatMap_cons] at whole
    exact ⟨_, _, _, whole.symm, span_token? found⟩
  · exact ⟨source.toList, [], [], by simp, by simp [endOf]⟩

/-- Whatever the scanner gives up where it fails, every token, the end of the source included, has
the line on which it starts. The errors come from the segments of the source, one behind the other,
and have the lines on which these start; no segment goes over the end of a line but that end itself
and block comments. -/
theorem lex_lines {source : String} (few : source.toList.count '\n' + 1 < 2 ^ 32)
    (giveUp : List Char → Nat) :
    ∃ tokens errors, (Lexer.ofSource source).tokenize giveUp = some (tokens, errors) ∧
      (∀ token ∈ tokens, token.span.Sits source) ∧
      ∃ cut : List Segment, InTurn cut ∧ cut.flatMap text = source.toList ∧
        errors = gather error? [] cut ∧
        ∀ earlier segment later, cut = earlier ++ segment :: later →
          ('\n' ∈ segment.text → segment.text = ['\n'] ∨ ['/', '*'] <+: segment.text) ∧
          ∀ error, segment.error? (earlier.flatMap text) = some error →
            error.line.toNat = (earlier.flatMap text).count '\n' + 1 ∧
            Account (earlier.flatMap text) segment.text (later.flatMap text) segment.role.kind?
              (some error) := by
  have whole := flatMap_text_segments source.toList
  have inTurn := inTurn_segments source.toList
  refine ⟨_, _, Lexer.tokenize_ofSource giveUp source, ?_, segments source.toList, inTurn, whole,
    ?_, ?_⟩
  · intro token mem
    rcases exists_between_of_mem_lex mem with ⟨before, text, rest, same, span⟩
    rw [span]
    exact Span.sits_between few same
  · exact congrArg Prod.snd (inTurn.lex_eq whole.symm)
  · intro earlier segment later cut
    rw [cut] at whole inTurn
    refine ⟨inTurn.isNext.newline_mem, ?_⟩
    intro error found
    have account := inTurn.account
    rw [found] at account
    refine ⟨?_, account⟩
    rw [← whole, List.flatMap_append] at few
    have line : error.line = lineBehind (earlier.flatMap text) := by
      unfold error? at found
      split at found <;> cases found <;> rfl
    rw [line]
    exact Position.toNat_line_after few

/-- An opening quote alone, a comment over two lines, a numeral that is too large, and a comment
without an end. -/
def restarts : String :=
  "\"a\n/* b\n*/ @ c\n99999999999999999999 d\n/* e\nf"

/-- Each line is found again behind what takes up the reading somewhere else. The scanner gives up
the rest of the line at the opening quote and is started again behind it. -/
theorem lex_lines_restarts :
    restarts.toList.count '\n' + 1 < 2 ^ 32 ∧
    ∃ tokens errors,
      (Lexer.ofSource restarts).tokenize Scanner.unfinished = some (tokens, errors) ∧
      tokens.map (fun token => (token.kind, token.line)) =
        [(.identifier "a", 1), (.identifier "c", 3), (.integer Int64.maxValue, 4),
          (.identifier "d", 4), (.endOfInput, 6)] ∧
      errors =
        [.illegalCharacter '"' 1, .illegalCharacter '@' 3,
          .integerOutOfRange "99999999999999999999" 4, .unterminatedComment 5] ∧
      ∀ token ∈ tokens, token.span.Sits restarts := by
  have few : restarts.toList.count '\n' + 1 < 2 ^ 32 := by decide +kernel
  rcases lex_lines few Scanner.unfinished with ⟨tokens, errors, tokenized, sits, -⟩
  have same : lex restarts = (tokens, errors) :=
    Option.some.inj ((Lexer.tokenize_ofSource _ _).symm.trans tokenized)
  have tokens_eq : (lex restarts).1 = tokens := congrArg Prod.fst same
  have errors_eq : (lex restarts).2 = errors := congrArg Prod.snd same
  refine ⟨few, tokens, errors, tokenized, ?_, ?_, sits⟩
  · rw [← tokens_eq]
    decide +kernel
  · rw [← errors_eq]
    decide +kernel

end SubsetC
