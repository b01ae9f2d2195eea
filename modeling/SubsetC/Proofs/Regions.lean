import SubsetC.Proofs.Grammar.Filling
import SubsetC.Proofs.Slices
import SubsetC.Proofs.Token.Lines

/-!
# How the nodes of a tree lie in the source

The nodes of every tree, also of one that ends at an error, lie in the source as they lie in each
other. The parser puts the regions of a tree among the tokens of the source, and the tokens stand
one behind the other, so that what covers a row of them sits where these tokens are.
-/

namespace SubsetC

open Segment

/-- A span that covers tokens ends with one of them. -/
theorem Span.Covers.exists_ends {span : Span} {row : List Token} (covers : span.Covers row) :
    ∃ opening ∈ row, ∃ closing ∈ row, span.start = opening.span.start ∧
      span.stop = closing.span.stop := by
  rcases covers with ⟨opening, closing, first, last, rfl⟩
  exact ⟨opening, List.mem_of_head? first, closing, List.mem_of_getLast? last, rfl, rfl⟩

namespace Token

/-- The tokens stand one behind the other. -/
structure InPlace (tokens : List Token) : Prop where
  forward : ∀ token ∈ tokens, token.span.start ≤ token.span.stop
  inTurn : tokens.Pairwise fun first second => first.span.stop ≤ second.span.start

namespace InPlace

variable {tokens row row' : List Token} {span span' : Span}

theorem mono (inPlace : InPlace tokens) (inside : row <:+: tokens) : InPlace row where
  forward token mem := inPlace.forward token (inside.subset mem)
  inTurn := inPlace.inTurn.sublist inside.sublist

/-- Nothing starts before the first token. -/
theorem le_start {opening : Token} {others : List Token} (inPlace : InPlace (opening :: others))
    {token : Token} (mem : token ∈ opening :: others) : opening.span.start ≤ token.span.start := by
  rcases List.mem_cons.mp mem with rfl | behind
  · exact Nat.le_refl _
  · have first := inPlace.forward opening List.mem_cons_self
    have next := List.rel_of_pairwise_cons inPlace.inTurn behind
    omega

/-- Nothing ends behind the last one. -/
theorem stop_le {closing : Token} {others : List Token} (inPlace : InPlace (others ++ [closing]))
    {token : Token} (mem : token ∈ others ++ [closing]) : token.span.stop ≤ closing.span.stop := by
  rcases List.mem_append.mp mem with before | last
  · have last := inPlace.forward closing (by simp)
    have next := (List.pairwise_append.mp inPlace.inTurn).2.2 token before closing (by simp)
    omega
  · rw [List.mem_singleton.mp last]

/-- A span that covers the tokens goes over each of them. -/
theorem within (inPlace : InPlace row) (covers : span.Covers row) {token : Token}
    (mem : token ∈ row) : token.span.Within span := by
  rcases covers with ⟨opening, closing, first, last, rfl⟩
  rcases List.head?_eq_some_iff.mp first with ⟨others, rfl⟩
  rcases List.getLast?_eq_some_iff.mp last with ⟨others', same⟩
  refine ⟨inPlace.le_start mem, ?_⟩
  rw [same] at inPlace mem
  exact inPlace.stop_le mem

/-- What covers some of the tokens lies inside of what covers them all. -/
theorem within_of_covers (inPlace : InPlace row) (covers : span.Covers row)
    (covers' : span'.Covers row') (inside : row' ⊆ row) : span'.Within span := by
  rcases covers'.exists_ends with ⟨opening, first, closing, last, start, stop⟩
  constructor
  · rw [start]
    exact (inPlace.within covers (inside first)).1
  · rw [stop]
    exact (inPlace.within covers (inside last)).2

/-- What covers some tokens ends before what covers some of those behind them starts. -/
theorem stop_le_start {rest : List Token} (inPlace : InPlace (row ++ rest))
    (covers : span.Covers row) (covers' : span'.Covers row') (inside : row' ⊆ rest) :
    span.stop ≤ span'.start := by
  rcases covers.exists_ends with ⟨-, -, closing, last, -, stop⟩
  rcases covers'.exists_ends with ⟨opening, first, -, -, start, -⟩
  rw [stop, start]
  exact (List.pairwise_append.mp inPlace.inTurn).2.2 closing last opening (inside first)

end InPlace

end Token

/-- A region covers the tokens that it lies on. -/
theorem Region.Lies.covers {region : Region} {row : List Token} (lies : region.Lies row) :
    region.span.Covers row := by
  cases region with
  | node span parts => exact lies.1

namespace LieInTurn

variable {parts : List Region} {row : List Token}

theorem exists_row (lie : LieInTurn parts row) {part : Region} (mem : part ∈ parts) :
    ∃ here, here <:+: row ∧ part.Lies here := by
  induction parts generalizing row with
  | nil => cases mem
  | cons first parts ih =>
      rcases lie with ⟨gap, here, rest, rfl, lies, others⟩
      rcases List.mem_cons.mp mem with rfl | behind
      · exact ⟨here, ⟨gap, rest, List.append_assoc _ _ _⟩, lies⟩
      · rcases ih others behind with ⟨there, inside, lies'⟩
        refine ⟨there, inside.trans ?_, lies'⟩
        rw [← List.append_assoc]
        exact (List.suffix_append _ _).isInfix

/-- Regions one behind the other do not overlap. -/
theorem pairwise (lie : LieInTurn parts row) (inPlace : Token.InPlace row) :
    parts.Pairwise fun first second => first.span.stop ≤ second.span.start := by
  induction parts generalizing row with
  | nil => exact .nil
  | cons first parts ih =>
      rcases lie with ⟨gap, here, rest, rfl, lies, others⟩
      have behind := inPlace.mono (List.suffix_append gap _).isInfix
      refine .cons ?_ (ih others (behind.mono (List.suffix_append here _).isInfix))
      intro second mem
      rcases others.exists_row mem with ⟨there, inside, lies'⟩
      exact behind.stop_le_start lies.covers lies'.covers inside.subset

end LieInTurn

/-- What lies among tokens that sit in the source fits into the source. -/
theorem Region.Lies.fits {source : String} {tokens : List Token} (inPlace : Token.InPlace tokens)
    (sits : ∀ {row : List Token} {span : Span}, row <:+: tokens → span.Covers row →
      span.Sits source) {region : Region} {row : List Token} (lies : region.Lies row)
    (inside : row <:+: tokens) : region.Fits source := by
  match region with
  | .node span parts =>
      have here := inPlace.mono inside
      refine .node (sits inside lies.1) ?_ (lies.2.pairwise here) ?_
      · intro part mem
        rcases lies.2.exists_row mem with ⟨there, within, lies'⟩
        exact here.within_of_covers lies.1 lies'.covers within.subset
      · intro part mem
        rcases lies.2.exists_row mem with ⟨there, within, lies'⟩
        exact lies'.fits inPlace sits (within.trans inside)

namespace Segment

theorem inPlace_gather (before : List Char) (cut : List Segment) :
    Token.InPlace (gather token? before cut) where
  forward := by
    induction cut generalizing before with
    | nil => rintro token ⟨⟩
    | cons segment cut ih =>
        intro token mem
        rcases List.mem_append.mp mem with here | behind
        · rw [span_token? (Option.mem_toList.mp here), span_start, span_stop,
            Position.byteLength_append]
          exact Nat.le_add_right _ _
        · exact ih _ token behind
  inTurn := pairwise_gather_token? before cut

end Segment

section Parse

variable {source : String} {session : Session}

theorem sits_of_covers (few : source.toList.count '\n' + 1 < 2 ^ 32) {row : List Token}
    {span : Span} (inside : row <:+: (Cursor.start source session).tokens)
    (covers : span.Covers row) : span.Sits source := by
  rw [tokens_start] at inside
  rcases inside with ⟨earlier, later, same⟩
  rw [List.append_assoc] at same
  rcases exists_segments same.symm covers with ⟨front, part, rest, cut, -, rfl⟩
  have whole := flatMap_text_segments source.toList
  rw [cut, List.flatMap_append, List.flatMap_append] at whole
  exact Span.sits_between few whole.symm

/-- The statements of a tree have been read from the start of the source, and the tree ends where
the parser has got to. -/
theorem holds_start (source : String) (session : Session) :
    (Cursor.start source session).Holds
      (statementRegions (parse source session).1.1.statements) (readAll source session).2 := by
  have collected : readAll source session =
      (((parse source session).1.1.statements, (parse source session).1.2),
        (readAll source session).2) := rfl
  have fills := (Productions.fill_within maxNesting).statement
  rcases Productions.rounds_of_collect fills collected with ⟨middle, rounds, reaches, -⟩
  exact (Productions.holds_of_rounds fills rounds).advance reaches

/-- At the end the next token is the end of the source. -/
theorem token_of_ended {cursor : Cursor} (ended : cursor.tokens = []) :
    cursor.token = cursor.stream.endToken := by
  rcases cursor with ⟨⟨ahead, trailing, stop⟩, previousStop, depth, session⟩
  cases ahead with
  | nil => rfl
  | cons lexeme others => cases ended

/-- The next token, or the end where there is none. -/
theorem sits_token_start (few : source.toList.count '\n' + 1 < 2 ^ 32) :
    (Cursor.start source session).token.span.Sits source := by
  cases tokens : (Cursor.start source session).tokens with
  | nil =>
      have stop : (Cursor.start source session).stream.stop =
          Position.start.after ([] ++ (segments source.toList).flatMap Segment.text) :=
        stop_ofSegments [] [] (segments source.toList)
      rw [List.nil_append, flatMap_text_segments] at stop
      have cut : source.toList = source.toList ++ ([] ++ []) := by simp
      have whole := Span.sits_between few cut
      rw [List.append_nil] at whole
      rw [token_of_ended tokens, TokenStream.endToken, stop]
      exact whole
  | cons token rest =>
      rw [Cursor.token_of_tokens tokens]
      have inside : [token] <:+: (Cursor.start source session).tokens := by
        rw [tokens]
        exact (List.prefix_append [token] rest).isInfix
      exact sits_of_covers few inside ⟨token, token, rfl, rfl, rfl⟩

end Parse

/-- The nodes of the tree of a source lie in the source, each inside of the one around it and behind
the one before it, whether or not the whole source can be read. -/
theorem parse_regions {source : String} {session : Session}
    (few : source.toList.count '\n' + 1 < 2 ^ 32) :
    (parse source session).1.1.region.Fits source := by
  have span : (parse source session).1.1.span =
    (Cursor.start source session).token.span.upTo (readAll source session).2.previousStop := rfl
  have frames : (Cursor.start source session).Frames (parse source session).1.1.region
      (readAll source session).2 := ⟨span, holds_start source session⟩
  rcases Nat.lt_or_ge (Source.remaining (readAll source session).2)
    (Source.remaining (Cursor.start source session)) with moved | stayed
  · rcases frames.whole moved with ⟨taken, crosses, lie⟩
    rcases lie.exists_row List.mem_cons_self with ⟨row, inside, lies⟩
    have among : taken <:+: (Cursor.start source session).tokens := by
      rw [crosses.tokens]
      exact (List.prefix_append _ _).isInfix
    apply lies.fits _ (sits_of_covers few) (inside.trans among)
    rw [tokens_start]
    exact inPlace_gather _ _
  · -- nothing has been taken, so that the tree is empty and stands at the first token
    rcases frames.holds with ⟨taken, crosses, lie⟩
    rw [Cursor.remaining_eq, Cursor.remaining_eq, crosses.tokens, List.length_append] at stayed
    obtain rfl : taken = [] := List.eq_nil_of_length_eq_zero (by omega)
    have empty : statementRegions (parse source session).1.1.statements = [] := by
      by_contra some
      exact lie.ne_nil some rfl
    have here : (parse source session).1.1.span = (Cursor.start source session).token.span := by
      rw [span, crosses.stop]
      rfl
    rw [Tree.region, empty, here]
    exact .node (sits_token_start few) nofun .nil nofun

/-- Two statements, and one in which a parenthesis is missing. -/
def brokenRow : String :=
  "// first\nint a = (1 + 2) * 3;\nif (a) \x7b a = -a; \x7d\nwhile (a \x7b a = 0; \x7d"

/-- The tree goes on to the last token before the missing one, and all that is read lies in it. -/
theorem parse_regions_brokenRow :
    brokenRow.toList.count '\n' + 1 < 2 ^ 32 ∧
    (parse brokenRow .empty).1.2 = some (.unexpectedToken "')'" (.symbol .leftBrace) 4) ∧
    (parse brokenRow .empty).1.1.span = ⟨9, 57, 2⟩ ∧
    (parse brokenRow .empty).1.1.statements.map Stmt.span = [⟨9, 29, 2⟩, ⟨30, 48, 3⟩] ∧
    (parse brokenRow .empty).1.1.expressionNodes.map Expr.span =
      [⟨17, 28, 2⟩, ⟨17, 24, 2⟩, ⟨18, 19, 2⟩, ⟨22, 23, 2⟩, ⟨27, 28, 2⟩, ⟨34, 35, 3⟩, ⟨43, 45, 3⟩,
        ⟨44, 45, 3⟩] ∧
    (parse brokenRow .empty).1.1.region.Fits brokenRow := by
  have few : brokenRow.toList.count '\n' + 1 < 2 ^ 32 := by decide +kernel
  refine ⟨few, ?_, ?_, ?_, ?_, parse_regions few⟩ <;> decide +kernel

end SubsetC
