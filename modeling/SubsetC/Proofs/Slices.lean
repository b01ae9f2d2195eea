import SubsetC.Proofs.Grammar.Nodes
import SubsetC.Proofs.Grammar.Recognition
import SubsetC.Proofs.Token.Covering

/-!
# The text of a node

Every node of a tree can be read again from its own text. The text consists of whole segments of the
source, and segments that stand in a row are lexed alone as they are among others, so the text has
the tokens of the node. These have one derivation, which the parser reads.
-/

namespace SubsetC

open Grammar

namespace Segment

theorem gather_append {α : Type} (become : List Char → Segment → Option α) (before : List Char)
    (cut cut' : List Segment) : gather become before (cut ++ cut') =
      gather become before cut ++ gather become (before ++ cut.flatMap text) cut' := by
  induction cut generalizing before with
  | nil => simp [gather]
  | cons segment cut ih => simp [gather, ih]

theorem kinds_gather (before : List Char) (cut : List Segment) :
    (gather token? before cut).map Token.kind =
      cut.filterMap fun segment => segment.role.kind? := by
  induction cut generalizing before with
  | nil => rfl
  | cons segment cut ih =>
      rw [gather, List.map_append, ih, List.filterMap_cons, token?]
      cases segment.role.kind? <;> rfl

/-- Each token comes from a segment. -/
theorem exists_segment {cut : List Segment} {before : List Char} {earlier later : List Token}
    {token : Token} (same : gather token? before cut = earlier ++ token :: later) :
    ∃ front segment rest, cut = front ++ segment :: rest ∧ gather token? before front = earlier ∧
      segment.token? (before ++ front.flatMap text) = some token ∧
      gather token? (before ++ front.flatMap text ++ segment.text) rest = later := by
  induction cut generalizing before earlier with
  | nil => simp [gather] at same
  | cons segment cut ih =>
      rw [gather] at same
      cases found : segment.token? before with
      | none =>
          rw [found] at same
          rcases ih same with ⟨front, segment', rest, rfl, gathered, here, behind⟩
          refine ⟨segment :: front, segment', rest, rfl, ?_, ?_, ?_⟩
          · rw [gather, found]
            exact gathered
          · simpa using here
          · simpa using behind
      | some token' =>
          rw [found] at same
          cases earlier with
          | nil =>
              rcases List.cons.inj same with ⟨rfl, behind⟩
              exact ⟨[], segment, cut, rfl, rfl, by simpa using found, by simpa using behind⟩
          | cons first earlier =>
              rcases List.cons.inj same with ⟨rfl, others⟩
              rcases ih others with ⟨front, segment', rest, rfl, gathered, here, behind⟩
              refine ⟨segment :: front, segment', rest, rfl, ?_, ?_, ?_⟩
              · rw [gather, found, gathered]
                rfl
              · simpa using here
              · simpa using behind

/-- Tokens in a row come from segments in a row, and a span that covers the tokens is that of the
segments. -/
theorem exists_segments {cut : List Segment} {earlier row later : List Token} {span : Span}
    (same : gather token? [] cut = earlier ++ (row ++ later)) (covers : span.Covers row) :
    ∃ front inside rest, cut = front ++ (inside ++ rest) ∧
      gather token? (front.flatMap text) inside = row ∧
      span = .between (Position.start.after (front.flatMap text))
        (Position.start.after (front.flatMap text ++ inside.flatMap text)) := by
  rcases covers with ⟨opening, closing, first, last, rfl⟩
  rcases List.head?_eq_some_iff.mp first with ⟨others, rfl⟩
  rcases exists_segment same with ⟨front, segment, rest, rfl, -, here, behind⟩
  rw [List.nil_append] at here behind
  rcases List.eq_nil_or_concat others with rfl | ⟨between, final, rfl⟩
  · cases last
    refine ⟨front, [segment], rest, rfl, ?_, ?_⟩
    · rw [gather, here]
      rfl
    · simp [span_token? here, span, Span.upTo, Span.between]
  · rw [List.concat_eq_append, ← List.cons_append, List.getLast?_concat] at last
    cases last
    change gather token? _ rest = between.concat closing ++ later at behind
    rw [List.concat_eq_append, List.append_assoc] at behind
    rcases exists_segment behind with ⟨middle, segment', rest, rfl, gathered, there, -⟩
    refine ⟨front, segment :: middle ++ [segment'], rest, by simp, ?_, ?_⟩
    · rw [List.cons_append, gather, here, gather_append, gathered, gather, there]
      simp [gather]
    · simp [span_token? here, span_token? there, span, Span.upTo, Span.between]

end Segment

open Segment

theorem tokens_start (source : String) (session : Session) :
    (Cursor.start source session).tokens = gather token? [] (segments source.toList) :=
  tokens_ofSegments [] [] (segments source.toList)

/-- Tokens in a row are those of the text that they cover. -/
theorem exists_slice {source : String} {session : Session} {row : List Token} {span : Span}
    (inside : row <:+: (Cursor.start source session).tokens) (covers : span.Covers row) :
    ∃ slice, span.text? source = some slice ∧
      (lex slice).1.map Token.kind = row.map Token.kind ++ [.endOfInput] := by
  rw [tokens_start] at inside
  rcases inside with ⟨earlier, later, same⟩
  rw [List.append_assoc] at same
  rcases exists_segments same.symm covers with ⟨front, part, rest, cut, gathered, rfl⟩
  have whole := flatMap_text_segments source.toList
  have inTurn := inTurn_segments source.toList
  rw [cut] at whole inTurn
  rw [List.flatMap_append, List.flatMap_append] at whole
  refine ⟨_, Span.text?_between whole.symm, ?_⟩
  have lexed := inTurn.of_append_right.of_append_left.lex_eq String.toList_ofList
  rw [lexed, ← gathered]
  simp [kinds_gather, endOf]

section Parse

variable {source : String} {session : Session}

/-- All nodes of what is read from a source stand among its tokens. -/
theorem stand_of_parse (accepted : (parse source session).1.2 = none) :
    Stmt.AllStand (Cursor.start source session).tokens
      (parse source session).1.1.statementNodes := by
  rcases reads_of_parse accepted with ⟨last, reads, -⟩
  exact (Productions.stand_of_repeats (Productions.place_within maxNesting).statement reads).2

/-- A text with the tokens of an expression is read to this expression, up to its end. -/
theorem expression_of_kinds (session : Session) {phrase : Phrase 6}
    (kinds : (lex source).1.map Token.kind = phrase.tokens ++ [.endOfInput])
    (fits : phrase.nesting ≤ maxNesting) :
    ∃ expr last, (Cursor.start source session).expression = (.ok expr, last) ∧ last.kinds = [] ∧
      expr.bare = phrase.tree := by
  rw [← Cursor.kinds_start source session] at kinds
  have next : (Cursor.start source session).kinds = phrase.tokens ++ [] := by
    rw [List.append_nil]
    exact List.append_cancel_right kinds
  have stops : Stops 6 [] := by
    intro op low same
    cases same
  have complete := (Productions.complete_within (Nat.le_refl maxNesting)).expression
  rw [Nat.sub_self] at complete
  rcases complete phrase (Nat.zero_le _) (Nat.zero_le _) next stops fits with
    ⟨expr, last, ran, ended, -⟩
  refine ⟨expr, last, ran, ended, ?_⟩
  rcases (Productions.sound_within maxNesting).expression ran with ⟨phrase', took, -, denotes⟩
  have same := took.kinds
  rw [next, ended] at same
  rw [show expr.bare = _ from denotes, (Phrase.unique phrase phrase' stops stops same).1]

end Parse

/-- Each expression of a tree is read again from the text that its span covers, up to the end of
this text, and each statement is alone in the text that its span covers. -/
theorem parse_slices {source : String} {session : Session}
    (accepted : (parse source session).1.2 = none) :
    (∀ expr ∈ (parse source session).1.1.expressionNodes,
      ∃ slice, expr.span.text? source = some slice ∧
        ∀ session', ∃ expr' last, (Cursor.start slice session').expression = (.ok expr', last) ∧
          last.kinds = [] ∧ expr'.bare = expr.bare) ∧
    ∀ stmt ∈ (parse source session).1.1.statementNodes,
      ∃ slice, stmt.span.text? source = some slice ∧
        ∀ session', (parse slice session').1.2 = none ∧
          statementsBare (parse slice session').1.1.statements = [stmt.bare] := by
  have stand := stand_of_parse accepted
  constructor
  · intro expr mem
    rcases List.mem_flatMap.mp mem with ⟨outer, own, inside⟩
    rcases List.mem_flatMap.mp own with ⟨stmt, isNode, own⟩
    rcases (stand stmt isNode).2 outer own expr inside with
      ⟨row, phrase, within, covers, kinds, fits, denotes⟩
    rcases exists_slice within covers with ⟨slice, text, lexed⟩
    rw [kinds] at lexed
    refine ⟨slice, text, fun session' => ?_⟩
    rcases expression_of_kinds session' lexed fits with
      ⟨expr', last, ran, ended, denotes'⟩
    exact ⟨expr', last, ran, ended, denotes'.trans denotes.symm⟩
  · intro stmt mem
    rcases (stand stmt mem).1 with ⟨row, sentence, within, covers, kinds, fits, denotes⟩
    rcases exists_slice within covers with ⟨slice, text, lexed⟩
    have derives : Derives [sentence] slice := by
      rw [Derives, lexed, kinds, programTokens, List.flatMap_singleton]
      rfl
    have fitsAlone : Fits [sentence] := by
      intro sentence' mem
      rw [List.mem_singleton.mp mem]
      exact fits
    refine ⟨slice, text, fun session' => ⟨accepts_program derives fitsAlone, ?_⟩⟩
    rw [statements_program derives fitsAlone]
    exact congrArg (fun tree => [tree]) (Eq.symm denotes)

/-- A row with parentheses and a comment, behind `else if`. -/
def nestedRow : String :=
  "if (a) \x7b \x7d else if (b) \x7b x = a - (b /* c */ * 2) - 1; \x7d"

/-- Each part of the row has a text of its own, and so has each statement. -/
theorem parse_slices_nestedRow :
    (parse nestedRow .empty).1.2 = none ∧
    (parse nestedRow .empty).1.1.expressionNodes.map (fun expr => expr.span.text? nestedRow) =
      [some "a", some "b", some "a - (b /* c */ * 2) - 1", some "a - (b /* c */ * 2)", some "a",
        some "(b /* c */ * 2)", some "b", some "2", some "1"] ∧
    (parse nestedRow .empty).1.1.statementNodes.map (fun stmt => stmt.span.text? nestedRow) =
      [some nestedRow, some "if (b) \x7b x = a - (b /* c */ * 2) - 1; \x7d",
        some "x = a - (b /* c */ * 2) - 1;"] ∧
    (∀ expr ∈ (parse nestedRow .empty).1.1.expressionNodes,
      ∃ slice, expr.span.text? nestedRow = some slice ∧
        ∀ session', ∃ expr' last, (Cursor.start slice session').expression = (.ok expr', last) ∧
          last.kinds = [] ∧ expr'.bare = expr.bare) ∧
    ∀ stmt ∈ (parse nestedRow .empty).1.1.statementNodes,
      ∃ slice, stmt.span.text? nestedRow = some slice ∧
        ∀ session', (parse slice session').1.2 = none ∧
          statementsBare (parse slice session').1.1.statements = [stmt.bare] := by
  have accepted : (parse nestedRow .empty).1.2 = none := by decide +kernel
  exact ⟨accepted, by decide +kernel, by decide +kernel, parse_slices accepted⟩

end SubsetC
