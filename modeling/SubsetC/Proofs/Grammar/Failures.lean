import Mathlib.Data.List.Basic
import SubsetC.Proofs.Grammar.Lookahead
import SubsetC.Proofs.Grammar.Progress
import SubsetC.Proofs.Grammar.Viability

/-!
# Where reading stops

A source that cannot be read to its end has a first token that is impossible. The tokens before it
are the start of a source that is read without an error, because every production is viable; with
it they are the start of none, because on every such source the parser goes the same way. One syntax
error is reported, and the statements before the failure are kept.
-/

namespace SubsetC

open Grammar

/-- The error says what is wrong with this token. -/
def ParseError.IsAt (token : Token) : ParseError → Prop
  | unexpectedToken _ found line =>
      token.kind = found ∧ found ≠ .endOfInput ∧ line = token.line
  | unexpectedEnd _ line => token.kind = .endOfInput ∧ line = token.line
  | nestingTooDeep line => line = token.line

/-- An unexpected token is the one that is next. -/
theorem ParseError.isAt_unexpected (cursor : Cursor) (expected : String) :
    (cursor.unexpected expected).IsAt cursor.token := by
  unfold Cursor.unexpected
  split
  · rename_i here
    exact ⟨here, rfl⟩
  · rename_i other
    exact ⟨rfl, other, rfl⟩

theorem Token.Kind.Written.ne_endOfInput {kind : Token.Kind} (written : kind.Written) :
    kind ≠ .endOfInput := by
  rintro rfl
  exact written

namespace Cursor

/-- There is always a next token, if only the end. -/
theorem exists_tokens (cursor : Cursor) :
    ∃ after, cursor.stream.tokens = cursor.token :: after := by
  rcases cursor with ⟨⟨ahead, trailing, stop⟩, previousStop, depth, session⟩
  cases ahead with
  | nil => exact ⟨[], rfl⟩
  | cons lexeme others => exact ⟨_, rfl⟩

/-- The tokens on the way from one point to the other, and the next one. -/
theorem Leads.exists_before {first last : Cursor} (leads : first.Leads last) :
    ∃ before after, first.stream.tokens = before ++ last.token :: after ∧
      first.kinds = before.map Token.kind ++ last.kinds := by
  rcases leads.ahead with ⟨passed, ahead⟩
  rcases last.exists_tokens with ⟨after, tokens⟩
  have same : first.stream.tokens = passed.map Lexeme.token ++ last.stream.tokens := by
    simp only [TokenStream.tokens, TokenStream.endToken, ← ahead, ← leads.stop, List.map_append,
      List.append_assoc]
  refine ⟨passed.map Lexeme.token, after, by rw [same, tokens], ?_⟩
  simp [kinds, TokenStream.kinds, ← ahead]

/-- All tokens of a source can be written. -/
theorem written_kinds_start (source : String) (session : Session) {kind : Token.Kind}
    (mem : kind ∈ (start source session).kinds) : kind.Written :=
  TokenStream.written_of_mem_ofSource mem

/-- Two sources that have the same tokens up to and with the next one of `last`. -/
theorem beside_start {source source' : String} {session : Session} (session' : Session)
    {last : Cursor} {taken : List Token.Kind}
    (kinds : (start source session).kinds = taken ++ last.kinds)
    (same : taken ++ [last.kind] <+: (lex source').1.map Token.kind) :
    ∃ rest rest', rest.length < last.window.length ∧
      Beside rest rest' (start source session) (start source' session') := by
  rw [← kinds_start source' session'] at same
  rcases same with ⟨others, same⟩
  cases ahead : last.kinds with
  | nil =>
      -- the first source ends here, and so does the second one
      rw [ahead, List.append_nil] at kinds
      have ended : last.kind = .endOfInput := by rw [kind_eq, ahead]; rfl
      have absent : Token.Kind.endOfInput ∉ (start source' session').kinds :=
        fun mem => (written_kinds_start _ _ mem).ne_endOfInput rfl
      rw [ended, List.append_assoc, List.singleton_append] at same
      have taken' := (List.append_cons_inj_of_notMem absent List.not_mem_nil).mp same.symm
      refine ⟨[], [], ?_, rfl, taken.map some ++ [none], ?_, ?_⟩
      · simp [window]
      · rw [window, kinds, List.append_nil]
      · rw [window, taken'.1, List.append_nil]
  | cons kind more =>
      have here : last.kind = kind := kind_of_kinds ahead
      rw [ahead] at kinds
      have written : kind.Written :=
        written_kinds_start source session (by rw [kinds]; simp)
      rcases List.eq_nil_or_concat others with rfl | ⟨behind, final, rfl⟩
      · rw [here, List.append_nil] at same
        have last := (List.append_inj' same rfl).2
        rw [List.singleton_inj] at last
        exact absurd last written.ne_endOfInput
      · rw [here, List.concat_eq_append, ← List.append_assoc] at same
        have kinds' := (List.append_inj' same rfl).1
        refine ⟨more.map some ++ [none], behind.map some ++ [none], ?_, rfl,
          taken.map some ++ [some kind], ?_, ?_⟩
        · simp [window, ahead]
        · simp [window, kinds]
        · simp [window, ← kinds']

end Cursor

section Parse

variable {source source' : String} {session session' : Session} {error : ParseError}

/-- Reading leads from the start to where it stops. -/
theorem leads_readAll (source : String) (session : Session) :
    (Cursor.start source session).Leads (readAll source session).2 :=
  have viable := Productions.viable_within (Nat.zero_add maxNesting)
  (Cursor.Proceeds.collect _ viable.statement.proceeds rfl).1

/-- A source with the same tokens, up to and with the one at which reading stopped, cannot be read
either. -/
theorem refuses_of_prefix (failed : (parse source session).1.2 = some error)
    {taken : List Token.Kind}
    (kinds : (Cursor.start source session).kinds = taken ++ (readAll source session).2.kinds)
    (same : taken ++ [(readAll source session).2.kind] <+: (lex source').1.map Token.kind) :
    (parse source' session').1.2 ≠ none := by
  rcases Cursor.beside_start session' kinds same with ⟨rest, rest', inside, beside⟩
  have together : Production.Together rest rest'
      (Reader.many (fun cursor => cursor.kind != .endOfInput)
        (Productions.within maxNesting).statement)
      (Reader.many (fun cursor => cursor.kind != .endOfInput)
        (Productions.within maxNesting).statement) := by
    apply Production.Together.many _ (Productions.together_within maxNesting).statement
    intro cursor cursor' same
    rw [same]
  have collected : readAll source session =
      (((readAll source session).1.1, some error), (readAll source session).2) := by
    rw [← failed]
    rfl
  have ran : (Reader.many (fun cursor => cursor.kind != .endOfInput)
      (Productions.within maxNesting).statement).run (.start source session) =
        (.error error, (readAll source session).2) := by
    simp only [Reader.many]
    rw [show Reader.collect _ _ _ = _ from collected]
  rcases together beside ran inside with ⟨outcome', last', ran', sort, -⟩
  cases sort
  intro accepted
  rcases reads_of_parse accepted with ⟨last, reads, -⟩
  rw [Reader.run_many_eq_ok.mpr reads] at ran'
  cases ran'

/-- Behind the statements of the tree no other one that the parser could read stands. -/
theorem too_deep_of_failed {point last : Cursor} (atStart : point.depth = 0)
    (failed : (Productions.within maxNesting).statement.run point = (.error error, last))
    {sentence : Sentence} {behind : List Token.Kind}
    (kinds : point.kinds = sentence.tokens ++ behind) (ends : Ends behind) :
    maxNesting < sentence.nesting := by
  apply Nat.lt_of_not_le
  intro fits
  have complete := (Productions.complete_within (Nat.le_refl maxNesting)).statement
  rw [Nat.sub_self] at complete
  have passes : point.Passes (Productions.within maxNesting).statement.toReader behind := by
    apply complete sentence (Nat.zero_le _) _ kinds ends
    · rw [atStart]
      exact fits
    · omega
  rcases passes with ⟨value, last', ran, -⟩
  rw [failed] at ran
  cases ran

/-- Some source with the tokens before the failure as its first ones can be read. -/
theorem exists_accepted {program : List Sentence} {point last : Cursor}
    (took : (Cursor.start source session).Took (programTokens program) point)
    (fits : Fits program) {taken : List Token.Kind} (kinds : point.kinds = taken ++ last.kinds)
    (reachable : Reachable fun tokens => Form.sentences.Reached 0 (taken ++ tokens)) :
    ∃ source', programTokens program ++ taken <+: (lex source').1.map Token.kind ∧
      ∀ session', (parse source' session').1.2 = none := by
  rcases reachable with ⟨tokens, written, sentence, same, nesting⟩
  have whole : programTokens (program ++ [sentence]) =
      programTokens program ++ taken ++ tokens := by
    rw [programTokens, List.flatMap_append, List.flatMap_singleton, List.append_assoc]
    exact congrArg (programTokens program ++ ·) same
  have derives : Derives (program ++ [sentence]) _ := derives_joined (by
    intro kind mem
    rw [whole, List.mem_append] at mem
    rcases mem with before | behind
    · apply Cursor.written_kinds_start source session
      rw [took.kinds, kinds, ← List.append_assoc]
      exact List.mem_append_left _ before
    · exact written kind behind)
  refine ⟨_, ?_, fun session' => accepts_program derives ?_⟩
  · rw [derives, whole, List.append_assoc _ tokens]
    exact List.prefix_append _ _
  · intro sentence' mem
    rw [List.mem_append, List.mem_singleton] at mem
    rcases mem with before | rfl
    · exact fits sentence' before
    · exact nesting

end Parse

/-- Reading stops at the first token with which no source could go on that is read without an
error. The error is reported once, and the statements before it are kept: they are those of any
source that ends behind the last complete statement. -/
theorem parse_failure {source : String} {session : Session} {error : ParseError}
    (failed : (parse source session).1.2 = some error) :
    (parse source session).2.syntactic =
        session.syntactic ++ [.error .syntactic error.message error.line] ∧
    (∃ complete rest : List Token.Kind,
      (lex source).1.map Token.kind = complete ++ rest ++ [.endOfInput] ∧
      (∃ source', (lex source').1.map Token.kind = complete ++ [.endOfInput]) ∧
      (∀ source' session', (lex source').1.map Token.kind = complete ++ [.endOfInput] →
        (parse source' session').1.2 = none ∧
        statementsBare (parse source' session').1.1.statements =
          statementsBare (parse source session).1.1.statements) ∧
      ∀ (sentence : Sentence) (behind : List Token.Kind), rest = sentence.tokens ++ behind →
        Ends behind → maxNesting < sentence.nesting) ∧
    ∃ (before : List Token) (offending : Token) (after : List Token),
      (lex source).1 = before ++ offending :: after ∧ error.IsAt offending ∧
      ((∀ line, error ≠ .nestingTooDeep line) →
        (∃ source', before.map Token.kind <+: (lex source').1.map Token.kind ∧
          ∀ session', (parse source' session').1.2 = none) ∧
        ∀ source', (before ++ [offending]).map Token.kind <+: (lex source').1.map Token.kind →
          ∀ session', (parse source' session').1.2 ≠ none) := by
  rcases exists_point source session with ⟨program, point, took, fits, denotes, stops⟩
  rw [failed] at stops
  rcases stops with ⟨-, ran⟩
  have leads := leads_readAll source session
  refine ⟨?_, ?_, ?_⟩
  · have session_eq : (parse source session).2 = (readAll source session).2.session.report
        (.error .syntactic error.message error.line) := by
      rw [session_parse, ← failure_parse, failed]
    rw [session_eq, Session.syntactic_report, leads.syntactic]
    exact congrArg (· ++ _) (Cursor.syntactic_reportLexical _ _)
  · refine ⟨programTokens program, point.kinds, ?_, ⟨_, derives_joined ?_⟩, ?_, ?_⟩
    · rw [← Cursor.kinds_start source session, took.kinds]
    · intro kind mem
      apply Cursor.written_kinds_start source session
      rw [took.kinds]
      exact List.mem_append_left _ mem
    · intro source' session' derives
      refine ⟨accepts_program derives fits, ?_⟩
      rw [denotes]
      exact statements_program derives fits
    · intro sentence behind kinds ends
      exact too_deep_of_failed took.depth ran kinds ends
  · have viable := Productions.viable_within (Nat.zero_add maxNesting)
    rcases viable.statement.proceeds point took.depth ran with ⟨-, stuck⟩
    rcases leads.exists_before with ⟨before, after, tokens, kinds⟩
    refine ⟨before, (readAll source session).2.token, after, tokens, ?_, fun shallow => ⟨?_, ?_⟩⟩
    · cases stuck with
      | unexpected expected => exact ParseError.isAt_unexpected _ expected
      | tooDeep => exact rfl
    · cases stuck with
      | @unexpected _ expected taken kinds' reachable =>
          have same : before.map Token.kind = programTokens program ++ taken := by
            rw [took.kinds, kinds', ← List.append_assoc] at kinds
            exact (List.append_cancel_right kinds).symm
          rw [same]
          exact exists_accepted took fits kinds' reachable
      | tooDeep => exact absurd rfl (shallow _)
    · intro source' same session'
      rw [List.map_append, List.map_singleton] at same
      exact refuses_of_prefix failed kinds same

/-- An assignment without a value behind a complete one. -/
theorem parse_failure_missingValue :
    let source := "x = 1;\ny = ;"
    let error := ParseError.unexpectedToken "expression" (.symbol .semicolon) 2
    (parse source .empty).1.2 = some error ∧
    (parse source .empty).2.syntactic = [.error .syntactic error.message 2] ∧
    ∃ (before : List Token) (offending : Token) (after : List Token),
      (lex source).1 = before ++ offending :: after ∧ error.IsAt offending ∧
      (∃ source', before.map Token.kind <+: (lex source').1.map Token.kind ∧
        ∀ session', (parse source' session').1.2 = none) ∧
      ∀ source', (before ++ [offending]).map Token.kind <+: (lex source').1.map Token.kind →
        ∀ session', (parse source' session').1.2 ≠ none := by
  intro source error
  have failed : (parse source .empty).1.2 = some error := by decide +kernel
  rcases parse_failure failed with ⟨reported, -, before, offending, after, tokens, isAt, first⟩
  refine ⟨failed, reported, before, offending, after, tokens, isAt, first ?_⟩
  intro line other
  change ParseError.unexpectedToken _ _ _ = _ at other
  cases other

end SubsetC
