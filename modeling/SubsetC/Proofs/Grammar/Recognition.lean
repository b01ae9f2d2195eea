import SubsetC.Proofs.Grammar.Completeness

/-!
# The parser recognizes the grammar

A program is a row of statements up to the end of the source. `parse_recognizes` says which sources
the parser reads without an error, that each of them has a single derivation, and that the tree of
this derivation is the one that is read.
-/

namespace SubsetC

namespace Grammar

/-- The tokens of statements in a row. -/
def programTokens (program : List Sentence) : List Token.Kind :=
  program.flatMap Sentence.tokens

/-- The program is a derivation of the source. -/
def Derives (program : List Sentence) (source : String) : Prop :=
  (lex source).1.map Token.kind = programTokens program ++ [.endOfInput]

/-- The statements lie in each other no deeper than the parser goes. -/
def Fits (program : List Sentence) : Prop :=
  ∀ sentence ∈ program, sentence.nesting ≤ maxNesting

/-- At most the end of the source comes next. -/
def Ended (rest : List Token.Kind) : Prop :=
  rest.head?.getD .endOfInput = .endOfInput

/-- Neither a statement nor the end of the source starts with `else`. -/
theorem ends_programTokens (program : List Sentence) {rest : List Token.Kind}
    (ended : Ended rest) : Ends (programTokens program ++ rest) := by
  cases program with
  | nil =>
      intro next
      rw [Ended, show rest.head? = _ from next] at ended
      cases ended
  | cons first others =>
      rcases first.head_tokens with ⟨kind, behind, tokens, -, other, -⟩
      simpa [Ends, programTokens, tokens] using other

/-- Where at most the end of the source comes next, there is no statement. -/
theorem eq_nil_of_ended {program : List Sentence} {rest : List Token.Kind}
    (ended : Ended (programTokens program ++ rest)) : program = [] := by
  cases program with
  | nil => rfl
  | cons first others =>
      rcases first.head_tokens with ⟨kind, behind, tokens, -, -, other⟩
      rw [programTokens, List.flatMap_cons, tokens] at ended
      exact absurd ended other

theorem program_unique {first second : List Sentence} {rest rest' : List Token.Kind}
    (ended : Ended rest) (ended' : Ended rest')
    (same : programTokens first ++ rest = programTokens second ++ rest') : first = second := by
  induction first generalizing second with
  | nil =>
      rw [show rest = _ from same] at ended
      exact (eq_nil_of_ended ended).symm
  | cons sentence others ih =>
      cases second with
      | nil =>
          rw [show rest' = _ from same.symm] at ended'
          exact eq_nil_of_ended ended'
      | cons sentence' others' =>
          rw [programTokens, programTokens, List.flatMap_cons, List.flatMap_cons,
            List.append_assoc, List.append_assoc] at same
          rcases Sentence.unique sentence sentence' (ends_programTokens others ended)
            (ends_programTokens others' ended') same with ⟨rfl, behind⟩
          rw [ih behind]

theorem derivation_unique {source : String} {first second : List Sentence}
    (derives : Derives first source) (derives' : Derives second source) : first = second :=
  have ended : Ended [.endOfInput] := rfl
  program_unique ended ended (derives.symm.trans derives')

end Grammar

open Grammar

namespace Productions

variable {statement : TokenStep Stmt} {cursor last : Cursor}

/-- The statements of a program lie no deeper than the program. -/
theorem sound_program (sound : Form.sentences.Sound statement.toReader) {wanted : Cursor → Bool}
    {statements : List Stmt} (repeats : Reader.Repeats wanted statement cursor statements last) :
    ∃ program : List Sentence, cursor.Took (programTokens program) last ∧
      (∀ sentence ∈ program, sentence.nesting ≤ maxNesting - cursor.depth) ∧
      statementsBare statements = program.map Sentence.tree := by
  induction repeats with
  | @stop cursor unwanted => exact ⟨[], .refl cursor, by simp, rfl⟩
  | again isWanted ran others ih =>
      rcases sound ran with ⟨sentence, took, nesting, denotes⟩
      rcases ih with ⟨program, took', nestings, denotes'⟩
      rw [took.depth] at nestings
      refine ⟨sentence :: program, took.trans took', ?_, ?_⟩
      · rw [List.forall_mem_cons]
        exact ⟨nesting, nestings⟩
      · rw [statementsBare, denotes', show Stmt.bare _ = _ from denotes]
        rfl

theorem complete_program {least : Nat}
    (complete : Form.sentences.Complete least statement.toReader) (program : List Sentence)
    {rest : List Token.Kind} (deep : least ≤ cursor.depth) (shallow : cursor.depth ≤ maxNesting)
    (next : cursor.kinds = programTokens program ++ rest) (ended : Ended rest)
    (fits : ∀ sentence ∈ program, sentence.nesting ≤ maxNesting - cursor.depth) :
    ∃ statements last, Reader.Repeats (fun cursor => cursor.kind != .endOfInput) statement cursor
      statements last := by
  induction program generalizing cursor with
  | nil =>
      refine ⟨[], cursor, .stop ?_⟩
      rw [Cursor.kind_eq, next]
      exact bne_eq_false_iff_eq.mpr ended
  | cons sentence others ih =>
      rw [List.forall_mem_cons] at fits
      rw [programTokens, List.flatMap_cons, List.append_assoc] at next
      rcases complete sentence deep shallow next (ends_programTokens others ended) fits.1 with
        ⟨value, middle, ran, kinds, depth⟩
      rcases ih (depth ▸ deep) (depth ▸ shallow) kinds (depth ▸ fits.2) with
        ⟨statements, last, repeats⟩
      refine ⟨value :: statements, last, .again ?_ ran repeats⟩
      rcases sentence.head_tokens with ⟨kind, behind, tokens, -, -, other⟩
      rw [tokens] at next
      rw [Cursor.kind_of_kinds next]
      exact bne_iff_ne.mpr other

end Productions

namespace Cursor

theorem kinds_start (source : String) (session : Session) :
    (start source session).kinds ++ [.endOfInput] = (lex source).1.map Token.kind :=
  (TokenStream.kinds_tokens _).symm

/-- Behind the last statement no token is left. -/
theorem kinds_eq_nil {source : String} {session : Session} {last : Cursor}
    {tokens : List Token.Kind} (took : (start source session).Took tokens last)
    (done : (last.kind != .endOfInput) = false) : last.kinds = [] := by
  cases kinds : last.kinds with
  | nil => rfl
  | cons kind rest =>
      rw [kind_of_kinds kinds, bne_eq_false_iff_eq] at done
      have written : kind.Written := by
        apply TokenStream.written_of_mem_ofSource
        change kind ∈ (start source session).kinds
        rw [took.kinds, kinds]
        simp
      rw [done] at written
      exact written.elim

end Cursor

section Parse

variable {source : String} {session : Session}

/-- The statements are read one behind the other up to the end of the source. -/
def Reads (source : String) (session : Session) (statements : List Stmt) (last : Cursor) : Prop :=
  Reader.Repeats (fun cursor => cursor.kind != .endOfInput)
    (Productions.within maxNesting).statement (.start source session) statements last

/-- All statements that can be read, and the failure at which reading stops. -/
def readAll (source : String) (session : Session) : (List Stmt × Option ParseError) × Cursor :=
  Reader.collect (fun cursor => cursor.kind != .endOfInput)
    (Productions.within maxNesting).statement (.start source session)

theorem failure_parse : (parse source session).1.2 = (readAll source session).1.2 := rfl

theorem session_parse : (parse source session).2 =
    match (readAll source session).1.2 with
    | none => (readAll source session).2.session
    | some error =>
        (readAll source session).2.session.report
          (.error .syntactic error.message error.line) := rfl

theorem reads_of_parse (accepted : (parse source session).1.2 = none) :
    ∃ last, Reads source session (parse source session).1.1.statements last ∧
      (parse source session).2 = last.session := by
  rw [failure_parse] at accepted
  have collected : readAll source session =
      (((readAll source session).1.1, none), (readAll source session).2) := by rw [← accepted]
  refine ⟨(readAll source session).2, Reader.repeats_of_collect collected, ?_⟩
  rw [session_parse, accepted]

theorem parse_of_reads {statements : List Stmt} {last : Cursor}
    (reads : Reads source session statements last) : (parse source session).1.2 = none := by
  have collected : readAll source session = ((statements, none), last) :=
    Reader.collect_of_repeats reads
  rw [failure_parse, collected]

/-- What is read without an error is derived. -/
theorem exists_program (accepted : (parse source session).1.2 = none) :
    ∃ program : List Sentence, Derives program source ∧ Fits program ∧
        statementsBare (parse source session).1.1.statements = program.map Sentence.tree ∧
        (parse source session).2.temporaries = session.temporaries ∧
        (parse source session).2.labels = session.labels := by
  rcases reads_of_parse accepted with ⟨last, reads, same⟩
  rcases Productions.sound_program (Productions.sound_within maxNesting).statement reads with
    ⟨program, took, fits, denotes⟩
  have counters := Cursor.session_reportLexical session
    (TokenStream.ofSource source).current.errors
  refine ⟨program, ?_, fits, denotes, ?_, ?_⟩
  · rw [Derives, ← Cursor.kinds_start source session, took.kinds,
      Cursor.kinds_eq_nil took reads.unwanted, List.append_nil]
  · rw [same, took.temporaries]
    exact counters.1
  · rw [same, took.labels]
    exact counters.2

/-- What is derived within the levels there are is read. -/
theorem accepts_program {program : List Sentence} (derives : Derives program source)
    (fits : Fits program) : (parse source session).1.2 = none := by
  rw [Derives, ← Cursor.kinds_start source session] at derives
  have complete := (Productions.complete_within (Nat.le_refl maxNesting)).statement
  rw [Nat.sub_self] at complete
  have next : (Cursor.start source session).kinds = programTokens program ++ [] := by
    rw [List.append_nil]
    exact List.append_cancel_right derives
  rcases Productions.complete_program complete program (Nat.zero_le _) (Nat.zero_le _) next rfl
    fits with ⟨statements, last, reads⟩
  exact parse_of_reads reads

/-- The tree that is read is the one of the derivation. -/
theorem statements_program {program : List Sentence} (derives : Derives program source)
    (fits : Fits program) :
    statementsBare (parse source session).1.1.statements = program.map Sentence.tree := by
  have accepted : (parse source session).1.2 = none := accepts_program derives fits
  rcases exists_program accepted with ⟨program', derives', -, denotes, -⟩
  rw [denotes, derivation_unique derives' derives]

end Parse

/-- The parser reads just the sources that are derived within the levels there are. Such a source
has one derivation, whose tree is read. -/
theorem parse_recognizes (source : String) (session : Session) :
    ((parse source session).1.2 = none ↔
      ∃ program : List Sentence, Derives program source ∧ Fits program) ∧
    ∀ program : List Sentence, Derives program source →
      (∀ program' : List Sentence, Derives program' source → program' = program) ∧
      (Fits program →
        statementsBare (parse source session).1.1.statements = program.map Sentence.tree) := by
  constructor
  · constructor
    · intro accepted
      rcases exists_program accepted with ⟨program, derives, fits, -⟩
      exact ⟨program, derives, fits⟩
    · rintro ⟨program, derives, fits⟩
      exact accepts_program derives fits
  · intro program derives
    exact ⟨fun program' derives' => derivation_unique derives' derives,
      statements_program derives⟩

end SubsetC
