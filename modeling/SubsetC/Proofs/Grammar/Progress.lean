import SubsetC.Proofs.Grammar.Recognition
import SubsetC.Proofs.Token.RoundTrip

/-!
# What has been read when reading stops

Whether or not a source is read to its end, the statements of its tree are derived: they are the
trees of a program whose tokens stand at the start of the source. A failure leaves the parser behind
these tokens, in front of a statement that cannot be read.
-/

namespace SubsetC

open Grammar

namespace Productions

variable {statement : TokenStep Stmt} {cursor last : Cursor}

/-- The statements that are read in some rounds are derived. -/
theorem sound_rounds (sound : Form.sentences.Sound statement.toReader) {wanted : Cursor → Bool}
    {statements : List Stmt} (rounds : Reader.Rounds wanted statement cursor statements last) :
    ∃ program : List Sentence, cursor.Took (programTokens program) last ∧
      (∀ sentence ∈ program, sentence.nesting ≤ maxNesting - cursor.depth) ∧
      statementsBare statements = program.map Sentence.tree := by
  induction rounds with
  | @nil cursor => exact ⟨[], .refl cursor, by simp, rfl⟩
  | cons isWanted ran others ih =>
      rcases sound ran with ⟨sentence, took, nesting, denotes⟩
      rcases ih with ⟨program, took', nestings, denotes'⟩
      rw [took.depth] at nestings
      refine ⟨sentence :: program, took.trans took', ?_, ?_⟩
      · rw [List.forall_mem_cons]
        exact ⟨nesting, nestings⟩
      · rw [statementsBare, denotes', show Stmt.bare _ = _ from denotes]
        rfl

end Productions

/-- A program whose tokens can be written is derived from them. -/
theorem derives_joined {program : List Sentence}
    (written : ∀ kind ∈ programTokens program, kind.Written) :
    Derives program (String.ofList (Segment.joined (programTokens program))) := by
  change (TokenStream.ofSource _).tokens.map Token.kind = _
  rw [TokenStream.kinds_tokens,
    TokenStream.kinds_ofSource_joined written String.toList_ofList]

/-- The statements of a tree have been read from the start of the source, up to a point from which
nothing more is read. -/
theorem exists_point (source : String) (session : Session) :
    ∃ (program : List Sentence) (point : Cursor),
      (Cursor.start source session).Took (programTokens program) point ∧ Fits program ∧
      statementsBare (parse source session).1.1.statements = program.map Sentence.tree ∧
      match (parse source session).1.2 with
      | none => point.kind = .endOfInput ∧ (readAll source session).2 = point
      | some error => point.kind ≠ .endOfInput ∧
          (Productions.within maxNesting).statement.run point =
            (.error error, (readAll source session).2) := by
  have collected : readAll source session =
      (((parse source session).1.1.statements, (parse source session).1.2),
        (readAll source session).2) := rfl
  rcases Reader.rounds_of_collect collected with ⟨point, rounds, ends⟩
  rcases Productions.sound_rounds (Productions.sound_within maxNesting).statement rounds with
    ⟨program, took, fits, denotes⟩
  refine ⟨program, point, took, fits, denotes, ?_⟩
  cases failure : (parse source session).1.2 with
  | none =>
      rw [failure] at ends
      exact ⟨bne_eq_false_iff_eq.mp ends.1, ends.2⟩
  | some error =>
      rw [failure] at ends
      exact ⟨bne_iff_ne.mp ends.1, ends.2⟩

end SubsetC
