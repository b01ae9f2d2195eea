import SubsetC.Proofs.Grammar.Alike
import SubsetC.Proofs.Grammar.Congruence
import SubsetC.Proofs.Grammar.Recognition

/-!
# The levels are given back

The parser counts the levels that it is in. However a call ends, the count is then what it was
before, and on the way it is never more than `maxNesting`: a parser that is watched, and that does
anything else where the count is higher, does the same. So what nesting a parser accepts does not
depend on the calls before, nor on whether they have failed.
-/

namespace SubsetC

open Grammar

/-! ## Two productions at one depth -/

namespace Production

/-- At this depth the productions do the same, and at the end they are at it again. -/
def SameAt (depth : Nat) ⦃α : Type⦄ (first second : Production α) : Prop :=
  ∀ cursor : Cursor, cursor.depth = depth →
    second.run cursor = first.run cursor ∧ (first.run cursor).2.depth = depth

namespace SameAt

variable {α β : Type} {depth : Nat}

theorem of_keeps {production : Production α}
    (keeps : ∀ cursor, (production.run cursor).2.depth = cursor.depth) :
    SameAt depth production production :=
  fun cursor here => ⟨rfl, (keeps cursor).trans here⟩

theorem accept (expected : String) (accepted : Token.Kind → Option α) :
    SameAt depth (TokenStep.accept expected accepted).toReader
      (TokenStep.accept expected accepted).toReader := by
  apply of_keeps
  intro cursor
  simp only [TokenStep.accept]
  split
  · rfl
  · split <;> rfl

theorem bind {first first' : Production β} {second second' : β → Production α}
    (early : SameAt depth first first')
    (late : ∀ value, SameAt depth (second value) (second' value)) :
    SameAt depth (first >>= second) (first' >>= second') := by
  intro cursor here
  rcases early cursor here with ⟨same, back⟩
  rw [Reader.run_bind, Reader.run_bind, same]
  rcases ran : first.run cursor with ⟨_ | value, middle⟩
  · rw [ran] at back
    exact ⟨rfl, back⟩
  · rw [ran] at back
    exact late value middle back

theorem choose {reader reader' : Cursor → Production α}
    (same : ∀ cursor, SameAt depth (reader cursor) (reader' cursor)) :
    SameAt depth (Reader.choose reader) (Reader.choose reader') :=
  fun cursor => same cursor cursor

/-- The induction is on the rounds of the first loop, which the second one follows. -/
theorem iterate {next next' : α → Cursor → Option (TokenStep α)}
    (rounds : ∀ value cursor, Option.Rel (fun step step' : TokenStep α =>
      SameAt depth step.toReader step'.toReader) (next value cursor) (next' value cursor))
    (value : α) : SameAt depth (Reader.iterate next value) (Reader.iterate next' value) := by
  intro cursor here
  change (Reader.iterate next' value).run cursor = Reader.iterateFrom next value cursor ∧
    (Reader.iterateFrom next value cursor).2.depth = depth
  have round := rounds value cursor
  fun_induction Reader.iterateFrom next value cursor with
  | case1 value cursor unwanted =>
      rw [unwanted] at round
      generalize unwanted' : next' value cursor = found at round
      cases round with
      | none => exact ⟨Reader.run_iterate_of_none unwanted', here⟩
  | case2 value cursor step wanted error last failed =>
      rw [wanted] at round
      generalize wanted' : next' value cursor = found at round
      cases round with
      | some same =>
          rcases same cursor here with ⟨ran, back⟩
          rw [failed] at ran back
          exact ⟨Reader.run_iterate_of_error wanted' ran, back⟩
  | case3 value cursor step wanted value' middle succeeded ih =>
      rw [wanted] at round
      generalize wanted' : next' value cursor = found at round
      cases round with
      | some same =>
          rcases same cursor here with ⟨ran, back⟩
          rw [succeeded] at ran back
          rw [Reader.run_iterate_of_some wanted' ran]
          exact ih back (rounds value' middle)

theorem collect {step step' : TokenStep α} (same : SameAt depth step.toReader step'.toReader)
    (wanted : Cursor → Bool) {cursor : Cursor} (here : cursor.depth = depth) :
    Reader.collect wanted step' cursor = Reader.collect wanted step cursor ∧
      (Reader.collect wanted step cursor).2.depth = depth := by
  fun_induction Reader.collect wanted step cursor with
  | case1 cursor isWanted error last failed =>
      rcases same cursor here with ⟨ran, back⟩
      rw [failed] at ran back
      exact ⟨Reader.collect_of_error isWanted ran, back⟩
  | case2 cursor isWanted value middle succeeded values failure last found ih =>
      rcases same cursor here with ⟨ran, back⟩
      rw [succeeded] at ran back
      rcases ih back with ⟨others, back⟩
      rw [Reader.collect_of_ok isWanted ran, others, found]
      rw [found] at back
      exact ⟨rfl, back⟩
  | case3 cursor unwanted =>
      exact ⟨Reader.collect_of_unwanted (Bool.eq_false_iff.mpr unwanted), here⟩

theorem many {step step' : TokenStep α} (same : SameAt depth step.toReader step'.toReader)
    (wanted : Cursor → Bool) :
    SameAt depth (Reader.many wanted step) (Reader.many wanted step') := by
  intro cursor here
  rcases same.collect wanted here with ⟨row, back⟩
  refine ⟨by simp only [Reader.many, row], ?_⟩
  simp only [Reader.many]
  split <;> rename_i collected <;> rwa [collected] at back

theorem congruence (depth : Nat) : Congruence (SameAt depth) where
  pure value := of_keeps fun _ => rfl
  fail error := of_keeps fun _ => rfl
  inspect view := of_keeps fun _ => rfl
  accept := accept
  checkDeclared identifier := of_keeps fun _ => rfl
  declare type identifier := of_keeps fun _ => rfl
  bind := bind
  choose := choose
  iterate same := iterate fun value cursor => by
    split
    · exact .some (same value)
    · exact .none
  many := many

/-- One level deeper there is nothing to compare if there is no such level. -/
theorem nested {step step' : TokenStep α}
    (inside : depth < maxNesting → SameAt (depth + 1) step.toReader step'.toReader) :
    SameAt depth (TokenStep.nested step).toReader (TokenStep.nested step').toReader := by
  intro cursor here
  rw [TokenStep.run_nested, TokenStep.run_nested]
  split
  · exact ⟨rfl, here⟩
  · rename_i room
    rcases inside (by omega) { cursor with depth := cursor.depth + 1 } (congrArg (· + 1) here) with
      ⟨same, back⟩
    rw [same]
    exact ⟨rfl, by simp only [back, Nat.add_sub_cancel]⟩

end SameAt

end Production

/-! ## A parser that is watched -/

/-- The step, or the other one if the parser is in too many levels before it or behind it. -/
def TokenStep.watched {α : Type} (other step : TokenStep α) : TokenStep α where
  run cursor :=
    if cursor.depth ≤ maxNesting ∧ (step.run cursor).2.depth ≤ maxNesting then step.run cursor
    else other.run cursor
  remaining_le cursor := by
    split
    · exact step.remaining_le cursor
    · exact other.remaining_le cursor
  remaining_lt {cursor _ _} equation := by
    split at equation
    · exact step.remaining_lt equation
    · exact other.remaining_lt equation

namespace Production.SameAt

variable {α : Type} {depth : Nat} {step step' : TokenStep α}

theorem watched (same : SameAt depth step.toReader step'.toReader) (shallow : depth ≤ maxNesting)
    (other : TokenStep α) :
    SameAt depth step.toReader (TokenStep.watched other step').toReader := by
  intro cursor here
  rcases same cursor here with ⟨ran, back⟩
  have within : cursor.depth ≤ maxNesting ∧ (step'.run cursor).2.depth ≤ maxNesting := by
    rw [ran, back, here]
    exact ⟨shallow, shallow⟩
  exact ⟨(if_pos within).trans ran, back⟩

end Production.SameAt

namespace Productions

open Production TokenStep

variable (other : Productions)

/-- The productions of one level, each of them watched. -/
def watchedLevel (inner : Productions) : Productions :=
  let operand := watched other.operand (operandOver inner)
  let expression := watched other.expression (expressionOver operand)
  let block := watched other.block (blockOver inner)
  ⟨operand, expression, block, watched other.statement (statementOver expression block)⟩

/-- The productions where `room` more levels may be entered, each of them watched on every level. No
deeper level is needed, so what stands for one is arbitrary. -/
def watchedWithin : (room : Nat) → Productions
  | 0 => watchedLevel other other
  | room + 1 => watchedLevel other (watchedWithin room)

variable {depth : Nat}

theorem sameAt_level (shallow : depth ≤ maxNesting) {inner inner' : Productions}
    (inside : Related (SameAt depth) inner.inward inner'.inward) :
    Related (SameAt depth) (level inner) (watchedLevel other inner') :=
  have congruence := SameAt.congruence depth
  have operand := (congruence.operandOver inside).watched shallow other.operand
  have expression := (congruence.expressionOver operand).watched shallow other.expression
  have block := (congruence.blockOver inside).watched shallow other.block
  have statement := (congruence.statementOver expression block).watched shallow other.statement
  ⟨operand, expression, block, statement⟩

/-- In all levels that there are, a parser does the same if it is watched. -/
theorem sameAt_within {room : Nat} (whole : depth + room = maxNesting) :
    Related (SameAt depth) (within room) (watchedWithin other room) := by
  induction room generalizing depth with
  | zero =>
      -- The deepest level refuses to go on, so nothing is asked about the levels below.
      have inner {α : Type} {step step' : TokenStep α} :
          SameAt depth (nested step).toReader (nested step').toReader :=
        .nested fun deeper => absurd deeper (by omega)
      exact sameAt_level other (Nat.le_of_eq whole) ⟨inner, inner, inner, inner⟩
  | succ room ih =>
      have inner : Related (SameAt (depth + 1)) (within room) (watchedWithin other room) :=
        ih (by omega)
      apply sameAt_level other (by omega)
      exact ⟨.nested fun _ => inner.operand, .nested fun _ => inner.expression,
        .nested fun _ => inner.block, .nested fun _ => inner.statement⟩

end Productions

/-! ## Calls -/

namespace Cursor

/-- What a parser is asked for: something that others are made of, or a whole tree. -/
inductive Entry where
  | expression
  | block
  | statement
  | tree
  deriving DecidableEq, Repr

/-- The parser after it has been asked, whether or not it has succeeded. -/
def enter (cursor : Cursor) : Entry → Cursor
  | .expression => cursor.expression.2
  | .block => cursor.block.2
  | .statement => cursor.statement.2
  | .tree => cursor.tree.2

/-- Reads a tree with a production for its statements. -/
def treeOver (statement : TokenStep Stmt) (cursor : Cursor) : (Tree × Option ParseError) × Cursor :=
  let row := Reader.collect (fun cursor => cursor.kind != .endOfInput) statement cursor
  let session := match row.1.2 with
    | none => row.2.session
    | some error => row.2.session.report (.error .syntactic error.message error.line)
  ((⟨row.1.1, cursor.token.span.upTo row.2.previousStop⟩, row.1.2), { row.2 with session })

theorem tree_eq (cursor : Cursor) :
    cursor.tree = cursor.treeOver cursor.productions.statement := rfl

variable {cursor : Cursor}

section Watched

variable (shallow : cursor.depth ≤ maxNesting) (other : Productions)

include shallow

theorem sameAt_productions :
    Productions.Related (Production.SameAt cursor.depth) cursor.productions
      (.watchedWithin other (maxNesting - cursor.depth)) :=
  Productions.sameAt_within other (Nat.add_sub_of_le shallow)

theorem treeOver_watched :
    cursor.treeOver (Productions.watchedWithin other (maxNesting - cursor.depth)).statement =
        cursor.tree ∧
      cursor.tree.2.depth = cursor.depth := by
  rcases (sameAt_productions shallow other).statement.collect
    (fun cursor => cursor.kind != .endOfInput) rfl with ⟨same, back⟩
  rw [tree_eq, treeOver, same]
  exact ⟨rfl, back⟩

end Watched

theorem depth_enter (shallow : cursor.depth ≤ maxNesting) (entry : Entry) :
    (cursor.enter entry).depth = cursor.depth := by
  have same := sameAt_productions shallow cursor.productions
  cases entry with
  | expression => exact (same.expression cursor rfl).2
  | block => exact (same.block cursor rfl).2
  | statement => exact (same.statement cursor rfl).2
  | tree => exact (treeOver_watched shallow cursor.productions).2

/-- Whatever a parser is asked, it ends up in the levels where it started. -/
theorem depth_entries (shallow : cursor.depth ≤ maxNesting) (entries : List Entry) :
    (entries.foldl enter cursor).depth = cursor.depth := by
  induction entries generalizing cursor with
  | nil => rfl
  | cons first others ih =>
      have back := depth_enter shallow first
      exact (ih (back ▸ shallow)).trans back

end Cursor

/-! ## What nesting is accepted -/

/-- Of what is derived, the production reads just what fits into that many levels. -/
def Form.Admits {δ α : Type} (form : Form δ α) (production : Production α) (cursor : Cursor)
    (levels : Nat) : Prop :=
  ∀ (derivation : δ) (rest : List Token.Kind), cursor.kinds = form.tokens derivation ++ rest →
    form.Behind rest → (cursor.Passes production rest ↔ form.nesting derivation ≤ levels)

/-- The levels that are left are what is admitted, since no tokens have two derivations. -/
theorem Form.admits {δ α : Type} {form : Form δ α} {production : Production α} {least : Nat}
    (sound : form.Sound production) (complete : form.Complete least production)
    (unique : ∀ (derivation derivation' : δ) (rest : List Token.Kind), form.Behind rest →
      form.tokens derivation ++ rest = form.tokens derivation' ++ rest → derivation = derivation')
    {cursor : Cursor} (deep : least ≤ cursor.depth) (shallow : cursor.depth ≤ maxNesting) :
    form.Admits production cursor (maxNesting - cursor.depth) := by
  intro derivation rest next behind
  constructor
  · rintro ⟨value, last, ran, left, -⟩
    rcases sound ran with ⟨derivation', took, fits, -⟩
    have tokens := took.kinds
    rw [next, left] at tokens
    rwa [unique derivation derivation' rest behind tokens]
  · exact complete derivation deep shallow next behind

namespace Cursor

/-- Of each kind of trees the parser reads just those that fit into that many levels. -/
structure Admits (cursor : Cursor) (levels : Nat) : Prop where
  expression : (Form.phrases 6).Admits cursor.productions.expression.toReader cursor levels
  block : Form.blocks.Admits cursor.productions.block.toReader cursor levels
  statement : Form.sentences.Admits cursor.productions.statement.toReader cursor levels
  tree : ∀ (program : List Sentence) (rest : List Token.Kind),
    cursor.kinds = programTokens program ++ rest → Ended rest →
      (cursor.tree.1.2 = none ↔ ∀ sentence ∈ program, sentence.nesting ≤ levels)

variable {cursor : Cursor}

theorem complete_productions (shallow : cursor.depth ≤ maxNesting) :
    cursor.productions.Complete cursor.depth := by
  have complete := Productions.complete_within (Nat.sub_le maxNesting cursor.depth)
  rwa [Nat.sub_sub_self shallow] at complete

theorem tree_eq_none_iff (shallow : cursor.depth ≤ maxNesting) (program : List Sentence)
    {rest : List Token.Kind} (next : cursor.kinds = programTokens program ++ rest)
    (ended : Ended rest) : cursor.tree.1.2 = none ↔
      ∀ sentence ∈ program, sentence.nesting ≤ maxNesting - cursor.depth := by
  constructor
  · intro accepted
    have collected : Reader.collect (fun cursor => cursor.kind != .endOfInput)
        cursor.productions.statement cursor =
          ((cursor.tree.1.1.statements, none), _) := Prod.ext (Prod.ext rfl accepted) rfl
    have repeats := Reader.repeats_of_collect collected
    rcases Productions.sound_program (Productions.sound_within _).statement repeats with
      ⟨program', took, fits, -⟩
    have done := repeats.unwanted
    rw [bne_eq_false_iff_eq, kind_eq] at done
    rwa [program_unique ended done (next.symm.trans took.kinds)]
  · intro fits
    rcases Productions.complete_program (complete_productions shallow).statement program
      (Nat.le_refl _) shallow next ended fits with ⟨statements, last, repeats⟩
    rw [tree_eq, treeOver, Reader.collect_of_repeats repeats]

theorem admits (shallow : cursor.depth ≤ maxNesting) :
    cursor.Admits (maxNesting - cursor.depth) := by
  have sound := Productions.sound_within (maxNesting - cursor.depth)
  have complete := complete_productions shallow
  refine ⟨?_, ?_, ?_, fun program rest => tree_eq_none_iff shallow program⟩
  · apply Form.admits sound.expression complete.expression ?_ (Nat.le_refl _) shallow
    intro phrase phrase' rest stops same
    exact (Phrase.unique phrase phrase' stops stops same).1
  · apply Form.admits sound.block complete.block ?_ (Nat.le_refl _) shallow
    intro body body' rest _ same
    simp only [Form.blocks, blockTokens, List.cons_append, List.append_assoc, List.nil_append,
      List.cons.injEq, true_and] at same
    exact (Sequence.unique body body' same).1
  · apply Form.admits sound.statement complete.statement ?_ (Nat.le_refl _) shallow
    intro sentence sentence' rest ends same
    exact (Sentence.unique sentence sentence' ends ends same).1

end Cursor

/-- However a call ends, the parser is then in as many levels as before, and on the way it is never
in more than there are: whatever the productions do that start or end in more, the call comes out
the same. So after any calls, failed ones included, it reads what is nested as deep as before, and
nothing deeper. -/
theorem levels_given_back (cursor : Cursor) (shallow : cursor.depth ≤ maxNesting) :
    (∀ entry, (cursor.enter entry).depth = cursor.depth) ∧
    (∀ other : Productions,
      let watched := Productions.watchedWithin other (maxNesting - cursor.depth)
      watched.expression.run cursor = cursor.expression ∧
        watched.block.run cursor = cursor.block ∧
        watched.statement.run cursor = cursor.statement ∧
        cursor.treeOver watched.statement = cursor.tree) ∧
    ∀ entries : List Cursor.Entry,
      (entries.foldl Cursor.enter cursor).Admits (maxNesting - cursor.depth) := by
  refine ⟨Cursor.depth_enter shallow, ?_, ?_⟩
  · intro other watched
    have same := Cursor.sameAt_productions shallow other
    exact ⟨(same.expression cursor rfl).1, (same.block cursor rfl).1, (same.statement cursor rfl).1,
      (Cursor.treeOver_watched shallow other).1⟩
  · intro entries
    have back := Cursor.depth_entries shallow entries
    rw [← back]
    exact Cursor.admits (back ▸ shallow)

/-- Behind a failure, the parser reads the block that comes next as deep as before. -/
theorem levels_given_back_braces :
    let cursor : Cursor :=
      { Cursor.start "\x7b\x7b\x7b\x7b\x7b\x7b\x7d\x7d\x7d" .empty with depth := 126 }
    let last := cursor.enter .block
    cursor.depth ≤ maxNesting ∧ cursor.block.1.toOption.isNone ∧ last.depth = 126 ∧
      last.Passes last.productions.block.toReader [] := by
  intro cursor last
  have shallow : cursor.depth ≤ maxNesting := by decide
  have given := levels_given_back cursor shallow
  refine ⟨shallow, by decide +kernel, given.1 .block, ?_⟩
  -- Three braces have been taken before the failure; the other three are two levels of blocks.
  have next : last.kinds =
      blockTokens (Sequence.cons (.block (.cons (.block .nil) .nil)) .nil).tokens ++ [] := by
    decide +kernel
  exact ((given.2.2 [.block]).block _ [] next trivial).mpr (by decide)

end SubsetC
