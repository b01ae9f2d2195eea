import SubsetC.Proofs.Grammar.Congruence

/-!
# What the parser does on its way

Whatever a production reads, and whether it succeeds or fails, it leads the parser from one point to
another by the same few moves: a token is taken, the use of a name is reported, a declaration is
entered, and something is read one level deeper. `Cursor.Trail` puts such moves together, and
`Productions.move_within` says that every production follows a trail. What each move keeps therefore
holds at both ends of every run, by an induction over trails that knows nothing of the grammar.
-/

namespace SubsetC

namespace Cursor

/-- The same place, with the use of a name reported. -/
def reporting (cursor : Cursor) (message : String) (line : UInt32) : Cursor :=
  { cursor with session := cursor.session.report (.error .semantic message line) }

/-- The same place, with a variable declared. -/
def declaring (cursor : Cursor) (name : String) (type : DataType) : Cursor :=
  { cursor with session := cursor.session.declare name type }

/-- The same place, one level deeper. -/
def inward (cursor : Cursor) : Cursor :=
  { cursor with depth := cursor.depth + 1 }

/-- The same place, one level less deep. -/
def outward (cursor : Cursor) : Cursor :=
  { cursor with depth := cursor.depth - 1 }

/-- The parser gets from one point to the other by moves that lead it through these points. -/
inductive Trail : Cursor → List Cursor → Cursor → Prop
  | stay (cursor : Cursor) : Trail cursor [] cursor
  | take {cursor : Cursor} {lexeme : Lexeme} {rest : List Lexeme}
      (ahead : cursor.stream.ahead = lexeme :: rest) : Trail cursor [cursor.advance] cursor.advance
  | report (cursor : Cursor) (message : String) (line : UInt32) :
      Trail cursor [cursor.reporting message line] (cursor.reporting message line)
  | declare (cursor : Cursor) (name : String) (type : DataType) :
      Trail cursor [cursor.declaring name type] (cursor.declaring name type)
  | nested {cursor last : Cursor} {points : List Cursor} (room : cursor.depth < maxNesting)
      (inside : Trail cursor.inward points last) :
      Trail cursor (cursor.inward :: points ++ [last.outward]) last.outward
  | trans {first middle last : Cursor} {early late : List Cursor}
      (before : Trail first early middle) (behind : Trail middle late last) :
      Trail first (early ++ late) last

end Cursor

/-- However it ends, the production leads the parser along a trail. -/
def Production.Moves {α : Type} (production : Production α) : Prop :=
  ∀ cursor : Cursor, ∃ points, cursor.Trail points (production.run cursor).2

namespace Production.Moves

open TokenStep Production

variable {α β : Type}

theorem pure (value : α) : Moves (Pure.pure value) :=
  fun cursor => ⟨[], .stay cursor⟩

/-- Two moves, one behind the other. -/
theorem bind {first : Production β} {second : β → Production α} (early : Moves first)
    (late : ∀ value, Moves (second value)) : Moves (first >>= second) := by
  intro cursor
  rcases early cursor with ⟨points, before⟩
  rw [Reader.run_bind]
  split
  · rename_i value middle ran
    rcases late value middle with ⟨points', behind⟩
    rw [ran] at before
    exact ⟨_, before.trans behind⟩
  · rename_i error middle ran
    rw [ran] at before
    exact ⟨points, before⟩

theorem inspect (view : Cursor → α) : Moves (Reader.inspect view) :=
  fun cursor => ⟨[], .stay cursor⟩

theorem choose {reader : Cursor → Production α} (moves : ∀ cursor, Moves (reader cursor)) :
    Moves (Reader.choose reader) :=
  fun cursor => moves cursor cursor

/-- A token that is taken is one more on the trail. -/
theorem accept (expected : String) (accepted : Token.Kind → Option α) :
    Moves (TokenStep.accept expected accepted).toReader := by
  intro cursor
  simp only [TokenStep.accept]
  split
  · exact ⟨[], .stay cursor⟩
  · rename_i lexeme rest ahead
    split
    · exact ⟨[], .stay cursor⟩
    · exact ⟨_, .take ahead⟩

/-- The level is not on the trail. -/
theorem nested {step : TokenStep α} (moves : Moves step.toReader) :
    Moves (TokenStep.nested step).toReader := by
  intro cursor
  simp only [TokenStep.nested]
  split
  · exact ⟨[], .stay cursor⟩
  · rename_i room
    rcases moves cursor.inward with ⟨points, inside⟩
    exact ⟨_, .nested (Nat.lt_of_not_le room) inside⟩

theorem checkDeclared (identifier : Identifier) : Moves (Production.checkDeclared identifier) := by
  intro cursor
  simp only [Production.checkDeclared, modifySession]
  split
  · exact ⟨[], .stay cursor⟩
  · exact ⟨_, .report cursor _ _⟩

theorem declare (type : DataType) (identifier : Identifier) :
    Moves (Production.declare type identifier) :=
  fun cursor => ⟨_, .declare cursor identifier.name type⟩

/-- Every round is a move. -/
theorem iterate {next : α → Cursor → Option (TokenStep α)}
    (moves : ∀ value cursor step, next value cursor = some step → Moves step.toReader)
    (value : α) : Moves (Reader.iterate next value) := by
  intro cursor
  change ∃ points, cursor.Trail points (Reader.iterateFrom next value cursor).2
  fun_induction Reader.iterateFrom next value cursor with
  | case1 value cursor unwanted => exact ⟨[], .stay cursor⟩
  | case2 value cursor step wanted error last ran =>
      rcases moves value cursor step wanted cursor with ⟨points, trail⟩
      rw [ran] at trail
      exact ⟨points, trail⟩
  | case3 value cursor step wanted value' middle ran ih =>
      rcases moves value cursor step wanted cursor with ⟨points, before⟩
      rcases ih with ⟨points', behind⟩
      rw [ran] at before
      exact ⟨_, before.trans behind⟩

theorem collect {step : TokenStep α} (moves : Moves step.toReader) (wanted : Cursor → Bool)
    (cursor : Cursor) : ∃ points, cursor.Trail points (Reader.collect wanted step cursor).2 := by
  fun_induction Reader.collect wanted step cursor with
  | case1 cursor isWanted error last ran =>
      rcases moves cursor with ⟨points, trail⟩
      rw [ran] at trail
      exact ⟨points, trail⟩
  | case2 cursor isWanted value middle ran values failure last found ih =>
      rcases moves cursor with ⟨points, before⟩
      rcases ih with ⟨points', behind⟩
      rw [ran] at before
      rw [found] at behind
      exact ⟨_, before.trans behind⟩
  | case3 cursor unwanted => exact ⟨[], .stay cursor⟩

theorem many {step : TokenStep α} (moves : Moves step.toReader) (wanted : Cursor → Bool) :
    Moves (Reader.many wanted step) := by
  intro cursor
  have trail := moves.collect wanted cursor
  simp only [Reader.many]
  split <;> rename_i collected <;> rwa [collected] at trail

/-- So the property holds of the whole grammar. -/
theorem congruence : Congruence fun _ production _ => Moves production where
  pure := pure
  fail error cursor := ⟨[], .stay cursor⟩
  inspect := inspect
  accept := accept
  checkDeclared := checkDeclared
  declare := declare
  bind := bind
  choose := choose
  iterate moves := iterate fun value cursor step wanted => by
    split at wanted
    · cases wanted
      exact moves value
    · cases wanted
  many := many

end Production.Moves

namespace Productions

open Production

/-- All productions lead the parser along trails. -/
structure Move (productions : Productions) : Prop where
  operand : Moves productions.operand.toReader
  expression : Moves productions.expression.toReader
  block : Moves productions.block.toReader
  statement : Moves productions.statement.toReader

theorem move_beyond : beyond.Move :=
  have tooDeep {α : Type} : Moves (TokenStep.tooDeep : TokenStep α).toReader :=
    Moves.congruence.tooDeep
  ⟨tooDeep, tooDeep, tooDeep, tooDeep⟩

theorem move_level {inner : Productions} (move : inner.Move) : (level inner).Move :=
  have inside : Related (fun _ production _ => Moves production) inner.inward inner.inward :=
    ⟨move.operand.nested, move.expression.nested, move.block.nested, move.statement.nested⟩
  have related := Moves.congruence.level inside
  ⟨related.operand, related.expression, related.block, related.statement⟩

/-- Every production leads the parser along a trail, on every level. -/
theorem move_within (room : Nat) : (within room).Move := by
  induction room with
  | zero => exact move_level move_beyond
  | succ room ih => exact move_level ih

end Productions

namespace Cursor

/-- Reading an expression leads along a trail. -/
theorem exists_trail_expression (cursor : Cursor) :
    ∃ points, cursor.Trail points cursor.expression.2 :=
  (Productions.move_within _).expression cursor

/-- Reading a tree leads along a trail, up to the report of an error. -/
theorem exists_trail_tree (cursor : Cursor) :
    ∃ points last, cursor.Trail points last ∧
      cursor.tree.2 = { last with session := match cursor.tree.1.2 with
        | none => last.session
        | some error => last.session.report (.error .syntactic error.message error.line) } := by
  rcases (Productions.move_within _).statement.collect
    (fun cursor => cursor.kind != .endOfInput) cursor with ⟨points, trail⟩
  exact ⟨points, _, trail, rfl⟩

end Cursor

end SubsetC
