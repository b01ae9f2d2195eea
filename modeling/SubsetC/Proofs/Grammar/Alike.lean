import SubsetC.Proofs.Grammar.Taking
import SubsetC.Proofs.Session

/-!
# Two parsers side by side

Two cursors are alike if the same tokens lie ahead of them and what has been found differs in places
only. `Production.Alike bare first second` says that from such cursors two productions end alike:
both fail with the same error up to its line, or both succeed with values that `bare` makes equal.
The relation is between two productions because the second half of a sequence depends on what the
first half gave, places included. A production that is alike to itself is `Placeless`.
-/

namespace SubsetC

/-- The error without its line. -/
def ParseError.bare : ParseError → ParseError
  | unexpectedToken expected found _ => .unexpectedToken expected found default
  | unexpectedEnd expected _ => .unexpectedEnd expected default
  | nestingTooDeep _ => .nestingTooDeep default

theorem Identifier.name_of_bare {identifier identifier' : Identifier}
    (same : identifier.bare = identifier'.bare) : identifier.name = identifier'.name :=
  (Identifier.mk.inj same).1

namespace Cursor

/-- The cursors differ in nothing but places. -/
structure Alike (first second : Cursor) : Prop where
  kinds : first.kinds = second.kinds
  depth : first.depth = second.depth
  session : first.session.Alike second.session

/-- Like errors are reported alike. -/
theorem alike_reportLexical (session : Session) (errors : List LexicalError) :
    (reportLexical session errors).Alike session := by
  induction errors generalizing session with
  | nil => exact .refl session
  | cons error errors ih =>
      exact (ih _).trans (.report_other session (by decide) error.message error.line)

namespace Alike

variable {first second : Cursor}

theorem kind (alike : first.Alike second) : first.kind = second.kind := by
  rw [kind_eq, kind_eq, alike.kinds]

/-- A step forward keeps parsers alike. -/
theorem advance (alike : first.Alike second) : first.advance.Alike second.advance where
  kinds := by
    have kinds (cursor : Cursor) : cursor.advance.kinds = cursor.kinds.tail := by
      rcases cursor with ⟨⟨ahead, trailing, stop⟩, previousStop, depth, session⟩
      cases ahead <;> rfl
    rw [kinds, kinds, alike.kinds]
  depth := alike.depth
  session :=
    (alike_reportLexical _ _).trans (alike.session.trans (alike_reportLexical _ _).symm)

/-- The errors of like parsers differ in their lines at most. -/
theorem unexpected (alike : first.Alike second) (expected : String) :
    (first.unexpected expected).bare = (second.unexpected expected).bare := by
  have bare (cursor : Cursor) : (cursor.unexpected expected).bare =
      if cursor.kind = .endOfInput then .unexpectedEnd expected default
      else .unexpectedToken expected cursor.kind default := by
    unfold Cursor.unexpected
    split
    · rename_i atEnd
      rw [if_pos atEnd]
      rfl
    · rename_i other
      rw [if_neg other]
      rfl
  rw [bare, bare, alike.kind]

end Alike

/-- The same tokens from the start on. -/
theorem alike_start {source layout : String} (session : Session)
    (same : (TokenStream.ofSource source).kinds = (TokenStream.ofSource layout).kinds) :
    (start source session).Alike (start layout session) where
  kinds := same
  depth := rfl
  session := (alike_reportLexical _ _).trans (alike_reportLexical _ _).symm

end Cursor

namespace Production

variable {α β γ δ : Type}

/-- The outcomes of two productions differ in nothing but places, which `bare` leaves out. -/
inductive EndAlike (bare : α → γ) :
    Except ParseError α × Cursor → Except ParseError α × Cursor → Prop
  | ok {value value' : α} {last last' : Cursor} (same : bare value = bare value')
      (alike : last.Alike last') : EndAlike bare (.ok value, last) (.ok value', last')
  | error {error error' : ParseError} {last last' : Cursor} (same : error.bare = error'.bare)
      (alike : last.Alike last') : EndAlike bare (.error error, last) (.error error', last')

namespace EndAlike

variable {bare : α → γ} {last : Cursor} {outcome : Except ParseError α × Cursor}

theorem of_ok {value : α} (ended : EndAlike bare (.ok value, last) outcome) :
    ∃ value' last', outcome = (.ok value', last') ∧ bare value = bare value' ∧
      last.Alike last' := by
  cases ended with
  | ok same alike => exact ⟨_, _, rfl, same, alike⟩

theorem of_error {error : ParseError} (ended : EndAlike bare (.error error, last) outcome) :
    ∃ error' last', outcome = (.error error', last') ∧ error.bare = error'.bare ∧
      last.Alike last' := by
  cases ended with
  | error same alike => exact ⟨_, _, rfl, same, alike⟩

end EndAlike

/-- From cursors that are alike the two productions end alike. -/
def Alike (bare : α → γ) (first second : Production α) : Prop :=
  ∀ ⦃cursor cursor' : Cursor⦄, cursor.Alike cursor' →
    EndAlike bare (first.run cursor) (second.run cursor')

/-- Two loops both stop here, or go on with steps that end alike. -/
inductive RoundAlike (bare : α → γ) : Option (TokenStep α) → Option (TokenStep α) → Prop
  | stop : RoundAlike bare none none
  | goOn {step step' : TokenStep α} (ends : Alike bare step.toReader step'.toReader) :
      RoundAlike bare (some step) (some step')

/-- On two layouts of the same tokens the production ends alike. -/
def Placeless (bare : α → γ) (production : Production α) : Prop :=
  Alike bare production production

namespace Alike

variable {bare : α → γ} {bare' : β → δ}

theorem pure {value value' : α} (same : bare value = bare value') :
    Alike bare (Pure.pure value) (Pure.pure value') :=
  fun _ _ alike => .ok same alike

/-- Like parsers stay alike through two productions. -/
theorem bind {first first' : Production α} {second second' : α → Production β}
    (early : Alike bare first first')
    (late : ∀ value value', bare value = bare value' →
      Alike bare' (second value) (second' value')) :
    Alike bare' (first >>= second) (first' >>= second') := by
  intro cursor cursor' alike
  have ended := early alike
  rw [Reader.run_bind, Reader.run_bind]
  generalize first.run cursor = outcome at ended
  generalize first'.run cursor' = outcome' at ended
  cases ended with
  | ok same alike => exact late _ _ same alike
  | error same alike => exact .error same alike

/-- A part that may be left out comes first. -/
theorem bindOption (bare : α → γ) {first first' : Production (Option α)}
    {second second' : Option α → Production β} (early : Alike (Option.map bare) first first')
    (late : ∀ value value', value.map bare = value'.map bare →
      Alike bare' (second value) (second' value')) :
    Alike bare' (first >>= second) (first' >>= second') :=
  bind early late

theorem andThen {first first' : TokenStep α} {second second' : α → Production β}
    (early : Alike bare first.toReader first'.toReader)
    (late : ∀ value value', bare value = bare value' →
      Alike bare' (second value) (second' value')) :
    Alike bare' (first.andThen second).toReader (first'.andThen second').toReader :=
  bind early late

theorem map {f : α → β} {step step' : TokenStep α}
    (early : Alike bare step.toReader step'.toReader)
    (same : ∀ value value', bare value = bare value' → bare' (f value) = bare' (f value')) :
    Alike bare' (step.map f).toReader (step'.map f).toReader :=
  bind early fun value value' equal => pure (same value value' equal)

theorem choose {reader reader' : Cursor → Production α}
    (alike : ∀ cursor cursor' : Cursor, cursor.Alike cursor' →
      Alike bare (reader cursor) (reader' cursor')) :
    Alike bare (Reader.choose reader) (Reader.choose reader') :=
  fun cursor cursor' same => alike cursor cursor' same same

theorem chooseStep {step step' : Cursor → TokenStep α}
    (alike : ∀ cursor cursor' : Cursor, cursor.Alike cursor' →
      Alike bare (step cursor).toReader (step' cursor').toReader) :
    Alike bare (Step.choose step).toReader (Step.choose step').toReader :=
  choose alike

theorem inspect {view view' : Cursor → α}
    (same : ∀ cursor cursor' : Cursor, cursor.Alike cursor' →
      bare (view cursor) = bare (view' cursor')) :
    Alike bare (Reader.inspect view) (Reader.inspect view') :=
  fun cursor cursor' alike => .ok (same cursor cursor' alike) alike

/-- A place is looked at. -/
theorem place (view view' : Cursor → α) :
    Alike (fun _ => ()) (Reader.inspect view) (Reader.inspect view') :=
  inspect fun _ _ _ => rfl

/-- The induction is on the rounds of the first loop, which the second one follows. -/
theorem iterate {next next' : α → Cursor → Option (TokenStep α)}
    (rounds : ∀ value value', bare value = bare value' → ∀ cursor cursor' : Cursor,
      cursor.Alike cursor' → RoundAlike bare (next value cursor) (next' value' cursor'))
    {value value' : α} (same : bare value = bare value') :
    Alike bare (Reader.iterate next value) (Reader.iterate next' value') := by
  intro cursor cursor' alike
  have round := rounds value value' same cursor cursor' alike
  change EndAlike bare (Reader.iterateFrom next value cursor)
    ((Reader.iterate next' value').run cursor')
  fun_induction Reader.iterateFrom next value cursor generalizing value' cursor' with
  | case1 value cursor unwanted =>
      rw [unwanted] at round
      generalize unwanted' : next' value' cursor' = found at round
      cases round with
      | stop =>
          rw [Reader.run_iterate_of_none unwanted']
          exact .ok same alike
  | case2 value cursor step wanted error last failed =>
      rw [wanted] at round
      generalize wanted' : next' value' cursor' = found at round
      cases round with
      | goOn ends =>
          rcases (failed ▸ ends alike).of_error with ⟨error', last', failed', equal, alike'⟩
          rw [Reader.run_iterate_of_error wanted' failed']
          exact .error equal alike'
  | case3 value cursor step wanted middle last ran ih =>
      rw [wanted] at round
      generalize wanted' : next' value' cursor' = found at round
      cases round with
      | goOn ends =>
          rcases (ran ▸ ends alike).of_ok with ⟨middle', last', ran', equal, alike'⟩
          rw [Reader.run_iterate_of_some wanted' ran']
          exact ih equal alike' (rounds middle middle' equal last last' alike')

end Alike

section Collect

variable {bare : α → γ} {wanted : Cursor → Bool} {step : TokenStep α}

/-- On two layouts a row of steps ends at the same step, with the same failure if there is one. -/
theorem alike_collect
    (asks : ∀ cursor cursor' : Cursor, cursor.Alike cursor' → wanted cursor = wanted cursor')
    (placeless : Placeless bare step.toReader) {cursor cursor' : Cursor}
    (alike : cursor.Alike cursor') :
    (Reader.collect wanted step cursor).1.1.map bare =
        (Reader.collect wanted step cursor').1.1.map bare ∧
      (Reader.collect wanted step cursor).1.2.map ParseError.bare =
        (Reader.collect wanted step cursor').1.2.map ParseError.bare ∧
      (Reader.collect wanted step cursor).2.Alike (Reader.collect wanted step cursor').2 := by
  fun_induction Reader.collect wanted step cursor generalizing cursor' with
  | case1 cursor isWanted error last failed =>
      rcases (failed ▸ placeless alike).of_error with ⟨error', last', failed', same, alike'⟩
      rw [Reader.collect_of_error (asks _ _ alike ▸ isWanted) failed']
      exact ⟨rfl, congrArg some same, alike'⟩
  | case2 cursor isWanted value middle ran values failure last found ih =>
      rcases (ran ▸ placeless alike).of_ok with ⟨value', middle', ran', same, alike'⟩
      rw [Reader.collect_of_ok (asks _ _ alike ▸ isWanted) ran']
      have others := ih alike'
      rw [found] at others
      simp only [List.map_cons, same, others.1]
      exact ⟨trivial, others.2⟩
  | case3 cursor unwanted =>
      rw [Reader.collect_of_unwanted (asks _ _ alike ▸ Bool.eq_false_iff.mpr unwanted)]
      exact ⟨rfl, rfl, alike⟩

/-- Like parsers go through equally many rounds. -/
theorem placeless_many
    (asks : ∀ cursor cursor' : Cursor, cursor.Alike cursor' → wanted cursor = wanted cursor')
    (placeless : Placeless bare step.toReader) :
    Placeless (List.map bare) (Reader.many wanted step) := by
  intro cursor cursor' alike
  have collected := alike_collect asks placeless alike
  simp only [Reader.many]
  generalize Reader.collect wanted step cursor = row at collected
  generalize Reader.collect wanted step cursor' = row' at collected
  rcases row with ⟨⟨values, failure⟩, last⟩
  rcases row' with ⟨⟨values', failure'⟩, last'⟩
  rcases collected with ⟨same, failures, alike'⟩
  cases failure with
  | none =>
      cases failure' with
      | none => exact .ok same alike'
      | some error' => cases failures
  | some error =>
      cases failure' with
      | none => cases failures
      | some error' => exact .error (Option.some.inj failures) alike'

end Collect

end Production

namespace TokenStep

open Production

variable {α γ : Type} {bare : α → γ}

/-- A token is accepted by its kind. -/
theorem placeless_accept (expected : String) (accepted : Token.Kind → Option α) :
    Placeless Prod.fst (accept expected accepted).toReader := by
  intro cursor cursor' alike
  have kinds := alike.kinds
  simp only [Cursor.kinds, TokenStream.kinds] at kinds
  simp only [accept]
  cases ahead : cursor.stream.ahead with
  | nil =>
      rw [ahead, List.map_nil, eq_comm, List.map_eq_nil_iff] at kinds
      rw [kinds]
      exact .error (alike.unexpected expected) alike
  | cons lexeme rest =>
      rw [ahead, List.map_cons, eq_comm, List.map_eq_cons_iff] at kinds
      rcases kinds with ⟨lexeme', rest', ahead', kind, -⟩
      rw [ahead']
      simp only
      rw [kind]
      cases taken : accepted lexeme.token.kind with
      | none => exact .error (alike.unexpected expected) alike
      | some value => exact .ok rfl alike.advance

theorem placeless_expect (kind : Token.Kind) : Placeless (fun _ => ()) (expect kind).toReader :=
  (placeless_accept _ _).map fun _ _ _ => rfl

theorem placeless_identifier : Placeless Identifier.bare identifier.toReader :=
  (placeless_accept _ _).map fun _ _ same => congrArg (Identifier.mk · default) same

theorem placeless_stringLiteral : Placeless id stringLiteral.toReader :=
  (placeless_accept _ _).map fun _ _ same => same

theorem placeless_unexpected (expected : String) :
    Alike bare (unexpected expected : TokenStep α).toReader (unexpected expected).toReader :=
  fun _ _ alike => .error (alike.unexpected expected) alike

theorem placeless_tooDeep : Alike bare (tooDeep : TokenStep α).toReader tooDeep.toReader :=
  fun _ _ alike => .error rfl alike

theorem run_nested (step : TokenStep α) (cursor : Cursor) :
    (nested step).run cursor =
      if maxNesting ≤ cursor.depth then (.error (.nestingTooDeep cursor.token.line), cursor)
      else
        let ended := step.run { cursor with depth := cursor.depth + 1 }
        (ended.1, { ended.2 with depth := ended.2.depth - 1 }) := rfl

/-- Like parsers are in equally many levels. -/
theorem placeless_nested {step : TokenStep α} (placeless : Placeless bare step.toReader) :
    Placeless bare (nested step).toReader := by
  intro cursor cursor' alike
  rw [run_nested, run_nested, alike.depth]
  split
  · exact .error rfl alike
  · have inside : Cursor.Alike { cursor with depth := cursor'.depth + 1 }
        { cursor' with depth := cursor'.depth + 1 } := ⟨alike.kinds, rfl, alike.session⟩
    have outside {last last' : Cursor} (alike : last.Alike last') :
        Cursor.Alike { last with depth := last.depth - 1 }
          { last' with depth := last'.depth - 1 } :=
      ⟨alike.kinds, congrArg (· - 1) alike.depth, alike.session⟩
    have ended := placeless inside
    generalize step.run { cursor with depth := cursor'.depth + 1 } = outcome at ended
    generalize step.run { cursor' with depth := cursor'.depth + 1 } = outcome' at ended
    cases ended with
    | ok same alike => exact .ok same (outside alike)
    | error same alike => exact .error same (outside alike)

end TokenStep

namespace Production

variable {α γ : Type} {bare : α → γ}

/-- A change of the session that keeps sessions alike. -/
theorem alike_modifySession {f f' : Session → Session}
    (keeps : ∀ session session' : Session, session.Alike session' →
      (f session).Alike (f' session')) :
    Alike id (modifySession f) (modifySession f') :=
  fun _ _ alike => .ok rfl ⟨alike.kinds, alike.depth, keeps _ _ alike.session⟩

theorem alike_checkDeclared {identifier identifier' : Identifier}
    (same : identifier.bare = identifier'.bare) :
    Alike id (checkDeclared identifier) (checkDeclared identifier') := by
  have name : identifier.name = identifier'.name := Identifier.name_of_bare same
  refine alike_modifySession fun session session' alike => ?_
  rw [name, alike.symbols]
  split
  · exact alike
  · exact alike.report _ _ _

/-- Both enter the same name. -/
theorem alike_declare (type : DataType) {identifier identifier' : Identifier}
    (same : identifier.bare = identifier'.bare) :
    Alike id (declare type identifier) (declare type identifier') := by
  have name : identifier.name = identifier'.name := Identifier.name_of_bare same
  refine alike_modifySession fun session session' alike => ?_
  rw [name]
  exact alike.declare _ _

theorem placeless_kind : Placeless id kind :=
  .inspect fun _ _ alike => alike.kind

/-- The end of a production that gives its outcome a span. -/
theorem alike_withSpan {opening opening' : Span} {f f' : Span → α}
    (same : ∀ span span', bare (f span) = bare (f' span')) :
    Alike bare (spanFrom opening >>= fun span => pure (f span))
      (spanFrom opening' >>= fun span => pure (f' span)) :=
  (Alike.place _ _).bind fun span span' _ => .pure (same span span')

end Production

end SubsetC
