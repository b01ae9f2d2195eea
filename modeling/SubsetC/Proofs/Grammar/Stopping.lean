import SubsetC.Proofs.Grammar.Completeness
import SubsetC.Proofs.Grammar.Declarations
import SubsetC.Proofs.Session

/-!
# Where a production stops

The goal of a production is a set of token sequences. A production is `Viable` for its goal if the
tokens that it takes reach the goal where it succeeds and are the start of some that do where it
fails (`Cursor.Stuck`), so that it never goes further than the first token that is impossible. The
rules follow the ways in which productions are put together: behind the first of two productions the
goal is what is left of the goal behind the tokens that have been taken.
-/

namespace SubsetC

open Grammar

/-- The problems that the parser has reported because no tree could be read. -/
def Session.syntactic (session : Session) : List Diagnostic :=
  (session.diagnostics.inPhase .syntactic).toList

/-- Only syntax errors count as such. -/
theorem Session.syntactic_report (session : Session) (diagnostic : Diagnostic) :
    (session.report diagnostic).syntactic =
      session.syntactic ++ if diagnostic.phase = .syntactic then [diagnostic] else [] :=
  session.inPhase_report diagnostic .syntactic

theorem Cursor.syntactic_reportLexical (session : Session) (errors : List LexicalError) :
    (reportLexical session errors).syntactic = session.syntactic := by
  induction errors generalizing session with
  | nil => rfl
  | cons error errors ih =>
      apply (ih _).trans
      rw [Session.syntactic_report]
      exact List.append_nil _

/-- Some tokens that a source can have reach the goal. -/
def Reachable (goal : List Token.Kind → Prop) : Prop :=
  ∃ tokens, (∀ kind ∈ tokens, kind.Written) ∧ goal tokens

/-- Token sequences of one kind, one behind the other. -/
inductive Row (item : List Token.Kind → Prop) : List Token.Kind → Prop
  | nil : Row item []
  | cons {first rest : List Token.Kind} (here : item first) (others : Row item rest) :
      Row item (first ++ rest)

namespace Cursor

/-- The parser gets from one point to the other: tokens are taken from the front, and none of the
problems that are reported is a syntax error. -/
structure Leads (first last : Cursor) : Prop where
  ahead : last.stream.ahead <:+ first.stream.ahead
  stop : last.stream.stop = first.stream.stop
  depth : last.depth = first.depth
  syntactic : last.session.syntactic = first.session.syntactic

namespace Leads

variable {first middle last : Cursor}

theorem refl (cursor : Cursor) : cursor.Leads cursor :=
  ⟨List.suffix_refl _, rfl, rfl, rfl⟩

theorem trans (before : first.Leads middle) (behind : middle.Leads last) : first.Leads last where
  ahead := behind.ahead.trans before.ahead
  stop := behind.stop.trans before.stop
  depth := behind.depth.trans before.depth
  syntactic := behind.syntactic.trans before.syntactic

/-- A report of another phase. -/
theorem report (cursor : Cursor) {phase : Phase} (other : phase ≠ .syntactic) (message : String)
    (line : UInt32) :
    cursor.Leads { cursor with session := cursor.session.report (.error phase message line) } := by
  refine ⟨List.suffix_refl _, rfl, rfl, ?_⟩
  rw [Session.syntactic_report, Diagnostic.error, if_neg other, List.append_nil]

theorem advance (cursor : Cursor) : cursor.Leads cursor.advance := by
  rcases cursor with ⟨⟨ahead, trailing, stop⟩, previousStop, depth, session⟩
  cases ahead with
  | nil => exact ⟨List.suffix_refl _, rfl, rfl, syntactic_reportLexical _ _⟩
  | cons lexeme rest => exact ⟨List.suffix_cons _ _, rfl, rfl, syntactic_reportLexical _ _⟩

end Leads

/-- A failure: another token was expected than the next one, and the tokens before it are the start
of some that reach the goal; or there is no deeper level. -/
inductive Stuck (goal : List Token.Kind → Prop) (first : Cursor) : ParseError → Cursor → Prop
  | unexpected {last : Cursor} (expected : String) {taken : List Token.Kind}
      (kinds : first.kinds = taken ++ last.kinds)
      (reachable : Reachable fun tokens => goal (taken ++ tokens)) :
      Stuck goal first (last.unexpected expected) last
  | tooDeep {last : Cursor} : Stuck goal first (.nestingTooDeep last.token.line) last

namespace Stuck

variable {first middle last : Cursor} {error : ParseError} {goal : List Token.Kind → Prop}

/-- What reaches one goal is the start of what reaches another. -/
theorem mono {goal' : List Token.Kind → Prop}
    (onward : ∀ tokens, goal' tokens → Reachable fun tokens' => goal (tokens ++ tokens'))
    (stuck : Stuck goal' first error last) : Stuck goal first error last := by
  cases stuck with
  | @unexpected _ expected taken kinds reachable =>
      rcases reachable with ⟨tokens, written, reached⟩
      rcases onward _ reached with ⟨tokens', written', reached'⟩
      refine .unexpected expected kinds ⟨tokens ++ tokens', ?_, ?_⟩
      · rw [List.forall_mem_append]
        exact ⟨written, written'⟩
      · simpa only [List.append_assoc] using reached'
  | tooDeep => exact .tooDeep

/-- Nothing has been taken. -/
theorem here (expected : String) (reachable : Reachable goal) :
    Stuck goal first (first.unexpected expected) first :=
  @unexpected goal first first expected [] rfl reachable

/-- The level of the parser makes no difference. -/
theorem atDepth {depth depth' : Nat} (stuck : Stuck goal { first with depth } error last) :
    Stuck goal first error { last with depth := depth' } := by
  cases stuck with
  | @unexpected _ expected taken kinds reachable =>
      exact @unexpected goal first { last with depth := depth' } expected taken kinds reachable
  | tooDeep => exact @tooDeep goal first { last with depth := depth' }

/-- Some tokens have been taken before. -/
theorem behind {taken : List Token.Kind} (kinds : first.kinds = taken ++ middle.kinds)
    (stuck : Stuck (fun tokens => goal (taken ++ tokens)) middle error last) :
    Stuck goal first error last := by
  cases stuck with
  | unexpected expected kinds' reachable =>
      rw [kinds', ← List.append_assoc] at kinds
      refine .unexpected expected kinds ?_
      simpa only [List.append_assoc] using reachable
  | tooDeep => exact .tooDeep

end Stuck

/-- The outcome of a production that got from one point to the other: what it has taken reaches the
goal, or it is stuck. -/
def Settled {α : Type} (goal : List Token.Kind → Prop) (first last : Cursor) :
    Except ParseError α → Prop
  | .ok _ => ∃ taken, first.kinds = taken ++ last.kinds ∧ goal taken
  | .error error => Stuck goal first error last

section Row

variable {item : List Token.Kind → Prop} {first middle last : Cursor}

/-- A parser that is stuck in an item is stuck in the row. -/
theorem Stuck.row {error : ParseError} (stuck : Stuck item first error last) :
    Stuck (Row item) first error last := by
  apply stuck.mono
  intro tokens here
  exact ⟨[], by simp, .cons here .nil⟩

/-- A round that leads to a point from which the loop settles. -/
theorem Settled.cons {α : Type} {taken : List Token.Kind} {outcome : Except ParseError α}
    (kinds : first.kinds = taken ++ middle.kinds) (here : item taken)
    (settled : Settled (Row item) middle last outcome) :
    Settled (Row item) first last outcome := by
  cases outcome with
  | ok value =>
      rcases settled with ⟨taken', kinds', others⟩
      exact ⟨taken ++ taken', by rw [kinds, kinds', List.append_assoc], .cons here others⟩
  | error error =>
      apply Stuck.behind kinds
      apply Stuck.mono _ settled
      intro tokens others
      exact ⟨[], by simp, by simpa using Row.cons here others⟩

end Row

/-- From here the production gets to a point where its outcome is settled. -/
def Proceeds {α : Type} (cursor : Cursor) (production : Production α)
    (goal : List Token.Kind → Prop) : Prop :=
  ∀ ⦃outcome : Except ParseError α⦄ ⦃last : Cursor⦄, production.run cursor = (outcome, last) →
    cursor.Leads last ∧ Settled goal cursor last outcome

namespace Proceeds

variable {α β : Type} {cursor : Cursor} {goal goal' : List Token.Kind → Prop}

/-- A production that takes nothing and succeeds. -/
theorem silent {production : Production α} {value : α} {last : Cursor}
    (ran : production.run cursor = (.ok value, last)) (leads : cursor.Leads last)
    (kinds : cursor.kinds = last.kinds) (reached : goal []) : cursor.Proceeds production goal := by
  intro outcome last' ran'
  rw [ran, Prod.mk.injEq] at ran'
  rcases ran' with ⟨rfl, rfl⟩
  exact ⟨leads, [], kinds, reached⟩

theorem pure (value : α) (reached : goal []) : cursor.Proceeds (Pure.pure value) goal :=
  silent rfl (.refl cursor) rfl reached

/-- What is left of the goal behind the tokens of the first production is the goal of the second. -/
theorem bind {first : Production α} {second : α → Production β}
    (early : cursor.Proceeds first goal')
    (onward : ∀ tokens, goal' tokens → Reachable fun tokens' => goal (tokens ++ tokens'))
    (late : ∀ value tokens (middle : Cursor), goal' tokens → middle.depth = cursor.depth →
      middle.Proceeds (second value) fun tokens' => goal (tokens ++ tokens')) :
    cursor.Proceeds (first >>= second) goal := by
  intro outcome last ran
  rw [Reader.run_bind] at ran
  split at ran
  · rename_i value middle succeeded
    rcases early succeeded with ⟨leads, taken, kinds, reached⟩
    rcases late value taken middle reached leads.depth ran with ⟨leads', settled⟩
    refine ⟨leads.trans leads', ?_⟩
    cases outcome with
    | ok outcome =>
        rcases settled with ⟨taken', kinds', reached'⟩
        exact ⟨taken ++ taken', by rw [kinds, kinds', List.append_assoc], reached'⟩
    | error error => exact Stuck.behind kinds settled
  · rename_i error middle failed
    cases ran
    rcases early failed with ⟨leads, stuck⟩
    exact ⟨leads, Stuck.mono onward stuck⟩

/-- Nothing is taken by the first production. -/
theorem skip {first : Production α} {second : α → Production β} {value : α} {middle : Cursor}
    (ran : first.run cursor = (.ok value, middle)) (leads : cursor.Leads middle)
    (kinds : cursor.kinds = middle.kinds) (late : middle.Proceeds (second value) goal) :
    cursor.Proceeds (first >>= second) goal := by
  intro outcome last ran'
  rw [Reader.run_bind_of_ok ran] at ran'
  rcases late ran' with ⟨leads', settled⟩
  refine ⟨leads.trans leads', ?_⟩
  cases outcome with
  | ok outcome =>
      rcases settled with ⟨taken, kinds', reached⟩
      exact ⟨taken, kinds.trans kinds', reached⟩
  | error error => exact @Stuck.behind _ _ _ _ _ [] kinds settled

theorem mono {production : Production α} (proceeds : cursor.Proceeds production goal')
    (weaker : ∀ tokens, goal' tokens → goal tokens) : cursor.Proceeds production goal := by
  intro outcome last ran
  rcases proceeds ran with ⟨leads, settled⟩
  refine ⟨leads, ?_⟩
  cases outcome with
  | ok value =>
      rcases settled with ⟨taken, kinds, reached⟩
      exact ⟨taken, kinds, weaker _ reached⟩
  | error error =>
      apply Stuck.mono _ settled
      intro tokens reached
      exact ⟨[], by simp, by simpa using weaker _ reached⟩

theorem map {f : α → β} {step : TokenStep α} (proceeds : cursor.Proceeds step.toReader goal) :
    cursor.Proceeds (step.map f).toReader goal := by
  intro outcome last ran
  change (step.toReader >>= fun value => Pure.pure (f value)).run cursor = _ at ran
  rw [Reader.run_bind] at ran
  split at ran
  · rename_i value middle succeeded
    cases ran
    exact proceeds succeeded
  · rename_i error middle failed
    cases ran
    exact proceeds failed

theorem accept {expected : String} {accepted : Token.Kind → Option α} (reachable : Reachable goal)
    (reached : ∀ kind value, cursor.kind = kind → accepted kind = some value → goal [kind]) :
    cursor.Proceeds (TokenStep.accept expected accepted).toReader goal := by
  intro outcome last ran
  simp only [TokenStep.accept] at ran
  split at ran
  · cases ran
    exact ⟨.refl cursor, .here expected reachable⟩
  · rename_i lexeme rest ahead
    have kinds := (took_advance ahead).kinds
    split at ran
    · cases ran
      exact ⟨.refl cursor, .here expected reachable⟩
    · rename_i value taken
      cases ran
      exact ⟨.advance cursor, _, kinds, reached _ _ (kind_of_kinds kinds) taken⟩

theorem unexpected {expected : String} (reachable : Reachable goal) :
    cursor.Proceeds (TokenStep.unexpected expected : TokenStep α).toReader goal := by
  rintro outcome last ⟨⟩
  exact ⟨.refl cursor, .here expected reachable⟩

/-- Whether there is a deeper level or not. -/
theorem nested {step : TokenStep α}
    (proceeds : cursor.depth < maxNesting → ∀ inner : Cursor, inner.depth = cursor.depth + 1 →
      inner.Proceeds step.toReader goal) :
    cursor.Proceeds (TokenStep.nested step).toReader goal := by
  intro outcome last ran
  simp only [TokenStep.nested] at ran
  split at ran
  · cases ran
    exact ⟨.refl cursor, .tooDeep⟩
  · rename_i room
    rw [Prod.mk.injEq] at ran
    rcases ran with ⟨rfl, rfl⟩
    rcases proceeds (Nat.lt_of_not_le room) { cursor with depth := cursor.depth + 1 } rfl rfl with
      ⟨leads, settled⟩
    refine ⟨⟨leads.ahead, leads.stop, ?_, leads.syntactic⟩, ?_⟩
    · have depth := leads.depth
      simp only at depth ⊢
      omega
    · generalize (step.run { cursor with depth := cursor.depth + 1 }).1 = outcome at settled
      cases outcome with
      | ok value => exact settled
      | error error => exact Stuck.atDepth settled

section Loops

variable {item : List Token.Kind → Prop} {depth : Nat}

/-- A loop goes on if its rounds do. -/
theorem iterate {next : α → Cursor → Option (TokenStep α)}
    (rounds : ∀ value (cursor : Cursor) step, cursor.depth = depth →
      next value cursor = some step → cursor.Proceeds step.toReader item)
    (value : α) (atDepth : cursor.depth = depth) :
    cursor.Proceeds (Reader.iterate next value) (Row item) := by
  intro outcome last ran
  change Reader.iterateFrom next value cursor = _ at ran
  fun_induction Reader.iterateFrom next value cursor with
  | case1 value cursor unwanted =>
      cases ran
      exact ⟨.refl _, [], rfl, .nil⟩
  | case2 value cursor step wanted error last failed =>
      cases ran
      rcases rounds value cursor step atDepth wanted failed with ⟨leads, stuck⟩
      exact ⟨leads, Stuck.row stuck⟩
  | case3 value cursor step wanted value' middle succeeded ih =>
      rcases rounds value cursor step atDepth wanted succeeded with ⟨leads, taken, kinds, here⟩
      rcases ih (leads.depth.trans atDepth) ran with ⟨leads', settled⟩
      exact ⟨leads.trans leads', .cons kinds here settled⟩

/-- The outcome of a loop that keeps what it has. -/
theorem collect (wanted : Cursor → Bool) {step : TokenStep α}
    (rounds : ∀ cursor : Cursor, cursor.depth = depth → cursor.Proceeds step.toReader item)
    (atDepth : cursor.depth = depth) :
    cursor.Leads (Reader.collect wanted step cursor).2 ∧
      Settled (Row item) cursor (Reader.collect wanted step cursor).2
        (match (Reader.collect wanted step cursor).1.2 with
        | none => .ok ()
        | some error => .error error) := by
  fun_induction Reader.collect wanted step cursor with
  | case1 cursor isWanted error last failed =>
      rcases rounds cursor atDepth failed with ⟨leads, stuck⟩
      exact ⟨leads, Stuck.row stuck⟩
  | case2 cursor isWanted value middle succeeded values failure last found ih =>
      rw [found] at ih
      rcases rounds cursor atDepth succeeded with ⟨leads, taken, kinds, here⟩
      rcases ih (leads.depth.trans atDepth) with ⟨leads', settled⟩
      exact ⟨leads.trans leads', .cons kinds here settled⟩
  | case3 cursor unwanted => exact ⟨.refl cursor, [], rfl, .nil⟩

theorem many {wanted : Cursor → Bool} {step : TokenStep α}
    (rounds : ∀ cursor : Cursor, cursor.depth = depth → cursor.Proceeds step.toReader item)
    (atDepth : cursor.depth = depth) :
    cursor.Proceeds (Reader.many wanted step) (Row item) := by
  intro outcome last ran
  have collected := collect wanted rounds atDepth
  simp only [Reader.many] at ran
  generalize Reader.collect wanted step cursor = row at ran collected
  rcases row with ⟨⟨values, failure⟩, last'⟩
  cases failure with
  | none =>
      cases ran
      exact collected
  | some error =>
      cases ran
      exact collected

end Loops

end Proceeds

end Cursor

/-- From wherever the parser is at this depth the production proceeds, and its goal can be
reached. -/
structure Viable {α : Type} (depth : Nat) (production : Production α)
    (goal : List Token.Kind → Prop) : Prop where
  reachable : Reachable goal
  proceeds : ∀ cursor : Cursor, cursor.depth = depth → cursor.Proceeds production goal

namespace Viable

open TokenStep Production

variable {α β : Type} {depth : Nat} {goal goal' : List Token.Kind → Prop}

theorem mono {production : Production α} (viable : Viable depth production goal')
    (weaker : ∀ tokens, goal' tokens → goal tokens) : Viable depth production goal := by
  rcases viable.reachable with ⟨tokens, written, reached⟩
  refine ⟨⟨tokens, written, weaker _ reached⟩, ?_⟩
  intro cursor atDepth
  exact (viable.proceeds cursor atDepth).mono weaker

theorem pure (value : α) (reached : goal []) : Viable depth (Pure.pure value) goal :=
  ⟨⟨[], by simp, reached⟩, fun _ _ => .pure value reached⟩

/-- A part of its own comes first. -/
theorem bind [Inhabited α] {first : Production α} {second : α → Production β}
    (early : Viable depth first goal')
    (late : ∀ value tokens, goal' tokens →
      Viable depth (second value) fun tokens' => goal (tokens ++ tokens')) :
    Viable depth (first >>= second) goal where
  reachable := by
    rcases early.reachable with ⟨tokens, written, reached⟩
    rcases (late default tokens reached).reachable with ⟨tokens', written', reached'⟩
    refine ⟨tokens ++ tokens', ?_, reached'⟩
    rw [List.forall_mem_append]
    exact ⟨written, written'⟩
  proceeds := by
    intro cursor atDepth
    apply (early.proceeds cursor atDepth).bind
    · intro tokens reached
      exact (late default tokens reached).reachable
    · intro value tokens middle reached same
      exact (late value tokens reached).proceeds middle (same.trans atDepth)

/-- A look at the state or a change of the session comes first. -/
theorem skip {first : Production α} {second : α → Production β}
    (silent : ∀ cursor : Cursor, ∃ value last, first.run cursor = (.ok value, last) ∧
      cursor.Leads last ∧ cursor.kinds = last.kinds)
    (late : ∀ value, Viable depth (second value) goal) : Viable depth (first >>= second) goal where
  reachable := by
    rcases silent default with ⟨value, -⟩
    exact (late value).reachable
  proceeds := by
    intro cursor atDepth
    rcases silent cursor with ⟨value, middle, ran, leads, kinds⟩
    exact .skip ran leads kinds ((late value).proceeds middle (leads.depth.trans atDepth))

theorem inspect {view : Cursor → α} {second : α → Production β}
    (late : ∀ value, Viable depth (second value) goal) :
    Viable depth (Reader.inspect view >>= second) goal := by
  apply skip _ late
  intro cursor
  exact ⟨view cursor, cursor, rfl, .refl cursor, rfl⟩

/-- The end of a production that gives its outcome a span. -/
theorem withSpan {opening : Span} {f : Span → α} (reached : goal []) :
    Viable depth (spanFrom opening >>= fun span => Pure.pure (f span)) goal :=
  inspect fun span => .pure (f span) reached

theorem checkDeclared {used : Identifier} {second : Unit → Production β}
    (late : Viable depth (second ()) goal) :
    Viable depth (Production.checkDeclared used >>= second) goal := by
  apply skip _ fun _ => late
  intro cursor
  refine ⟨(), _, rfl, ?_, rfl⟩
  simp only
  split
  · exact .refl cursor
  · exact .report cursor (by decide) _ _

theorem declare {type : DataType} {name : Identifier} {second : Unit → Production β}
    (late : Viable depth (second ()) goal) :
    Viable depth (Production.declare type name >>= second) goal := by
  apply skip _ fun _ => late
  intro cursor
  exact ⟨(), _, rfl, ⟨List.suffix_refl _, rfl, rfl, rfl⟩, rfl⟩

theorem choose {reader : Cursor → Production α} (reachable : Reachable goal)
    (proceeds : ∀ cursor : Cursor, cursor.depth = depth → cursor.Proceeds (reader cursor) goal) :
    Viable depth (Reader.choose reader) goal :=
  ⟨reachable, fun cursor atDepth _ _ ran => proceeds cursor atDepth ran⟩

theorem map {f : α → β} {step : TokenStep α} (viable : Viable depth step.toReader goal) :
    Viable depth (step.map f).toReader goal :=
  ⟨viable.reachable, fun cursor atDepth => (viable.proceeds cursor atDepth).map⟩

theorem many {item : List Token.Kind → Prop} {wanted : Cursor → Bool} {step : TokenStep α}
    (rounds : ∀ cursor : Cursor, cursor.depth = depth → cursor.Proceeds step.toReader item) :
    Viable depth (Reader.many wanted step) (Row item) :=
  ⟨⟨[], by simp, .nil⟩, fun _ atDepth => .many rounds atDepth⟩

section Tokens

theorem accept {expected : String} {accepted : Token.Kind → Option α} (reachable : Reachable goal)
    (reached : ∀ kind value, accepted kind = some value → goal [kind]) :
    Viable depth (TokenStep.accept expected accepted).toReader goal :=
  ⟨reachable, fun _ _ => .accept reachable fun kind value _ taken => reached kind value taken⟩

theorem expect {kind : Token.Kind} (written : kind.Written) :
    Viable depth (TokenStep.expect kind).toReader (· = [kind]) := by
  apply map
  apply accept
  · exact ⟨[kind], by simpa using written, rfl⟩
  · intro found value taken
    split at taken
    · rename_i same
      rw [same]
    · cases taken

/-- One token comes first. -/
theorem token [Inhabited α] {kind : Token.Kind} {first : Production α} {second : α → Production β}
    (early : Viable depth first (· = [kind]))
    (late : ∀ value, Viable depth (second value) fun tokens => goal (kind :: tokens)) :
    Viable depth (first >>= second) goal := by
  apply early.bind
  rintro value tokens rfl
  exact late value

theorem symbol {mark : Symbol} {second : Span → Production β}
    (late : ∀ span, Viable depth (second span) fun tokens => goal (.symbol mark :: tokens)) :
    Viable depth ((TokenStep.symbol mark).toReader >>= second) goal :=
  token (expect trivial) late

theorem keyword {word : Keyword} {second : Span → Production β}
    (late : ∀ span, Viable depth (second span) fun tokens => goal (.keyword word :: tokens)) :
    Viable depth ((TokenStep.keyword word).toReader >>= second) goal :=
  token (expect trivial) late

theorem identifier {second : Identifier → Production β}
    (late : ∀ used name, Viable depth (second used) fun tokens =>
      goal (.identifier name :: tokens)) :
    Viable depth (TokenStep.identifier.toReader >>= second) goal := by
  have early : Viable depth TokenStep.identifier.toReader fun tokens =>
      ∃ name, tokens = [.identifier name] := by
    apply map
    apply accept
    · refine ⟨[.identifier "x"], ?_, "x", rfl⟩
      rw [List.forall_mem_singleton]
      exact ⟨by simp [Segment.IsName]; decide, by decide⟩
    · intro kind name taken
      split at taken
      · exact ⟨_, rfl⟩
      · cases taken
  apply @bind _ _ _ _ _ ⟨⟨"x", default⟩⟩ _ _ early
  rintro used tokens ⟨name, rfl⟩
  exact late used name

theorem stringLiteral {second : String → Production β}
    (late : ∀ format body, Viable depth (second format) fun tokens =>
      goal (.string body :: tokens)) :
    Viable depth (TokenStep.stringLiteral.toReader >>= second) goal := by
  have early : Viable depth TokenStep.stringLiteral.toReader fun tokens =>
      ∃ body, tokens = [.string body] := by
    apply map
    apply accept
    · refine ⟨[.string ""], ?_, "", rfl⟩
      rw [List.forall_mem_singleton]
      exact .nil
    · intro kind name taken
      split at taken
      · exact ⟨_, rfl⟩
      · cases taken
  apply early.bind
  rintro format tokens ⟨body, rfl⟩
  exact late format body

theorem dataType {second : DataType × Span → Production β}
    (late : ∀ found (type : DataType), Viable depth (second found) fun tokens =>
      goal (.keyword type.keyword :: tokens)) :
    Viable depth (TokenStep.dataType.toReader >>= second) goal := by
  have early : Viable depth TokenStep.dataType.toReader fun tokens =>
      ∃ type : DataType, tokens = [.keyword type.keyword] := by
    apply accept
    · exact ⟨[.keyword .int], by simp [Token.Kind.Written], .int, rfl⟩
    · intro kind type taken
      split at taken
      · exact ⟨.int, rfl⟩
      · exact ⟨.char, rfl⟩
      · cases taken
  apply early.bind
  rintro found tokens ⟨type, rfl⟩
  exact late found type

end Tokens

end Viable

end SubsetC
