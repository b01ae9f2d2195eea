import SubsetC.Proofs.Grammar.Spans
import SubsetC.Proofs.Tree.Regions

/-!
# Nodes are read one behind the other

The regions of a node lie among the tokens that have been taken for it: each part covers tokens in a
row, and the rows of the parts come in turn. `Cursor.Holds` says so of what has been read on the way
between two points. `Cursor.Walks` follows a production also where it fails, since the tree of a
source ends where its last statement has failed.
-/

namespace SubsetC

mutual

/-- The tokens are those of the region: its span covers them all, and its parts lie in them. -/
def Region.Lies : Region → List Token → Prop
  | .node span parts, row => span.Covers row ∧ LieInTurn parts row

/-- The regions lie in the row one behind the other, with any tokens before, between and behind
them. -/
def LieInTurn : List Region → List Token → Prop
  | [], _ => True
  | part :: parts, row =>
      ∃ gap here rest, row = gap ++ (here ++ rest) ∧ part.Lies here ∧ LieInTurn parts rest

end

theorem Region.Lies.ne_nil {region : Region} {row : List Token} (lies : region.Lies row) :
    row ≠ [] := by
  rintro rfl
  rcases region with ⟨span, parts⟩
  rcases lies.1 with ⟨opening, closing, first, -⟩
  cases first

namespace LieInTurn

variable {parts parts' : List Region} {row row' : List Token}

theorem singleton {part : Region} (lies : part.Lies row) : LieInTurn [part] row :=
  ⟨[], row, [], by simp, lies, trivial⟩

theorem behind (gap : List Token) (lie : LieInTurn parts row) : LieInTurn parts (gap ++ row) := by
  cases parts with
  | nil => trivial
  | cons part parts =>
      rcases lie with ⟨gap', here, rest, rfl, lies, others⟩
      exact ⟨gap ++ gap', here, rest, by simp, lies, others⟩

theorem append (lie : LieInTurn parts row) (lie' : LieInTurn parts' row') :
    LieInTurn (parts ++ parts') (row ++ row') := by
  induction parts generalizing row with
  | nil => exact lie'.behind row
  | cons part parts ih =>
      rcases lie with ⟨gap, here, rest, rfl, lies, others⟩
      exact ⟨gap, here, rest ++ row', by simp, lies, ih others⟩

theorem before (lie : LieInTurn parts row) (rest : List Token) : LieInTurn parts (row ++ rest) := by
  have nothing : LieInTurn [] rest := trivial
  have whole := lie.append nothing
  rwa [List.append_nil] at whole

/-- The parts of a part lie in the row as well. -/
theorem parts_of_singleton {part : Region} (lie : LieInTurn [part] row) :
    LieInTurn part.parts row := by
  rcases lie with ⟨gap, here, rest, rfl, lies, -⟩
  rcases part with ⟨span, parts⟩
  exact (lies.2.before rest).behind gap

theorem ne_nil (lie : LieInTurn parts row) (some : parts ≠ []) : row ≠ [] := by
  cases parts with
  | nil => exact absurd rfl some
  | cons part parts =>
      rcases lie with ⟨gap, here, rest, rfl, lies, -⟩
      simp [lies.ne_nil]

end LieInTurn

namespace Cursor

variable {first middle last : Cursor} {parts parts' : List Region}

theorem remaining_eq (cursor : Cursor) : Source.remaining cursor = cursor.tokens.length := by
  simp [Source.remaining, tokens]

/-- Tokens have been taken if fewer are left. -/
theorem Crosses.ne_nil {taken : List Token} (crosses : first.Crosses taken last)
    (moved : Source.remaining last < Source.remaining first) : taken ≠ [] := by
  rintro rfl
  rw [remaining_eq, remaining_eq, crosses.tokens] at moved
  exact Nat.lt_irrefl _ moved

/-- On the way between the two points these regions are read, one behind the other. -/
def Holds (first : Cursor) (parts : List Region) (last : Cursor) : Prop :=
  ∃ taken, first.Crosses taken last ∧ LieInTurn parts taken

theorem Reaches.holds (reaches : first.Reaches last) : first.Holds [] last := by
  rcases reaches with ⟨taken, crosses⟩
  exact ⟨taken, crosses, trivial⟩

namespace Holds

theorem reaches (holds : first.Holds parts last) : first.Reaches last := by
  rcases holds with ⟨taken, crosses, -⟩
  exact ⟨taken, crosses⟩

theorem trans (before : first.Holds parts middle) (behind : middle.Holds parts' last) :
    first.Holds (parts ++ parts') last := by
  rcases before with ⟨early, crosses, lie⟩
  rcases behind with ⟨late, crosses', lie'⟩
  exact ⟨early ++ late, crosses.trans crosses', lie.append lie'⟩

theorem advance (before : first.Holds parts middle) (behind : middle.Reaches last) :
    first.Holds parts last := by
  have whole := before.trans behind.holds
  rwa [List.append_nil] at whole

/-- Where a region has been read, tokens have been taken. -/
theorem moved (holds : first.Holds parts last) (some : parts ≠ []) :
    Source.remaining last < Source.remaining first := by
  rcases holds with ⟨taken, crosses, lie⟩
  have nonempty := List.length_pos_iff.mpr (lie.ne_nil some)
  rw [remaining_eq, remaining_eq, crosses.tokens, List.length_append]
  omega

/-- What lies right inside of a node has been read as well. -/
theorem parts_of_singleton {region : Region} (holds : first.Holds [region] last) :
    first.Holds region.parts last := by
  rcases holds with ⟨taken, crosses, lie⟩
  exact ⟨taken, crosses, lie.parts_of_singleton⟩

end Holds

/-- The node is made of all that is read on the way between the two points. -/
structure Frames (first : Cursor) (region : Region) (last : Cursor) : Prop where
  span : region.span = first.token.span.upTo last.previousStop
  holds : first.Holds region.parts last

/-- The node is read on the way if there is a token on it. -/
theorem Frames.whole {region : Region} (frames : first.Frames region last)
    (moved : Source.remaining last < Source.remaining first) : first.Holds [region] last := by
  rcases region with ⟨span, parts⟩
  rcases frames with ⟨same, taken, crosses, lie⟩
  refine ⟨taken, crosses, .singleton ⟨?_, lie⟩⟩
  rw [show span = _ from same]
  exact crosses.covers (crosses.ne_nil moved)

/-- Whatever is declared or reported, the parser stays where it is. -/
theorem Frames.report {region : Region} (frames : first.Frames region last) (session : Session) :
    first.Frames region { last with session } := by
  rcases frames with ⟨span, taken, ⟨tokens, stop⟩, lie⟩
  exact ⟨span, taken, ⟨tokens, stop⟩, lie⟩

/-- Run from here, the production gets to a point behind `origin`, and if it succeeds, this holds of
its outcome there. -/
def Walks {α : Type} (origin cursor : Cursor) (production : Production α)
    (Q : α → Cursor → Prop) : Prop :=
  ∀ ⦃outcome : Except ParseError α⦄ ⦃last : Cursor⦄, production.run cursor = (outcome, last) →
    origin.Reaches last ∧ ∀ value, outcome = .ok value → Q value last

namespace Walks

open TokenStep Production

variable {α β : Type} {origin cursor : Cursor} {Q : α → Cursor → Prop}

theorem pure {value : α} (reaches : origin.Reaches cursor) (holds : Q value cursor) :
    origin.Walks cursor (Pure.pure value) Q := by
  rintro outcome last ⟨⟩
  refine ⟨reaches, ?_⟩
  rintro value ⟨⟩
  exact holds

theorem bind {first : Production β} {second : β → Production α} {P : β → Cursor → Prop}
    (early : origin.Walks cursor first P)
    (late : ∀ value middle, origin.Reaches middle → P value middle →
      origin.Walks middle (second value) Q) : origin.Walks cursor (first >>= second) Q := by
  intro outcome last ran
  rw [Reader.run_bind] at ran
  cases equation : first.run cursor with
  | mk found middle =>
      rcases early equation with ⟨reaches, holds⟩
      rw [equation] at ran
      cases found with
      | ok value => exact late value middle reaches (holds value rfl) ran
      | error error =>
          cases ran
          exact ⟨reaches, nofun⟩

theorem mono {P : α → Cursor → Prop} {production : Production α}
    (walks : origin.Walks cursor production P)
    (onward : ∀ value last, P value last → Q value last) : origin.Walks cursor production Q := by
  intro outcome last ran
  rcases walks ran with ⟨reaches, holds⟩
  exact ⟨reaches, fun value same => onward value last (holds value same)⟩

theorem both {P : α → Cursor → Prop} {production : Production α}
    (walks : origin.Walks cursor production P) (walks' : origin.Walks cursor production Q) :
    origin.Walks cursor production fun value last => P value last ∧ Q value last := by
  intro outcome last ran
  rcases walks ran with ⟨reaches, holds⟩
  exact ⟨reaches, fun value same => ⟨holds value same, (walks' ran).2 value same⟩⟩

theorem map {f : β → α} {step : TokenStep β}
    (walks : origin.Walks cursor step.toReader fun value last => Q (f value) last) :
    origin.Walks cursor (step.map f).toReader Q := by
  apply walks.bind
  intro value last reaches holds
  exact pure reaches holds

/-- What is read from here on is read behind the origin as well. -/
theorem behind {production : Production α} (reaches : origin.Reaches cursor)
    (walks : cursor.Walks cursor production Q) : origin.Walks cursor production Q := by
  intro outcome last ran
  rcases walks ran with ⟨reaches', holds⟩
  exact ⟨reaches.trans reaches', holds⟩

theorem inspect {view : Cursor → β} {second : β → Production α}
    (late : origin.Walks cursor (second (view cursor)) Q) :
    origin.Walks cursor (Reader.inspect view >>= second) Q := late

theorem choose {reader : Cursor → Production α} (walks : origin.Walks cursor (reader cursor) Q) :
    origin.Walks cursor (Reader.choose reader) Q := walks

/-- The token that is taken is the next one. -/
theorem accept {expected : String} {accepted : Token.Kind → Option α} :
    cursor.Walks cursor (TokenStep.accept expected accepted).toReader fun found last =>
      found.2 = cursor.token.span ∧ cursor.Frames (.node found.2 []) last := by
  intro outcome last ran
  simp only [TokenStep.accept] at ran
  split at ran
  · cases ran
    exact ⟨.refl cursor, nofun⟩
  · rename_i lexeme rest ahead
    split at ran
    · cases ran
      exact ⟨.refl cursor, nofun⟩
    · cases ran
      have reaches : cursor.Reaches cursor.advance := .advance ahead
      have here := token_of_tokens (tokens_advance ahead)
      refine ⟨reaches, ?_⟩
      rintro found ⟨⟩
      rw [← here]
      exact ⟨rfl, rfl, reaches.holds⟩

theorem expect {kind : Token.Kind} :
    cursor.Walks cursor (TokenStep.expect kind).toReader fun span _ => span = cursor.token.span :=
  map (accept.mono fun _ _ found => found.1)

end Walks

end Cursor

/-- What the step reads is a node with this region, from the next token on to the one taken last. -/
def TokenStep.Fills {α : Type} (region : α → Region) (step : TokenStep α) : Prop :=
  ∀ cursor : Cursor, cursor.Walks cursor step.toReader fun value last =>
    cursor.Frames (region value) last

namespace TokenStep.Fills

variable {α β : Type} {region : α → Region} {step : TokenStep α}

theorem choose {step : Cursor → TokenStep α} (fills : ∀ cursor, (step cursor).Fills region) :
    Fills region (Step.choose step) :=
  fun cursor => fills cursor cursor

theorem unexpected (expected : String) : (TokenStep.unexpected expected).Fills region := by
  rintro cursor outcome last ⟨⟩
  exact ⟨.refl cursor, nofun⟩

theorem map {f : β → α} {step : TokenStep β} (fills : step.Fills fun value => region (f value)) :
    Fills region (step.map f) :=
  fun cursor => Cursor.Walks.map (fills cursor)

theorem accept (expected : String) (accepted : Token.Kind → Option α) :
    (TokenStep.accept expected accepted).Fills fun found => .node found.2 [] :=
  fun _ => Cursor.Walks.accept.mono fun _ _ found => found.2

theorem identifier : TokenStep.identifier.Fills Identifier.region :=
  map (accept _ _)

/-- The node is read as a whole. -/
theorem whole (fills : step.Fills region) (cursor : Cursor) :
    cursor.Walks cursor step.toReader fun value last => cursor.Holds [region value] last := by
  intro outcome last ran
  rcases fills cursor ran with ⟨reaches, frames⟩
  refine ⟨reaches, ?_⟩
  rintro value rfl
  exact (frames value rfl).whole (step.remaining_lt ran)

theorem nested (fills : step.Fills region) : (TokenStep.nested step).Fills region := by
  intro cursor outcome last ran
  simp only [TokenStep.nested] at ran
  split at ran
  · cases ran
    refine ⟨.refl cursor, ?_⟩
    intro value same
    cases same
  · cases ran
    rcases fills { cursor with depth := cursor.depth + 1 } rfl with ⟨⟨taken, tokens, stop⟩, frames⟩
    refine ⟨⟨taken, tokens, stop⟩, ?_⟩
    intro value same
    rcases frames value same with ⟨span, taken', ⟨tokens', stop'⟩, lie⟩
    exact ⟨span, taken', ⟨tokens', stop'⟩, lie⟩

end TokenStep.Fills

namespace Cursor.Walks

open TokenStep Production

variable {α β : Type} {origin cursor : Cursor} {parts : List Region} {Q : α → Cursor → Prop}

/-- A reader that adds nothing, or nothing yet. -/
theorem skip {first : Production β} {second : β → Production α} {P : β → Cursor → Prop}
    (early : cursor.Walks cursor first P) (holds : origin.Holds parts cursor)
    (late : ∀ value middle, origin.Holds parts middle → P value middle →
      origin.Walks middle (second value) Q) : origin.Walks cursor (first >>= second) Q := by
  have onward : cursor.Walks cursor first fun _ middle => cursor.Holds [] middle :=
    fun _ _ ran => ⟨(early ran).1, fun _ _ => (early ran).1.holds⟩
  apply (behind holds.reaches (onward.both early)).bind
  rintro value middle - ⟨stays, found⟩
  exact late value middle (holds.advance stays.reaches) found

theorem symbol {mark : Symbol} {second : Span → Production α} (holds : origin.Holds parts cursor)
    (late : ∀ middle, origin.Holds parts middle →
      origin.Walks middle (second cursor.token.span) Q) :
    origin.Walks cursor ((TokenStep.symbol mark).toReader >>= second) Q := by
  apply skip expect holds
  rintro span middle holds' rfl
  exact late middle holds'

theorem keyword {word : Keyword} {second : Span → Production α} (holds : origin.Holds parts cursor)
    (late : ∀ middle, origin.Holds parts middle →
      origin.Walks middle (second cursor.token.span) Q) :
    origin.Walks cursor ((TokenStep.keyword word).toReader >>= second) Q := by
  apply skip expect holds
  rintro span middle holds' rfl
  exact late middle holds'

theorem stringLiteral {second : String → Production α} (holds : origin.Holds parts cursor)
    (late : ∀ body middle, origin.Holds parts middle → origin.Walks middle (second body) Q) :
    origin.Walks cursor (TokenStep.stringLiteral.toReader >>= second) Q := by
  have early : cursor.Walks cursor TokenStep.stringLiteral.toReader fun _ _ => True :=
    map (accept.mono fun _ _ _ => trivial)
  apply skip early holds
  rintro body middle holds' -
  exact late body middle holds'

theorem dataType {second : DataType × Span → Production α} (holds : origin.Holds parts cursor)
    (late : ∀ type middle, origin.Holds parts middle →
      origin.Walks middle (second (type, cursor.token.span)) Q) :
    origin.Walks cursor (TokenStep.dataType.toReader >>= second) Q := by
  apply skip accept holds
  rintro ⟨type, span⟩ middle holds' ⟨rfl, -⟩
  exact late type middle holds'

/-- Whatever is declared or reported, the parser stays where it is. -/
theorem modifySession {f : Session → Session} {second : Unit → Production α}
    (holds : origin.Holds parts cursor)
    (late : ∀ middle, origin.Holds parts middle → origin.Walks middle (second ()) Q) :
    origin.Walks cursor (Production.modifySession f >>= second) Q := by
  intro outcome last ran
  have stays : cursor.Reaches { cursor with session := f cursor.session } :=
    Reaches.of_eq (.refl cursor) rfl rfl
  exact late _ (holds.advance stays) ran

/-- Parts are read next. -/
theorem gather (view : β → List Region) {first : Production β} {second : β → Production α}
    (early : cursor.Walks cursor first fun value last => cursor.Holds (view value) last)
    (holds : origin.Holds parts cursor)
    (late : ∀ value middle, origin.Holds (parts ++ view value) middle →
      origin.Walks middle (second value) Q) : origin.Walks cursor (first >>= second) Q := by
  apply (behind holds.reaches early).bind
  intro value middle reaches found
  exact late value middle (holds.trans found)

/-- A node is read next. -/
theorem part {region : β → Region} {step : TokenStep β} {second : β → Production α}
    (fills : step.Fills region) (holds : origin.Holds parts cursor)
    (late : ∀ value middle, origin.Holds (parts ++ [region value]) middle →
      origin.Walks middle (second value) Q) : origin.Walks cursor (step.toReader >>= second) Q :=
  gather (fun value => [region value]) (fills.whole cursor) holds late

theorem identifier {second : Identifier → Production α} (holds : origin.Holds parts cursor)
    (late : ∀ name middle, origin.Holds (parts ++ [.node cursor.token.span []]) middle →
      origin.Walks middle (second ⟨name, cursor.token.span⟩) Q) :
    origin.Walks cursor (TokenStep.identifier.toReader >>= second) Q := by
  have early : cursor.Walks cursor TokenStep.identifier.toReader fun used last =>
      used.span = cursor.token.span ∧ cursor.Holds [used.region] last :=
    both (map (accept.mono fun _ _ found => found.1)) (Fills.identifier.whole cursor)
  apply (behind holds.reaches early).bind
  rintro ⟨name, span⟩ middle - ⟨rfl, found⟩
  exact late name middle (holds.trans found)

/-- The end of a production that makes a node of all that it has read. -/
theorem withSpan {region : α → Region} {f : Span → α} (holds : origin.Holds parts cursor)
    (same : ∀ span, region (f span) = .node span parts) :
    origin.Walks cursor (spanFrom origin.token.span >>= fun span => Pure.pure (f span))
      fun value last => origin.Frames (region value) last := by
  apply inspect
  apply pure holds.reaches
  rw [same]
  exact ⟨rfl, holds⟩

end Cursor.Walks

end SubsetC
