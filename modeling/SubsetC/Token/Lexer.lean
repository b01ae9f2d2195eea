import SubsetC.Token.Scanner

/-!
# The lexer

The lexer asks the scanner for one token after the other and keeps the errors that it meets until
they are taken. When the scanner fails at a character, only that character is dropped: if the
scanner has given up more than it, a new scanner is started behind the character, and the lexer
remembers where in the source that scanner's text starts and on which line.

A new scanner starts behind where the old one has failed, though it may be before where that one has
stopped; so a lexer `Advances` with each answer, and its loops end. A slice of the source that would
end before it starts, run past the end or cut a character has no result, and neither has a failure
that would be met for ever.
-/

namespace SubsetC

/-- The state of the lexer. -/
structure Lexer where
  source : String
  /-- The byte of the source at which the text of the scanner starts. -/
  base : Nat
  scanner : Scanner
  /-- The errors that were met and not yet taken. -/
  errors : List LexicalError
  deriving Repr, Inhabited

namespace Lexer

/-- The lexer at the start of a source. -/
def ofSource (source : String) : Lexer :=
  ⟨source, 0, .ofText source.toList 1, []⟩

/-- The errors that were met, which are then forgotten. -/
def takeErrors (lexer : Lexer) : List LexicalError × Lexer :=
  (lexer.errors, { lexer with errors := [] })

/-- Keeps an error. -/
def push (lexer : Lexer) (error : LexicalError) : Lexer :=
  { lexer with errors := lexer.errors ++ [error] }

/-- Where the text stands that the scanner has taken last. -/
def span (lexer : Lexer) : Span where
  start := lexer.base + lexer.scanner.start
  stop := lexer.base + lexer.scanner.stop
  line := lexer.scanner.line

/-- Reports the character at which the scanner failed, and goes on behind it. -/
def recover (lexer : Lexer) : Option Lexer := do
  let start := lexer.base + lexer.scanner.start
  let line := lexer.scanner.line
  let (_, rest) ← Span.splitAtByte? start lexer.source.toList
  match rest with
  | [] =>
    -- if the scanner has given up nothing, it goes on to fail here for ever
    if lexer.scanner.slice = [] then none else return lexer
  | first :: _ =>
    let lexer := lexer.push (.illegalCharacter first line)
    if lexer.scanner.stop - lexer.scanner.start ≠ first.utf8Size then
      -- the scanner has given up more than one character
      let base := start + first.utf8Size
      let (_, rest) ← Span.splitAtByte? base lexer.source.toList
      return { lexer with base, scanner := .ofText rest line }
    else return lexer

/-- Reports a block comment without an end on the line that it starts on. The scanner has counted
the lines of all that is left. -/
def closeComment (lexer : Lexer) : Option Lexer := do
  let comment ← lexer.span.text? lexer.source
  let lines := (comment.toList.count '\n').toUInt32
  return lexer.push (.unterminatedComment (lexer.scanner.line - lines))

/-- The token that marks the end of the source. -/
def endToken (lexer : Lexer) : Token where
  kind := .endOfInput
  span := ⟨Position.byteLength lexer.source.toList, Position.byteLength lexer.source.toList,
    lexer.scanner.line⟩

/-- The token that the scanner's answer comes to, if there is one. What has failed is reported, and
the lexer stands where it is to go on. -/
def settle (lexer : Lexer) :
    (answer : Option (Except Scanner.Failure Token.Kind)) → Option (Option Token × Lexer)
  | some (.ok kind) => some (some ⟨kind, lexer.span⟩, lexer)
  | some (.error .illegal) => lexer.recover.map (none, ·)
  | some (.error .unterminatedComment) => lexer.closeComment.map (none, ·)
  | some (.error .integerOutOfRange) =>
    let error := .integerOutOfRange (String.ofList lexer.scanner.slice) lexer.scanner.line
    some (some ⟨.integer Int64.maxValue, lexer.span⟩, lexer.push error)
  | none => some (some lexer.endToken, lexer)

/-- The second lexer is farther on in the same source: a new scanner has been started farther on, or
the scanner has less ahead. -/
structure Advances (lexer lexer' : Lexer) : Prop where
  source : lexer'.source = lexer.source
  farther : lexer.base < lexer'.base ∧ lexer'.base ≤ Position.byteLength lexer.source.toList ∨
    lexer'.base = lexer.base ∧
      lexer'.scanner.remainder.length < lexer.scanner.remainder.length

/-- How much is ahead, first by where the scanner was started, and then by where it stands. -/
def ahead (lexer : Lexer) : Nat × Nat :=
  (Position.byteLength lexer.source.toList - lexer.base, lexer.scanner.remainder.length)

namespace Advances

variable {lexer lexer' : Lexer}

theorem trans {last : Lexer} (early : lexer.Advances lexer') (late : lexer'.Advances last) :
    lexer.Advances last where
  source := late.source.trans early.source
  farther := by
    have same := congrArg (fun source => Position.byteLength source.toList) early.source
    rcases early with ⟨-, early⟩
    rcases late with ⟨-, late⟩
    omega

theorem ahead_lt (advances : lexer.Advances lexer') :
    Prod.Lex (· < ·) (· < ·) lexer'.ahead lexer.ahead := by
  rcases advances with ⟨source, ⟨farther, within⟩ | ⟨same, shorter⟩⟩
  · apply Prod.Lex.left
    rw [source]
    omega
  · rw [ahead, ahead, source, same]
    exact Prod.Lex.right _ shorter

end Advances

section Advancing

variable {giveUp : List Char → Nat} {lexer lexer' : Lexer} {scanner : Scanner}

/-- The lexer advances over an illegal character, whether the scanner stays or a new one is
started. -/
theorem advances_recover
    (found : lexer.scanner.next giveUp = some (some (.error .illegal), scanner))
    (recovered : ({ lexer with scanner } : Lexer).recover = some lexer') :
    lexer.Advances lexer' := by
  have shorter (taken : scanner.slice ≠ []) :
      scanner.remainder.length < lexer.scanner.remainder.length :=
    (Scanner.remaining_next found).resolve_right fun failed => taken failed.2.1
  rcases Option.bind_eq_some_iff.mp recovered with ⟨⟨before, rest⟩, -, settled⟩
  cases rest with
  | nil =>
    simp only at settled
    split at settled
    · cases settled
    · rename_i taken
      cases settled
      exact ⟨rfl, .inr ⟨rfl, shorter taken⟩⟩
  | cons first rest =>
    have positive := first.utf8Size_pos
    simp only at settled
    split at settled
    · rcases Option.bind_eq_some_iff.mp settled with ⟨⟨before', rest'⟩, cut, same⟩
      cases same
      rcases Span.of_splitAtByte? cut with ⟨whole, bytes⟩
      refine ⟨rfl, .inl ⟨?_, ?_⟩⟩
      · simp only
        omega
      · have within := Position.byteLength_append before' rest'
        rw [whole, bytes] at within
        exact within ▸ Nat.le_add_right _ _
    · rename_i size
      cases settled
      refine ⟨rfl, .inr ⟨rfl, shorter ?_⟩⟩
      intro nothing
      apply size
      simp only [push, Scanner.stop, Scanner.start, nothing, List.append_nil]
      omega

/-- The lexer advances with each answer of the scanner but the one at the end of the source. -/
theorem advances_settle {answer : Option (Except Scanner.Failure Token.Kind)}
    {token? : Option Token} (found : lexer.scanner.next giveUp = some (answer, scanner))
    (settled : ({ lexer with scanner } : Lexer).settle answer = some (token?, lexer')) :
    (∃ token, token? = some token ∧ token.kind = .endOfInput) ∨ lexer.Advances lexer' := by
  cases answer with
  | none =>
    cases settled
    exact .inl ⟨_, rfl, rfl⟩
  | some answer =>
    right
    have taken (other : answer ≠ .error .illegal) :
        scanner.remainder.length < lexer.scanner.remainder.length :=
      (Scanner.remaining_next found).resolve_right fun failed => other failed.1
    cases answer with
    | ok kind =>
      cases settled
      exact ⟨rfl, .inr ⟨rfl, taken nofun⟩⟩
    | error failure =>
      cases failure with
      | illegal =>
        rcases Option.map_eq_some_iff.mp settled with ⟨behind, recovered, same⟩
        cases same
        exact advances_recover found recovered
      | unterminatedComment =>
        rcases Option.map_eq_some_iff.mp settled with ⟨behind, closed, same⟩
        cases same
        rcases Option.bind_eq_some_iff.mp closed with ⟨comment, -, same⟩
        cases same
        exact ⟨rfl, .inr ⟨rfl, taken nofun⟩⟩
      | integerOutOfRange =>
        cases settled
        exact ⟨rfl, .inr ⟨rfl, taken nofun⟩⟩

end Advancing

/-- The next token. Behind the last one it is the end of the source, again and again. -/
def nextToken (giveUp : List Char → Nat) (lexer : Lexer) : Option (Token × Lexer) :=
  match _found : lexer.scanner.next giveUp with
  | none => none
  | some (answer, scanner) =>
    match _settled : ({ lexer with scanner } : Lexer).settle answer with
    | none => none
    | some (some token, behind) => some (token, behind)
    | some (none, behind) => behind.nextToken giveUp
termination_by lexer.ahead
decreasing_by
  exact ((advances_settle _found _settled).resolve_left nofun).ahead_lt

/-- The lexer advances with each token but the one at the end of the source. -/
theorem advances_nextToken {giveUp : List Char → Nat} {lexer lexer' : Lexer} {token : Token}
    (found : lexer.nextToken giveUp = some (token, lexer')) :
    token.kind = .endOfInput ∨ lexer.Advances lexer' := by
  rw [nextToken] at found
  split at found
  · cases found
  · rename_i answer scanner answered
    split at found
    · cases found
    · rename_i settled
      cases found
      refine (advances_settle answered settled).imp_left ?_
      rintro ⟨_, ⟨⟩, ended⟩
      exact ended
    · rename_i behind settled
      have advances := (advances_settle answered settled).resolve_left nofun
      exact (advances_nextToken found).imp_right advances.trans
termination_by lexer.ahead
decreasing_by exact advances.ahead_lt

/-- The next token, as long as there is one before the end of the source. -/
def next? (giveUp : List Char → Nat) (lexer : Lexer) : Option (Option Token × Lexer) := do
  let (token, lexer) ← lexer.nextToken giveUp
  return (if token.kind = .endOfInput then none else some token, lexer)

/-- All tokens that are left, with the one that marks the end, and all errors. -/
def tokenize (giveUp : List Char → Nat) (lexer : Lexer) :
    Option (List Token × List LexicalError) :=
  match _found : lexer.nextToken giveUp with
  | none => none
  | some (token, behind) =>
    if _ended : token.kind = .endOfInput then some ([token], behind.errors)
    else (behind.tokenize giveUp).map fun (tokens, errors) => (token :: tokens, errors)
termination_by lexer.ahead
decreasing_by exact ((advances_nextToken _found).resolve_left _ended).ahead_lt

end Lexer

end SubsetC
