import SubsetC.Token.Segments

/-!
# The scanner

The scanner goes over the text that it was started on. Each time it takes the longest text that one
of its rules matches, and a reserved word rather than an identifier of the same length; then the
action of the rule decides whether that is a token, is skipped or is a failure. The scanner counts
lines, but only in the actions of two rules: a line feed, and a block comment, of which the rule
matches the opening alone and the action finds the end.

Where no rule matches, the scanner fails with some stretch of the text that starts where it stands.
How long that stretch is depends on how far the rules were followed in vain. The functions take it
as `giveUp`, the number of characters by the text that is left; no text is left twice in one run, so
that it can be another one each time. `unfinished` is an instance.

Places are counted in bytes. An action that would cut a character in two has no result.
-/

namespace SubsetC

/-- The rules, which are tried together. -/
inductive Scanner.Rule where
  /-- Spaces that stay on their line. -/
  | spaces
  /-- Two slashes and the rest of the line. -/
  | lineComment
  /-- A hash sign and the rest of the line. -/
  | directive
  /-- Decimal digits. -/
  | integer
  /-- A character literal. -/
  | character
  /-- A string literal. -/
  | string
  /-- A reserved word. -/
  | keyword (word : Keyword)
  /-- An operator or a punctuation mark. -/
  | symbol (mark : Symbol)
  /-- A letter or an underscore, and letters, digits and underscores. -/
  | identifier
  /-- A line feed. -/
  | newline
  /-- The opening of a block comment. -/
  | blockComment
  deriving DecidableEq, Repr

namespace Scanner.Rule

open Segment

/-- Every rule. -/
def all : List Rule :=
  [spaces, lineComment, directive, integer, character, string] ++ Keyword.all.map keyword ++
    Symbol.all.map symbol ++ [identifier, newline, blockComment]

/-- How many characters at the start of a text pass a test, if there is one. -/
def runLength? (test : Char → Bool) (text : List Char) : Option Nat :=
  match text.takeWhile test with
  | [] => none
  | run => some run.length

/-- The length of a spelling, if the text starts with it. -/
def spellingLength? (spelling : String) (text : List Char) : Option Nat :=
  if spelling.toList.isPrefixOf text then some spelling.toList.length else none

/-- The length of the longest text that the rule matches at the start of `text`. -/
def length? (rule : Rule) (text : List Char) : Option Nat :=
  match rule, text with
  | spaces, _ => runLength? isSpace text
  | lineComment, '/' :: '/' :: rest => some ((rest.takeWhile (· ≠ '\n')).length + 2)
  | directive, '#' :: rest => some ((rest.takeWhile (· ≠ '\n')).length + 1)
  | integer, _ => runLength? Char.isDigit text
  | character, '\'' :: rest => (characterLength? rest).map (· + 2)
  | string, '"' :: rest => (stringLength? rest).map (· + 2)
  | keyword word, _ => spellingLength? word.spelling text
  | symbol mark, _ => spellingLength? mark.spelling text
  | identifier, first :: rest =>
    if isNameStart first then some ((rest.takeWhile isNameRest).length + 1) else none
  | newline, '\n' :: _ => some 1
  | blockComment, '/' :: '*' :: _ => some 2
  | _, _ => none

/-- Of two texts that are as long, the one of the rule with the higher priority is taken. -/
def priority : Rule → Nat
  | identifier => 0
  | _ => 1

/-- The first rule and its length are preferred to the second. -/
def beats (first second : Rule × Nat) : Bool :=
  second.2 < first.2 || (second.2 == first.2 && second.1.priority < first.1.priority)

/-- The rule and the length that are preferred to the others. -/
def best : List (Rule × Nat) → Option (Rule × Nat)
  | [] => none
  | found :: others =>
    match best others with
    | some other => if beats other found then some other else some found
    | none => some found

/-- The rule that matches the longest text at the start of `text`, and the length. -/
def longest? (text : List Char) : Option (Rule × Nat) :=
  best (all.filterMap fun rule => (rule.length? text).map fun length => (rule, length))

/-- The best of some rules is one of them. -/
theorem mem_of_best {found : Rule × Nat} {candidates : List (Rule × Nat)}
    (same : best candidates = some found) : found ∈ candidates := by
  induction candidates generalizing found with
  | nil => cases same
  | cons candidate others ih =>
    unfold best at same
    split at same
    · rename_i other same'
      split at same <;> cases same
      · exact List.mem_cons_of_mem _ (ih same')
      · exact List.mem_cons_self
    · cases same
      exact List.mem_cons_self

theorem runLength?_pos {test : Char → Bool} {text : List Char} {length : Nat}
    (found : runLength? test text = some length) : 0 < length := by
  unfold runLength? at found
  split at found
  · cases found
  · rename_i run nonempty
    cases found
    exact List.length_pos_iff.mpr nonempty

theorem spellingLength?_pos {spelling : String} {text : List Char} {length : Nat}
    (nonempty : 0 < spelling.toList.length)
    (found : spellingLength? spelling text = some length) : 0 < length := by
  unfold spellingLength? at found
  split at found
  · cases found
    exact nonempty
  · cases found

/-- What a rule matches is not empty. -/
theorem length?_pos {rule : Rule} {text : List Char} {length : Nat}
    (found : rule.length? text = some length) : 0 < length := by
  unfold length? at found
  -- one case for each line of the definition
  split at found
  · exact runLength?_pos found
  · cases found
    exact Nat.succ_pos _
  · cases found
    exact Nat.succ_pos _
  · exact runLength?_pos found
  · rcases Option.map_eq_some_iff.mp found with ⟨inside, -, rfl⟩
    exact Nat.succ_pos _
  · rcases Option.map_eq_some_iff.mp found with ⟨inside, -, rfl⟩
    exact Nat.succ_pos _
  · rename_i word
    exact spellingLength?_pos (by cases word <;> decide) found
  · rename_i mark
    exact spellingLength?_pos (by cases mark <;> decide) found
  · split at found
    · cases found
      exact Nat.succ_pos _
    · cases found
  · cases found
    exact Nat.one_pos
  · cases found
    exact Nat.two_pos
  · cases found

/-- So the longest text that is matched is not empty either. -/
theorem longest?_pos {rule : Rule} {text : List Char} {length : Nat}
    (found : longest? text = some (rule, length)) : 0 < length := by
  rcases List.mem_filterMap.mp (mem_of_best found) with ⟨rule', -, matched⟩
  rcases Option.map_eq_some_iff.mp matched with ⟨length', there, same⟩
  cases same
  exact length?_pos there

end Scanner.Rule

/-- Why there is no token. -/
inductive Scanner.Failure where
  /-- No rule matches. -/
  | illegal
  /-- A block comment without an end; all that is left was taken. -/
  | unterminatedComment
  /-- An integer literal that no 64-bit integer is equal to. -/
  | integerOutOfRange
  deriving DecidableEq, Repr

/-- What becomes of the text that was taken. -/
inductive Scanner.Action where
  /-- It is a token. -/
  | emit (kind : Token.Kind)
  /-- It is left out. -/
  | skip
  /-- It is no token. -/
  | fail (failure : Scanner.Failure)
  deriving DecidableEq, Repr

/-- Where the scanner stands in the text that it was started on. -/
structure Scanner where
  /-- What lies before the text that was taken last. -/
  before : List Char
  /-- The text that was taken last. -/
  slice : List Char
  /-- What has not been taken. -/
  remainder : List Char
  /-- The line that has been counted. -/
  line : UInt32
  deriving DecidableEq, Repr, Inhabited

namespace Scanner

/-- The scanner at the start of a text. -/
def ofText (text : List Char) (line : UInt32) : Scanner :=
  ⟨[], [], text, line⟩

/-- The byte at which the text that was taken last starts. -/
def start (scanner : Scanner) : Nat :=
  Position.byteLength scanner.before

/-- The byte behind the text that was taken last. -/
def stop (scanner : Scanner) : Nat :=
  Position.byteLength (scanner.before ++ scanner.slice)

/-- Takes the next `length` characters. -/
def take (scanner : Scanner) (length : Nat) : Scanner where
  before := scanner.before ++ scanner.slice
  slice := scanner.remainder.take length
  remainder := scanner.remainder.drop length
  line := scanner.line

/-- Takes some bytes more. -/
def bump? (scanner : Scanner) (bytes : Nat) : Option Scanner := do
  let (more, remainder) ← Span.splitAtByte? bytes scanner.remainder
  return { scanner with slice := scanner.slice ++ more, remainder }

/-- Adds the line feeds of a text to the lines. -/
def countLines (scanner : Scanner) (text : List Char) : Scanner :=
  { scanner with line := scanner.line + (text.count '\n').toUInt32 }

/-- The byte at which the first end of a block comment starts. -/
def commentEnd? : List Char → Option Nat
  | [] => none
  | '*' :: '/' :: _ => some 0
  | c :: text => (commentEnd? text).map (· + c.utf8Size)

/-- Goes on to the end of a block comment, or takes all that is left if there is none. -/
def blockComment (scanner : Scanner) : Option (Action × Scanner) := do
  let rest := scanner.remainder
  match commentEnd? rest with
  | some stop =>
    let (body, _) ← Span.splitAtByte? stop rest
    let scanner ← (scanner.countLines body).bump? (stop + 2)
    return (.skip, scanner)
  | none =>
    let scanner ← (scanner.countLines rest).bump? (Position.byteLength rest)
    return (.fail .unterminatedComment, scanner)

/-- The token of the digits that were taken. -/
def integer (scanner : Scanner) : Action :=
  match Decimal.int64? scanner.slice with
  | some value => .emit (.integer value)
  | none => .fail .integerOutOfRange

/-- What was taken, without its first and its last character. -/
def body (scanner : Scanner) : String :=
  String.ofList scanner.slice.tail.dropLast

/-- What a rule does with the text that was taken. -/
def act (scanner : Scanner) : Rule → Option (Action × Scanner)
  | .spaces | .lineComment | .directive => some (.skip, scanner)
  | .integer => some (scanner.integer, scanner)
  | .character => some (.emit (.character scanner.body), scanner)
  | .string => some (.emit (.string scanner.body), scanner)
  | .keyword word => some (.emit (.keyword word), scanner)
  | .symbol mark => some (.emit (.symbol mark), scanner)
  | .identifier => some (.emit (.identifier (String.ofList scanner.slice)), scanner)
  | .newline => some (.skip, { scanner with line := scanner.line + 1 })
  | .blockComment => scanner.blockComment

/-- Takes the longest text that a rule matches, or fails. -/
def turn (giveUp : List Char → Nat) (scanner : Scanner) : Option (Action × Scanner) :=
  match Rule.longest? scanner.remainder with
  | some (rule, length) => (scanner.take length).act rule
  | none => some (.fail .illegal, scanner.take (giveUp scanner.remainder))

/-- A literal that is not closed is given up with the rest of its line, another character alone. -/
def unfinished : List Char → Nat
  | '\'' :: rest => (rest.takeWhile (· ≠ '\n')).length + 1
  | '"' :: rest => (rest.takeWhile (· ≠ '\n')).length + 1
  | _ => 1

theorem remaining_bump? {scanner scanner' : Scanner} {bytes : Nat}
    (bumped : scanner.bump? bytes = some scanner') :
    scanner'.remainder.length ≤ scanner.remainder.length := by
  rcases Option.bind_eq_some_iff.mp bumped with ⟨⟨more, rest⟩, cut, same⟩
  cases same
  rw [← (Span.of_splitAtByte? cut).1, List.length_append]
  exact Nat.le_add_left _ _

theorem remaining_blockComment {scanner scanner' : Scanner} {action : Action}
    (acted : scanner.blockComment = some (action, scanner')) :
    scanner'.remainder.length ≤ scanner.remainder.length := by
  unfold blockComment at acted
  dsimp only at acted
  split at acted
  · rcases Option.bind_eq_some_iff.mp acted with ⟨⟨body, rest⟩, -, bumping⟩
    rcases Option.bind_eq_some_iff.mp bumping with ⟨behind, bumped, same⟩
    cases same
    have kept := remaining_bump? bumped
    exact kept
  · rcases Option.bind_eq_some_iff.mp acted with ⟨behind, bumped, same⟩
    cases same
    have kept := remaining_bump? bumped
    exact kept

/-- An action gives nothing back. -/
theorem remaining_act {scanner scanner' : Scanner} {rule : Rule} {action : Action}
    (acted : scanner.act rule = some (action, scanner')) :
    scanner'.remainder.length ≤ scanner.remainder.length := by
  cases rule with
  | blockComment => exact remaining_blockComment acted
  | _ =>
    cases acted
    exact Nat.le_refl _

/-- A turn takes something, or it is a failure with nothing given up. -/
theorem remaining_turn {giveUp : List Char → Nat} {scanner scanner' : Scanner} {action : Action}
    (more : scanner.remainder ≠ []) (turned : scanner.turn giveUp = some (action, scanner')) :
    scanner'.remainder.length < scanner.remainder.length ∨
      action = .fail .illegal ∧ scanner'.slice = [] ∧
        scanner'.remainder.length ≤ scanner.remainder.length := by
  have whole := List.length_pos_iff.mpr more
  unfold turn at turned
  split at turned
  · rename_i rule length found
    have positive := Rule.longest?_pos found
    have kept := remaining_act turned
    rw [take, List.length_drop] at kept
    exact .inl (by omega)
  · cases turned
    cases given : giveUp scanner.remainder with
    | zero => exact .inr ⟨rfl, rfl, Nat.le_refl _⟩
    | succ given =>
      rw [take, List.length_drop]
      exact .inl (by omega)

/-- Goes on to the next text that is not skipped; at the end there is none. -/
def next (giveUp : List Char → Nat) (scanner : Scanner) :
    Option (Option (Except Failure Token.Kind) × Scanner) :=
  if _ended : scanner.remainder = [] then some (none, scanner.take 0)
  else
    match _turned : scanner.turn giveUp with
    | none => none
    | some (.emit kind, behind) => some (some (.ok kind), behind)
    | some (.fail failure, behind) => some (some (.error failure), behind)
    | some (.skip, behind) => behind.next giveUp
termination_by scanner.remainder.length
decreasing_by exact (remaining_turn _ended _turned).resolve_right fun failed => nomatch failed.1

/-- An answer takes something, unless it is a failure with nothing given up. -/
theorem remaining_next {giveUp : List Char → Nat} {scanner scanner' : Scanner}
    {answer : Except Failure Token.Kind}
    (found : scanner.next giveUp = some (some answer, scanner')) :
    scanner'.remainder.length < scanner.remainder.length ∨
      answer = .error .illegal ∧ scanner'.slice = [] ∧
        scanner'.remainder.length ≤ scanner.remainder.length := by
  rw [next] at found
  split at found
  · cases found
  · rename_i more
    split at found
    · cases found
    · rename_i turned
      cases found
      exact .inl ((remaining_turn more turned).resolve_right fun failed => nomatch failed.1)
    · rename_i turned
      cases found
      rcases remaining_turn more turned with shorter | ⟨illegal, slice, kept⟩
      · exact .inl shorter
      · cases illegal
        exact .inr ⟨rfl, slice, kept⟩
    · rename_i behind turned
      have shorter := (remaining_turn more turned).resolve_right fun failed => nomatch failed.1
      rcases remaining_next found with farther | ⟨illegal, slice, kept⟩
      · exact .inl (Nat.lt_trans farther shorter)
      · exact .inl (Nat.lt_of_le_of_lt kept shorter)
termination_by scanner.remainder.length
decreasing_by exact shorter

end Scanner

end SubsetC
