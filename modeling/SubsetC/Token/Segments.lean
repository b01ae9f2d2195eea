import SubsetC.Token

/-!
# From source text to tokens

A source is first cut into segments, each of which is a token, text to be skipped or a character
that belongs to nothing; `flatMap_text_segments` says that the segments put together are the source.
Their places and errors then follow from their order. At each point the longest segment wins, and a
reserved word wins over an identifier. A character that starts no segment is dropped alone, also
when a longer text after it looked like a literal without an end.
-/

namespace SubsetC

/-- What is wrong with a source below the level of its grammar. None of it ends the reading. -/
inductive LexicalError where
  /-- A character that starts nothing. -/
  | illegalCharacter (character : Char) (line : UInt32)
  /-- A block comment without an end; the line is that of its opening. -/
  | unterminatedComment (line : UInt32)
  /-- An integer literal that no 64-bit integer is equal to. -/
  | integerOutOfRange (numeral : String) (line : UInt32)
  deriving DecidableEq, Repr, Inhabited

namespace LexicalError

/-- The line of the error. -/
def line : LexicalError → UInt32
  | illegalCharacter _ line => line
  | unterminatedComment line => line
  | integerOutOfRange _ line => line

/-- The error in words. -/
def message : LexicalError → String
  | illegalCharacter character _ => s!"illegal character '{character}'"
  | unterminatedComment _ => "unterminated block comment"
  | integerOutOfRange numeral _ =>
      s!"integer literal {numeral} does not fit in 64 bits, using 9223372036854775807"

end LexicalError

/-- What a stretch of source text is. -/
inductive Segment.Role where
  /-- A token. -/
  | token (kind : Token.Kind)
  /-- An integer literal that is too large for 64 bits. -/
  | oversized
  /-- White space or a comment. -/
  | skipped
  /-- A block comment that the source ends in. -/
  | unterminated
  /-- A character that starts nothing. -/
  | illegal (character : Char)
  deriving DecidableEq, Repr, Inhabited

/-- A stretch of source text and what it is. -/
structure Segment where
  role : Segment.Role
  text : List Char
  deriving DecidableEq, Repr, Inhabited

namespace Segment

/-- A space that stays on its line. -/
def isSpace (c : Char) : Bool :=
  c == ' ' || c == '\t' || c == '\r' || c == '\x0c'

/-- A character that an identifier may start with. -/
def isNameStart (c : Char) : Bool :=
  c.isAlpha || c == '_'

/-- A character that an identifier may go on with. -/
def isNameRest (c : Char) : Bool :=
  c.isAlphanum || c == '_'

/-- The number of characters up to and with the first end of a block comment. -/
def commentLength? : List Char → Option Nat
  | [] => none
  | '*' :: '/' :: _ => some 2
  | _ :: text => (commentLength? text).map (· + 1)

/-- The length of the body of a character literal that starts here: one character, or a backslash
and one character, on this line and with an apostrophe behind it. -/
def characterLength? : List Char → Option Nat
  | '\\' :: c :: '\'' :: _ => if c = '\n' then none else some 2
  | c :: '\'' :: _ => if c = '\'' ∨ c = '\\' ∨ c = '\n' then none else some 1
  | _ => none

/-- The length of the body of a string literal that starts here: all up to the first quotation mark
that no backslash stands before, on this line. -/
def stringLength? : List Char → Option Nat
  | [] => none
  | '"' :: _ => some 0
  | '\\' :: c :: text => if c = '\n' then none else (stringLength? text).map (· + 2)
  | c :: text => if c = '\\' ∨ c = '\n' then none else (stringLength? text).map (· + 1)

/-- The token of a run of decimal digits. -/
def numeral (digits : List Char) : Role :=
  match Decimal.int64? digits with
  | some value => .token (.integer value)
  | none => .oversized

/-- The token of a run of letters, digits and underscores. -/
def word (name : String) : Token.Kind :=
  match Keyword.ofSpelling? name with
  | some keyword => .keyword keyword
  | none => .identifier name

/-- The segment that starts with `first`: what it is, and how many characters of `rest` belong to
it. -/
def scan (first : Char) (rest : List Char) : Role × Nat :=
  if isSpace first then (.skipped, (rest.takeWhile isSpace).length)
  else if first = '\n' then (.skipped, 0)
  else if first = '#' ∨ (first = '/' ∧ rest.head? = some '/') then
    (.skipped, (rest.takeWhile (· ≠ '\n')).length)
  else if first = '/' ∧ rest.head? = some '*' then
    match commentLength? rest.tail with
    | some length => (.skipped, length + 1)
    | none => (.unterminated, rest.length)
  else if first.isDigit then
    let more := rest.takeWhile Char.isDigit
    (numeral (first :: more), more.length)
  else if isNameStart first then
    let more := rest.takeWhile isNameRest
    (.token (word (String.ofList (first :: more))), more.length)
  else if first = '\'' then
    match characterLength? rest with
    | some length => (.token (.character (String.ofList (rest.take length))), length + 1)
    | none => (.illegal first, 0)
  else if first = '"' then
    match stringLength? rest with
    | some length => (.token (.string (String.ofList (rest.take length))), length + 1)
    | none => (.illegal first, 0)
  else
    match Symbol.scan? first rest with
    | some (symbol, length) => (.token (.symbol symbol), length)
    | none => (.illegal first, 0)

/-- The segments of a source with at most `bound` characters. -/
def segmentsWithin : (bound : Nat) → (source : List Char) → source.length ≤ bound → List Segment
  | _, [], _ => []
  | 0, _ :: _, within => absurd within (Nat.not_succ_le_zero _)
  | bound + 1, first :: rest, within =>
    let (role, length) := scan first rest
    ⟨role, first :: rest.take length⟩ ::
      segmentsWithin bound (rest.drop length) (by
        simp only [List.length_cons, List.length_drop] at within ⊢
        omega)

/-- The segments of a source, in order. -/
def segments (source : List Char) : List Segment :=
  segmentsWithin source.length source (Nat.le_refl _)

theorem flatMap_text_segments (source : List Char) :
    (segments source).flatMap text = source := by
  suffices whole : ∀ bound (source : List Char) (within : source.length ≤ bound),
      (segmentsWithin bound source within).flatMap text = source from whole _ _ _
  intro bound
  induction bound with
  | zero =>
    intro source within
    match source with
    | [] => rfl
    | _ :: _ => exact absurd within (Nat.not_succ_le_zero _)
  | succ bound ih =>
    intro source within
    match source with
    | [] => rfl
    | first :: rest => simp [segmentsWithin, ih]

end Segment

/-- A token, with the errors that were met on the way to it. -/
structure Lexeme where
  errors : List LexicalError
  token : Token
  deriving DecidableEq, Repr, Inhabited

/-- The tokens that are left of a source. -/
structure TokenStream where
  /-- The tokens, the next one first. -/
  ahead : List Lexeme
  /-- The errors between the last token and the end. -/
  trailing : List LexicalError
  /-- The end of the source. -/
  stop : Position
  deriving DecidableEq, Repr, Inhabited

namespace TokenStream

/-- The token that marks the end of the source. -/
def endToken (stream : TokenStream) : Token where
  kind := .endOfInput
  span := .between stream.stop stream.stop

/-- The next token, with the errors before it. -/
def current (stream : TokenStream) : Lexeme :=
  match stream.ahead with
  | [] => ⟨stream.trailing, stream.endToken⟩
  | lexeme :: _ => lexeme

/-- The stream behind its next token. The end is never passed, and its errors are met once. -/
def advance (stream : TokenStream) : TokenStream :=
  match stream.ahead with
  | [] => { stream with trailing := [] }
  | _ :: ahead => { stream with ahead }

/-- The tokens of a list of segments that starts at `position`, where `errors` have been met since
the last token. -/
def ofSegments (position : Position) (errors : List LexicalError) : List Segment → TokenStream
  | [] => ⟨[], errors, position⟩
  | ⟨role, text⟩ :: segments =>
    let next := position.after text
    let found (errors : List LexicalError) (kind : Token.Kind) : TokenStream :=
      let stream := ofSegments next [] segments
      { stream with ahead := ⟨errors, ⟨kind, .between position next⟩⟩ :: stream.ahead }
    match role with
    | .token kind => found errors kind
    | .oversized =>
      found (errors ++ [.integerOutOfRange (String.ofList text) position.line])
        (.integer Int64.maxValue)
    | .skipped => ofSegments next errors segments
    | .unterminated =>
      ofSegments next (errors ++ [.unterminatedComment position.line]) segments
    | .illegal character =>
      ofSegments next (errors ++ [.illegalCharacter character position.line]) segments

/-- The tokens of a source. -/
def ofSource (source : String) : TokenStream :=
  ofSegments .start [] (Segment.segments source.toList)

/-- All tokens, with the one that marks the end. -/
def tokens (stream : TokenStream) : List Token :=
  stream.ahead.map Lexeme.token ++ [stream.endToken]

/-- All errors, in the order of the source. -/
def errors (stream : TokenStream) : List LexicalError :=
  stream.ahead.flatMap Lexeme.errors ++ stream.trailing

end TokenStream

/-- The tokens of a source and its lexical errors. -/
def lex (source : String) : List Token × List LexicalError :=
  let stream := TokenStream.ofSource source
  (stream.tokens, stream.errors)

end SubsetC
