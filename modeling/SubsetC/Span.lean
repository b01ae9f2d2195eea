/-!
# Places in a source text

Offsets count the bytes of the text's UTF-8 form; lines count from one. A text cannot be cut inside
of a character.
-/

namespace SubsetC

/-- A point in a source text. -/
structure Position where
  /-- The number of bytes before the point. -/
  offset : Nat
  /-- The line of the point. -/
  line : UInt32
  deriving DecidableEq, Repr, Inhabited

namespace Position

/-- The point before the first character. -/
def start : Position := ⟨0, 1⟩

/-- The number of bytes that a text takes. -/
def byteLength : List Char → Nat
  | [] => 0
  | c :: text => c.utf8Size + byteLength text

/-- The point that is reached from `position` by reading `text`. -/
def after (position : Position) (text : List Char) : Position where
  offset := position.offset + byteLength text
  line := position.line + (text.count '\n').toUInt32

/-- The bytes of two texts add up. -/
theorem byteLength_append (text more : List Char) :
    byteLength (text ++ more) = byteLength text + byteLength more := by
  induction text with
  | nil => rw [List.nil_append, byteLength, Nat.zero_add]
  | cons c text ih => rw [List.cons_append, byteLength, byteLength, ih, Nat.add_assoc]

end Position

/-- A stretch of a source text. -/
structure Span where
  /-- The offset of its first byte. -/
  start : Nat
  /-- The offset of the byte after its last one. -/
  stop : Nat
  /-- The line that it starts on. -/
  line : UInt32
  deriving DecidableEq, Repr, Inhabited

namespace Span

/-- The stretch from one point to another. -/
def between (first last : Position) : Span :=
  ⟨first.offset, last.offset, first.line⟩

/-- The stretch from the start of `span` to the byte `stop`. -/
def upTo (span : Span) (stop : Nat) : Span :=
  { span with stop }

/-- Cuts a text at a byte; none if the text is too short or the cut would split a character. -/
def splitAtByte? : Nat → List Char → Option (List Char × List Char)
  | 0, text => some ([], text)
  | _ + 1, [] => none
  | offset + 1, c :: text =>
    if c.utf8Size ≤ offset + 1 then
      (splitAtByte? (offset + 1 - c.utf8Size) text).map fun (before, rest) => (c :: before, rest)
    else none
termination_by structural _ text => text

/-- The two parts are the text, and the first one has as many bytes. -/
theorem of_splitAtByte? {offset : Nat} {text before rest : List Char}
    (cut : splitAtByte? offset text = some (before, rest)) :
    before ++ rest = text ∧ Position.byteLength before = offset := by
  induction text generalizing offset before with
  | nil =>
    cases offset with
    | zero =>
      cases cut
      exact ⟨rfl, rfl⟩
    | succ offset => cases cut
  | cons c text ih =>
    cases offset with
    | zero =>
      cases cut
      exact ⟨rfl, rfl⟩
    | succ offset =>
      rw [splitAtByte?] at cut
      split at cut
      · rename_i fits
        rcases Option.map_eq_some_iff.mp cut with ⟨⟨inside, rest'⟩, found, same⟩
        cases same
        rcases ih found with ⟨rfl, bytes⟩
        exact ⟨rfl, by rw [Position.byteLength, bytes, Nat.add_sub_of_le fits]⟩
      · cases cut

/-- The text of a stretch; none if it ends before it starts, runs past the end, or cuts a
character. -/
def text? (span : Span) (source : String) : Option String := do
  let (_, rest) ← splitAtByte? span.start source.toList
  if span.stop < span.start then none
  else
    let (text, _) ← splitAtByte? (span.stop - span.start) rest
    return String.ofList text

/-- The stretch as its line and its two ends. -/
def describe (span : Span) : String :=
  s!"line {span.line.toNat} ({span.start}..{span.stop})"

end Span

end SubsetC
