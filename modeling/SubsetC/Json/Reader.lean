import SubsetC.Json
import SubsetC.Reader

/-!
# Reading JSON

Readers for JSON texts. What is wrong with a text is told by the first place that cannot be read on
from: the text ends there, it is no JSON there, or it is JSON that does not fit. `Json.value` reads
a value with at most `room` brackets in each other. `Json.skip` passes over a value of any depth,
and is content with less: it looks neither at the size of numbers nor at the pairing of surrogates.
-/

namespace SubsetC.Json

/-- Why a text cannot be read. -/
inductive ReadError where
  /-- The text ends where it has to go on. -/
  | cut
  /-- The text is no JSON. -/
  | malformed
  /-- The text is JSON, but not of the form that is asked for. -/
  | unfit
  deriving DecidableEq, Repr, Inhabited

/-- The error in words. -/
def ReadError.message : ReadError → String
  | cut => "the text ends too early"
  | malformed => "the text is no JSON"
  | unfit => "the text is JSON of another form"

/-- A reader of text. -/
abbrev TextReader := Reader (List Char) ReadError

/-- A reader of text that takes at least one character. -/
abbrev TextStep := Step (List Char) ReadError

/-- The characters that may stand between the parts of a value. -/
def isGap (c : Char) : Bool :=
  c == ' ' || c == '\n' || c == '\t' || c == '\r'

/-- Takes the next character if it is an accepted one, where `atEnd` is the error of finding the end
of the text. -/
def takeOr {α : Type} (atEnd : ReadError) (accepted : Char → Option α) : TextStep α where
  run
    | [] => (.error atEnd, [])
    | c :: text =>
      match accepted c with
      | some value => (.ok value, text)
      | none => (.error .malformed, c :: text)
  remaining_le text := by
    split
    · exact Nat.le_refl _
    · split
      · exact Nat.le_succ _
      · exact Nat.le_refl _
  remaining_lt {text _ _} equation := by
    split at equation
    · simp at equation
    · split at equation
      · simp only [Prod.mk.injEq] at equation
        obtain ⟨-, rfl⟩ := equation
        exact Nat.lt_succ_self _
      · simp at equation

/-- Takes the next character if it is an accepted one. -/
def take {α : Type} (accepted : Char → Option α) : TextStep α :=
  takeOr .cut accepted

/-- Takes one given character. -/
def char (c : Char) : TextStep Unit :=
  take fun found => if found = c then some () else none

/-- Takes given characters. -/
def word : List Char → TextReader Unit
  | [] => pure ()
  | c :: rest => do
    let _ ← (char c).toReader
    word rest

/-- The next character. -/
def peek : TextReader (Option Char) :=
  Reader.inspect List.head?

/-- Takes characters as long as they satisfy a condition. -/
def takeWhile (condition : Char → Bool) : TextReader (List Char) where
  run text := (.ok (text.takeWhile condition), text.dropWhile condition)
  remaining_le _ := (List.dropWhile_sublist _).length_le

/-- Passes over a gap, and says what stands behind it. -/
def peekBehindGap : TextReader (Option Char) := do
  let _ ← takeWhile isGap
  peek

/-! ## Strings -/

/-- The value of a hexadecimal digit. -/
def hexDigit? (c : Char) : Option Nat :=
  if c.isDigit then some (c.toNat - '0'.toNat)
  else if 'a' ≤ c ∧ c ≤ 'f' then some (c.toNat - 'a'.toNat + 10)
  else if 'A' ≤ c ∧ c ≤ 'F' then some (c.toNat - 'A'.toNat + 10)
  else none

/-- The number that four hexadecimal digits stand for. -/
def hexQuad? (digits : List Char) : Option Nat :=
  match digits.mapM hexDigit? with
  | some [a, b, c, d] => some (((16 * a + b) * 16 + c) * 16 + d)
  | _ => none

/-- Takes four hexadecimal digits. The text counts as cut if fewer than four bytes are left. -/
def hexQuad : TextReader Nat where
  run text :=
    match hexQuad? (text.take 4) with
    | some n => (.ok n, text.drop 4)
    | none =>
      let left := (String.ofList (text.take 4)).utf8ByteSize
      (.error (if left < 4 then .cut else .malformed), text)
  remaining_le text := by
    split
    · simp [Source.remaining]
    · exact Nat.le_refl _

/-- The number is the first half of a surrogate pair. -/
def isLeading (n : Nat) : Bool :=
  0xd800 ≤ n && n < 0xdc00

/-- The number is the second half of a surrogate pair. -/
def isTrailing (n : Nat) : Bool :=
  0xdc00 ≤ n && n < 0xe000

/-- What a character means after a backslash, where that is another character. -/
def escaped? : Char → Option Char
  | '"' => some '"'
  | '\\' => some '\\'
  | '/' => some '/'
  | 'b' => some '\x08'
  | 'f' => some '\x0c'
  | 'n' => some '\n'
  | 'r' => some '\r'
  | 't' => some '\t'
  | _ => none

/-- The character of an escape by number, behind the letter. A leading surrogate needs a trailing
one after it. -/
def numbered : TextReader Char := do
  let n ← hexQuad
  if isTrailing n then Reader.fail .malformed
  else if isLeading n then
    word ['\\', 'u']
    let m ← hexQuad
    if isTrailing m then
      return Char.ofNat (0x10000 + (n - 0xd800) * 0x400 + (m - 0xdc00))
    else Reader.fail .malformed
  else return Char.ofNat n

/-- The character of an escape, behind the backslash. -/
def escaped : TextReader Char := do
  let c ← (take some).toReader
  if c = 'u' then numbered
  else
    match escaped? c with
    | some c => return c
    | none => Reader.fail .malformed

/-- One character of a string literal, for which `escape` reads what follows a backslash. -/
def stringChar (escape : TextReader Char) : TextStep Char :=
  (take fun c => if c.toNat < 0x20 then none else some c).andThen fun c =>
    if c = '\\' then escape else pure c

/-- A string literal. -/
def stringWith (escape : TextReader Char) : TextStep String :=
  (char '"').andThen fun _ => do
    let text ← Reader.many (fun text => text.head? != some '"') (stringChar escape)
    let _ ← (char '"').toReader
    return String.ofList text

/-- A string literal. -/
def stringLiteral : TextStep String :=
  stringWith escaped

/-! ## Numbers -/

/-- A number as written. -/
structure Numeral where
  negative : Bool
  whole : List Char
  /-- The digits behind the point. -/
  fraction : Option (List Char)
  /-- The sign is negative, and the digits. -/
  exponent : Option (Bool × List Char)
  deriving Repr

namespace Numeral

/-- The numeral as text. -/
def text (numeral : Numeral) : List Char :=
  (if numeral.negative then ['-'] else []) ++ numeral.whole ++
    (match numeral.fraction with
      | none => []
      | some digits => '.' :: digits) ++
    (match numeral.exponent with
      | none => []
      | some (negative, digits) => 'e' :: (if negative then ['-'] else []) ++ digits)

/-- The digits that count, as a number of at most 64 bits, and the power of ten that it is to be
multiplied with. Further digits only shift the point. -/
def significand (numeral : Numeral) : Nat × Int :=
  let digit (c : Char) := c.toNat - '0'.toNat
  let fits (n : Nat) (c : Char) : Bool := 10 * n + digit c < UInt64.size
  let (n, full, power) := numeral.whole.foldl
    (fun (n, full, power) c =>
      if !full && fits n c then (10 * n + digit c, false, power) else (n, true, power + 1))
    (0, false, (0 : Int))
  let (n, _, power) := (numeral.fraction.getD []).foldl
    (fun (n, full, power) c =>
      if !full && fits n c then (10 * n + digit c, false, power - 1) else (n, true, power))
    (n, full, power)
  let exponent := match numeral.exponent with
    | none => (0 : Int)
    | some (negative, digits) =>
      if negative then -(Decimal.value digits : Int) else Decimal.value digits
  (n, power + exponent)

/-- The nearest number of the form `m * 2 ^ k` with at most 53 bits in `m`; of two, the one with
the even `m`. -/
def roundToDouble (n : Nat) : Nat :=
  let excess := Nat.log2 n + 1 - 53
  let unit := 1 <<< excess
  let rest := n % unit
  let floor := n / unit
  let up := unit < 2 * rest || (unit == 2 * rest && floor % 2 == 1)
  (if up then floor + 1 else floor) * unit

/-- The number is larger than any double: the product of the doubles that are nearest to its
significand and to the power of ten would round to infinity. -/
def isTooLarge (numeral : Numeral) : Bool :=
  match numeral.significand with
  | (0, _) => false
  | (n, .ofNat power) =>
    power > 308 || (1 <<< 1024) - (1 <<< 970) ≤ roundToDouble n * roundToDouble (Nat.pow 10 power)
  | (_, .negSucc _) => false

/-- The value that a numeral stands for. An integer with a minus sign is not zero. -/
def toJson (numeral : Numeral) : Json :=
  let n := Decimal.value numeral.whole
  match numeral with
  | ⟨false, _, none, none⟩ => .integer n
  | ⟨true, _, none, none⟩ =>
    if n = 0 then .real (String.ofList numeral.text) else .integer (-n)
  | _ => .real (String.ofList numeral.text)

end Numeral

/-- One or more digits, where `atEnd` is the error of finding the end of the text. -/
def digits (atEnd : ReadError) : TextStep (List Char) :=
  (takeOr atEnd fun c => if c.isDigit then some c else none).andThen fun first => do
    return first :: (← takeWhile Char.isDigit)

/-- The digits before the point: no zero stands before another digit. -/
def wholeDigits (atEnd : ReadError) : TextStep (List Char) :=
  (digits atEnd).andThen fun
    | '0' :: _ :: _ => Reader.fail .malformed
    | whole => pure whole

/-- The fraction of a number, if there is one. -/
def fraction (atEnd : ReadError) : TextReader (Option (List Char)) := do
  match ← peek with
  | some '.' =>
    let _ ← (char '.').toReader
    return some (← (digits atEnd).toReader)
  | _ => return none

/-- The exponent of a number, if there is one. -/
def exponent (atEnd : ReadError) : TextReader (Option (Bool × List Char)) := do
  match ← peek with
  | some 'e' | some 'E' =>
    let _ ← (take some).toReader
    match ← peek with
    | some '+' =>
      let _ ← (char '+').toReader
      return some (false, ← (digits atEnd).toReader)
    | some '-' =>
      let _ ← (char '-').toReader
      return some (true, ← (digits atEnd).toReader)
    | _ => return some (false, ← (digits atEnd).toReader)
  | _ => return none

/-- A number behind its sign. -/
def unsignedNumeral (atEnd : ReadError) (negative : Bool) : TextStep Numeral :=
  (wholeDigits atEnd).andThen fun whole => do
    let fraction ← fraction atEnd
    return ⟨negative, whole, fraction, ← exponent atEnd⟩

/-- A number, where `atEnd` is the error of finding the end of the text. -/
def numeral (atEnd : ReadError) : TextStep Numeral :=
  Step.choose fun text =>
    if text.head? = some '-' then
      (char '-').andThen fun _ => (unsignedNumeral atEnd true).toReader
    else unsignedNumeral atEnd false

/-- A number that is not too large. -/
def number : TextStep Json :=
  (numeral .cut).andThen fun numeral =>
    if numeral.isTooLarge then Reader.fail .malformed else pure numeral.toJson

/-! ## Values -/

/-- A value without parts, given the readers for strings and numbers. -/
def scalarWith {α : Type} (plain : Json → α) (string number : TextStep α) : TextStep α :=
  Step.choose fun text =>
    match text.head? with
    | none => Step.fail .cut
    | some 'n' => named 'n' ['u', 'l', 'l'] .null
    | some 't' => named 't' ['r', 'u', 'e'] (.bool true)
    | some 'f' => named 'f' ['a', 'l', 's', 'e'] (.bool false)
    | some '"' => string
    | some c => if c = '-' ∨ c.isDigit then number else Step.fail .malformed
where
  /-- A value that is written as a word. -/
  named (first : Char) (rest : List Char) (value : Json) : TextStep α :=
    (char first).andThen fun _ => do
      word rest
      return plain value

/-- A value without parts. -/
def scalar : TextStep Json :=
  scalarWith id (stringLiteral.map .string) number

/-- The parts of an array or an object behind its opening bracket, and the closing one. Each part
changes what has been found so far. -/
def parts {α : Type} (close : Char) (part : α → TextReader α) (initial : α) : TextReader α := do
  let found ←
    if (← peekBehindGap) = some close then pure initial
    else do
      let first ← part initial
      let _ ← peekBehindGap
      Reader.iterate (fun found text =>
        if text.head? = some close then none
        else some <| (char ',').andThen fun _ => do
          let _ ← peekBehindGap
          let found ← part found
          let _ ← peekBehindGap
          return found) first
  let _ ← (char close).toReader
  return found

/-- The colon behind the name of a field. -/
def colon : TextReader Unit := do
  let _ ← peekBehindGap
  (char ':').toReader

/-- The items of an array behind its opening bracket, and the closing one. -/
def items {α : Type} (item : TextReader α) : TextReader (Array α) :=
  parts ']' (fun found => return found.push (← item)) #[]

/-- A value, given the reader for values one level deeper if there is such a level. -/
def valueOver (inner : Option (TextReader Json)) : TextReader Json := do
  match ← peekBehindGap, inner with
  | some '[', some inner =>
    let _ ← (char '[').toReader
    return .array (← items inner).toList
  | some '{', some inner =>
    let _ ← (char '{').toReader
    let fields ← parts '}' (fun fields : Array (String × Json) => do
      let name ← stringLiteral.toReader
      colon
      return fields.push (name, ← inner)) #[]
    return .object fields.toList
  | _, _ => scalar.toReader

/-- A value with at most `room` brackets in each other. -/
def value : (room : Nat) → TextReader Json
  | 0 => valueOver none
  | room + 1 => valueOver (some (value room))

/-! ## Passing over a value -/

/-- The brackets that a part of a text lies in. -/
inductive Bracket where
  | array
  | object
  deriving DecidableEq, Repr

/-- What has to come next while a value is passed over. -/
inductive Expectation where
  | value
  | valueOrClose
  | name
  | nameOrClose
  /-- A comma or a closing bracket. -/
  | separator
  deriving DecidableEq, Repr

/-- How far a value has been passed over: the open brackets, the innermost first. -/
structure Passage where
  brackets : List Bracket
  expected : Expectation
  deriving DecidableEq, Repr

namespace Passage

/-- Before a value. -/
def start : Passage := ⟨[], .value⟩

/-- Behind a value. -/
def finish : Passage := ⟨[], .separator⟩

/-- The character of an escape, whatever its number. -/
def escaped : TextReader Char := do
  let c ← (take some).toReader
  if c = 'u' then return Char.ofNat (← hexQuad)
  else
    match escaped? c with
    | some c => return c
    | none => Reader.fail .malformed

/-- A string literal, whatever its numbered escapes. -/
def string : TextStep Unit :=
  (stringWith escaped).map fun _ => ()

/-- A value without parts. -/
def scalar : TextStep Unit :=
  scalarWith (fun _ => ()) string ((numeral .malformed).map fun _ => ())

/-- Takes a bracket or a comma. -/
def mark (c : Char) (passage : Passage) : TextStep Passage :=
  (char c).map fun _ => passage

/-- Takes a value or the bracket that opens one. -/
def valueStep (brackets : List Bracket) (next : Option Char) : TextStep Passage :=
  match next with
  | some '[' => mark '[' ⟨.array :: brackets, .valueOrClose⟩
  | some '{' => mark '{' ⟨.object :: brackets, .nameOrClose⟩
  | _ => scalar.map fun _ => ⟨brackets, .separator⟩

/-- Takes the name of a field, with its colon. -/
def nameStep (brackets : List Bracket) : TextStep Passage :=
  string.andThen fun _ => do
    colon
    return ⟨brackets, .value⟩

/-- Takes what comes next. -/
def step (passage : Passage) : TextStep Passage :=
  Step.after peekBehindGap fun next =>
    let brackets := passage.brackets
    match passage.expected, next, brackets with
    | .valueOrClose, some ']', _ => mark ']' ⟨brackets.tail, .separator⟩
    | .value, _, _ | .valueOrClose, _, _ => valueStep brackets next
    | .nameOrClose, some '}', _ => mark '}' ⟨brackets.tail, .separator⟩
    | .name, _, _ | .nameOrClose, _, _ => nameStep brackets
    | .separator, some ',', .array :: _ => mark ',' ⟨brackets, .value⟩
    | .separator, some ',', .object :: _ => mark ',' ⟨brackets, .name⟩
    | .separator, some ']', .array :: _ => mark ']' ⟨brackets.tail, .separator⟩
    | .separator, some '}', .object :: _ => mark '}' ⟨brackets.tail, .separator⟩
    | .separator, none, _ => Step.fail .cut
    | .separator, some _, _ => Step.fail .malformed

end Passage

/-- Passes over a value of any depth. -/
def skip : TextReader Unit := do
  let _ ← Reader.iterate
    (fun passage _ => if passage = Passage.finish then none else some passage.step) Passage.start

end SubsetC.Json
