/-!
# Decimal numerals

Integers as decimal digits, and back. A numeral that is read may carry a sign and must have a digit;
it has a value only when the value lies in the range that the reader asks for.
-/

namespace SubsetC.Decimal

/-- The decimal digits of a natural number, without leading zeros. -/
def digits (n : Nat) : List Char :=
  Nat.toDigits 10 n

/-- The number that decimal digits stand for. -/
def value (numeral : List Char) : Nat :=
  numeral.foldl (fun n digit => 10 * n + (digit.toNat - '0'.toNat)) 0

/-- An integer as its digits, after a minus sign if it is negative. -/
def ofInt : Int → List Char
  | .ofNat n => digits n
  | .negSucc n => '-' :: digits (n + 1)

/-- A 64-bit integer as text. -/
def ofInt64 (n : Int64) : String :=
  String.ofList (ofInt n.toInt)

/-- The value of one or more decimal digits and nothing else. -/
def natural? (text : List Char) : Option Nat :=
  if text ≠ [] ∧ text.all Char.isDigit then some (value text) else none

/-- The value of decimal digits that may follow one sign. -/
def integer? : List Char → Option Int
  | '-' :: text => (natural? text).map fun n => -(n : Int)
  | '+' :: text => (natural? text).map fun n => (n : Int)
  | text => (natural? text).map fun n => (n : Int)

/-- The 64-bit integer that has this value, if one has. -/
def int64OfInt? (n : Int) : Option Int64 :=
  if Int64.minValue.toInt ≤ n ∧ n ≤ Int64.maxValue.toInt then some (Int64.ofInt n) else none

/-- A signed numeral as a 64-bit integer; none if it is no numeral or does not fit. -/
def int64? (text : List Char) : Option Int64 :=
  (integer? text).bind int64OfInt?

/-- A numeral as a 64-bit count, with a plus sign or without; none if it is no numeral or does not
fit. -/
def uint64? (text : List Char) : Option UInt64 :=
  let unsigned := match text with
    | '+' :: rest => rest
    | _ => text
  (natural? unsigned).bind fun n => if n < UInt64.size then some n.toUInt64 else none

end SubsetC.Decimal
