import SubsetC.Text.Printable

/-!
# Quoted text

How characters and strings are shown in listings: between delimiters, with an escape for each
character that would not show as itself. Only the delimiter in use is escaped, so an apostrophe
stands as it is inside a string.
-/

namespace SubsetC.Quoted

/-- A code point as a hexadecimal escape. -/
def hexEscape (c : Char) : List Char :=
  ['\\', 'u', '{'] ++ Nat.toDigits 16 c.toNat ++ ['}']

/-- One character of a text that stands between two of `delimiter`. -/
def escape (delimiter c : Char) : List Char :=
  if c = '\x00' then ['\\', '0']
  else if c = '\t' then ['\\', 't']
  else if c = '\r' then ['\\', 'r']
  else if c = '\n' then ['\\', 'n']
  else if c = '\\' ∨ c = delimiter then ['\\', c]
  else if Printable.isExtending c ∨ Printable.isUnprintable c then hexEscape c
  else [c]

/-- A text between two of `delimiter`. -/
def between (delimiter : Char) (text : List Char) : List Char :=
  delimiter :: text.flatMap (escape delimiter) ++ [delimiter]

/-- A character between apostrophes. -/
def char (c : Char) : String :=
  String.ofList (between '\'' [c])

/-- A string between quotation marks. -/
def string (text : String) : String :=
  String.ofList (between '"' text.toList)

end SubsetC.Quoted
