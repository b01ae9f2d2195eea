import SubsetC.Text.Decimal

/-!
# Formats

The format of an output or input statement is text with at most one conversion in it. A percent sign
is written twice. What makes a format ill-formed is the leftmost thing in it that is neither.
-/

namespace SubsetC

/-- How a value is written or read. -/
inductive Conversion where
  /-- As a decimal number. -/
  | decimal
  /-- As one character. -/
  | character
  /-- As a text. -/
  | string
  deriving DecidableEq, Repr, Inhabited

namespace Conversion

/-- The letter of the conversion. -/
def letter : Conversion → Char
  | decimal => 'd'
  | character => 'c'
  | string => 's'

/-- The conversion as written. -/
def specifier (conversion : Conversion) : String :=
  String.ofList ['%', conversion.letter]

/-- The conversion that a letter stands for. -/
def ofLetter? : Char → Option Conversion
  | 'd' => some decimal
  | 'c' => some character
  | 's' => some string
  | _ => none

/-- The name of the conversion in saved code. -/
def label : Conversion → String
  | decimal => "int"
  | character => "char"
  | string => "str"

/-- Every conversion. -/
def all : List Conversion :=
  [decimal, character, string]

end Conversion

/-- A text with at most one conversion; without one, all of it stands before. -/
structure Format where
  before : String
  conversion : Option Conversion
  after : String
  deriving DecidableEq, Repr, Inhabited

/-- Why a text is no format. -/
inductive FormatError where
  /-- A percent sign with something else behind it, or with nothing. -/
  | unsupported (specifier : String)
  /-- A second conversion. -/
  | tooManyConversions
  deriving DecidableEq, Repr, Inhabited

/-- The error in words. -/
def FormatError.message : FormatError → String
  | unsupported specifier => s!"Unsupported format specifier '{specifier}'"
  | tooManyConversions => "Only one format specifier is supported"

namespace Format

/-- Text up to the first conversion, and that conversion with what is behind it. -/
def upToConversion :
    List Char → Except FormatError (List Char × Option (Conversion × List Char))
  | [] => .ok ([], none)
  | ['%'] => .error (.unsupported "%")
  | '%' :: '%' :: rest => (upToConversion rest).map fun (text, found) => ('%' :: text, found)
  | '%' :: letter :: rest =>
    match Conversion.ofLetter? letter with
    | some conversion => .ok ([], some (conversion, rest))
    | none => .error (.unsupported (String.ofList ['%', letter]))
  | c :: rest => (upToConversion rest).map fun (text, found) => (c :: text, found)

/-- The format that is written so, with all escapes already decoded. -/
def parse (text : String) : Except FormatError Format := do
  match ← upToConversion text.toList with
  | (before, none) => return ⟨String.ofList before, none, ""⟩
  | (before, some (conversion, rest)) =>
    match ← upToConversion rest with
    | (after, none) => return ⟨String.ofList before, some conversion, String.ofList after⟩
    | (_, some _) => throw .tooManyConversions

end Format

end SubsetC
