/-!
# Escape sequences of the source language

The bodies of character and string literals are kept as written; a backslash and the character after
it stand for one character. A backslash with nothing after it stands for itself. The two kinds of
literals are decoded apart from each other: a string is read to its end, a character only as far as
its first escape, and each has its own table of escapes.
-/

namespace SubsetC.Escape

/-- What a character means after a backslash in a string literal. -/
def meaningInString : Char → Char
  | 'n' => '\n'
  | 't' => '\t'
  | 'r' => '\r'
  | '0' => '\x00'
  | '\\' => '\\'
  | '"' => '"'
  | '\'' => '\''
  | c => c

/-- The text that the body of a string literal stands for. -/
def decode : List Char → List Char
  | [] => []
  | ['\\'] => ['\\']
  | '\\' :: c :: rest => meaningInString c :: decode rest
  | c :: rest => c :: decode rest

/-- The string that the body of a string literal stands for. -/
def string (body : String) : String :=
  String.ofList (decode body.toList)

/-- What a character means after a backslash in a character literal. -/
def meaningInCharacter : Char → Char
  | 'n' => '\n'
  | 't' => '\t'
  | 'r' => '\r'
  | '0' => '\x00'
  | '\\' => '\\'
  | '\'' => '\''
  | '"' => '"'
  | c => c

/-- The character that the body of a character literal stands for; of an empty body, NUL. -/
def char (body : String) : Char :=
  match body.toList with
  | [] => '\x00'
  | ['\\'] => '\\'
  | '\\' :: c :: _ => meaningInCharacter c
  | c :: _ => c

end SubsetC.Escape
