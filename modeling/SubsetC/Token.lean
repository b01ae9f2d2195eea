import SubsetC.Span
import SubsetC.Text.Decimal
import SubsetC.Text.Quoted

/-!
# Tokens

The words of the source language. `Token.Kind.spelling` writes a token as it stands in a source, and
`Token.render` a sequence of tokens with one space between two of them. The literals keep their
bodies as written, with the escapes in them.
-/

namespace SubsetC

/-- The reserved words. -/
inductive Keyword where
  | int
  | char
  | ifWord
  | elseWord
  | whileWord
  | returnWord
  | printf
  | scanf
  deriving DecidableEq, Repr

namespace Keyword

/-- Every reserved word. -/
def all : List Keyword :=
  [int, char, ifWord, elseWord, whileWord, returnWord, printf, scanf]

/-- The reserved word as written. -/
def spelling : Keyword → String
  | int => "int"
  | char => "char"
  | ifWord => "if"
  | elseWord => "else"
  | whileWord => "while"
  | returnWord => "return"
  | printf => "printf"
  | scanf => "scanf"

/-- The reserved word that is written so, if there is one. -/
def ofSpelling? (text : String) : Option Keyword :=
  all.find? fun word => word.spelling == text

/-- The name of the reserved word in a dump of tokens. -/
def label : Keyword → String
  | int => "Int"
  | char => "Char"
  | ifWord => "If"
  | elseWord => "Else"
  | whileWord => "While"
  | returnWord => "Return"
  | printf => "Printf"
  | scanf => "Scanf"

end Keyword

/-- Operators and punctuation. -/
inductive Symbol where
  | plus
  | minus
  | star
  | slash
  | equalEqual
  | bangEqual
  | less
  | lessEqual
  | greater
  | greaterEqual
  | andAnd
  | orOr
  | bang
  | ampersand
  | equal
  | leftParen
  | rightParen
  | leftBrace
  | rightBrace
  | comma
  | semicolon
  deriving DecidableEq, Repr

namespace Symbol

/-- Every operator and punctuation mark. -/
def all : List Symbol :=
  [plus, minus, star, slash, equalEqual, bangEqual, less, lessEqual, greater, greaterEqual, andAnd,
    orOr, bang, ampersand, equal, leftParen, rightParen, leftBrace, rightBrace, comma, semicolon]

/-- The symbol as written. -/
def spelling : Symbol → String
  | plus => "+"
  | minus => "-"
  | star => "*"
  | slash => "/"
  | equalEqual => "=="
  | bangEqual => "!="
  | less => "<"
  | lessEqual => "<="
  | greater => ">"
  | greaterEqual => ">="
  | andAnd => "&&"
  | orOr => "||"
  | bang => "!"
  | ampersand => "&"
  | equal => "="
  | leftParen => "("
  | rightParen => ")"
  | leftBrace => "\x7b"
  | rightBrace => "\x7d"
  | comma => ","
  | semicolon => ";"

/-- The name of the symbol in a dump of tokens. -/
def label : Symbol → String
  | plus => "Plus"
  | minus => "Minus"
  | star => "Star"
  | slash => "Slash"
  | equalEqual => "EqEq"
  | bangEqual => "NotEq"
  | less => "Lt"
  | lessEqual => "LtEq"
  | greater => "Gt"
  | greaterEqual => "GtEq"
  | andAnd => "AndAnd"
  | orOr => "OrOr"
  | bang => "Not"
  | ampersand => "Ampersand"
  | equal => "Eq"
  | leftParen => "LParen"
  | rightParen => "RParen"
  | leftBrace => "LBrace"
  | rightBrace => "RBrace"
  | comma => "Comma"
  | semicolon => "Semicolon"

/-- The symbol that starts with this character and goes on as far as the next one allows, with the
number of further characters that it takes. -/
def scan? (first : Char) (rest : List Char) : Option (Symbol × Nat) :=
  match first, rest with
  | '=', '=' :: _ => some (equalEqual, 1)
  | '!', '=' :: _ => some (bangEqual, 1)
  | '<', '=' :: _ => some (lessEqual, 1)
  | '>', '=' :: _ => some (greaterEqual, 1)
  | '&', '&' :: _ => some (andAnd, 1)
  | '|', '|' :: _ => some (orOr, 1)
  | '=', _ => some (equal, 0)
  | '!', _ => some (bang, 0)
  | '<', _ => some (less, 0)
  | '>', _ => some (greater, 0)
  | '&', _ => some (ampersand, 0)
  | '+', _ => some (plus, 0)
  | '-', _ => some (minus, 0)
  | '*', _ => some (star, 0)
  | '/', _ => some (slash, 0)
  | '(', _ => some (leftParen, 0)
  | ')', _ => some (rightParen, 0)
  | '{', _ => some (leftBrace, 0)
  | '}', _ => some (rightBrace, 0)
  | ',', _ => some (comma, 0)
  | ';', _ => some (semicolon, 0)
  | _, _ => none

end Symbol

/-- What a token is. -/
inductive Token.Kind where
  /-- An integer literal. -/
  | integer (value : Int64)
  /-- A character literal: what stands between the apostrophes. -/
  | character (body : String)
  /-- A string literal: what stands between the quotation marks. -/
  | string (body : String)
  /-- The name of a variable or a function. -/
  | identifier (name : String)
  /-- A reserved word. -/
  | keyword (word : Keyword)
  /-- An operator or a punctuation mark. -/
  | symbol (mark : Symbol)
  /-- The end of the source. -/
  | endOfInput
  deriving DecidableEq, Repr, Inhabited

/-- A word of the source with its place. -/
structure Token where
  kind : Token.Kind
  span : Span
  deriving DecidableEq, Repr, Inhabited

namespace Token

namespace Kind

/-- The token as it is written in a source. -/
def spelling : Kind → String
  | integer value => Decimal.ofInt64 value
  | character body => "'" ++ body ++ "'"
  | string body => "\"" ++ body ++ "\""
  | identifier name => name
  | keyword word => word.spelling
  | symbol mark => mark.spelling
  | endOfInput => "end of input"

/-- What a message calls the token that it expects. -/
def describe : Kind → String
  | integer _ => "integer"
  | character _ => "character literal"
  | string _ => "string literal"
  | identifier _ => "identifier"
  | kind => "'" ++ kind.spelling ++ "'"

/-- The name of the kind in a dump of tokens. -/
def label : Kind → String
  | integer _ => "IntLiteral"
  | character _ => "CharLiteral"
  | string _ => "StringLiteral"
  | identifier _ => "Ident"
  | keyword word => word.label
  | symbol mark => mark.label
  | endOfInput => "Eof"

/-- The token in a dump: its name, and its value if it has one. -/
def dump (kind : Kind) : String :=
  match kind with
  | integer value => s!"{kind.label}({Decimal.ofInt64 value})"
  | character text => s!"{kind.label}({Quoted.string text})"
  | string text => s!"{kind.label}({Quoted.string text})"
  | identifier text => s!"{kind.label}({Quoted.string text})"
  | _ => kind.label

end Kind

/-- The line that the token starts on. -/
def line (token : Token) : UInt32 :=
  token.span.line

/-- The tokens as source text, the end of the source left out. -/
def render (tokens : List Token) : String :=
  let kinds := (tokens.map Token.kind).filter (· ≠ .endOfInput)
  " ".intercalate (kinds.map Kind.spelling)

end Token

end SubsetC
