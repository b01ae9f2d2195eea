import SubsetC.Text.Columns
import SubsetC.Token

/-!
# Listings of tokens

Tokens one a line, in the two forms in which they are shown to users: with their lines, and with
their places and the source texts that they were read from.
-/

namespace SubsetC.Token

/-- The token with its line. -/
def dumpLine (token : Token) : String :=
  Columns.number 4 token.line.toNat ++ "  " ++ token.kind.dump ++ "\n"

/-- The token with its place and its text in the source. -/
def row (source : String) (token : Token) : String :=
  let text := (token.span.text? source).getD ""
  Columns.left 20 token.span.describe ++ " " ++ Columns.left 20 token.kind.describe ++ " " ++
    Quoted.string text ++ "\n"

/-- The tokens with their lines. -/
def dump (tokens : List Token) : String :=
  String.join (tokens.map dumpLine)

/-- The tokens with their places and texts, and then all of them rendered. -/
def listing (source : String) (tokens : List Token) : String :=
  String.join (tokens.map (row source)) ++ "\n" ++ render tokens ++ "\n"

end SubsetC.Token
