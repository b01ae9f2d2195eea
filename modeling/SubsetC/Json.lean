import SubsetC.Text.Decimal

/-!
# JSON

JSON values and their two written forms: `Json.compact` on one line, and `Json.pretty` with one item
a line and two columns for each level.
-/

namespace SubsetC

/-- A JSON value. The fields of an object keep their order, and a name may come twice. -/
inductive Json where
  | null
  | bool (value : Bool)
  | integer (value : Int)
  /-- A number that is not written as an integer: its numeral. -/
  | real (numeral : String)
  | string (text : String)
  | array (items : List Json)
  | object (fields : List (String × Json))
  deriving Repr, Inhabited

namespace Json

/-- A character of a string literal. -/
def escape (c : Char) : List Char :=
  if c = '"' ∨ c = '\\' then ['\\', c]
  else if c = '\x08' then ['\\', 'b']
  else if c = '\x0c' then ['\\', 'f']
  else if c = '\n' then ['\\', 'n']
  else if c = '\r' then ['\\', 'r']
  else if c = '\t' then ['\\', 't']
  else if c.toNat < 0x20 then
    ['\\', 'u', '0', '0', Nat.digitChar (c.toNat / 16), Nat.digitChar (c.toNat % 16)]
  else [c]

/-- A string literal. -/
def quote (text : String) : String :=
  String.ofList ('"' :: text.toList.flatMap escape ++ ['"'])

/-- The text of a value that has no parts. -/
def atom : Json → String
  | null => "null"
  | bool true => "true"
  | bool false => "false"
  | integer value => String.ofList (Decimal.ofInt value)
  | real numeral => numeral
  | string text => quote text
  | array _ => "[]"
  | object _ => "\x7b\x7d"

mutual

/-- The value on one line, without spaces. -/
def compact : Json → String
  | array items => "[" ++ compactItems items ++ "]"
  | object fields => "\x7b" ++ compactFields fields ++ "\x7d"
  | value => value.atom

/-- Items with commas between them. -/
def compactItems : List Json → String
  | [] => ""
  | [item] => item.compact
  | item :: items => item.compact ++ "," ++ compactItems items

/-- Fields with commas between them. -/
def compactFields : List (String × Json) → String
  | [] => ""
  | [(name, value)] => quote name ++ ":" ++ value.compact
  | (name, value) :: fields => quote name ++ ":" ++ value.compact ++ "," ++ compactFields fields

end

/-- A new line that lies `depth` levels in. -/
def newLine (depth : Nat) : String :=
  String.ofList ('\n' :: List.replicate (2 * depth) ' ')

mutual

/-- The value with one item a line, for a place that lies `depth` levels in. -/
def prettyAt (depth : Nat) : Json → String
  | array (item :: items) =>
      "[" ++ prettyItems (depth + 1) (item :: items) ++ newLine depth ++ "]"
  | object (field :: fields) =>
      "\x7b" ++ prettyFields (depth + 1) (field :: fields) ++ newLine depth ++ "\x7d"
  | value => value.atom

/-- Items, each on a line of its own. -/
def prettyItems (depth : Nat) : List Json → String
  | [] => ""
  | [item] => newLine depth ++ item.prettyAt depth
  | item :: items => newLine depth ++ item.prettyAt depth ++ "," ++ prettyItems depth items

/-- Fields, each on a line of its own. -/
def prettyFields (depth : Nat) : List (String × Json) → String
  | [] => ""
  | [(name, value)] => newLine depth ++ quote name ++ ": " ++ value.prettyAt depth
  | (name, value) :: fields =>
      newLine depth ++ quote name ++ ": " ++ value.prettyAt depth ++ "," ++
        prettyFields depth fields

end

/-- The value with one item a line. -/
def pretty (value : Json) : String :=
  value.prettyAt 0

end Json

end SubsetC
