/-!
# Outlines

An outline is a tree of named parts. It is written with one part a line, four columns further in
than what it belongs to and with a comma behind it; what has no parts takes no lines of its own.
-/

namespace SubsetC

/-- A value to be shown as named parts. -/
inductive Outline where
  /-- A text that is shown as it is. -/
  | leaf (text : String)
  /-- A name with its fields in braces. -/
  | record (name : String) (fields : List (String × Outline))
  /-- A name with one part in parentheses. -/
  | wrapped (name : String) (part : Outline)
  /-- Parts in brackets. -/
  | sequence (parts : List Outline)
  deriving Inhabited, Repr

namespace Outline

/-- A part that may be absent. -/
def ofOption : Option Outline → Outline
  | none => leaf "None"
  | some part => wrapped "Some" part

/-- The text of a number. -/
def ofNat (n : Nat) : Outline :=
  leaf (String.ofList (Nat.toDigits 10 n))

/-- The start of a line that lies `depth` levels in. -/
def indent (depth : Nat) : String :=
  String.ofList (List.replicate (4 * depth) ' ')

mutual

/-- The outline as text, for a place that lies `depth` levels in. -/
def renderAt (depth : Nat) : Outline → String
  | leaf text => text
  | record name fields =>
      name ++ " \x7b\n" ++ renderFields (depth + 1) fields ++ indent depth ++ "\x7d"
  | wrapped name part =>
      name ++ "(\n" ++ indent (depth + 1) ++ part.renderAt (depth + 1) ++ ",\n" ++
        indent depth ++ ")"
  | sequence [] => "[]"
  | sequence (part :: parts) =>
      "[\n" ++ renderParts (depth + 1) (part :: parts) ++ indent depth ++ "]"

/-- Fields, each on lines of its own. -/
def renderFields (depth : Nat) : List (String × Outline) → String
  | [] => ""
  | (name, part) :: fields =>
      indent depth ++ name ++ ": " ++ part.renderAt depth ++ ",\n" ++ renderFields depth fields

/-- Parts, each on lines of its own. -/
def renderParts (depth : Nat) : List Outline → String
  | [] => ""
  | part :: parts =>
      indent depth ++ part.renderAt depth ++ ",\n" ++ renderParts depth parts

end

/-- The outline as text. -/
def render (outline : Outline) : String :=
  outline.renderAt 0

end Outline

end SubsetC
