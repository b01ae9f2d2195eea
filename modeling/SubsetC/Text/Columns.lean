/-!
# Columns

Texts filled up with spaces to the width of a column. A text that is wider than its column stands as
it is.
-/

namespace SubsetC.Columns

/-- The spaces that a text lacks in a column of a given width. -/
def gap (width : Nat) (text : String) : String :=
  String.ofList (List.replicate (width - text.length) ' ')

/-- The text at the left edge of its column. -/
def left (width : Nat) (text : String) : String :=
  text ++ gap width text

/-- The text at the right edge of its column. -/
def right (width : Nat) (text : String) : String :=
  gap width text ++ text

/-- A natural number at the right edge of its column. -/
def number (width : Nat) (n : Nat) : String :=
  right width (String.ofList (Nat.toDigits 10 n))

end SubsetC.Columns
