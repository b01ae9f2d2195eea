import SubsetC.Text.Blank
import SubsetC.Text.Decimal
import SubsetC.Tree

/-!
# Values

The values that a program computes with. Variables have no type of their own: every value says what
it is, and every operator takes values of all kinds. `BinaryOp.apply` has no result exactly for a
division by something that counts as zero.
-/

namespace SubsetC

/-- A value of a variable. -/
inductive Value where
  | int (value : Int64)
  | char (value : Char)
  | str (value : String)
  deriving DecidableEq, Repr, Inhabited

namespace Value

/-- What a name without a value reads as. -/
def default : Value := int 0

/-- Zero, NUL and the empty string are false. -/
def isTruthy : Value → Bool
  | int value => value != 0
  | char value => value != '\x00'
  | str value => value != ""

/-- The number that arithmetic sees: of a character its code point, and of a string that is no
numeral zero. -/
def toInt64 : Value → Int64
  | int value => value
  | char value => Int64.ofNat value.toNat
  | str value => (Decimal.int64? (Blank.trim value.toList)).getD 0

/-- One for true, and zero for false. -/
def ofBool (truth : Bool) : Value :=
  int (if truth then 1 else 0)

/-- The value as text. -/
def text : Value → String
  | int value => Decimal.ofInt64 value
  | char value => String.singleton value
  | str value => value

/-- The value of a literal. -/
def ofLiteral : Literal → Value
  | .int value => int value
  | .char value => char value

end Value

namespace BinaryOp

/-- Whether a comparison holds between things in this order. -/
def holds (op : BinaryOp) (order : Ordering) : Bool :=
  match op with
  | eq => order == .eq
  | ne => order != .eq
  | lt => order == .lt
  | le => order != .gt
  | gt => order == .gt
  | ge => order != .lt
  | add | sub | mul | div | and | or => false

/-- The result of an operator; none for a division by zero. Two strings are compared as texts;
everything else goes by the operands' numbers, and arithmetic wraps around at 64 bits. -/
def apply (op : BinaryOp) (left right : Value) : Option Value :=
  let a := left.toInt64
  let b := right.toInt64
  match op with
  | add => some (.int (a + b))
  | sub => some (.int (a - b))
  | mul => some (.int (a * b))
  | div => if b = 0 then none else some (.int (a / b))
  | and => some (.ofBool (left.isTruthy && right.isTruthy))
  | or => some (.ofBool (left.isTruthy || right.isTruthy))
  | comparison =>
    match left, right with
    | .str left, .str right => some (.ofBool (comparison.holds (compare left right)))
    | _, _ => some (.ofBool (comparison.holds (compare a b)))

theorem apply_eq_none_iff (op : BinaryOp) (left right : Value) :
    op.apply left right = none ↔ op = .div ∧ right.toInt64 = 0 := by
  cases op <;> cases left <;> cases right <;> simp [apply]

end BinaryOp

end SubsetC
