import SubsetC.Text.Decimal

/-!
# Faults

What keeps a program from being run, or from being run on.
-/

namespace SubsetC

/-- Why a machine does not take up or go on with a program. -/
inductive Fault where
  /-- A label that two instructions define. -/
  | duplicateLabel (label : String) (first second : Nat)
  /-- A jump to a label that no instruction defines. -/
  | undefinedLabel (label : String) (index : Nat)
  /-- A division by zero, where that is not made good. -/
  | divisionByZero (index : Nat)
  /-- More instructions than allowed. -/
  | stepLimitExceeded (limit : UInt64)
  deriving DecidableEq, Repr, Inhabited

/-- The fault in words. -/
def Fault.message : Fault → String
  | duplicateLabel label first second =>
      s!"label '{label}' is defined at instructions {first} and {second}"
  | undefinedLabel label index => s!"instruction {index} jumps to undefined label '{label}'"
  | divisionByZero index => s!"division by zero at instruction {index}"
  | stepLimitExceeded limit => s!"step limit of {limit.toNat} instructions exceeded"

end SubsetC
