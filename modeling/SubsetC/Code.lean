import SubsetC.Format
import SubsetC.Text.Columns
import SubsetC.Text.Quoted
import SubsetC.Value

/-!
# Three-address code

A program is a flat sequence of instructions with at most one operator each. Control flow is labels
and jumps to them, and nothing is nested.
-/

namespace SubsetC

/-- What an instruction works on: a value, or the name of a variable or a temporary. -/
inductive Operand where
  | literal (value : Value)
  | name (name : String)
  deriving DecidableEq, Repr, Inhabited

/-- The operand as shown in a listing. -/
def Operand.text : Operand → String
  | literal (.int value) => Decimal.ofInt64 value
  | literal (.char value) => Quoted.char value
  | literal (.str value) => Quoted.string value
  | name source => source

/-- An instruction. -/
inductive Instruction where
  /-- Stores an operand. -/
  | assign (target : String) (source : Operand)
  /-- Stores the result of an operator. -/
  | binary (target : String) (op : BinaryOp) (left right : Operand)
  /-- Jumps if the condition is false. -/
  | jumpUnless (condition : Operand) (label : String)
  /-- Jumps. -/
  | jump (label : String)
  /-- Does nothing; jumps to the label lead here. -/
  | label (name : String)
  /-- Prints a text. -/
  | printText (text : String)
  /-- Prints a variable. -/
  | print (conversion : Conversion) (source : String)
  /-- Reads a variable. -/
  | scan (conversion : Conversion) (target : String)
  deriving DecidableEq, Repr, Inhabited

namespace Instruction

/-- The label that the instruction may jump to. -/
def jumpTarget? : Instruction → Option String
  | jumpUnless _ target | jump target => some target
  | _ => none

/-- The label that the instruction defines. -/
def label? : Instruction → Option String
  | label name => some name
  | _ => none

/-- The instruction as shown in a listing. -/
def text : Instruction → String
  | assign target source => s!"{target} = {source.text}"
  | binary target op left right => s!"{target} = {left.text} {op.spelling} {right.text}"
  | jumpUnless condition target => s!"ifFalse {condition.text} goto {target}"
  | jump target => s!"goto {target}"
  | label name => s!"{name}:"
  | printText text => s!"print {Quoted.string text}"
  | print conversion source => s!"print {conversion.specifier} {source}"
  | scan conversion target => s!"scan {conversion.specifier} {target}"

end Instruction

/-- A sequence of instructions. -/
structure Program where
  instructions : Array Instruction
  deriving DecidableEq, Repr, Inhabited

namespace Program

/-- The program without instructions. -/
def empty : Program := ⟨#[]⟩

/-- The number of instructions. -/
def size (program : Program) : Nat :=
  program.instructions.size

/-- The program with one more instruction at its end. -/
def push (program : Program) (instruction : Instruction) : Program :=
  ⟨program.instructions.push instruction⟩

/-- The place of the first definition of a label. -/
def labelIndex? (program : Program) (name : String) : Option Nat :=
  program.instructions.findIdx? fun instruction => instruction.label? == some name

/-- A line of a listing: the instruction's place, and its text. Labels stand further left. -/
def listingLine (index : Nat) (instruction : Instruction) : String :=
  let gap := if instruction.label?.isSome then "  " else "      "
  Columns.number 4 index ++ gap ++ instruction.text ++ "\n"

/-- The program, one instruction a line. -/
def listing (program : Program) : String :=
  String.join <| (program.instructions.mapIdx listingLine).toList

end Program

end SubsetC
