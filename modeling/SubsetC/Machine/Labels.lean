import SubsetC.Code
import SubsetC.Machine.Fault
import SubsetC.Table

/-!
# Label tables

Before a program is run, the places of its labels are entered in a table. A program in which a label
is defined twice, or in which a jump leads nowhere, has no table; of two such faults, a label that
is defined twice counts first.
-/

namespace SubsetC

/-- The places of a program's labels. -/
structure LabelTable where
  places : Table Nat
  deriving DecidableEq, Repr, Inhabited

namespace LabelTable

/-- Enters the labels of instructions, the first of which stands at `index`. -/
def define (places : Table Nat) : (index : Nat) → List Instruction → Except Fault (Table Nat)
  | _, [] => .ok places
  | index, instruction :: rest =>
    match instruction.label? with
    | none => define places (index + 1) rest
    | some label =>
      match places.get? label with
      | some first => .error (.duplicateLabel label first index)
      | none => define (places.set label index) (index + 1) rest

/-- The first jump to a label without a place, among instructions of which the first stands at
`index`. -/
def undefined? (places : Table Nat) : (index : Nat) → List Instruction → Option Fault
  | _, [] => none
  | index, instruction :: rest =>
    match instruction.jumpTarget? with
    | none => undefined? places (index + 1) rest
    | some label =>
      if places.contains label then undefined? places (index + 1) rest
      else some (.undefinedLabel label index)

/-- The label table of a program. -/
def ofProgram (program : Program) : Except Fault LabelTable :=
  let instructions := program.instructions.toList
  match define .empty 0 instructions with
  | .error fault => .error fault
  | .ok places =>
    match undefined? places 0 instructions with
    | some fault => .error fault
    | none => .ok ⟨places⟩

/-- The place of a label. -/
def place? (table : LabelTable) (label : String) : Option Nat :=
  table.places.get? label

/-- The number of labels. -/
def size (table : LabelTable) : Nat :=
  table.places.size

/-- There are no labels. -/
def isEmpty (table : LabelTable) : Bool :=
  table.places.isEmpty

end LabelTable

end SubsetC
